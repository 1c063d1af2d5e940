import OfxPrimes.Transition.Run
import OfxPrimes.Osc.Message
import OfxPrimes.Tuio.Client
import OfxPrimes.Tuio.Fingers
import OfxPrimes.Tuio.Bundle
import OfxPrimes.Tuio.Objects
import OfxPrimes.Pool.Dense
import OfxPrimes.Tuio.Frames
import OfxPrimes.Bytes.Memory
import OfxPrimes.Framing.Delimited
import OfxPrimes.WebSocket.Handler
import OfxPrimes.WebSocket.Framing
import OfxPrimes.Bytes.Word
import OfxPrimes.Osc.Outbound
import OfxPrimes.Osc.Encoding
import OfxPrimes.Osc.Sender
import OfxPrimes.Osc.Grammar
import OfxPrimes.Osc.Received
import OfxPrimes.Osc.Decoding
import OfxPrimes.Osc.Acceptance
import OfxPrimes.Bytes.Block
import OfxPrimes.Osc.RoundTrip
import OfxPrimes.Osc.Receiver
import OfxPrimes.Search.Comparison
import OfxPrimes.Search.Tree
import OfxPrimes.Dtouch.BinaryTree
import OfxPrimes.Dtouch.SequenceFileStore
import OfxPrimes.Pool.Keyed
import OfxPrimes.Fiducial.OfxFiducial
import OfxPrimes.Fiducial.Tracker
import OfxPrimes.Fiducial.Survival
import OfxPrimes.Fiducial.Placement
import OfxPrimes.Transition.Interval
import OfxPrimes.Physics.Engine
import OfxPrimes.Physics.Rays
import OfxPrimes.Physics.Intervals
import OfxPrimes.Physics.System
import OfxPrimes.Physics.Reports
import OfxPrimes.Gui.GuiGraph
import OfxPrimes.Gui.Segments
import OfxPrimes.Fiducial.OfxFinger
import OfxPrimes.Fiducial.Fingers
import OfxPrimes.Fiducial.FingerLives
import OfxPrimes.SimpleGui.Controls
import OfxPrimes.SimpleGui.OfxSimpleGuiToo
import OfxPrimes.SimpleGui.Settings
import OfxPrimes.SimpleGui.Restore
import OfxPrimes.SimpleGui.Listeners
import OfxPrimes.Fiducial.Exact
import OfxPrimes.Physics.NearestHit
import OfxPrimes.Physics.Obstacles
import OfxPrimes.Fiducial.Inside
import OfxPrimes.Fiducial.DeadBand
import OfxPrimes.Physics.Targets
import OfxPrimes.Osc.Copy
import OfxPrimes.Search.Substring
import OfxPrimes.WebSocket.Search
import OfxPrimes.WebSocket.Bounds
import OfxPrimes.WebSocket.Opening
import OfxPrimes.Framing.Sized
import OfxPrimes.WebSocket.Sending
import OfxPrimes.Gui.InteractiveObject
import OfxPrimes.Gui.RollOver
import OfxPrimes.Gui.GuiSet
import OfxPrimes.Gui.GuiManager
import OfxPrimes.Gui.GuiPage
import OfxPrimes.Plane.Pose
import OfxPrimes.Gui.PageCoordinates
import OfxPrimes.Fiducial.Segmenter
import OfxPrimes.Fiducial.Times
import OfxPrimes.Fiducial.Divisions
import OfxPrimes.Remote.Gesture
import OfxPrimes.Plane.Leaning
import OfxPrimes.Plane.Square
import OfxPrimes.Fiducial.Collision
import OfxPrimes.Search.FirstDifference
import OfxPrimes.Search.Wrapped
import OfxPrimes.Dtouch.WrappedCells
import OfxPrimes.Gui.MouseEvents
import OfxPrimes.SimpleGui.MomentaryButton
import OfxPrimes.SimpleGui.SliderDrag
import OfxPrimes.Gui.Draggable
import OfxPrimes.Gui.Grip
import OfxPrimes.Fidtrack.Region
import OfxPrimes.Graph.Labels
import OfxPrimes.Fidtrack.Adjacency
import OfxPrimes.Fidtrack.Merge
import OfxPrimes.Fidtrack.BuildRegions
import OfxPrimes.Fidtrack.Labelled
import OfxPrimes.Fidtrack.Charted
import OfxPrimes.Fidtrack.References
import OfxPrimes.Fidtrack.Boxes
import OfxPrimes.Fidtrack.Survey
import OfxPrimes.Fidtrack.Scan
import OfxPrimes.Fidtrack.Pixels
import OfxPrimes.Fidtrack.Lines
import OfxPrimes.Fidtrack.Segmentation
import OfxPrimes.Forest.LeftHeavy
import OfxPrimes.Fidtrack.TreeIdMap
import OfxPrimes.Fidtrack.TreeStrings
import OfxPrimes.Fidtrack.Markers
import OfxPrimes.Fidtrack.FidtrackerX
import OfxPrimes.Forest.Stripping
import OfxPrimes.Fidtrack.Climbing
import OfxPrimes.Fidtrack.Roots
import OfxPrimes.Fidtrack.DepthStrings
import OfxPrimes.Fidtrack.Descent
import OfxPrimes.Fidtrack.Writing
import OfxPrimes.Fidtrack.Recognition
import OfxPrimes.Fidtrack.RegionsX
import OfxPrimes.Physics.NearestBlocker
