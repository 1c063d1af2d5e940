import Mathlib.Data.List.Basic

/-!
# First-in first-out channels

The history of a channel: what went in, what came out and what is still
inside.  Nothing is lost, duplicated or reordered when what went in is what
came out followed by what is inside.
-/

namespace OfxPrimes.Transition

universe u

/-- A channel with its history. -/
structure Channel (α : Type u) where
  arrived : List α := []
  delivered : List α := []
  waiting : List α := []

namespace Channel

variable {α : Type u}

/-- Items go in at the back. -/
def arrive (channel : Channel α) (items : List α) : Channel α where
  arrived := channel.arrived ++ items
  delivered := channel.delivered
  waiting := channel.waiting ++ items

/-- The front item comes out, if there is one. -/
def deliver (channel : Channel α) : Channel α where
  arrived := channel.arrived
  delivered := channel.delivered ++ channel.waiting.head?.toList
  waiting := channel.waiting.tail

/-- What went in is what came out followed by what is inside. -/
def Conserved (channel : Channel α) : Prop :=
  channel.arrived = channel.delivered ++ channel.waiting

theorem Conserved.arrive {channel : Channel α} (conserved : channel.Conserved) (items : List α) :
    (channel.arrive items).Conserved := by
  have before : channel.arrived = channel.delivered ++ channel.waiting := conserved
  rw [Conserved, Channel.arrive, before, List.append_assoc]

theorem Conserved.deliver {channel : Channel α} (conserved : channel.Conserved) :
    channel.deliver.Conserved := by
  have before : channel.arrived = channel.delivered ++ channel.waiting := conserved
  rw [Conserved, Channel.deliver, before, List.append_assoc]
  cases channel.waiting <;> rfl

/-- The `k`-th item that comes out is the `k`-th that went in. -/
theorem Conserved.delivered_prefix {channel : Channel α} (conserved : channel.Conserved) :
    channel.delivered <+: channel.arrived :=
  ⟨channel.waiting, conserved.symm⟩

theorem Conserved.length_arrived {channel : Channel α} (conserved : channel.Conserved) :
    channel.arrived.length = channel.delivered.length + channel.waiting.length := by
  rw [← List.length_append, ← conserved]

end Channel

end OfxPrimes.Transition
