/-
# NetFT.Library.Epoch — a numbered source that starts again, behind a queue.

A source numbers what it emits 1, 2, …, and every restart begins a new epoch, at 1 again.  What it emits
for a receiver waits in a queue that keeps the order.

* `Tag.Follows`: what can come next from such a source.
* `Ordered`: what was taken last, what waits, and what the source would emit next follow one another.
  It is kept by emitting and taking (`Ordered.emit`, `Ordered.take`), by a restart, and when the source
  turns to another receiver (`Ordered.restart`, `Ordered.leave`).
-/
import Mathlib.Data.List.Chain
import Mathlib.Data.Nat.Notation

namespace NetFT.Library.Epoch

set_option autoImplicit false

/-- The number of an element, and the restart it comes after. -/
structure Tag (α : Type) where
  epoch : ℕ
  number : α
  deriving DecidableEq, Repr

variable {α : Type} [One α] [Add α]

/-- The first of an epoch. -/
def Tag.first (epoch : ℕ) : Tag α := ⟨epoch, 1⟩

def Tag.next (a : Tag α) : Tag α := ⟨a.epoch, a.number + 1⟩

/-- The next of the same epoch, or the first of a later one. -/
def Tag.Follows (a b : Tag α) : Prop := b = a.next ∨ a.epoch < b.epoch ∧ b = .first b.epoch

/-- What was taken last, what waits, and, if the source emits for this receiver, what it emits next. -/
structure Ordered (taken : Option (Tag α)) (queue : List (Tag α)) (upcoming : Option (Tag α))
    (epoch : ℕ) : Prop where
  chain : ((taken.toList ++ queue) ++ upcoming.toList).IsChain Tag.Follows
  le : ∀ a ∈ taken.toList ++ queue, a.epoch ≤ epoch

namespace Ordered

variable {taken upcoming : Option (Tag α)} {queue : List (Tag α)} {epoch epoch' : ℕ} {a b : Tag α}

/-- A new receiver, for which nothing was emitted. -/
theorem empty : Ordered (none : Option (Tag α)) [] none epoch :=
  ⟨.nil, fun a ha => by cases ha⟩

/-- The source emits for the receiver. -/
theorem emit (h : Ordered taken queue (some a) epoch) (ha : a.epoch = epoch) :
    Ordered taken (queue ++ [a]) (some a.next) epoch := by
  constructor
  · rw [← List.append_assoc]
    refine h.chain.append (.singleton _) fun b hb c hc => ?_
    obtain rfl : a = b := by simpa using hb
    obtain rfl : a.next = c := by simpa using hc
    exact .inl rfl
  · intro b hb
    rw [← List.append_assoc, List.mem_append, List.mem_singleton] at hb
    rcases hb with hb | rfl
    · exact h.le b hb
    · exact ha.le

/-- The receiver takes the oldest element. -/
theorem take (h : Ordered taken (a :: queue) upcoming epoch) : Ordered (some a) queue upcoming epoch := by
  constructor
  · have hchain := h.chain
    rw [List.append_assoc] at hchain
    exact hchain.right_of_append
  · exact fun b hb => h.le b (List.mem_append_right _ hb)

/-- It follows what was taken before. -/
theorem follows (h : Ordered (some b) (a :: queue) upcoming epoch) : b.Follows a :=
  h.chain.rel_head? rfl

/-- The source begins a new epoch, for this receiver. -/
theorem restart (h : Ordered taken queue upcoming epoch) (hlt : epoch < epoch') :
    Ordered taken queue (some (.first epoch')) epoch' := by
  constructor
  · refine h.chain.left_of_append.append (.singleton _) fun b hb c hc => ?_
    obtain rfl : Tag.first epoch' = c := by simpa using hc
    exact .inr ⟨(h.le b (List.mem_of_mem_getLast? hb)).trans_lt hlt, rfl⟩
  · exact fun b hb => (h.le b hb).trans hlt.le

/-- The source begins a new epoch for another receiver. -/
theorem leave (h : Ordered taken queue upcoming epoch) (hlt : epoch < epoch') :
    Ordered taken queue none epoch' := by
  constructor
  · rw [Option.toList_none, List.append_nil]
    exact h.chain.left_of_append
  · exact fun b hb => (h.le b hb).trans hlt.le

end Ordered

end NetFT.Library.Epoch
