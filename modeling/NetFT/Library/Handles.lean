/-
# NetFT.Library.Handles — handles that a program opens and closes.

A handle is a number that the system gives out again once it is closed, to anybody.  A program keeps its
handles in slots.  `Sound`: every handle that it opened and did not close stands in exactly one slot, and it
never closed one that was not its own.

* `Sound.acquire`, `Sound.release`, `Sound.move`: the three things that a step may do to a slot.
* `Sound.used`, `Sound.setOthers`: what does not matter to it.
-/
import Mathlib.Data.Finset.Card
import Mathlib.Tactic.Common

namespace NetFT.Library

set_option autoImplicit false
set_option linter.unusedSectionVars false

/-- The open handles, by who opened them, and what the program did. -/
structure Handles (η : Type) where
  ours : Finset η := ∅
  others : Finset η := ∅
  opened : ℕ := 0
  closed : ℕ := 0
  /-- Handles that the program closed or used without having them open. -/
  strayCloses : ℕ := 0
  strayUses : ℕ := 0

namespace Handles

variable {η ι : Type} [DecidableEq η]

def Free (k : Handles η) (h : η) : Prop := h ∉ k.ours ∧ h ∉ k.others

instance (k : Handles η) (h : η) : Decidable (k.Free h) := inferInstanceAs (Decidable (_ ∧ _))

def acquire (k : Handles η) (h : η) : Handles η :=
  { k with ours := insert h k.ours, opened := k.opened + 1 }

/-- The program closes a handle, whoever has it. -/
def release (k : Handles η) (h : η) : Handles η :=
  if h ∈ k.ours then { k with ours := k.ours.erase h, closed := k.closed + 1 }
  else { k with others := k.others.erase h, strayCloses := k.strayCloses + 1 }

/-- The program uses a handle, whoever has it. -/
def use (k : Handles η) (h : η) : Handles η :=
  if h ∈ k.ours then k else { k with strayUses := k.strayUses + 1 }

/-- Somebody else opens a handle, or closes one. -/
def setOthers (k : Handles η) (others : Finset η) : Handles η := { k with others }

/-! ## Slots -/

/-- The slots hold what is open, each handle once. -/
structure Sound (k : Handles η) (slots : ι → Option η) : Prop where
  owned : ∀ h, h ∈ k.ours ↔ ∃ i, slots i = some h
  exclusive : ∀ i j h, slots i = some h → slots j = some h → i = j
  apart : ∀ h, h ∈ k.ours → h ∉ k.others
  balanced : k.opened = k.closed + k.ours.card
  closes : k.strayCloses = 0

namespace Sound

variable {k : Handles η} {slots : ι → Option η} {h : η} {i j : ι}

theorem empty : ({} : Handles η).Sound fun _ : ι => none where
  owned _ := by simp
  exclusive _ _ _ := by simp
  apart _ := by simp
  balanced := rfl
  closes := rfl

variable [DecidableEq ι]

/-- A handle comes into an empty slot. -/
theorem acquire (hs : k.Sound slots) (hempty : slots i = none) (hfree : k.Free h) :
    (k.acquire h).Sound (Function.update slots i (some h)) where
  owned h' := by
    show h' ∈ insert h k.ours ↔ _
    rw [Finset.mem_insert, hs.owned]
    constructor
    · rintro (rfl | ⟨j, hj⟩)
      · exact ⟨i, Function.update_self ..⟩
      · refine ⟨j, ?_⟩
        have hne : j ≠ i := by
          rintro rfl
          rw [hempty] at hj
          cases hj
        rwa [Function.update_of_ne hne]
    · rintro ⟨j, hj⟩
      by_cases heq : j = i
      · subst heq
        rw [Function.update_self] at hj
        exact .inl (Option.some.inj hj).symm
      · rw [Function.update_of_ne heq] at hj
        exact .inr ⟨j, hj⟩
  exclusive j j' h' hj hj' := by
    -- No slot held the new handle before.
    have hnew : ∀ l, l ≠ i → slots l ≠ some h := fun l _ hl => hfree.1 ((hs.owned h).mpr ⟨l, hl⟩)
    by_cases heq : j = i <;> by_cases heq' : j' = i
    · rw [heq, heq']
    · subst heq
      rw [Function.update_self] at hj
      rw [Function.update_of_ne heq', ← Option.some.inj hj] at hj'
      exact absurd hj' (hnew j' heq')
    · subst heq'
      rw [Function.update_self] at hj'
      rw [Function.update_of_ne heq, ← Option.some.inj hj'] at hj
      exact absurd hj (hnew j heq)
    · rw [Function.update_of_ne heq] at hj
      rw [Function.update_of_ne heq'] at hj'
      exact hs.exclusive j j' h' hj hj'
  apart h' hmem := by
    rcases Finset.mem_insert.mp hmem with rfl | hmem
    · exact hfree.2
    · exact hs.apart h' hmem
  balanced := by
    show k.opened + 1 = k.closed + (insert h k.ours).card
    rw [Finset.card_insert_of_notMem hfree.1, hs.balanced, Nat.add_assoc]
  closes := hs.closes

/-- The handle of a slot is closed. -/
theorem release (hs : k.Sound slots) (hslot : slots i = some h) :
    (k.release h).Sound (Function.update slots i none) := by
  have hmem : h ∈ k.ours := (hs.owned h).mpr ⟨i, hslot⟩
  have hother : ∀ l h', Function.update slots i none l = some h' ↔ slots l = some h' ∧ l ≠ i := by
    intro l h'
    by_cases heq : l = i
    · subst heq
      simp
    · rw [Function.update_of_ne heq]
      exact ⟨fun hl => ⟨hl, heq⟩, And.left⟩
  rw [Handles.release, if_pos hmem]
  refine ⟨fun h' => ?_, fun j j' h' hj hj' => ?_, fun h' hmem' => ?_, ?_, hs.closes⟩
  · show h' ∈ k.ours.erase h ↔ _
    rw [Finset.mem_erase, hs.owned]
    constructor
    · rintro ⟨hne, l, hl⟩
      refine ⟨l, (hother l h').mpr ⟨hl, ?_⟩⟩
      rintro rfl
      rw [hslot] at hl
      exact hne (Option.some.inj hl).symm
    · rintro ⟨l, hl⟩
      obtain ⟨hl, hne⟩ := (hother l h').mp hl
      refine ⟨?_, l, hl⟩
      rintro rfl
      exact hne (hs.exclusive l i h' hl hslot)
  · exact hs.exclusive j j' h' ((hother j h').mp hj).1 ((hother j' h').mp hj').1
  · exact hs.apart h' (Finset.mem_of_mem_erase hmem')
  · show k.opened = k.closed + 1 + (k.ours.erase h).card
    have hcard := Finset.card_erase_add_one hmem
    rw [hs.balanced]
    omega

/-- A handle changes its slot. -/
theorem move (hs : k.Sound slots) (hempty : slots j = none) (hne : i ≠ j) :
    k.Sound (Function.update (Function.update slots i none) j (slots i)) := by
  have hslot : ∀ l h', Function.update (Function.update slots i none) j (slots i) l = some h' ↔
      slots (if l = j then i else l) = some h' ∧ l ≠ i := by
    intro l h'
    by_cases hj : l = j
    · subst hj
      rw [Function.update_self, if_pos rfl]
      exact ⟨fun hl => ⟨hl, hne.symm⟩, And.left⟩
    · rw [Function.update_of_ne hj, if_neg hj]
      by_cases hi : l = i
      · subst hi
        simp
      · rw [Function.update_of_ne hi]
        exact ⟨fun hl => ⟨hl, hi⟩, And.left⟩
  refine ⟨fun h' => ?_, fun l l' h' hl hl' => ?_, hs.apart, hs.balanced, hs.closes⟩
  · rw [hs.owned]
    constructor
    · rintro ⟨l, hl⟩
      by_cases hi : l = i
      · exact ⟨j, (hslot j h').mpr ⟨by rwa [if_pos rfl, ← hi], hne.symm⟩⟩
      · refine ⟨l, (hslot l h').mpr ⟨?_, hi⟩⟩
        have hj : l ≠ j := by
          rintro rfl
          rw [hempty] at hl
          cases hl
        rwa [if_neg hj]
    · rintro ⟨l, hl⟩
      exact ⟨_, ((hslot l h').mp hl).1⟩
  · obtain ⟨hl, hli⟩ := (hslot l h').mp hl
    obtain ⟨hl', hli'⟩ := (hslot l' h').mp hl'
    have hsame := hs.exclusive _ _ h' hl hl'
    split_ifs at hsame with h₁ h₂ h₂
    · rw [h₁, h₂]
    · exact absurd hsame.symm hli'
    · exact absurd hsame hli
    · exact hsame

/-- A handle that stands in a slot may be used. -/
theorem use (hs : k.Sound slots) (hslot : slots i = some h) : k.use h = k :=
  if_pos ((hs.owned h).mpr ⟨i, hslot⟩)

theorem used (hs : k.Sound slots) (h : η) : (k.use h).Sound slots := by
  by_cases hmem : h ∈ k.ours
  · rwa [Handles.use, if_pos hmem]
  · rw [Handles.use, if_neg hmem]
    exact ⟨hs.owned, hs.exclusive, hs.apart, hs.balanced, hs.closes⟩

/-- What others do with their own handles does not matter. -/
theorem setOthers (hs : k.Sound slots) {others : Finset η} (hapart : ∀ h, h ∈ k.ours → h ∉ others) :
    (k.setOthers others).Sound slots :=
  ⟨hs.owned, hs.exclusive, hapart, hs.balanced, hs.closes⟩

end Sound

end Handles

end NetFT.Library
