/-
# NetFT.Library.Search — the first occurrence of a pattern in a list.

* `splitFirst pattern xs` cuts `xs` at the first occurrence of the pattern, as `find` does.
* `Until pattern body`: in `body ++ pattern` the pattern occurs at the end alone.
* **`splitFirst_eq_some_iff`**: the cut finds the body that the pattern ends, and what follows.
-/
import Mathlib.Data.List.DropRight

namespace NetFT.Library

set_option autoImplicit false

variable {α : Type*}

/-- The pattern ends `body ++ pattern`, and occurs nowhere else in it. -/
def Until (pattern body : List α) : Prop := ∀ u v, u ++ pattern ++ v = body ++ pattern → v = []

variable {pattern body rest xs : List α} {x : α}

theorem until_nil (pattern : List α) : Until pattern [] := fun u v h => by
  have hlength := congrArg List.length h
  simp only [List.length_append, List.length_nil] at hlength
  exact List.eq_nil_of_length_eq_zero (by omega)

/-- A body that the pattern begins is empty. -/
theorem Until.eq_nil (h : Until pattern body) (hbegins : pattern <+: body ++ pattern ++ rest) :
    body = [] := by
  obtain ⟨v, hv⟩ : pattern <+: body ++ pattern :=
    List.prefix_of_prefix_length_le hbegins (List.prefix_append _ _) (by simp)
  have hnil := h [] v (by simpa using hv)
  rw [hnil, List.append_nil] at hv
  simpa using hv.symm

theorem until_cons_iff (hnot : ¬ pattern <+: x :: (body ++ pattern)) :
    Until pattern (x :: body) ↔ Until pattern body := by
  constructor
  · exact fun h u v heq => h (x :: u) v (by simp [← heq])
  · intro h u v heq
    cases u with
    | nil => exact absurd ⟨v, by simpa using heq⟩ hnot
    | cons y u =>
      simp only [List.cons_append, List.cons.injEq] at heq
      exact h u v heq.2

/-- Of two lists that differ, neither begins what the other begins. -/
theorem not_prefix_append {other : List α} (h : ¬ pattern <+: other) (h' : ¬ other <+: pattern) :
    ¬ pattern <+: other ++ rest := by
  intro hprefix
  rcases List.prefix_or_prefix_of_prefix hprefix (List.prefix_append other rest) with hp | hp
  · exact h hp
  · exact h' hp

variable [DecidableEq α]

/-- The list before the first occurrence of the pattern, and the list after it. -/
def splitFirst (pattern : List α) : List α → Option (List α × List α)
  | [] => if pattern = [] then some ([], []) else none
  | x :: xs =>
    if pattern <+: x :: xs then some ([], (x :: xs).drop pattern.length)
    else (splitFirst pattern xs).map fun (body, rest) => (x :: body, rest)

/-- **The cut at the first occurrence.** -/
theorem splitFirst_eq_some_iff (hpattern : pattern ≠ []) :
    splitFirst pattern xs = some (body, rest) ↔ xs = body ++ pattern ++ rest ∧ Until pattern body := by
  induction xs generalizing body with
  | nil =>
    rw [splitFirst, if_neg hpattern]
    refine ⟨fun h => (by cases h), fun h => absurd h.1.symm ?_⟩
    simp [hpattern]
  | cons x xs ih =>
    rw [splitFirst]
    split_ifs with hprefix
    · obtain ⟨tail, htail⟩ := hprefix
      rw [← htail, List.drop_left, Option.some.injEq, Prod.mk.injEq]
      constructor
      · rintro ⟨rfl, rfl⟩
        exact ⟨rfl, until_nil pattern⟩
      · rintro ⟨heq, huntil⟩
        have hbegins : pattern <+: body ++ pattern ++ rest := heq ▸ List.prefix_append _ _
        obtain rfl := huntil.eq_nil hbegins
        exact ⟨rfl, by simpa using heq⟩
    · rw [Option.map_eq_some_iff]
      constructor
      · rintro ⟨⟨body', rest'⟩, hsplit, heq⟩
        obtain ⟨rfl, rfl⟩ := Prod.mk.inj heq
        obtain ⟨rfl, huntil⟩ := ih.mp hsplit
        refine ⟨rfl, (until_cons_iff fun hmore => hprefix ?_).mpr huntil⟩
        exact hmore.trans ⟨rest', rfl⟩
      · rintro ⟨heq, huntil⟩
        cases body with
        | nil => exact absurd ⟨rest, by simpa using heq.symm⟩ hprefix
        | cons y body =>
          simp only [List.cons_append, List.cons.injEq] at heq
          obtain ⟨rfl, rfl⟩ := heq
          have huntil' := (until_cons_iff fun hmore => hprefix (hmore.trans ⟨rest, rfl⟩)).mp huntil
          exact ⟨(body, rest), ih.mpr ⟨rfl, huntil'⟩, rfl⟩

/-- What follows is shorter. -/
theorem splitFirst_length (hpattern : pattern ≠ []) (h : splitFirst pattern xs = some (body, rest)) :
    rest.length < xs.length := by
  have hpos := List.length_pos_of_ne_nil hpattern
  rw [((splitFirst_eq_some_iff hpattern).mp h).1]
  simp only [List.length_append]
  omega

end NetFT.Library
