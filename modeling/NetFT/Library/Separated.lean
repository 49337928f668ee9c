/-
# NetFT.Library.Separated — entries joined by a separator.

* `append_each`: a loop that puts the separator before every entry but the first joins them.
* `joined_injective`: entries that are not empty, and free of the first character of the separator, can be
  read back.
-/
import Mathlib.Data.List.Basic

namespace NetFT.Library.Separated

set_option autoImplicit false

/-- The body of such a loop. -/
def append (separator result entry : String) : String :=
  (if result.isEmpty then result else result ++ separator) ++ entry

theorem append_of_ne {separator result : String} (h : result ≠ "") (entry : String) :
    append separator result entry = result ++ separator ++ entry := by
  rw [append, if_neg (by simpa using h)]

theorem append_each_of_ne {separator : String} {entries : List String} (h : ∀ entry ∈ entries, entry ≠ "")
    {result : String} (hresult : result ≠ "") : entries.foldl (append separator) result =
      separator.intercalate (result :: entries) := by
  induction entries generalizing result with
  | nil => simp
  | cons entry entries ih =>
    have hne : append separator result entry ≠ "" := by
      rw [append_of_ne hresult]
      simp [h entry List.mem_cons_self]
    rw [List.foldl_cons, ih (fun e he => h e (List.mem_cons_of_mem _ he)) hne, append_of_ne hresult,
      String.intercalate_cons_append, String.intercalate_cons_cons]

/-- The loop, from the empty text. -/
theorem append_each {separator : String} {entries : List String} (h : ∀ entry ∈ entries, entry ≠ "") :
    entries.foldl (append separator) "" = separator.intercalate entries := by
  cases entries with
  | nil => simp
  | cons entry entries =>
    have hfirst : append separator "" entry = entry := by simp [append]
    rw [List.foldl_cons, hfirst, append_each_of_ne (fun e he => h e (List.mem_cons_of_mem _ he))
      (h entry List.mem_cons_self)]

/-! ## Reading the entries back -/

/-- What can be an entry: it is not empty, and the separator does not begin in it. -/
def Entry {α : Type} (c : α) (entry : List α) : Prop := entry ≠ [] ∧ c ∉ entry

section

variable {α : Type} {c : α} {rest : List α} {xs ys : List (List α)}

/-- Where the separator begins first. -/
theorem append_separator_injective {x y u v : List α} (hx : c ∉ x) (hy : c ∉ y)
    (h : x ++ c :: u = y ++ c :: v) : x = y ∧ u = v := by
  rcases List.append_eq_append_iff.mp h with ⟨a, rfl, htail⟩ | ⟨a, rfl, htail⟩
  · cases a with
    | nil => simpa using htail
    | cons b a =>
      obtain rfl : c = b := (List.cons.inj htail).1
      simp at hy
  · cases a with
    | nil => simpa using htail.symm
    | cons b a =>
      obtain rfl : c = b := (List.cons.inj htail).1
      simp at hx

theorem intercalate_ne_nil {x : List α} (hx : Entry c x) : (c :: rest).intercalate (x :: xs) ≠ [] := by
  cases xs <;> simp [hx.1]

theorem intercalate_injective (hx : ∀ x ∈ xs, Entry c x) (hy : ∀ y ∈ ys, Entry c y)
    (h : (c :: rest).intercalate xs = (c :: rest).intercalate ys) : xs = ys := by
  induction xs generalizing ys with
  | nil =>
    cases ys with
    | nil => rfl
    | cons y ys => exact absurd h.symm (intercalate_ne_nil (hy y List.mem_cons_self))
  | cons x xs ih =>
    have hfirst := hx x List.mem_cons_self
    cases ys with
    | nil => exact absurd h (intercalate_ne_nil hfirst)
    | cons y ys =>
      have hother := hy y List.mem_cons_self
      cases xs with
      | nil =>
        cases ys with
        | nil => simpa using h
        | cons y' ys =>
          rw [List.intercalate_singleton, List.intercalate_cons_cons] at h
          exact absurd (by simp [h]) hfirst.2
      | cons x' xs =>
        cases ys with
        | nil =>
          rw [List.intercalate_singleton, List.intercalate_cons_cons] at h
          exact absurd (by simp [← h]) hother.2
        | cons y' ys =>
          simp only [List.intercalate_cons_cons, List.append_assoc, List.cons_append] at h
          obtain ⟨rfl, htail⟩ := append_separator_injective hfirst.2 hother.2 h
          have hrest := List.append_cancel_left htail
          rw [ih (fun e he => hx e (List.mem_cons_of_mem _ he))
            (fun e he => hy e (List.mem_cons_of_mem _ he)) hrest]

end

/-- Two joined texts are equal only if their entries are. -/
theorem joined_injective {separator : String} {c : Char} {rest : List Char}
    (hseparator : separator.toList = c :: rest) {xs ys : List String}
    (hx : ∀ x ∈ xs, Entry c x.toList) (hy : ∀ y ∈ ys, Entry c y.toList)
    (h : separator.intercalate xs = separator.intercalate ys) : xs = ys := by
  have hlists : (c :: rest).intercalate (xs.map String.toList) =
      (c :: rest).intercalate (ys.map String.toList) := by
    rw [← hseparator, ← String.toList_intercalate, ← String.toList_intercalate, h]
  have hmap := intercalate_injective (by simpa using hx) (by simpa using hy) hlists
  exact List.map_injective_iff.mpr (fun _ _ => String.toList_injective) hmap

end NetFT.Library.Separated
