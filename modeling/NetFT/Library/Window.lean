/-
# NetFT.Library.Window — a queue of times that is pruned from the front.

Times are appended in order, and those that are older than a width are dropped from the front, now with
one clock reading and now with another.  What is left answers how many times lie in the window that ends
at a reading, if no later one has been used.

* `Retains`: nothing that may still count has been dropped.
* **`Retains.length_prune`**: the count is exact.
-/
import Mathlib.Algebra.Order.Group.Defs
import Mathlib.Data.List.TakeWhile
import Mathlib.Tactic.Common

namespace NetFT.Library.Window

set_option autoImplicit false

variable {α : Type*} [AddCommGroup α] [LinearOrder α] (width : α)

/-- The queue without the entries at the front that are out of the window. -/
def prune (times : List α) (now : α) : List α := times.dropWhile fun front => width < now - front

/-- The times in the window that ends now. -/
def within (times : List α) (now : α) : List α := times.filter fun time => now - time ≤ width

/-- The queue is what is left of all times, and the dropped ones are out of the window. -/
structure Retains (all times : List α) (clock : α) : Prop where
  sorted : all.Pairwise (· ≤ ·)
  dropped : ∃ dropped, all = dropped ++ times ∧ ∀ time ∈ dropped, width < clock - time

variable {width} {all times : List α} {clock clock' now time : α}

theorem Retains.nil : Retains width [] [] clock := ⟨.nil, [], rfl, by simp⟩

theorem Retains.sorted_times (h : Retains width all times clock) : times.Pairwise (· ≤ ·) := by
  obtain ⟨dropped, rfl, -⟩ := h.dropped
  exact (List.pairwise_append.mp h.sorted).2.1

theorem Retains.push (h : Retains width all times clock) (hlast : ∀ t ∈ all, t ≤ time) :
    Retains width (all ++ [time]) (times ++ [time]) clock := by
  obtain ⟨dropped, rfl, hold⟩ := h.dropped
  refine ⟨List.pairwise_append.mpr ⟨h.sorted, List.pairwise_singleton _ _, ?_⟩, dropped, ?_, hold⟩
  · rintro t ht _ (_ | ⟨_, ⟨⟩⟩)
    exact hlast t ht
  · rw [List.append_assoc]

variable [IsOrderedAddMonoid α]

/-- The clock goes on. -/
theorem Retains.later (h : Retains width all times clock) (hclock : clock ≤ clock') :
    Retains width all times clock' := by
  obtain ⟨dropped, hall, hold⟩ := h.dropped
  exact ⟨h.sorted, dropped, hall, fun time ht => (hold time ht).trans_le (sub_le_sub_right hclock time)⟩

/-- Pruning with an earlier reading. -/
theorem Retains.prune (h : Retains width all times clock) (hnow : now ≤ clock) :
    Retains width all (prune width times now) clock := by
  obtain ⟨dropped, rfl, hold⟩ := h.dropped
  refine ⟨h.sorted, dropped ++ times.takeWhile fun front => width < now - front, ?_, fun time ht => ?_⟩
  · rw [List.append_assoc, Window.prune, List.takeWhile_append_dropWhile]
  · rcases List.mem_append.mp ht with ht | ht
    · exact hold time ht
    · have hwidth := List.mem_takeWhile_imp ht
      rw [decide_eq_true_eq] at hwidth
      exact hwidth.trans_le (sub_le_sub_right hnow time)

/-- In a sorted queue the entries out of the window are at the front. -/
theorem prune_eq_within (h : times.Pairwise (· ≤ ·)) :
    Window.prune width times now = within width times now := by
  induction times with
  | nil => rfl
  | cons time times ih =>
    obtain ⟨hfirst, hrest⟩ := List.pairwise_cons.mp h
    by_cases hwidth : width < now - time
    · have hout : ¬ now - time ≤ width := not_le.mpr hwidth
      have hdrop : Window.prune width (time :: times) now = Window.prune width times now :=
        List.dropWhile_cons_of_pos (by simpa only [decide_eq_true_eq] using hwidth)
      rw [hdrop, within, List.filter_cons_of_neg (by simpa only [decide_eq_true_eq] using hout)]
      exact ih hrest
    · have hin : ∀ t ∈ time :: times, now - t ≤ width := by
        intro t ht
        refine le_trans ?_ (not_lt.mp hwidth)
        rcases List.mem_cons.mp ht with rfl | ht
        · exact le_rfl
        · exact sub_le_sub_left (hfirst t ht) now
      rw [within, List.filter_eq_self.mpr fun t ht => decide_eq_true (hin t ht), Window.prune,
        List.dropWhile_cons_of_neg (by simpa only [decide_eq_true_eq] using hwidth)]

/-- **Nothing in the window of a later reading has been dropped.** -/
theorem Retains.within_eq (h : Retains width all times clock) (hnow : clock ≤ now) :
    within width all now = within width times now := by
  obtain ⟨dropped, rfl, hold⟩ := h.dropped
  have hnone : within width dropped now = [] := by
    refine List.filter_eq_nil_iff.mpr fun time ht => ?_
    have hout : width < now - time := (hold time ht).trans_le (sub_le_sub_right hnow time)
    rw [decide_eq_true_eq]
    exact not_le.mpr hout
  rw [within, List.filter_append]
  exact (congrArg (· ++ _) hnone).trans (List.nil_append _)

/-- **The count of a pruned queue is exact.** -/
theorem Retains.length_prune (h : Retains width all times clock) (hnow : clock ≤ now) :
    (Window.prune width times now).length = all.countP fun time => now - time ≤ width := by
  rw [prune_eq_within h.sorted_times, ← h.within_eq hnow, within, List.countP_eq_length_filter]

end NetFT.Library.Window
