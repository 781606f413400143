import Mathlib.Data.List.Sort
import Patchbay.Fields

set_option autoImplicit false

namespace Patchbay

section

variable {α : Type} [LT α]

section

variable [DecidableLT α] (items : List α)

theorem sorted_insertion : sorted items = items.insertionSort fun a b => ¬ b < a := by
  have insert (item : α) (rest : List α) : insertSorted item rest = rest.orderedInsert (fun a b => ¬ b < a) item := by
    induction rest with
    | nil => rfl
    | cons head rest ih => rw [insertSorted, List.orderedInsert, ih, ite_not]
  rw [sorted, List.insertionSort, funext₂ insert]

theorem sorted_perm : (sorted items).Perm items := by
  rw [sorted_insertion]
  exact List.perm_insertionSort _ items

variable [LE α] [Std.IsLinearOrder α] [Std.LawfulOrderLT α]

theorem sorted_ordered : (sorted items).Pairwise (· ≤ ·) := by
  have total : Std.Total fun a b : α => ¬ b < a := ⟨fun a b => by simpa only [Std.not_lt] using Std.le_total⟩
  have trans : IsTrans α fun a b => ¬ b < a := ⟨fun a b c => by simpa only [Std.not_lt] using Std.le_trans⟩
  rw [sorted_insertion]
  exact (List.pairwise_insertionSort _ items).imp Std.not_lt.mp

theorem sorted_increasing (distinct : items.Nodup) : (sorted items).Pairwise (· < ·) := by
  have apart : (sorted items).Pairwise (· ≠ ·) := (sorted_perm items).nodup_iff.mpr distinct
  exact ((sorted_ordered items).and apart).imp fun pair => Std.lt_of_le_of_ne pair.1 pair.2

end

variable [LE α] [Std.IsLinearOrder α] [Std.LawfulOrderLT α]

/-- There is one way only to put items in increasing order. -/
theorem increasing_unique {first second : List α} (ordered : first.Pairwise (· < ·)) (other : second.Pairwise (· < ·))
    (same : first.Perm second) : first = second :=
  same.eq_of_pairwise (fun _ _ _ _ below above => absurd below (Std.not_lt.mpr (Std.le_of_lt above))) ordered other

end

theorem erase_reps_from (a : Nat) (rest done : List Nat) :
    List.eraseRepsBy.loop (· == ·) a rest done = done.reverse ++ (a :: rest).eraseReps := by
  induction rest generalizing a done with
  | nil => simp [List.eraseReps, List.eraseRepsBy, List.eraseRepsBy.loop]
  | cons b rest ih =>
    simp only [List.eraseReps, List.eraseRepsBy, List.eraseRepsBy.loop] at ih ⊢
    cases a == b with
    | true => exact ih a done
    | false => simp [ih b (a :: done), ih b [a]]

theorem erase_reps_cons (a b : Nat) (rest : List Nat) :
    (a :: b :: rest).eraseReps = if a = b then (b :: rest).eraseReps else a :: (b :: rest).eraseReps := by
  have unfolded : (a :: b :: rest).eraseReps = List.eraseRepsBy.loop (· == ·) a (b :: rest) [] := rfl
  rw [unfolded, List.eraseRepsBy.loop]
  split
  · next same =>
      obtain rfl := beq_iff_eq.mp same
      rw [if_pos rfl]
      rfl
  · next differ =>
      rw [if_neg (beq_eq_false_iff_ne.mp differ), erase_reps_from]
      rfl

theorem erase_reps_mem (items : List Nat) (n : Nat) : n ∈ items.eraseReps ↔ n ∈ items := by
  induction items with
  | nil => rfl
  | cons a rest ih =>
    cases rest with
    | nil => rfl
    | cons =>
      rw [erase_reps_cons]
      split
      · next same => simp [ih, same]
      · simp [ih]

theorem erase_reps_increasing {items : List Nat} (ordered : items.Pairwise (· ≤ ·)) : items.eraseReps.Pairwise (· < ·) := by
  induction items with
  | nil => exact .nil
  | cons a rest ih =>
    obtain ⟨least, others⟩ := List.pairwise_cons.mp ordered
    cases rest with
    | nil => exact List.pairwise_singleton _ _
    | cons b rest =>
      rw [erase_reps_cons]
      split
      · exact ih others
      · next differ =>
          refine List.pairwise_cons.mpr ⟨fun n inside => ?_, ih others⟩
          have above : b ≤ n := by
            rcases List.mem_cons.mp ((erase_reps_mem _ _).mp inside) with rfl | later
            · exact Nat.le_refl _
            · exact (List.pairwise_cons.mp others).1 n later
          have below := least b List.mem_cons_self
          omega

end Patchbay
