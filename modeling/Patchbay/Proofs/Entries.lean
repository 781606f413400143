import Mathlib.Data.List.Basic
import Mathlib.Data.List.Nodup
import Patchbay.Fields

set_option autoImplicit false

namespace Patchbay

namespace Fields

variable {α : Type}

theorem find_insert (name other : String) (value : α) (fields : Fields α) :
    find? name (insert other value fields) = if other = name then some value else find? name fields := by
  induction fields with
  | nil => rfl
  | cons entry rest ih =>
    rw [insert]
    split
    · rename_i same
      subst same
      by_cases named : entry.1 = name
      · rw [find?, if_pos named, if_pos named]
      · rw [find?, find?, if_neg named, if_neg named, if_neg named]
    · rename_i differ
      split
      · rw [find?]
      · rw [find?, find?, ih]
        by_cases named : entry.1 = name
        · rw [if_pos named, if_pos named, if_neg (fun same => differ (same.trans named.symm))]
        · rw [if_neg named, if_neg named]

variable (name : String) (value : α) (fields : Fields α)

theorem find_none : find? name fields = none ↔ name ∉ fields.map (·.1) := by
  induction fields with
  | nil => simp [find?]
  | cons entry rest ih =>
    rw [find?, List.map_cons, List.mem_cons, not_or, ← ih]
    by_cases named : entry.1 = name
    · simp [named]
    · rw [if_neg named]
      exact ⟨fun missing => ⟨Ne.symm named, missing⟩, And.right⟩

theorem mem_of_find (found : find? name fields = some value) :
    (name, value) ∈ fields := by
  induction fields with
  | nil => cases found
  | cons entry rest ih =>
    rw [find?] at found
    split at found
    · next named =>
        cases found
        exact List.mem_cons.mpr (.inl (Prod.ext named.symm rfl))
    · exact List.mem_cons_of_mem entry (ih found)

theorem find_mem (distinct : (fields.map (·.1)).Nodup)
    (inside : (name, value) ∈ fields) : find? name fields = some value := by
  induction fields with
  | nil => cases inside
  | cons entry rest ih =>
    obtain ⟨first, others⟩ := List.nodup_cons.mp distinct
    rw [find?]
    rcases List.mem_cons.mp inside with rfl | inside
    · exact if_pos rfl
    · rw [if_neg, ih others inside]
      rintro rfl
      exact first (List.mem_map.mpr ⟨_, inside, rfl⟩)

theorem insert_perm (fresh : name ∉ fields.map (·.1)) :
    (insert name value fields).Perm ((name, value) :: fields) := by
  induction fields with
  | nil => exact .refl _
  | cons entry rest ih =>
    rw [List.map_cons, List.mem_cons, not_or] at fresh
    rw [insert, if_neg fresh.1]
    split
    · exact .refl _
    · exact (List.Perm.cons entry (ih fresh.2)).trans (.swap _ _ _)

end Fields

end Patchbay
