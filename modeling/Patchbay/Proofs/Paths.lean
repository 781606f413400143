import Mathlib.Data.List.Basic
import Patchbay.Project.Load

set_option autoImplicit false

namespace Patchbay

namespace Text

variable (piece : List Char)

theorem split_step (c : Char) (rest : List Char) :
    splitFrom ['/'] piece 0 (c :: rest) =
      if c = '/' then piece.reverse :: splitFrom ['/'] [] 0 rest else splitFrom ['/'] (c :: piece) 0 rest := by
  have starts : ['/'].isPrefixOf (c :: rest) = true ↔ c = '/' := by
    rw [List.isPrefixOf_cons_cons, List.isPrefixOf_nil_left, Bool.and_true, beq_iff_eq, eq_comm]
  rw [splitFrom]
  simp only [starts]
  rfl

theorem split_slash (piece a b : List Char) :
    splitFrom ['/'] piece 0 (a ++ '/' :: b) = splitFrom ['/'] piece 0 a ++ splitFrom ['/'] [] 0 b := by
  induction a generalizing piece with
  | nil =>
    rw [List.nil_append, split_step, if_pos rfl]
    rfl
  | cons c rest ih =>
    rw [List.cons_append, split_step, split_step]
    split
    · rw [ih, List.cons_append]
    · rw [ih]

theorem split_whole {cs : List Char} (whole : '/' ∉ cs) :
    splitFrom ['/'] piece 0 cs = [piece.reverse ++ cs] := by
  induction cs generalizing piece with
  | nil => rw [splitFrom, List.append_nil]
  | cons c rest ih =>
    rw [List.mem_cons, not_or] at whole
    rw [split_step, if_neg (Ne.symm whole.1), ih (c :: piece) whole.2, List.reverse_cons, List.append_assoc,
      List.singleton_append]

theorem split_pieces {cs : List Char} (whole : '/' ∉ piece) :
    ∀ part ∈ splitFrom ['/'] piece 0 cs, '/' ∉ part := by
  induction cs generalizing piece with
  | nil => simpa [splitFrom] using whole
  | cons c rest ih =>
    rw [split_step]
    split
    · exact List.forall_mem_cons.mpr ⟨by simpa using whole, ih [] List.not_mem_nil⟩
    · next other =>
        refine ih (c :: piece) ?_
        rw [List.mem_cons, not_or]
        exact ⟨Ne.symm other, whole⟩

theorem split_end (piece cs : List Char) : ∃ front last, ∀ tail, '/' ∉ tail →
    splitFrom ['/'] piece 0 (cs ++ tail) = front ++ [last ++ tail] := by
  induction cs generalizing piece with
  | nil => exact ⟨[], piece.reverse, fun tail whole => split_whole piece whole⟩
  | cons c rest ih =>
    by_cases slash : c = '/'
    · obtain ⟨front, last, ends⟩ := ih []
      refine ⟨piece.reverse :: front, last, fun tail whole => ?_⟩
      rw [List.cons_append, split_step, if_pos slash, ends tail whole, List.cons_append]
    · obtain ⟨front, last, ends⟩ := ih (c :: piece)
      refine ⟨front, last, fun tail whole => ?_⟩
      rw [List.cons_append, split_step, if_neg slash, ends tail whole]

end Text

namespace Path

/-- What something in a directory can be called. -/
structure IsName (name : String) : Prop where
  whole : '/' ∉ name.toList
  filled : name ≠ ""
  notHere : name ≠ "."
  notAbove : name ≠ ".."

instance (name : String) : Decidable (IsName name) :=
  decidable_of_iff (_ ∧ _ ∧ _ ∧ _) ⟨fun ⟨whole, filled, here, above⟩ => ⟨whole, filled, here, above⟩,
    fun ⟨whole, filled, here, above⟩ => ⟨whole, filled, here, above⟩⟩

theorem parts_slash (a b : String) : parts (a ++ "/" ++ b) = parts a ++ parts b := by
  have chars : (a ++ "/" ++ b).toList = a.toList ++ '/' :: b.toList := by simp
  rw [parts, parts, parts, chars, ← List.map_append]
  exact congrArg (List.map String.ofList) (Text.split_slash [] a.toList b.toList)

theorem parts_whole {name : String} (whole : '/' ∉ name.toList) : parts name = [name] := by
  have split : Text.split ['/'] name.toList = [name.toList] := Text.split_whole [] whole
  rw [parts, split, List.map_singleton, String.ofList_toList]

variable (path : String)

theorem parts_pieces : ∀ part ∈ parts path, '/' ∉ part.toList := by
  intro part inside
  obtain ⟨piece, there, rfl⟩ := List.mem_map.mp inside
  rw [String.toList_ofList]
  exact Text.split_pieces [] List.not_mem_nil piece there

theorem parts_end : ∃ front last, ∀ tail : String, '/' ∉ tail.toList →
    parts (path ++ tail) = front ++ [last ++ tail] := by
  obtain ⟨front, last, ends⟩ := Text.split_end [] path.toList
  refine ⟨front.map String.ofList, String.ofList last, fun tail whole => ?_⟩
  have split : Text.split ['/'] (path ++ tail).toList = front ++ [last ++ tail.toList] := by
    rw [String.toList_append]
    exact ends tail.toList whole
  rw [parts, split, List.map_append, List.map_singleton, String.ofList_append, String.ofList_toList]

theorem parts_filled : ∃ first rest, parts path = first :: rest := by
  obtain ⟨front, last, ends⟩ := parts_end path
  have parts := ends "" (by simp)
  rw [String.append_empty] at parts
  cases front with
  | nil => exact ⟨_, _, parts⟩
  | cons => exact ⟨_, _, parts⟩

theorem relative_of_whole (name : String) (whole : '/' ∉ name.toList) : isAbsolute name = false := by
  rw [isAbsolute, beq_eq_false_iff_ne]
  exact fun first => whole (List.mem_of_head? first)

theorem join_ends (path name : String) : ∃ front, join path name = front ++ name := by
  unfold join
  split
  · exact ⟨"", by simp⟩
  · split
    · exact ⟨path, rfl⟩
    · exact ⟨path ++ "/", rfl⟩

theorem join_last (path name : String) (named : IsName name) : ∃ front, parts (join path name) = front ++ [name] := by
  unfold join
  split
  · exact ⟨[], parts_whole named.whole⟩
  · split
    · next ends =>
        obtain ⟨front, chars⟩ : ∃ front : String, path = front ++ "/" := by
          obtain ⟨front, chars⟩ := List.getLast?_eq_some_iff.mp ends
          refine ⟨String.ofList front, String.toList_inj.mp ?_⟩
          rw [chars, String.toList_append, String.toList_ofList]
          rfl
        rw [chars, parts_slash, parts_whole named.whole]
        exact ⟨_, rfl⟩
    · rw [parts_slash, parts_whole named.whole]
      exact ⟨_, rfl⟩

theorem join_absolute (path name : String) (relative : isAbsolute name = false) :
    isAbsolute (join path name) = isAbsolute path := by
  unfold join
  rw [relative]
  by_cases empty : path.isEmpty = true
  · rw [if_pos (.inr empty), relative, String.isEmpty_iff.mp empty]
    rfl
  · have filled : path.toList ≠ [] := fun nil => empty (String.isEmpty_iff.mpr (String.toList_eq_nil_iff.mp nil))
    have first (rest : String) : isAbsolute (path ++ rest) = isAbsolute path := by
      rw [isAbsolute, isAbsolute, String.toList_append, List.head?_append_of_ne_nil _ filled]
    rw [if_neg (by simpa using empty)]
    split
    · exact first name
    · rw [String.append_assoc]
      exact first ("/" ++ name)

theorem join_below {folder name : String} (named : IsName folder) (relative : isAbsolute name = false) :
    join (join path folder) name = join path folder ++ "/" ++ name := by
  obtain ⟨front, ends⟩ := join_ends path folder
  have last : (join path folder).toList.getLast? = folder.toList.getLast? := by
    rw [ends, String.toList_append, List.getLast?_append_of_ne_nil _ (fun nil => named.filled (String.toList_eq_nil_iff.mp nil))]
  have filled : (join path folder).isEmpty = false := by
    rw [Bool.eq_false_iff, ne_eq, String.isEmpty_iff, ends]
    intro nil
    exact named.filled (String.append_eq_empty_iff.mp nil).2
  generalize join path folder = directory at last filled
  rw [join, relative, filled, if_neg (by simp), if_neg]
  intro slash
  exact named.whole (List.mem_of_getLast? (last ▸ slash))

theorem parts_below (path folder name : String) (named : IsName folder) (relative : isAbsolute name = false) :
    parts (join (join path folder) name) = parts (join path folder) ++ parts name := by
  rw [join_below path named relative, parts_slash]

end Path

end Patchbay
