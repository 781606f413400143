import Mathlib.Data.List.Basic
import Patchbay.Run.Frame

set_option autoImplicit false

namespace Patchbay

theorem position_found {guid : Guid} {vars : List Variable} {index : Nat} (found : Variable.position? guid vars = some index) :
    (vars.map (·.guid))[index]? = some guid := by
  obtain ⟨inside, here, _⟩ := List.findIdx?_eq_some_iff_getElem.mp found
  rw [List.getElem?_map, List.getElem?_eq_getElem inside, Option.map_some, of_decide_eq_true here]

theorem position_missing (guid : Guid) (vars : List Variable) :
    Variable.position? guid vars = none ↔ guid ∉ vars.map (·.guid) := by
  rw [Variable.position?, List.findIdx?_eq_none_iff, List.mem_map]
  constructor
  · rintro other ⟨entry, inside, same⟩
    exact Bool.false_ne_true ((other entry inside).symm.trans (decide_eq_true same))
  · intro other entry inside
    exact decide_eq_false fun same => other ⟨entry, inside, same⟩

namespace Reference

variable (locals globals : List Variable)

theorem named_resolved (reference : Reference) {own : Guid} (names : reference.guid? = some own) :
    (∃ index, Variable.position? own locals = some index ∧ reference.resolve? locals globals = some (true, index)) ∨
      Variable.position? own locals = none ∧
        reference.resolve? locals globals = (Variable.position? own globals).map (false, ·) := by
  cases reference with
  | indexed => cases names
  | live guid | byGuid guid =>
    cases names
    cases found : Variable.position? own locals with
    | some index => exact .inl ⟨index, rfl, by simp only [resolve?, found]⟩
    | none => exact .inr ⟨rfl, by simp only [resolve?, found]⟩

variable {isLocal : Bool} {index : Nat}

theorem resolve_inside (reference : Reference) (resolved : reference.resolve? locals globals = some (isLocal, index)) :
    index < (if isLocal then locals else globals).length := by
  have inside (guid : Guid) (vars : List Variable) (found : Variable.position? guid vars = some index) : index < vars.length :=
    (List.findIdx?_eq_some_iff_getElem.mp found).1
  cases names : reference.guid? with
  | some own =>
    obtain ⟨place, found, same⟩ | ⟨_, same⟩ := reference.named_resolved locals globals names
    · cases same.symm.trans resolved
      exact inside own locals found
    · obtain ⟨place, found, here⟩ := Option.map_eq_some_iff.mp (same.symm.trans resolved)
      cases here
      exact inside own globals found
  | none =>
    cases reference with
    | live guid | byGuid guid => cases names
    | indexed =>
      simp only [resolve?, Option.ite_none_right_eq_some, Option.some.injEq, Prod.mk.injEq] at resolved
      obtain ⟨small, rfl, rfl⟩ := resolved
      exact small

theorem resolve_local (reference : Reference) (resolved : reference.resolve? locals globals = some (true, index)) :
    index < locals.length := reference.resolve_inside locals globals resolved

theorem resolve_global (reference : Reference)
    (resolved : reference.resolve? locals globals = some (false, index)) : index < globals.length :=
  reference.resolve_inside locals globals resolved

theorem resolve_congr {others outer : List Variable} (sameLocals : locals.map (·.guid) = others.map (·.guid))
    (same : globals.map (·.guid) = outer.map (·.guid)) (reference : Reference) :
    reference.resolve? locals globals = reference.resolve? others outer := by
  have position (guid : Guid) {vars others : List Variable} (same : vars.map (·.guid) = others.map (·.guid)) :
      Variable.position? guid vars = Variable.position? guid others := by
    have found := congrArg (List.findIdx? (· = guid)) same
    simpa only [List.findIdx?_map, Function.comp_def, ← Variable.position?.eq_1] using found
  have localCount := congrArg List.length sameLocals
  have count := congrArg List.length same
  simp only [List.length_map] at localCount count
  cases reference with
  | live guid | byGuid guid => simp only [resolve?, position guid sameLocals, position guid same]
  | indexed isLocal => cases isLocal <;> simp [resolve?, localCount, count]

def identifier? (reference : Reference) : Option Guid :=
  (reference.resolve? locals globals).bind fun place => ((if place.1 then locals else globals).map (·.guid))[place.2]?

theorem identifier_listed (reference : Reference) {guid : Guid} (found : reference.identifier? locals globals = some guid) :
    guid ∈ locals.map (·.guid) ++ globals.map (·.guid) := by
  obtain ⟨place, _, here⟩ := Option.bind_eq_some_iff.mp found
  have inside := List.mem_of_getElem? here
  split at inside
  · exact List.mem_append_left _ inside
  · exact List.mem_append_right _ inside

theorem identifier_own (reference : Reference) (own : Guid) (names : reference.guid? = some own) :
    reference.identifier? locals globals =
      if own ∈ locals.map (·.guid) ++ globals.map (·.guid) then some own else none := by
  obtain ⟨index, first, resolved⟩ | ⟨missing, resolved⟩ := reference.named_resolved locals globals names
  · have here := position_found first
    rw [if_pos (List.mem_append_left _ (List.mem_of_getElem? here)), identifier?, resolved]
    exact here
  · have outside := (position_missing own locals).mp missing
    rw [identifier?, resolved]
    cases second : Variable.position? own globals with
    | some =>
      have here := position_found second
      rw [if_pos (List.mem_append_right _ (List.mem_of_getElem? here))]
      exact here
    | none =>
      have beyond := (position_missing own globals).mp second
      rw [if_neg fun inside => (List.mem_append.mp inside).elim outside beyond]
      rfl

theorem live_resolves (guid : Guid) (known : guid ∈ locals.map (·.guid) ++ globals.map (·.guid)) :
    (Reference.live guid).resolve? locals globals ≠ none := by
  intro lost
  have found := (Reference.live guid).identifier_own locals globals guid rfl
  rw [identifier?, lost, if_pos known] at found
  cases found

theorem convert_identifier (form : ReferenceForm) (write : Guid → Reference)
    (written : form = .byGuid ∧ write = .byGuid ∨ form = .live ∧ write = .live) (reference : Reference) :
    reference.convert? locals globals form = (reference.identifier? locals globals).map write := by
  unfold convert? identifier?
  cases reference.resolve? locals globals with
  | none => rfl
  | some place =>
    obtain ⟨isLocal, index⟩ := place
    rw [Option.bind_some, List.getElem?_map]
    dsimp only
    cases (if isLocal = true then locals else globals)[index]? with
    | none => rfl
    | some => obtain ⟨rfl, rfl⟩ | ⟨rfl, rfl⟩ := written <;> rfl

theorem converted_live (reference : Reference) {converted : Reference}
    (made : reference.convert? locals globals .live = some converted) :
    ∃ guid ∈ locals.map (·.guid) ++ globals.map (·.guid), converted = .live guid := by
  rw [convert_identifier locals globals .live .live (.inr ⟨rfl, rfl⟩)] at made
  obtain ⟨guid, found, rfl⟩ := Option.map_eq_some_iff.mp made
  exact ⟨guid, reference.identifier_listed locals globals found, rfl⟩

theorem converted_indexed {reference converted : Reference}
    (made : reference.convert? locals globals .indexed = some converted) :
    ∃ isLocal index, converted = .indexed isLocal index ∧ index < (if isLocal then locals else globals).length := by
  unfold convert? at made
  split at made
  · cases made
  · next isLocal index _ =>
      split at made
      · cases made
      · next entry found =>
          cases made
          exact ⟨isLocal, index, rfl, (List.getElem?_eq_some_iff.mp found).1⟩

theorem indexed_converts (form : ReferenceForm) (inside : index < (if isLocal then locals else globals).length) :
    ∃ converted, (Reference.indexed isLocal index).convert? locals globals form = some converted := by
  have found := List.getElem?_eq_getElem inside
  simp only [convert?, resolve?, if_pos inside, found]
  cases form <;> exact ⟨_, rfl⟩

end Reference

namespace Run

variable {σ : Type} (job : Job) (reference : Reference) (run : Run σ)

theorem locate_resolved : run.locate job reference = match reference.resolve? job.locals run.env.vars with
    | none => .error (.variableNotFound reference)
    | some (true, index) => .ok (.stack index)
    | some (false, index) => .ok (.script index) := by
  cases reference with
  | live guid | byGuid guid =>
    simp only [locate, Reference.resolve?]
    cases Variable.position? guid job.locals with
    | some => rfl
    | none => cases Variable.position? guid run.env.vars <;> rfl
  | indexed isLocal index =>
    cases isLocal with
    | true =>
      by_cases inside : index < job.locals.length
      · simp only [locate, Reference.resolve?, if_pos inside, if_true]
      · simp only [locate, Reference.resolve?, if_neg inside, if_true]
    | false =>
      by_cases inside : index < run.env.vars.length
      · simp only [locate, Reference.resolve?, if_pos inside, Bool.false_eq_true, if_false]
      · simp only [locate, Reference.resolve?, if_neg inside, Bool.false_eq_true, if_false]

theorem read_resolved : run.readVariable job reference = match reference.resolve? job.locals run.env.vars with
    | none => .error (.variableNotFound reference)
    | some (true, index) => .ok ((run.frame.stack[index]?).getD .null)
    | some (false, index) => .ok (((run.env.vars[index]?).map (·.value)).getD .null) := by
  rw [readVariable, locate_resolved]
  cases reference.resolve? job.locals run.env.vars with
  | none => rfl
  | some place =>
    obtain ⟨isLocal, index⟩ := place
    cases isLocal <;> rfl

theorem write_resolved (value : Value) :
    run.writeVariable job reference value = match reference.resolve? job.locals run.env.vars with
    | none => .error (.variableNotFound reference)
    | some (true, index) => .ok { run with frame := { run.frame with
        stack := run.frame.stack.set index (coerceTo job.locals index value) } }
    | some (false, index) => .ok { run with env := { run.env with
        vars := run.env.vars.modify index fun entry => { entry with value := entry.type.coerce value } } } := by
  rw [writeVariable, locate_resolved]
  cases reference.resolve? job.locals run.env.vars with
  | none => rfl
  | some place =>
    obtain ⟨isLocal, index⟩ := place
    cases isLocal <;> rfl

end Run

end Patchbay
