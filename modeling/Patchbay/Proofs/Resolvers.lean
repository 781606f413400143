import Patchbay.Clipboard
import Patchbay.Proofs.Stages

set_option autoImplicit false

namespace Patchbay

variable {σ : Type}

def Unambiguous (locals globals : List Variable) : Prop := (locals.map (·.guid) ++ globals.map (·.guid)).Nodup

instance (locals globals : List Variable) : Decidable (Unambiguous locals globals) :=
  inferInstanceAs (Decidable (locals.map (·.guid) ++ globals.map (·.guid)).Nodup)

theorem position_of_distinct {guid : Guid} {vars : List Variable} {index : Nat} (distinct : (vars.map (·.guid)).Nodup)
    (here : (vars.map (·.guid))[index]? = some guid) : Variable.position? guid vars = some index := by
  cases found : Variable.position? guid vars with
  | none => exact absurd (List.mem_of_getElem? here) ((position_missing guid vars).mp found)
  | some =>
    have there := position_found found
    have inside := (List.getElem?_eq_some_iff.mp there).1
    rw [(List.getElem?_inj inside distinct).mp (there.trans here.symm)]

namespace Reference

variable (locals globals : List Variable)

theorem convert_indexed (reference : Reference) : reference.convert? locals globals .indexed =
    (reference.resolve? locals globals).map fun place => .indexed place.1 place.2 := by
  cases resolved : reference.resolve? locals globals with
  | none => simp only [convert?, resolved, Option.map_none]
  | some place =>
    obtain ⟨isLocal, index⟩ := place
    have found := List.getElem?_eq_getElem (reference.resolve_inside locals globals resolved)
    simp only [convert?, resolved, found, Option.map_some]

theorem indexed_place (reference : Reference) {indexed : Reference}
    (made : reference.convert? locals globals .indexed = some indexed) :
    indexed.resolve? locals globals = reference.resolve? locals globals := by
  rw [convert_indexed] at made
  obtain ⟨⟨isLocal, index⟩, resolved, rfl⟩ := Option.map_eq_some_iff.mp made
  rw [resolved, resolve?, if_pos (reference.resolve_inside locals globals resolved)]

variable {own : Guid}

theorem same_name_same_place (reference : Reference) {other : Reference} (names : reference.guid? = some own)
    (alike : other.guid? = some own) : other.resolve? locals globals = reference.resolve? locals globals := by
  rcases reference.named_resolved locals globals names with ⟨index, found, resolved⟩ | ⟨missing, resolved⟩
  · rcases other.named_resolved locals globals alike with ⟨position, again, same⟩ | ⟨missing, _⟩
    · cases found.symm.trans again
      rw [resolved, same]
    · cases found.symm.trans missing
  · rcases other.named_resolved locals globals alike with ⟨position, found, _⟩ | ⟨_, same⟩
    · cases missing.symm.trans found
    · rw [resolved, same]

theorem named_place (clear : Unambiguous locals globals) {reference : Reference} (names : reference.guid? = some own)
    (isLocal : Bool) (index : Nat) (here : ((if isLocal then locals else globals).map (·.guid))[index]? = some own) :
    reference.resolve? locals globals = some (isLocal, index) := by
  obtain ⟨inLocals, inGlobals, apart⟩ := List.nodup_append.mp clear
  rcases reference.named_resolved locals globals names with ⟨position, found, resolved⟩ | ⟨missing, resolved⟩
  · cases isLocal with
    | true =>
      cases found.symm.trans (position_of_distinct inLocals here)
      exact resolved
    | false =>
      have there := position_found found
      exact absurd rfl (apart own (List.mem_of_getElem? there) own (List.mem_of_getElem? here))
  · cases isLocal with
    | true => exact absurd (List.mem_of_getElem? here) ((position_missing own locals).mp missing)
    | false => rw [resolved, position_of_distinct inGlobals here, Option.map_some]

theorem converted_place (reference : Reference) (clear : Unambiguous locals globals ∨ reference.guid? ≠ none)
    {form : ReferenceForm} {converted : Reference} (made : reference.convert? locals globals form = some converted) :
    converted.resolve? locals globals = reference.resolve? locals globals := by
  have named (write : Guid → Reference) (written : form = .byGuid ∧ write = .byGuid ∨ form = .live ∧ write = .live)
      (names : ∀ guid, (write guid).guid? = some guid) :
      converted.resolve? locals globals = reference.resolve? locals globals := by
    rw [convert_identifier locals globals form write written] at made
    obtain ⟨guid, found, rfl⟩ := Option.map_eq_some_iff.mp made
    cases own : reference.guid? with
    | some name =>
      rw [reference.identifier_own locals globals name own] at found
      obtain ⟨_, same⟩ := Option.ite_none_right_eq_some.mp found
      cases same
      exact reference.same_name_same_place locals globals own (names guid)
    | none =>
      obtain ⟨⟨isLocal, index⟩, resolved, here⟩ := Option.bind_eq_some_iff.mp found
      rw [resolved]
      exact named_place locals globals (clear.resolve_right (not_not_intro own)) (names guid) isLocal index here
  cases form with
  | indexed => exact reference.indexed_place locals globals made
  | live => exact named .live (.inr ⟨rfl, rfl⟩) fun _ => rfl
  | byGuid => exact named .byGuid (.inl ⟨rfl, rfl⟩) fun _ => rfl

theorem convert_found (reference : Reference) (form : ReferenceForm) :
    reference.convert? locals globals form = none ↔ reference.resolve? locals globals = none := by
  cases resolved : reference.resolve? locals globals with
  | none => simp only [convert?, resolved]
  | some place =>
    obtain ⟨isLocal, index⟩ := place
    have found := List.getElem?_eq_getElem (reference.resolve_inside locals globals resolved)
    cases form <;> simp [convert?, resolved, found]

theorem convert_named (reference : Reference) (names : reference.guid? = some own)
    (found : reference.resolve? locals globals ≠ none) (form : ReferenceForm) (write : Guid → Reference)
    (written : form = .byGuid ∧ write = .byGuid ∨ form = .live ∧ write = .live) :
    reference.convert? locals globals form = some (write own) := by
  have converts := (reference.convert_found locals globals form).not.mpr found
  rw [convert_identifier locals globals form write written, reference.identifier_own locals globals own names] at converts ⊢
  by_cases listed : own ∈ locals.map (·.guid) ++ globals.map (·.guid)
  · rw [if_pos listed, Option.map_some]
  · rw [if_neg listed, Option.map_none] at converts
    exact absurd rfl converts

theorem indexed_named (reference : Reference) (own : Guid) (names : reference.guid? = some own)
    (found : reference.resolve? locals globals ≠ none) {indexed : Reference}
    (made : reference.convert? locals globals .indexed = some indexed) :
    indexed.convert? locals globals .live = some (.live own) := by
  rw [convert?, reference.indexed_place locals globals made]
  exact reference.convert_named locals globals names found .live .live (.inr ⟨rfl, rfl⟩)

def leadsTo? (reference : Reference) : Option (Bool × Variable) :=
  (reference.resolve? locals globals).bind fun place =>
    ((if place.1 then locals else globals)[place.2]?).map fun entry => (place.1, entry)

theorem leads_to_listed (clear : Unambiguous locals globals) (reference : Reference) (own : Guid)
    (names : reference.guid? = some own) (isLocal : Bool) (entry : Variable)
    (listed : entry ∈ if isLocal then locals else globals) (same : entry.guid = own) :
    reference.leadsTo? locals globals = some (isLocal, entry) := by
  obtain ⟨index, here⟩ := List.getElem?_of_mem listed
  have place := named_place locals globals clear names isLocal index
    (by rw [List.getElem?_map, here, Option.map_some, same])
  rw [leadsTo?, place, Option.bind_some, here, Option.map_some]

theorem leads_to_after_removal (clear : Unambiguous locals globals) (reference : Reference) {converted : Reference}
    (names : reference.guid? = some own) {removed : Nat}
    (made : reference.convert? locals (globals.eraseIdx removed) .live = some converted) :
    converted.leadsTo? locals (globals.eraseIdx removed) = reference.leadsTo? locals globals := by
  have fewer : (globals.eraseIdx removed).Sublist globals := List.eraseIdx_sublist globals removed
  have stillClear : Unambiguous locals (globals.eraseIdx removed) := clear.sublist ((fewer.map _).append_left _)
  obtain ⟨guid, known, rfl⟩ := reference.converted_live locals _ made
  have found := (reference.convert_found locals _ .live).not.mp (Option.ne_none_iff_exists'.mpr ⟨_, made⟩)
  cases made.symm.trans (reference.convert_named locals _ names found .live .live (.inr ⟨rfl, rfl⟩))
  rcases List.mem_append.mp known with inLocals | inGlobals
  · obtain ⟨entry, listed, same⟩ := List.mem_map.mp inLocals
    rw [leads_to_listed locals globals clear reference own names true entry listed same]
    exact leads_to_listed locals _ stillClear (.live own) own rfl true entry listed same
  · obtain ⟨entry, listed, same⟩ := List.mem_map.mp inGlobals
    rw [leads_to_listed locals globals clear reference own names false entry (fewer.subset listed) same]
    exact leads_to_listed locals _ stillClear (.live own) own rfl false entry listed same

end Reference

namespace Run

theorem locate_succeeds {job : Job} {reference : Reference} (run : Run σ)
    (found : reference.resolve? job.locals run.env.vars ≠ none) : ∃ location, run.locate job reference = .ok location := by
  obtain ⟨⟨isLocal, index⟩, resolved⟩ := Option.ne_none_iff_exists'.mp found
  rw [locate_resolved, resolved]
  cases isLocal <;> exact ⟨_, rfl⟩

theorem locate_fails (job : Job) (reference : Reference) (run : Run σ) :
    run.locate job reference = .error (.variableNotFound reference) ↔ reference.resolve? job.locals run.env.vars = none := by
  constructor
  · intro failed
    by_contra found
    obtain ⟨location, located⟩ := run.locate_succeeds found
    cases failed.symm.trans located
  · intro lost
    rw [locate_resolved, lost]

variable (job : Job) (reference other : Reference) (run : Run σ)
  (same : other.resolve? job.locals run.env.vars = reference.resolve? job.locals run.env.vars)
  (found : reference.resolve? job.locals run.env.vars ≠ none)

include same found

theorem locate_congr : run.locate job other = run.locate job reference := by
  obtain ⟨⟨isLocal, index⟩, resolved⟩ := Option.ne_none_iff_exists'.mp found
  rw [locate_resolved, locate_resolved, same, resolved]
  cases isLocal <;> rfl

theorem read_congr : run.readVariable job other = run.readVariable job reference := by
  rw [readVariable, readVariable, run.locate_congr job reference other same found]

theorem write_congr (value : Value) : run.writeVariable job other value = run.writeVariable job reference value := by
  rw [writeVariable, writeVariable, run.locate_congr job reference other same found]

end Run

theorem perform_congr (host : Host σ) (call : Call σ) {job : Job} (index : Nat) {node : Node} (activation : Activation)
    (inputs : List Value) {run : Run σ} {reference other : Reference} (named : node.kind.reference? = some reference)
    (same : other.resolve? job.locals run.env.vars = reference.resolve? job.locals run.env.vars)
    (found : reference.resolve? job.locals run.env.vars ≠ none) :
    perform host call job index { node with kind := node.kind.withReference other } activation inputs run =
      perform host call job index node activation inputs run := by
  cases kind : node.kind <;> rw [kind] at named <;> cases named
  case getVariable =>
    simp only [perform, Effect.ofNode?, kind, NodeKind.withReference, run.read_congr job reference other same found]
  case setVariable =>
    simp only [perform, Effect.ofNode?, kind, NodeKind.withReference, run.write_congr job reference other same found]
    cases written : run.writeVariable job reference (Node.input inputs 0) with
    | error => rfl
    | ok after =>
      have places := Reference.resolve_congr job.locals _ rfl (write_variable_guids written)
      rw [← places, ← places] at same
      rw [← places] at found
      simp only [after.read_congr job reference other same found]

namespace Node

/-- All that saving, loading, copying, pasting and removing do to a node: it stays as it is, or its variable is named in
another way. -/
theorem swapped_cases {locals globals : List Variable} {functions : List Guid} {form : ReferenceForm} (node : Node) {swapped : Node}
    (made : node.convertReference? locals globals functions form = some swapped ∨
      node.convertVariable? locals globals form = some swapped) :
    swapped = node ∨ ∃ reference other, node.kind.reference? = some reference ∧
      reference.convert? locals globals form = some other ∧
      swapped = { node with kind := node.kind.withReference other } := by
  unfold convertReference? convertVariable? at made
  cases named : node.kind.reference? with
  | some reference =>
    simp only [named, or_self, Option.map_eq_some_iff] at made
    obtain ⟨other, conversion, same⟩ := made
    exact .inr ⟨reference, other, rfl, conversion, same.symm⟩
  | none =>
    simp only [named, Option.some.injEq] at made
    refine .inl (made.elim (fun kept => ?_) Eq.symm)
    split at kept
    · exact (Option.some.inj (Option.ite_none_right_eq_some.mp kept).2).symm
    · exact (Option.some.inj kept).symm

theorem adopted_converts (globals : List Variable) (functions : List Guid) (locals : List Variable) (node : Node) :
    Graph.adoptNode? globals functions locals node = node.convertReference? locals globals functions .live := by
  unfold Graph.adoptNode? convertReference? convertVariable?
  cases kind : node.kind <;> simp only [NodeKind.reference?]

end Node

theorem swapped_performs {job : Job} {run : Run σ} {node : Node} (swapped : Node) (functions : List Guid) (form : ReferenceForm)
    (clear : Unambiguous job.locals run.env.vars ∨ ∀ reference, node.kind.reference? = some reference → reference.guid? ≠ none)
    (made : node.convertReference? job.locals run.env.vars functions form = some swapped ∨
      node.convertVariable? job.locals run.env.vars form = some swapped) (host : Host σ) (call : Call σ) (index : Nat)
    (activation : Activation) (inputs : List Value) :
    perform host call job index swapped activation inputs run = perform host call job index node activation inputs run := by
  rcases node.swapped_cases made with
    same | ⟨reference, other, named, conversion, same⟩
  · rw [same]
  · have place := reference.converted_place job.locals run.env.vars (clear.imp_right fun own => own reference named)
      conversion
    have found : reference.resolve? job.locals run.env.vars ≠ none := by
      rw [ne_eq, ← reference.convert_found job.locals run.env.vars form, conversion]
      exact Option.some_ne_none other
    rw [same, perform_congr host call index activation inputs named place found]

/-- The references that an editor swaps lead a run to the same variables. -/
theorem resolvers_agree (job : Job) (run : Run σ) :
    let convert (form : ReferenceForm) (reference : Reference) := reference.convert? job.locals run.env.vars form
    (∀ form reference, convert form reference = none ↔ run.locate job reference = .error (.variableNotFound reference)) ∧
    (∀ reference indexed, convert .indexed reference = some indexed →
      ∃ location, run.locate job indexed = .ok location ∧ run.locate job reference = .ok location) ∧
    (∀ reference own, reference.guid? = some own → ∀ indexed, convert .indexed reference = some indexed →
      convert .live reference = some (.live own) ∧ convert .byGuid reference = some (.byGuid own) ∧
        convert .live indexed = some (.live own)) ∧
    (Unambiguous job.locals run.env.vars → ∀ form reference converted, convert form reference = some converted →
      run.locate job converted = run.locate job reference) ∧
    (∀ node : Node, Unambiguous job.locals run.env.vars ∨
        (∀ reference, node.kind.reference? = some reference → reference.guid? ≠ none) →
      ∀ functions form swapped, (node.convertReference? job.locals run.env.vars functions form = some swapped ∨
          node.convertVariable? job.locals run.env.vars form = some swapped ∨
          Graph.adoptNode? run.env.vars functions job.locals node = some swapped) →
        ∀ host call index activation inputs, perform host call job index swapped activation inputs run =
          perform host call job index node activation inputs run) ∧
    (Unambiguous job.locals run.env.vars → ∀ (reference : Reference) own, reference.guid? = some own → ∀ removed converted,
      reference.convert? job.locals (run.env.vars.eraseIdx removed) .live = some converted →
        converted.leadsTo? job.locals (run.env.vars.eraseIdx removed) = reference.leadsTo? job.locals run.env.vars) := by
  intro convert
  have found (form : ReferenceForm) (reference converted : Reference) (made : convert form reference = some converted) :
      reference.resolve? job.locals run.env.vars ≠ none := by
    rw [ne_eq, ← reference.convert_found job.locals run.env.vars form]
    exact Option.ne_none_iff_exists'.mpr ⟨converted, made⟩
  refine ⟨?_, ?_, ?_, ?_, ?_, ?_⟩
  · intro form reference
    exact (reference.convert_found job.locals run.env.vars form).trans (run.locate_fails job reference).symm
  · intro reference indexed made
    have same := run.locate_congr job reference indexed (reference.indexed_place job.locals run.env.vars made)
      (found .indexed reference indexed made)
    obtain ⟨location, located⟩ := run.locate_succeeds (found .indexed reference indexed made)
    exact ⟨location, same.trans located, located⟩
  · intro reference own names indexed made
    have known := found .indexed reference indexed made
    exact ⟨reference.convert_named job.locals run.env.vars names known .live .live (.inr ⟨rfl, rfl⟩),
      reference.convert_named job.locals run.env.vars names known .byGuid .byGuid (.inl ⟨rfl, rfl⟩),
      reference.indexed_named job.locals run.env.vars own names known made⟩
  · intro clear form reference converted made
    exact run.locate_congr job reference converted
      (reference.converted_place job.locals run.env.vars (.inl clear) made) (found form reference converted made)
  · intro node clear functions form swapped made
    rcases made with made | made | made
    · exact swapped_performs swapped functions form clear (.inl made)
    · exact swapped_performs swapped functions form clear (.inr made)
    · rw [node.adopted_converts] at made
      exact swapped_performs swapped functions .live clear (.inl made)
  · intro clear reference own names removed converted made
    exact reference.leads_to_after_removal job.locals run.env.vars clear names made

def bench : Job := ⟨[], [.fresh ⟨1⟩ "count" .int], []⟩

def benchRun (vars : List Variable) : Run Unit := ⟨⟨[], [.int 0], [], none⟩, .start vars [] ()⟩

/-- With distinct identifiers a position is swapped for the identifier, also when another variable goes. With repeated ones an
identifier still comes back from its position. -/
theorem bench_resolvers_agree :
    let distinct : List Variable := [.fresh ⟨2⟩ "limit" .int, .fresh ⟨3⟩ "armed" .bool]
    let repeated : List Variable := [.fresh ⟨1⟩ "hidden" .int, .fresh ⟨2⟩ "limit" .int, .fresh ⟨2⟩ "spare" .int]
    Unambiguous bench.locals distinct ∧ ¬ Unambiguous bench.locals repeated ∧
      (benchRun distinct).locate bench (.live ⟨3⟩) = (benchRun distinct).locate bench (.indexed false 1) ∧
      (Reference.live ⟨3⟩).leadsTo? bench.locals (distinct.eraseIdx 0) = (Reference.byGuid ⟨3⟩).leadsTo? bench.locals distinct ∧
      (Reference.indexed false 1).convert? bench.locals repeated .live = some (.live ⟨2⟩) := by
  intro distinct repeated
  have clear : Unambiguous bench.locals distinct := by decide
  obtain ⟨_, _, _, located, _, removal⟩ := resolvers_agree bench (benchRun distinct)
  obtain ⟨_, _, named, _⟩ := resolvers_agree bench (benchRun repeated)
  exact ⟨clear, by decide, located clear .live (.indexed false 1) (.live ⟨3⟩) rfl,
    removal clear (.byGuid ⟨3⟩) ⟨3⟩ rfl 0 (.live ⟨3⟩) rfl, (named (.byGuid ⟨2⟩) ⟨2⟩ rfl (.indexed false 1) rfl).2.2⟩

end Patchbay
