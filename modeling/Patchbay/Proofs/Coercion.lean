import Patchbay.Proofs.CompiledFlag
import Patchbay.Proofs.References

set_option autoImplicit false

namespace Patchbay

theorem items_settle {α : Type} (cast : α → Option α)
    (settles : ∀ item result, cast item = some result → cast result = some result) {items : List α} (results : List α)
    (casts : items.mapM cast = some results) : results.mapM cast = some results := by
  induction items generalizing results with
  | nil =>
    cases casts
    rfl
  | cons item rest ih =>
    rw [List.mapM_cons] at casts
    obtain ⟨first, head, casts⟩ := Option.bind_eq_some_iff.mp casts
    obtain ⟨others, tail, same⟩ := Option.bind_eq_some_iff.mp casts
    cases same
    rw [List.mapM_cons, settles item first head, ih others tail]
    rfl

namespace PinType

variable (type : PinType)

theorem cast_settles (value result : Value) (casts : type.cast? value = some result) :
    type.cast? result = some result := by
  induction type generalizing value result with
  | any => rfl
  | bool | string =>
    cases value <;> cases casts
    rfl
  | int =>
    cases value with
    | int =>
      cases casts
      rfl
    | float =>
      obtain ⟨whole, _, rfl⟩ := Option.map_eq_some_iff.mp casts
      rfl
    | _ => cases casts
  | float =>
    cases value <;> cases casts
    · rfl
    · rfl
  | array element ih =>
    cases value with
    | array =>
      obtain ⟨results, each, rfl⟩ := Option.map_eq_some_iff.mp casts
      rw [cast?, items_settle element.cast? ih results each]
      rfl
    | _ => cases casts
  | object =>
    cases value with
    | object =>
      obtain ⟨_, same⟩ := Option.ite_none_right_eq_some.mp casts
      cases same
      exact casts
    | _ => cases casts
  | handle =>
    cases value with
    | handle =>
      obtain ⟨_, same⟩ := Option.ite_none_right_eq_some.mp casts
      cases same
      exact casts
    | _ => cases casts

theorem coerce_settles (value : Value) : type.coerce (type.coerce value) = type.coerce value := by
  unfold coerce
  cases casts : type.cast? value with
  | none => rw [Option.getD_none, casts, Option.getD_none]
  | some result => rw [Option.getD_some, type.cast_settles value result casts, Option.getD_some]

theorem coerce_null : type.coerce .null = .null := by
  cases type <;> rfl

theorem coerce_default : type.coerce type.defaultValue = type.defaultValue := by
  cases type <;> rfl

end PinType

namespace Run

variable {σ : Type} (job : Job) (reference : Reference) (run : Run σ)

def typeAt? : Location → Option PinType
  | .stack index => (job.locals[index]?).map (·.type)
  | .script index => (run.env.vars[index]?).map (·.type)

def contentAt : Location → Value
  | .stack index => (run.frame.stack[index]?).getD .null
  | .script index => ((run.env.vars[index]?).map (·.value)).getD .null

def put (content : Value) : Location → Run σ
  | .stack index => { run with frame := { run.frame with stack := run.frame.stack.set index content } }
  | .script index =>
    { run with env := { run.env with vars := run.env.vars.modify index fun entry => { entry with value := content } } }

def Holds : Location → Prop
  | .stack index => index < run.frame.stack.length
  | .script index => index < run.env.vars.length

def variableType? : Option PinType := (run.locate job reference).toOption.bind (run.typeAt? job)

variable {index : Nat} {place : Location}

theorem located_stack (located : run.locate job reference = .ok (.stack index)) : index < job.locals.length := by
  rw [locate_resolved] at located
  split at located
  · cases located
  · next resolved =>
      cases located
      exact reference.resolve_local job.locals run.env.vars resolved
  · cases located

theorem located_script (located : run.locate job reference = .ok (.script index)) :
    index < run.env.vars.length := by
  rw [locate_resolved] at located
  split at located
  · cases located
  · cases located
  · next resolved =>
      cases located
      exact reference.resolve_global job.locals run.env.vars resolved

theorem located_typed (located : run.locate job reference = .ok place) :
    ∃ type, run.typeAt? job place = some type := by
  cases place with
  | stack =>
    have inside := run.located_stack job reference located
    exact ⟨_, by rw [typeAt?, List.getElem?_eq_getElem inside, Option.map_some]⟩
  | script =>
    have inside := run.located_script job reference located
    exact ⟨_, by rw [typeAt?, List.getElem?_eq_getElem inside, Option.map_some]⟩

theorem read_at (located : run.locate job reference = .ok place) :
    run.readVariable job reference = .ok (run.contentAt place) := by
  rw [readVariable, located]
  cases place <;> rfl

theorem write_at {type : PinType} (value : Value) (located : run.locate job reference = .ok place)
    (typed : run.typeAt? job place = some type) :
    run.writeVariable job reference value = .ok (run.put (type.coerce value) place) := by
  rw [writeVariable, located]
  cases place with
  | stack =>
    obtain ⟨entry, found, rfl⟩ := Option.map_eq_some_iff.mp typed
    simp only [coerceTo, found, put]
  | script index =>
    obtain ⟨entry, found, rfl⟩ := Option.map_eq_some_iff.mp typed
    dsimp only [put]
    rw [modify_at_congr run.env.vars index _ (fun other => { other with value := entry.type.coerce value })]
    intro item here
    cases found.symm.trans here
    rfl

variable (content : Value)

theorem put_located (place : Location) :
    (run.put content place).locate job reference = run.locate job reference := by
  cases place with
  | stack => rfl
  | script index =>
    have same := modify_layout (·.guid) index (fun entry : Variable => { entry with value := content }) run.env.vars
      fun _ => rfl
    rw [locate_resolved, locate_resolved, reference.resolve_congr job.locals run.env.vars rfl same.symm]
    rfl

theorem put_typed (place : Location) : (run.put content place).typeAt? job place = run.typeAt? job place := by
  cases place with
  | stack => rfl
  | script index =>
    have same := modify_layout (·.type) index (fun entry : Variable => { entry with value := content }) run.env.vars
      fun _ => rfl
    have here := congrArg (·[index]?) same
    simp only [List.getElem?_map] at here
    exact here

theorem content_put (holds : run.Holds place) :
    (run.put content place).contentAt place = content := by
  cases place with
  | stack => simp only [put, contentAt, List.getElem?_set_self holds, Option.getD_some]
  | script =>
    simp only [put, contentAt, List.getElem?_modify, if_pos, List.getElem?_eq_getElem holds]
    rfl

theorem put_nowhere (nowhere : ¬ run.Holds place) :
    run.put content place = run ∧ run.contentAt place = .null := by
  cases place with
  | stack index =>
    have beyond : run.frame.stack.length ≤ index := Nat.le_of_not_lt nowhere
    refine ⟨?_, ?_⟩
    · rw [put, List.set_eq_of_length_le beyond]
    · rw [contentAt, List.getElem?_eq_none beyond, Option.getD_none]
  | script index =>
    have beyond : run.env.vars.length ≤ index := Nat.le_of_not_lt nowhere
    refine ⟨?_, ?_⟩
    · rw [put, List.modify_eq_self beyond]
    · rw [contentAt, List.getElem?_eq_none beyond, Option.map_none, Option.getD_none]

theorem put_content (place : Location) : run.put (run.contentAt place) place = run := by
  by_cases holds : run.Holds place
  · cases place with
    | stack index =>
      have inside : index < run.frame.stack.length := holds
      rw [contentAt, List.getElem?_eq_getElem inside, Option.getD_some, put, List.set_getElem_self]
    | script index =>
      have same := modify_at_congr run.env.vars index
        (fun entry => { entry with value := run.contentAt (.script index) }) id
      rw [put, same, List.modify_id]
      intro entry found
      rw [contentAt, found]
      rfl
  · exact (run.put_nowhere _ holds).1

theorem put_twice (type : PinType) (given : Value) (place : Location) :
    let after := run.put (type.coerce given) place
    after.put (type.coerce (after.contentAt place)) place = after := by
  intro after
  by_cases holds : run.Holds place
  · have content : after.contentAt place = type.coerce given := run.content_put _ holds
    rw [content, type.coerce_settles, ← content]
    exact after.put_content place
  · have same : after = run := (run.put_nowhere _ holds).1
    rw [same]
    exact (run.put_nowhere _ holds).1

theorem content_coerced (type : PinType) (place : Location) :
    (run.put (type.coerce (run.contentAt place)) place).contentAt place = type.coerce (run.contentAt place) := by
  by_cases holds : run.Holds place
  · exact run.content_put _ holds
  · have same := (run.put_nowhere (type.coerce (run.contentAt place)) holds).1
    have empty := (run.put_nowhere .null holds).2
    rw [same, empty, type.coerce_null]

theorem located_holds (located : run.locate job reference = .ok place)
    (room : job.locals.length ≤ run.frame.stack.length) : run.Holds place := by
  cases place with
  | stack => exact Nat.lt_of_lt_of_le (run.located_stack job reference located) room
  | script => exact run.located_script job reference located

theorem rewrite_read {content : Value} (reads : run.readVariable job reference = .ok content) :
    ∃ type after, run.variableType? job reference = some type ∧ run.writeVariable job reference content = .ok after ∧
      after.readVariable job reference = .ok (type.coerce content) ∧ (after = run ↔ type.coerce content = content) := by
  cases located : run.locate job reference with
  | error =>
    rw [readVariable, located] at reads
    cases reads
  | ok place =>
    cases (run.read_at job reference located).symm.trans reads
    obtain ⟨type, typed⟩ := run.located_typed job reference located
    have found := run.content_coerced type place
    refine ⟨type, run.put (type.coerce (run.contentAt place)) place, ?_,
      run.write_at job reference _ located typed, ?_, ?_, ?_⟩
    · rw [variableType?, located]
      exact typed
    · rw [read_at job reference _ ((run.put_located job reference _ place).trans located), found]
    · intro same
      rw [← found, same]
    · intro same
      rw [same]
      exact run.put_content place

theorem reread_written {after : Run σ} {given : Value} (written : run.writeVariable job reference given = .ok after) :
    ∃ content, after.readVariable job reference = .ok content ∧ after.writeVariable job reference content = .ok after ∧
      (job.locals.length ≤ run.frame.stack.length →
        ∀ type, run.variableType? job reference = some type → content = type.coerce given) := by
  cases located : run.locate job reference with
  | error =>
    rw [writeVariable, located] at written
    cases written
  | ok place =>
    obtain ⟨type, typed⟩ := run.located_typed job reference located
    cases (run.write_at job reference given located typed).symm.trans written
    have still := (run.put_located job reference (type.coerce given) place).trans located
    refine ⟨_, read_at job reference _ still, ?_, ?_⟩
    · rw [write_at job reference _ _ still ((run.put_typed job _ place).trans typed), run.put_twice type given place]
    · intro room other same
      rw [variableType?, located] at same
      cases typed.symm.trans same
      exact run.content_put _ (run.located_holds job reference located room)

end Run

namespace Graph

variable (index output : Nat) (graph : Graph)

def case? : Option SwitchCase := (graph.nodes[index]?).bind fun node => (node.execOut[output]?).bind (·.case)

variable {given : Value} {after : Graph} {node : Node} {pin : ExecPin}

theorem set_case_cases (written : graph.setCase index output given = .ok after) :
    ∃ node pin case, graph.nodes[index]? = some node ∧ node.execOut[output]? = some pin ∧ pin.case = some case := by
  unfold setCase Edit.commitQuiet Edit.commit Edit.setCase Edit.after at written
  dsimp only at written
  cases there : graph.pinAt Node.execOut index output with
  | error =>
    rw [there] at written
    cases written
  | ok pair =>
    obtain ⟨node, pin⟩ := pair
    obtain ⟨found, pinFound⟩ := pin_at_found there
    cases cased : pin.case with
    | none =>
      simp only [there, cased] at written
      cases written
    | some case => exact ⟨node, pin, case, found, pinFound, cased⟩

def caseSet (pin : ExecPin) (case : SwitchCase) (value : Value) : Graph :=
  graph.modifyNode index fun node => { node with
    execOut := node.execOut.modify output fun _ => { pin with case := some { case with value := case.type.coerce value } } }

theorem set_case_at (case : SwitchCase) (found : graph.nodes[index]? = some node)
    (pinFound : node.execOut[output]? = some pin) (cased : pin.case = some case) (value : Value) :
    graph.setCase index output value = .ok (graph.caseSet index output pin case value) := by
  simp [setCase, Edit.commitQuiet, Edit.commit, Edit.setCase, Edit.after, pinAt, node?, pin?, found, pinFound, cased, caseSet,
    bind, pure, Except.bind, Except.pure, Except.map]

theorem case_set_same {case : SwitchCase} (found : graph.nodes[index]? = some node)
    (pinFound : node.execOut[output]? = some pin) (cased : pin.case = some case) {value : Value}
    (settled : case.type.coerce value = case.value) : graph.caseSet index output pin case value = graph := by
  have same : { pin with case := some { case with value := case.type.coerce value } } = pin := by
    rw [settled, ← cased]
  have pins : node.execOut.modify output (fun _ => pin) = node.execOut := by
    rw [modify_at_congr node.execOut output _ id, List.modify_id]
    intro item here
    cases pinFound.symm.trans here
    rfl
  have nodes : graph.nodes.modify index (fun node => { node with execOut := node.execOut.modify output fun _ => pin }) =
      graph.nodes := by
    rw [modify_at_congr graph.nodes index _ id, List.modify_id]
    intro item here
    cases found.symm.trans here
    rw [pins]
    rfl
  rw [caseSet, same, modifyNode, nodes]

theorem set_case_settles (written : graph.setCase index output given = .ok after) :
    ∃ case, after.case? index output = some case ∧ case.value = case.type.coerce given ∧
      after.setCase index output case.value = .ok after := by
  obtain ⟨node, pin, case, found, pinFound, cased⟩ := graph.set_case_cases index output written
  cases (graph.set_case_at index output case found pinFound cased given).symm.trans written
  let result : SwitchCase := { case with value := case.type.coerce given }
  let pinAfter : ExecPin := { pin with case := some result }
  let nodeAfter : Node := { node with execOut := node.execOut.modify output fun _ => pinAfter }
  have nodeFound : (graph.caseSet index output pin case given).nodes[index]? = some nodeAfter := by
    simp [caseSet, modifyNode, found, nodeAfter, pinAfter, result]
  have outFound : nodeAfter.execOut[output]? = some pinAfter := by
    simp [nodeAfter, pinFound]
  refine ⟨result, ?_, rfl, ?_⟩
  · rw [case?, nodeFound, Option.bind_some, outFound, Option.bind_some]
  · rw [set_case_at index output _ result nodeFound outFound rfl result.value,
      case_set_same index output _ nodeFound outFound rfl (case.type.coerce_settles given)]

end Graph

/-- Casting twice is casting once, so what a variable or a case was set to stays when it is set to its own content. A content
that nobody has written yet, such as an initial value of another type, changes to its coercion. -/
theorem casting_normalizes {σ : Type} :
    (∀ (type : PinType) (value result : Value), type.cast? value = some result → type.cast? result = some result) ∧
    (∀ (type : PinType) (value : Value), type.coerce (type.coerce value) = type.coerce value) ∧
    (∀ type : PinType, type.coerce type.defaultValue = type.defaultValue) ∧
    (∀ (job : Job) (reference : Reference) (run : Run σ) (content : Value), run.readVariable job reference = .ok content →
      ∃ type after, run.variableType? job reference = some type ∧ run.writeVariable job reference content = .ok after ∧
        after.readVariable job reference = .ok (type.coerce content) ∧ (after = run ↔ type.coerce content = content)) ∧
    (∀ (job : Job) (reference : Reference) (run after : Run σ) (given : Value),
      run.writeVariable job reference given = .ok after →
      ∃ content, after.readVariable job reference = .ok content ∧ after.writeVariable job reference content = .ok after ∧
        (job.locals.length ≤ run.frame.stack.length →
          ∀ type, run.variableType? job reference = some type → content = type.coerce given)) ∧
    ∀ (index output : Nat) (given : Value) (graph after : Graph), graph.setCase index output given = .ok after →
      ∃ case, after.case? index output = some case ∧ case.value = case.type.coerce given ∧
        after.setCase index output case.value = .ok after := by
  refine ⟨PinType.cast_settles, PinType.coerce_settles, PinType.coerce_default, ?_, ?_, ?_⟩
  · intro job reference run content reads
    exact run.rewrite_read job reference reads
  · intro job reference run after given written
    exact run.reread_written job reference written
  · intro index output given graph after written
    exact graph.set_case_settles index output written

def runWith (entry : Variable) : Run Unit := ⟨⟨[], [], [], none⟩, Env.start [entry] [] ()⟩

def mixedLevels : Value := .array [.int 1, .float (Float.ofBits 0x3fe0000000000000)]

/-- Numbers of both kinds in one array become floats at the first write, and stay. -/
theorem mixed_levels_settle :
    let run := runWith ⟨Guid.zero, "levels", .array .float, mixedLevels⟩
    let job : Job := ⟨[], [], []⟩
    let floats := (PinType.array .float).coerce mixedLevels
    (PinType.array .float).cast? floats = some floats ∧
    ∃ after, run.writeVariable job (.live Guid.zero) mixedLevels = .ok after ∧
      after.readVariable job (.live Guid.zero) = .ok floats ∧ after.writeVariable job (.live Guid.zero) floats = .ok after := by
  intro run job floats
  obtain ⟨casting, _, _, rewriting, writing, _⟩ := @casting_normalizes Unit
  obtain ⟨type, after, typed, written, reads, _⟩ := rewriting job (.live Guid.zero) run mixedLevels rfl
  cases typed
  obtain ⟨content, found, again, _⟩ := writing job (.live Guid.zero) run after mixedLevels written
  cases reads.symm.trans found
  exact ⟨casting (.array .float) mixedLevels floats rfl, after, written, reads, again⟩

/-- An integer that a variable for floats holds from the beginning does not stay when it is written back. -/
theorem initial_content_changes :
    ¬ ∀ (job : Job) (reference : Reference) (run : Run Unit) (content : Value),
      run.readVariable job reference = .ok content → run.writeVariable job reference content = .ok run := by
  intro unchanged
  have same := unchanged ⟨[], [], []⟩ (.live Guid.zero) (runWith ⟨Guid.zero, "level", .float, .int 1⟩) (.int 1) rfl
  have kinds := congrArg (fun result => result.toOption.map fun after => after.env.vars.map (·.value.kindName)) same
  exact absurd kinds (by decide)

end Patchbay
