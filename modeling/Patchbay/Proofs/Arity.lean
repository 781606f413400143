import Patchbay.Proofs.CallSites

set_option autoImplicit false

namespace Patchbay

variable {σ : Type}

def ScriptError.isCount : ScriptError → Bool
  | .parameterCountMismatch _ _ | .outputCountMismatch _ _ _ => true
  | _ => false

section Counts

theorem gather_count {limits : Limits} {job : Job} (pull : Nat → Run σ → Except ScriptError (Option Nat) × Run σ) {depth : Nat}
    {pins : List InputPin} (run : Run σ) {ready : Run σ} (values : List Value)
    (gathered : gather limits job pull depth pins run = (.ok values, ready)) : values.length = pins.length := by
  induction pins generalizing run values with
  | nil =>
    cases gathered
    rfl
  | cons pin rest ih =>
    rw [gather] at gathered
    split at gathered
    · cases gathered
    · next value between _ =>
        split at gathered
        · cases gathered
        · next others last read =>
            cases gathered
            exact congrArg (· + 1) (ih between others read)

theorem fit_count (body : Body) (values : List Value) : (body.fitOutputs values).length = body.outputs.length := by
  simp only [Body.fitOutputs, List.length_append, List.length_take, List.length_replicate]
  omega

theorem results_count (body : Body) (outcome : Outcome) : (body.results outcome).length = body.outputs.length := by
  rw [Body.results]
  split
  · split <;> exact fit_count body _
  · exact fit_count body _

theorem call_with_count {runner : Runner σ} {arguments : List Value} {body : Body} {env : Env σ} {values : List Value}
    (called : (body.callWith runner arguments env).1 = .ok values) : values.length = body.outputs.length := by
  unfold Body.callWith at called
  split at called
  · cases called
  · split at called
    · cases called
    · split at called
      · cases called
      · cases called
        exact results_count body _

theorem structure_failure {body : Body} {cause : ScriptError} (checked : body.checkStructure = .error cause) :
    ∃ index kind other, cause = .unexpectedNode index kind other := by
  have expected (index : Nat) (kind : NodeKind) (failed : expectKind index kind body.graph = .error cause) :
      ∃ index kind other, cause = .unexpectedNode index kind other := by
    unfold expectKind at failed
    split at failed
    · cases failed
      exact ⟨_, _, _, rfl⟩
    · split at failed <;> cases failed
      exact ⟨_, _, _, rfl⟩
  unfold Body.checkStructure at checked
  cases entered : expectKind entryNode .functionEntry body.graph with
  | error =>
    rw [entered] at checked
    cases checked
    exact expected entryNode .functionEntry entered
  | ok =>
    rw [entered] at checked
    exact expected returnNode .functionReturn checked

end Counts

def Stage.Signed (signatures : List (Guid × Signature)) : Stage σ → Prop
  | .activates _ job _ _ _ _ | .reads _ job _ _ _ | .follows _ job _ _ _ _ =>
    ∀ call ∈ job.nodes.filterMap Node.call?, call ∈ signatures
  | .calls _ _ _ _ => True
  | .enters _ _ body _ => ∀ call ∈ body.graph.calls, call ∈ signatures
  | .runs _ _ _ graph _ => ∀ call ∈ graph.calls, call ∈ signatures

theorem wiped_sites (graph : Graph) : graph.wiped.sites = graph.sites := by
  rw [Graph.sites, Graph.wiped, List.map_map]
  rfl

theorem wiped_same {function callee : Function} (alike : function.wiped = callee.wiped) :
    callee.body.signature = function.body.signature ∧ callee.body.graph.calls = function.body.graph.calls := by
  have sites : callee.body.graph.sites = function.body.graph.sites := by
    rw [← wiped_sites callee.body.graph, ← wiped_sites function.body.graph]
    exact congrArg (fun function : Function => function.body.graph.sites) alike.symm
  have signature := congrArg (fun function : Function => function.body.signature) alike.symm
  refine ⟨signature, ?_⟩
  rw [Graph.calls_of_sites, sites, ← Graph.calls_of_sites]

variable {host : Host σ} {script : Script} {calls : List ActiveCall} {world : σ} {whole : Stage σ} {env : Env σ}
  {node : Node} {guid : Guid} {level index depth : Nat} {arguments values : List Value} {cause : ScriptError}
  {result : Except ScriptError (List Value)} {next : Option Nat} {job : Job} {activation : Activation} {run : Run σ}

theorem set_off_signed (matched : script.CallsMatch) {outer inner : Stage σ}
    {opened : List ActiveCall} (leads : SetsOff host outer opened inner)
    (inside : InCalls host.limits script.functions calls outer.env) (signed : outer.Signed script.signatures) :
    inner.Signed script.signatures := by
  cases leads with
  | reads | pulls | next | visits | goes | enters => exact signed
  | calls => exact trivial
  | takes level guid arguments env place callee idle shallow found there =>
    intro call member
    rcases callee_origin inside idle found there with
      ⟨_, rfl⟩ | ⟨function, listed, _, alike⟩
    · cases member
    · rw [(wiped_same alike).2] at member
      exact matched _ (List.mem_append_right _ (List.mem_map_of_mem listed)) call member
  | begins level start arguments graph ready env inside prepared =>
    obtain ⟨size, _, rfl⟩ := prepare_ok prepared
    exact signed

theorem within_signed (matched : script.CallsMatch) {part : Stage σ} (begins : whole.env = script.env world)
    (signed : whole.Signed script.signatures) (within : Within host whole calls part) :
    InCalls host.limits script.functions calls part.env ∧ part.Signed script.signatures := by
  induction within with
  | whole =>
    rw [begins]
    exact ⟨.start (script.env world) rfl, signed⟩
  | part calls opened outer inner _ leads ih =>
    exact ⟨.set_off leads ih.1, set_off_signed matched leads ih.1 ih.2⟩

theorem begins_signed (matched : script.CallsMatch) {invocation : Invocation} (begins : script.Begins host world invocation whole) :
    whole.env = script.env world ∧ whole.Signed script.signatures := by
  cases begins with
  | event index arguments event found =>
    exact ⟨rfl, matched _ (Script.graph_listed (.event index) script (by rw [Script.graph?, found]; rfl))⟩
  | function => exact ⟨rfl, trivial⟩
  | interface interface name arguments function member =>
    exact ⟨rfl, matched _ (List.mem_append_left _ (List.mem_append_right _ (List.mem_map_of_mem member)))⟩

theorem callee_signature {limits : Limits} (distinct : script.functionIds.Nodup)
    (inside : InCalls limits script.functions calls env)
    (signed : (guid, node.signature) ∈ script.signatures) (named : guid ≠ Guid.zero) (idle : guid ∉ env.callStack) (place : Nat)
    (callee : Function) (found : env.functions.findIdx? (·.guid == guid) = some place)
    (there : env.functions[place]? = some callee) :
    callee.body.inputs.length = node.inputs.length ∧ callee.body.outputs.length = node.outputs.length := by
  rcases callee_origin inside idle found there with
    ⟨zero, _⟩ | ⟨function, listed, same, alike⟩
  · exact absurd zero named
  · have own : (function.guid, function.body.signature) ∈ script.signatures := List.mem_map_of_mem listed
    have signature := congrArg Prod.snd (script.signature_unique distinct own signed same)
    rw [← (wiped_same alike).1] at signature
    have inputs := congrArg (·.inputs.length) signature
    have outputs := congrArg (·.outputs.length) signature
    simp only [Node.signature, List.length_map] at inputs outputs
    exact ⟨inputs, outputs⟩

theorem enters_fails_inside {body : Body} (taken : arguments.length = body.inputs.length)
    (count : cause.isCount = true) (failed : (Stage.enters level arguments body env).failure host = some cause) :
    SetsOff host (.enters level arguments body env) [] (.runs level entryNode arguments body.graph env) ∧
      (Stage.runs level entryNode arguments body.graph env).failure host = some cause := by
  dsimp only [Stage.failure] at failed
  unfold Body.callWith at failed
  split at failed
  · next stop checked =>
      cases failed
      obtain ⟨index, kind, other, rfl⟩ := structure_failure checked
      cases count
  · next checked =>
      rw [if_neg (not_not_intro taken)] at failed
      refine ⟨.enters level arguments body env checked taken, ?_⟩
      dsimp only [Stage.failure]
      split at failed
      · next outcome =>
          rw [outcome]
          exact failed
      · cases failed

def Stage.isDeeper : Stage σ → Bool
  | .reads _ _ _ _ _ | .runs _ _ _ _ _ => true
  | _ => false

theorem call_fails_inside
    (taken : ∀ place callee, guid ∉ env.callStack → env.functions.findIdx? (·.guid == guid) = some place →
      env.functions[place]? = some callee → arguments.length = callee.body.inputs.length) (count : cause.isCount = true)
    (failed : (Stage.calls level guid arguments env).failure host = some cause) :
    ∃ opened inner, Within host (.calls level guid arguments env) opened inner ∧ inner.isDeeper = true ∧
      inner.failure host = some cause := by
  obtain refused | ⟨opened, inner, leads, fails⟩ := failure_traced failed
  · cases refused <;> cases count
  · cases leads with
    | takes level guid arguments env place callee idle shallow found there =>
      have takes : SetsOff host _ _ _ := .takes level guid arguments env place callee idle shallow found there
      obtain ⟨enters, fails⟩ := enters_fails_inside (taken place callee idle found there) count fails
      exact ⟨_, _, .part _ _ _ _ (.part _ _ _ _ .whole takes) enters, rfl, fails⟩

theorem call_gives {after : Env σ} (called : callAt host level guid arguments env = (.ok values, after)) :
    ∃ place callee, guid ∉ env.callStack ∧ env.functions.findIdx? (·.guid == guid) = some place ∧
      env.functions[place]? = some callee ∧ values.length = callee.body.outputs.length := by
  unfold callAt callFunctionWith at called
  split at called
  · cases called
  · next idle =>
      split at called
      · cases called
      · split at called
        · cases called
        · next place found =>
            split at called
            · cases called
            · next callee there =>
                have result := congrArg Prod.fst called
                exact ⟨place, callee, by simpa using idle, found, there, call_with_count result⟩

theorem performed_call (host : Host σ) (call : Call σ) (job : Job) (index : Nat) (activation : Activation)
    (inputs : List Value) (run : Run σ) (kind : node.kind = .callFunction guid) :
    (perform host call job index node activation inputs run).1 = (call guid inputs run.env).1.map (·, some 0) := by
  rw [call_function_performed host call job index activation inputs run kind, consult]
  split <;> next outcome => rw [outcome]; rfl

theorem mapped_error (failed : result.map (·, next) = .error cause) : result = .error cause := by
  cases result with
  | error =>
    cases failed
    rfl
  | ok => cases failed

theorem mapped_ok {pin : Option Nat} (gives : result.map (·, pin) = .ok (values, next)) : result = .ok values := by
  cases result with
  | error => cases gives
  | ok =>
    cases gives
    rfl

theorem call_node_failure (found : job.nodes[index]? = some node) (kind : node.kind = .callFunction guid)
    (count : cause.isCount = true)
    (failed : (Stage.activates (level + 1) job index activation depth run).failure host = some cause) :
    let part : Stage σ := .activates (level + 1) job index activation depth run
    (∃ inner, SetsOff host part [] inner ∧ inner.isDeeper = true ∧ inner.failure host = some cause) ∨
      ∃ inputs env, SetsOff host part [] (.calls level guid inputs env) ∧ inputs.length = node.inputs.length ∧
        ((Stage.calls level guid inputs env).failure host = some cause ∨ ∃ outputs after, outputs.length ≠ node.outputs.length ∧
          callAt host level guid inputs env = (.ok outputs, after)) := by
  dsimp only [Stage.failure] at failed
  rw [activate] at failed
  split at failed
  · next stop env stopped =>
      cases failed
      rw [step_stopped stopped] at count
      cases count
  · next env counted =>
      rw [found] at failed
      dsimp only at failed
      split at failed
      · next stop ready gathered =>
          cases failed
          refine .inl ⟨_, .reads level job index activation depth run env node counted found, rfl, ?_⟩
          dsimp only [Stage.failure]
          rw [gathered]
          rfl
      · next inputs ready gathered =>
          have performed := performed_call host (callAt host level) job index activation inputs ready kind
          refine .inr ⟨inputs, ready.env, .calls level job index activation depth run ready env node inputs guid counted found
            gathered kind, gather_count _ _ _ gathered, ?_⟩
          split at failed
          · next stop given outcome =>
              cases failed
              have called := mapped_error (performed.symm.trans (congrArg Prod.fst outcome))
              refine .inl ?_
              dsimp only [Stage.failure]
              rw [called]
              rfl
          · next outputs next given outcome =>
              have called := mapped_ok (performed.symm.trans (congrArg Prod.fst outcome))
              refine .inr ⟨outputs, _, fun stored => ?_, Prod.ext called rfl⟩
              rw [storeOutputs, if_neg (not_not_intro stored)] at failed
              by_cases small : given.frame.stack.length < node.base + outputs.length
              · rw [if_pos small] at failed
                cases failed
                cases count
              · rw [if_neg small] at failed
                cases failed

theorem call_node_fails_inside (distinct : script.functionIds.Nodup)
    (inside : InCalls host.limits script.functions calls run.env)
    (signed : (Stage.activates level job index activation depth run).Signed script.signatures)
    (found : job.nodes[index]? = some node) (kind : node.kind = .callFunction guid) (named : guid ≠ Guid.zero)
    (count : cause.isCount = true)
    (failed : (Stage.activates level job index activation depth run).failure host = some cause) :
    ∃ opened inner, Within host (.activates level job index activation depth run) opened inner ∧ inner.isDeeper = true ∧
      inner.failure host = some cause := by
  cases level with
  | zero =>
    cases failed
    cases count
  | succ =>
    have listed : (guid, node.signature) ∈ script.signatures :=
      signed _ (List.mem_filterMap.mpr ⟨node, List.mem_of_getElem? found, node.call_of_kind kind⟩)
    rcases call_node_failure found kind count failed with
      ⟨inner, leads, deeper, fails⟩ | ⟨inputs, env, leads, given, fails⟩
    · exact ⟨_, inner, .part _ _ _ _ .whole leads, deeper, fails⟩
    · have fits := callee_signature distinct (InCalls.set_off leads inside) listed named
      rcases fails with fails | ⟨outputs, after, unequal, called⟩
      · obtain ⟨opened, inner, within, deeper, fails⟩ := call_fails_inside
          (fun place callee idle found there => given.trans (fits idle place callee found there).1.symm) count fails
        exact ⟨_, inner, within_set_off leads within, deeper, fails⟩
      · obtain ⟨place, callee, idle, found, there, gives⟩ := call_gives called
        exact absurd (gives.trans (fits idle place callee found there).2) unequal

/-- While a script is edited, its calls have the names and types of the parameters of their functions at every point, unless a
call is pasted that was copied before its function changed: exactly then they are out of line. What was copied from a script
with its calls in line has the signatures of that moment, and a function that is rebuilt mends all calls of it. With its calls
in line no call finds fault with the number of values, neither of those it hands over nor of those it gets; a fault of that
kind comes up where an input is read, or in the graph of the function that is called. -/
theorem calls_match_unless_outdated (script : Script) (orderly : script.Orderly) (matched : script.CallsMatch)
    (history : List Move) :
    let desk := history.foldl Desk.after ⟨script, []⟩
    (Desk.neverOutdated ⟨script, []⟩ history = true → desk.script.CallsMatch) ∧
    (desk.script.CallsMatch → ∀ move, (desk.after move).script.CallsMatch ↔ desk.outdated move = false) ∧
    (∀ clip ∈ desk.clips, Desk.Copied history ⟨script, []⟩ clip ∧ (clip.origin.CallsMatch →
      ∀ call ∈ Graph.clippedCalls clip.text, call ∈ clip.origin.signatures)) ∧
    (∀ guid ∈ desk.script.functionIds, ∀ inputs outputs,
      let mended := (desk.after (.reshape guid inputs outputs)).script
      ∀ graph ∈ mended.graphs, ∀ call ∈ graph.calls, call.1 = guid → call ∈ mended.signatures) ∧
    (desk.script.CallsMatch → ∀ {σ : Type} (host : Host σ) (world : σ) (invocation : Invocation) (whole : Stage σ),
      desk.script.Begins host world invocation whole →
      ∀ calls level job index activation depth run node guid cause,
        let part : Stage σ := .activates level job index activation depth run
        Within host whole calls part → job.nodes[index]? = some node → node.kind = .callFunction guid → guid ≠ Guid.zero →
        cause.isCount = true → part.failure host = some cause →
        ∃ opened inner, Within host part opened inner ∧ inner.isDeeper = true ∧ inner.failure host = some cause) := by
  intro desk
  have tidy : desk.script.Orderly := Desk.history_orderly history ⟨script, []⟩ orderly
  refine ⟨Desk.history_match history ⟨script, []⟩ orderly matched, desk.after_match tidy, ?_, ?_, ?_⟩
  · intro clip inside
    rcases Desk.history_clips ⟨script, []⟩ inside with none | copied
    · cases none
    · obtain ⟨address, selection, made⟩ := copied.copied
      exact ⟨copied, clip.calls_signed made⟩
  · intro guid known inputs outputs
    exact Script.reshape_mends inputs outputs tidy known
  · intro fitting σ host world invocation whole begins calls level job index activation depth run node guid cause part within
      found kind named count failed
    obtain ⟨start, signed⟩ := begins_signed fitting begins
    obtain ⟨inside, signed⟩ := within_signed fitting start signed within
    exact call_node_fails_inside tidy.distinct inside signed found kind named count failed

def nestedClipping : List Node :=
  let graph := (callingBody ⟨2⟩).graph
  (graph.originals [2] []).map fun entry =>
    graph.clipping [2] [] (reread Document.ofNumeral) (rereadSingle Document.ofNumeral) entry.2

theorem nested_copied :
    ∃ text, Desk.after ⟨nested ⟨2⟩, []⟩ (.copy (.function ⟨1⟩) [2]) = ⟨nested ⟨2⟩, [⟨text, nested ⟨2⟩⟩]⟩ ∧
      Graph.clipboardNodes? Document.parse? text = some nestedClipping := by
  obtain ⟨text, copied, read⟩ := (callingBody ⟨2⟩).graph.copy_read [2] [] (by decide +kernel) (by decide +kernel)
    (Graph.clipboard_survives _ (by decide +kernel))
  have given : (nested ⟨2⟩).copyNodes (.function ⟨1⟩) [2] = .ok text := copied
  refine ⟨text, ?_, read⟩
  rw [Desk.after, given]
  rfl

theorem paste_adopts (address : GraphAddress) {text : String} (offset : Position) (script : Script) {nodes : List Node}
    (read : Graph.clipboardNodes? Document.parse? text = some nodes) : (Script.Change.pasteNodes address text offset).apply script =
      script.modifyGraph address fun graph => graph.adoptNodes
        (keepResolved (Graph.adoptNode? script.vars script.functionIds graph.locals)
          ((List.range nodes.length).zip nodes)) offset := by
  rw [Script.paste_edits]
  simp only [Edit.pasteNodes, Edit.pasteNodesWith, read]

/-- A call is copied and pasted beside itself. Then its function gets a parameter, which both calls follow. -/
theorem pasted_calls_follow :
    let history : List Move := [.copy (.function ⟨1⟩) [2], .paste (.function ⟨1⟩) 0 Node.origin,
      .reshape ⟨2⟩ (some [⟨"Amount", .int⟩]) none, .compile]
    let desk := history.foldl Desk.after ⟨nested ⟨2⟩, []⟩
    (nested ⟨2⟩).Orderly ∧ (nested ⟨2⟩).CallsMatch ∧ Desk.neverOutdated ⟨nested ⟨2⟩, []⟩ history = true ∧
      desk.script.CallsMatch ∧ desk.script.graphs.map (·.calls) =
        [[(⟨2⟩, ⟨[⟨"Amount", .int⟩], []⟩), (⟨2⟩, ⟨[⟨"Amount", .int⟩], []⟩)], []] := by
  intro history desk
  obtain ⟨text, first, read⟩ := nested_copied
  have orderly : (nested ⟨2⟩).Orderly := ⟨by decide +kernel, by decide +kernel⟩
  have matched : (nested ⟨2⟩).CallsMatch := by decide +kernel
  have current : Desk.neverOutdated ⟨nested ⟨2⟩, []⟩ history = true := by
    have fitting : (nested ⟨2⟩).current text = true := by
      rw [Script.current, Graph.clippedCalls, read]
      decide +kernel
    simp only [history, Desk.neverOutdated, first, Desk.outdated, List.getElem?_cons_zero, Option.any_some, fitting]
    rfl
  obtain ⟨follow, _⟩ := calls_match_unless_outdated (nested ⟨2⟩) orderly matched history
  refine ⟨orderly, matched, current, follow current, ?_⟩
  simp only [desk, history, List.foldl_cons, List.foldl_nil, first]
  simp only [Desk.after, List.getElem?_cons_zero, paste_adopts (.function ⟨1⟩) Node.origin (nested ⟨2⟩) read]
  decide +kernel

/-- A call is copied, its function gets a parameter, and the copy is pasted into the way of control, where it fails. -/
theorem outdated_call_pasted :
    let history : List Move := [.copy (.function ⟨1⟩) [2], .reshape ⟨2⟩ (some [⟨"Amount", .int⟩]) none,
      .paste (.function ⟨1⟩) 0 Node.origin, .connectExec (.function ⟨1⟩) 0 0 3 0, .compile]
    let desk := history.foldl Desk.after ⟨nested ⟨2⟩, []⟩
    let services : Services Unit := ⟨Catalog.empty, fun _ _ => none⟩
    (nested ⟨2⟩).CallsMatch ∧ ¬ desk.script.CallsMatch ∧
      failureOf (desk.script.call services ⟨1⟩ [] ()).1 = some (.parameterCountMismatch 1 0) := by
  intro history desk services
  obtain ⟨text, first, read⟩ := nested_copied
  refine ⟨by decide +kernel, ?_⟩
  simp only [desk, history, List.foldl_cons, List.foldl_nil, first]
  simp only [Desk.after, Desk.edit, List.getElem?_cons_zero, paste_adopts (.function ⟨1⟩) Node.origin _ read]
  decide +kernel

end Patchbay
