import Patchbay.Proofs.Counting
import Patchbay.Proofs.Depth

set_option autoImplicit false

namespace Patchbay

def drawn? (nodes : List Node) (pin : InputPin) : Option Nat :=
  (pin.source.map (·.node)).filter fun source => (nodes[source]?).any Node.isImplicit

theorem drawn_iff (nodes : List Node) (pin : InputPin) (source : Nat) : drawn? nodes pin = some source ↔
    ∃ output feeder, pin.source = some ⟨source, output⟩ ∧ nodes[source]? = some feeder ∧ feeder.isImplicit = true := by
  unfold drawn?
  rw [Option.filter_eq_some_iff, Option.map_eq_some_iff]
  constructor
  · rintro ⟨⟨⟨_, output⟩, fed, rfl⟩, implicit⟩
    obtain ⟨feeder, found, passive⟩ := (Option.any_eq_true _ _).mp implicit
    exact ⟨output, feeder, fed, found, passive⟩
  · rintro ⟨output, feeder, fed, found, implicit⟩
    exact ⟨⟨_, fed, rfl⟩, by rw [found, Option.any_some, implicit]⟩

variable {pin : InputPin} {nodes : List Node}

theorem drawn_of_pulls {job : Job} {source : PinSource} (fed : pin.source = some source)
    (implicit : job.pulls source.node = true) : drawn? job.nodes pin = some source.node := by
  have passive : (job.nodes[source.node]?).any Node.isImplicit = true := by
    rw [← implicit, Job.pulls]
    cases job.nodes[source.node]? <;> rfl
  rw [drawn?, fed, Option.map_some, Option.filter_some, passive]
  rfl

theorem draws_of_drawn {reader : Node} (among : pin ∈ reader.inputs) {source : Nat}
    (drawn : drawn? nodes pin = some source) : ∃ feeder, Draws nodes reader source feeder := by
  obtain ⟨output, feeder, fed, found, implicit⟩ := (drawn_iff nodes pin source).mp drawn
  exact ⟨feeder, ⟨pin, among, output, fed⟩, found, implicit⟩

def drawnSum (nodes : List Node) (cost : Nat → Nat) (pins : List InputPin) : Nat :=
  ((pins.filterMap (drawn? nodes)).map cost).foldr (· + ·) 0

/-- The activations that one of a node takes, itself among them, as far as nodes are read through no more than `bound`
others. -/
def costWithin (nodes : List Node) : Nat → Nat → Nat
  | 0, _ => 0
  | bound + 1, index => 1 + drawnSum nodes (costWithin nodes bound) (((nodes[index]?).map (·.inputs)).getD [])

/-- No way without a repetition is longer than there are nodes. -/
def cost (nodes : List Node) (index : Nat) : Nat := costWithin nodes nodes.length index

/-- A way from some inputs to an implicit node, all of it through implicit nodes: the place of each input that it takes. -/
inductive Path (nodes : List Node) : List InputPin → List Nat → Nat → Prop where
  | last (pins : List InputPin) (place : Nat) (pin : InputPin) (target : Nat) (there : pins[place]? = some pin)
      (drawn : drawn? nodes pin = some target) : Path nodes pins [place] target
  | via (pins : List InputPin) (place : Nat) (pin : InputPin) (source : Nat) (feeder : Node) (rest : List Nat) (target : Nat)
      (there : pins[place]? = some pin) (drawn : drawn? nodes pin = some source) (found : nodes[source]? = some feeder)
      (further : Path nodes feeder.inputs rest target) : Path nodes pins (place :: rest) target

/-- What is noted while some inputs are read, in its order, with the values that are read. An input that is connected to an
implicit node sees what this node gives in an activation that is made for it and has read its own inputs just before. -/
inductive Reads (nodes : List Node) (calls : List Guid) : List InputPin → List Value → List TraceEntry → Prop where
  | done : Reads nodes calls [] [] []
  | still (pin : InputPin) (rest : List InputPin) (value : Value) (values : List Value) (notes : List TraceEntry)
      (undrawn : drawn? nodes pin = none) (literal : pin.source = none → value = pin.literal)
      (further : Reads nodes calls rest values notes) : Reads nodes calls (pin :: rest) (value :: values) notes
  | drawn (pin : InputPin) (rest : List InputPin) (source : PinSource) (feeder : Node) (inputs outputs : List Value)
      (next : Option Nat) (value : Value) (values : List Value) (inner notes : List TraceEntry)
      (fed : pin.source = some source) (found : nodes[source.node]? = some feeder) (implicit : feeder.isImplicit = true)
      (before : Reads nodes calls feeder.inputs inputs inner) (sees : outputs[source.parameter]? = some value)
      (further : Reads nodes calls rest values notes) :
      Reads nodes calls (pin :: rest) (value :: values)
        (.began ⟨calls, source.node, .pulled⟩ :: inner ++
          .ended ⟨calls, source.node, .pulled⟩ inputs outputs next :: notes)

def TraceEntry.begins : TraceEntry → Option Nat
  | .began visit => some visit.node
  | .ended _ _ _ _ => none

def begun (notes : List TraceEntry) : List Nat := notes.filterMap TraceEntry.begins

theorem begun_append (notes more : List TraceEntry) : begun (notes ++ more) = begun notes ++ begun more := List.filterMap_append

theorem begun_between (visit : Visit) (inner notes : List TraceEntry) (inputs outputs : List Value) (next : Option Nat) :
    begun (.began visit :: inner ++ .ended visit inputs outputs next :: notes) = visit.node :: (begun inner ++ begun notes) := by
  rw [begun_append]
  rfl

theorem reads_cons {calls : List Guid} {rest : List InputPin} {value : Value}
    {values : List Value} {notes more : List TraceEntry} (first : Reads nodes calls [pin] [value] notes)
    (further : Reads nodes calls rest values more) : Reads nodes calls (pin :: rest) (value :: values) (notes ++ more) := by
  cases first with
  | still _ _ _ _ _ undrawn literal last =>
    cases last
    exact .still pin rest value values more undrawn literal further
  | drawn _ _ source feeder inputs outputs next _ _ inner _ fed found implicit before sees last =>
    cases last
    rw [List.append_assoc]
    exact .drawn pin rest source feeder inputs outputs next value values inner more fed found implicit before sees further

section Machine

variable {σ : Type}

structure Logged (before after : Env σ) (notes : List TraceEntry) : Prop where
  calls : after.callStack = before.callStack
  trace : after.trace = notes.reverse ++ before.trace
  steps : after.steps = before.steps + (begun notes).length

namespace Logged

variable {a b c : Env σ} {notes more : List TraceEntry}

theorem refl (env : Env σ) : Logged env env [] := ⟨rfl, rfl, rfl⟩

theorem trans (first : Logged a b notes) (second : Logged b c more) : Logged a c (notes ++ more) where
  calls := second.calls.trans first.calls
  trace := by rw [second.trace, first.trace, List.reverse_append, List.append_assoc]
  steps := by rw [second.steps, first.steps, begun_append, List.length_append, Nat.add_assoc]

theorem ended (env : Env σ) (visit : Visit) (inputs outputs : List Value) (next : Option Nat) :
    Logged env (env.note (.ended visit inputs outputs next)) [.ended visit inputs outputs next] := ⟨rfl, rfl, rfl⟩

theorem began {limits : Limits} {env counted : Env σ} (visit : Visit) (stepped : env.step limits = (.ok (), counted)) :
    Logged env (counted.note (.began visit)) [.began visit] := by
  cases (Prod.mk.inj stepped).2
  exact ⟨rfl, rfl, rfl⟩

end Logged

theorem performed_silently (host : Host σ) (level : Nat) (job : Job) (index : Nat) (node : Node) (activation : Activation)
    (inputs : List Value) (run : Run σ) (other : ∀ function, node.kind ≠ .callFunction function) :
    Logged run.env (perform host (callAt host level) job index node activation inputs run).2.env [] := by
  have quiet := performed_quiet host level job index activation (activate_quiet host level) node inputs run.env run (.refl _)
  have uncounted := perform_uncounted host (callAt host level) job index node activation inputs run other
  exact ⟨quiet.calls, uncounted.trace, uncounted.steps⟩

theorem store_outputs_kept (index : Nat) (node : Node) (outputs : List Value) (run stored : Run σ)
    (kept : storeOutputs index node outputs run = (.ok (), stored)) (parameter : Nat) (inside : parameter < node.outputs.length) :
    ∃ value, outputs[parameter]? = some value ∧ stored.frame.stack[node.base + parameter]? = some value := by
  unfold storeOutputs at kept
  split at kept
  · cases kept
  · next same =>
      rw [not_not] at same
      split at kept
      · cases kept
      · next room =>
          cases kept
          refine ⟨outputs[parameter], List.getElem?_eq_getElem (by omega), ?_⟩
          dsimp only
          rw [write_slots_inside (by omega) (by omega) (by omega), Nat.add_sub_cancel_left]
          exact List.getElem?_eq_getElem (by omega)

variable (host : Host σ) (graph : Graph) (arguments : List Value) (origin : Node)

def GathersRead (level : Nat) : Prop :=
  ∀ chain reader, Chain graph.nodes origin chain reader → reader ∈ graph.nodes → ∀ depth pins, pins ⊆ reader.inputs →
    ∀ run values after,
      gather host.limits (graph.job arguments) (pullAt host level (graph.job arguments) depth) depth pins run =
        (.ok values, after) →
      ∃ notes, Reads graph.nodes run.env.callStack pins values notes ∧ Logged run.env after.env notes

def Uncalling (nodes : List Node) (node : Node) : Prop :=
  ∀ chain source feeder, Chain nodes node (chain ++ [source]) feeder → ∀ function, feeder.kind ≠ .callFunction function

variable {level depth : Nat} {chain : List Nat} {run after : Run σ} {pin : InputPin} {value : Value}

theorem pulled_reads (gathers : GathersRead host graph arguments origin level)
    (uncalling : Uncalling graph.nodes origin) {source : Nat} {feeder : Node}
    (reaches : Chain graph.nodes origin (chain ++ [source]) feeder) (found : graph.nodes[source]? = some feeder) {next : Option Nat}
    (done : activate host (level + 1) (graph.job arguments) source .pulled depth run = (.ok next, after)) :
    ∃ inputs outputs inner, Reads graph.nodes run.env.callStack feeder.inputs inputs inner ∧
      Logged run.env after.env (.began ⟨run.env.callStack, source, .pulled⟩ :: inner ++
        [.ended ⟨run.env.callStack, source, .pulled⟩ inputs outputs next]) ∧
      ∀ parameter < feeder.outputs.length, ∃ value,
        outputs[parameter]? = some value ∧ after.frame.stack[feeder.base + parameter]? = some value := by
  obtain ⟨env, node, inputs, ready, outputs, given, stored, stepped, there, gathered, performed, kept, rfl⟩ :=
    activate_ok done
  cases found.symm.trans there
  have began := Logged.began ⟨env.callStack, source, .pulled⟩ stepped
  have same : env.callStack = run.env.callStack := began.calls
  obtain ⟨inner, reads, gone⟩ := gathers _ feeder reaches (List.mem_of_getElem? found) depth feeder.inputs
    (List.Subset.refl _) _ inputs ready gathered
  have silent := performed_silently host level (graph.job arguments) source feeder .pulled inputs ready
    (uncalling chain source feeder reaches)
  have stayed := store_outputs_env source feeder outputs given
  rw [performed] at silent
  rw [kept] at stayed
  rw [← stayed] at silent
  have whole := ((began.trans gone).trans silent).trans
    (.ended stored.env ⟨env.callStack, source, .pulled⟩ inputs outputs next)
  rw [List.append_nil] at whole
  rw [← same]
  exact ⟨inputs, outputs, inner, reads, whole, store_outputs_kept source feeder outputs given stored kept⟩

theorem read_undrawn {limits : Limits} {job : Job} (pull : Nat → Run σ → Except ScriptError (Option Nat) × Run σ)
    (undrawn : drawn? job.nodes pin = none) (read : readInput limits job pull depth pin run = (.ok value, after)) :
    after = run ∧ (pin.source = none → value = pin.literal) := by
  cases fed : pin.source with
  | none =>
    rw [readInput, fed] at read
    cases read
    exact ⟨rfl, fun _ => rfl⟩
  | some source =>
    have explicit : job.pulls source.node = false := by
      rw [← Bool.not_eq_true]
      intro implicit
      cases (drawn_of_pulls fed implicit).symm.trans undrawn
    refine ⟨?_, fun connected => by cases connected⟩
    unfold readInput at read
    rw [fed] at read
    cases resolved : pin.slot with
    | none =>
      rw [resolved] at read
      cases read
      rfl
    | some slot =>
      rw [resolved] at read
      dsimp only at read
      rw [explicit] at read
      cases read
      rfl

theorem read_reads (laid : graph.LaidOut) (uncalling : Uncalling graph.nodes origin)
    (gathers : ∀ below < level, GathersRead host graph arguments origin below) {reader : Node}
    (reaches : Chain graph.nodes origin chain reader) (inside : reader ∈ graph.nodes)
    (among : pin ∈ reader.inputs)
    (read : readInput host.limits (graph.job arguments) (pullAt host level (graph.job arguments) depth) depth pin run =
      (.ok value, after)) :
    ∃ notes, Reads graph.nodes run.env.callStack [pin] [value] notes ∧ Logged run.env after.env notes := by
  cases drawn : drawn? graph.nodes pin with
  | none =>
    obtain ⟨rfl, literal⟩ := read_undrawn _ drawn read
    exact ⟨[], .still pin [] value [] [] drawn literal .done, .refl _⟩
  | some source =>
    obtain ⟨output, feeder, fed, found, implicit⟩ := (drawn_iff graph.nodes pin source).mp drawn
    obtain ⟨resolved, slotted⟩ := laid_out_input laid inside among
    rw [fed] at resolved slotted
    obtain ⟨slot, stands⟩ := Option.isSome_iff_exists.mp (slotted rfl)
    obtain ⟨owner, there, offered, place⟩ := slot_found (resolved.symm.trans stands)
    cases found.symm.trans there
    have pulls : (graph.job arguments).pulls source = true :=
      (pulls_implicit found).trans implicit
    obtain ⟨_, next, pulled, seen⟩ := read_pulled _ read fed stands pulls
    have longer := Chain.snoc chain reader feeder source reaches ⟨⟨pin, among, output, fed⟩, found, implicit⟩
    cases level with
    | zero => cases pulled
    | succ level =>
      obtain ⟨inputs, outputs, inner, before, logged, given⟩ := pulled_reads host graph arguments origin
        (gathers level (Nat.lt_succ_self level)) uncalling longer found pulled
      obtain ⟨result, gives, stored⟩ := given output offered
      rw [place, stored] at seen
      cases seen
      exact ⟨_, .drawn pin [] ⟨source, output⟩ feeder inputs outputs next _ [] inner [] fed found implicit before gives
        .done, logged⟩

theorem gather_reads (laid : graph.LaidOut) (uncalling : Uncalling graph.nodes origin) (level : Nat) :
    GathersRead host graph arguments origin level := by
  -- By induction on the levels that are left, and along the inputs.
  induction level using Nat.strong_induction_on with
  | h level ih =>
    intro chain reader reaches inside depth pins among run values after gathered
    induction pins generalizing run values with
    | nil =>
      cases gathered
      exact ⟨[], .done, .refl _⟩
    | cons pin rest others =>
      obtain ⟨first, further⟩ := List.cons_subset.mp among
      rw [gather] at gathered
      split at gathered
      · cases gathered
      · next value ready read =>
          split at gathered
          · cases gathered
          · next more last gathers =>
              cases gathered
              obtain ⟨notes, reads, logged⟩ := read_reads host graph arguments origin laid uncalling ih
                reaches inside first read
              obtain ⟨later, follows, gone⟩ := others further ready more gathers
              rw [logged.calls] at follows
              exact ⟨notes ++ later, reads_cons reads follows, logged.trans gone⟩

end Machine

section Counting

variable (nodes : List Node)

variable {pin : InputPin} {source : Nat} {calls : List Guid} {pins : List InputPin} {values : List Value}
  {notes : List TraceEntry}

theorem drawn_sum_none (cost : Nat → Nat) (rest : List InputPin) (undrawn : drawn? nodes pin = none) :
    drawnSum nodes cost (pin :: rest) = drawnSum nodes cost rest := by
  rw [drawnSum, List.filterMap_cons_none undrawn, drawnSum]

theorem drawn_sum_some (cost : Nat → Nat) (rest : List InputPin)
    (drawn : drawn? nodes pin = some source) : drawnSum nodes cost (pin :: rest) = cost source + drawnSum nodes cost rest := by
  rw [drawnSum, List.filterMap_cons_some drawn, List.map_cons, List.foldr_cons, drawnSum]

/-- What it costs to read inputs is what is begun, where the cost of a node counts the node and what it reads. -/
theorem reads_cost (origin : Node) (cost : Nat → Nat)
    (counts : ∀ chain source feeder, Chain nodes origin (chain ++ [source]) feeder →
      cost source = 1 + drawnSum nodes cost feeder.inputs)
    (reads : Reads nodes calls pins values notes) (chain : List Nat) (reader : Node)
    (reaches : Chain nodes origin chain reader) (among : pins ⊆ reader.inputs) :
    (begun notes).length = drawnSum nodes cost pins := by
  induction reads generalizing chain reader with
  | done => rfl
  | still pin rest value values notes undrawn _ _ ih =>
    obtain ⟨_, further⟩ := List.cons_subset.mp among
    rw [drawn_sum_none nodes cost rest undrawn, ih chain reader reaches further]
  | drawn pin rest source feeder inputs outputs next value values inner notes fed found implicit _ _ _ inside ih =>
    obtain ⟨first, further⟩ := List.cons_subset.mp among
    have drawn : drawn? nodes pin = some source.node :=
      (drawn_iff nodes pin source.node).mpr ⟨source.parameter, feeder, fed, found, implicit⟩
    have longer := Chain.snoc chain reader feeder source.node reaches ⟨⟨pin, first, source.parameter, fed⟩, found, implicit⟩
    rw [drawn_sum_some nodes cost rest drawn, counts chain source.node feeder longer, begun_between,
      List.length_cons, List.length_append, inside _ feeder longer (List.Subset.refl _), ih chain reader reaches further]
    omega

def onward (target : Nat) (pin : InputPin) : Set (List Nat) :=
  {rest | ∃ source, drawn? nodes pin = some source ∧
    (rest = [] ∧ source = target ∨ ∃ feeder, nodes[source]? = some feeder ∧ Path nodes feeder.inputs rest target)}

theorem paths_along (pins : List InputPin) (target : Nat) : {path | Path nodes pins path target} =
    (fun pair => pair.1 :: pair.2) '' membersAlong pins (onward nodes target) := by
  ext path
  constructor
  · intro leads
    cases leads with
    | last _ place pin _ there drawn => exact ⟨(place, []), ⟨pin, there, target, drawn, .inl ⟨rfl, rfl⟩⟩, rfl⟩
    | via _ place pin source feeder rest _ there drawn found further =>
      exact ⟨(place, rest), ⟨pin, there, source, drawn, .inr ⟨feeder, found, further⟩⟩, rfl⟩
  · rintro ⟨⟨place, rest⟩, ⟨pin, there, source, drawn, ⟨nothing, rfl⟩ | ⟨feeder, found, further⟩⟩, rfl⟩
    · cases nothing
      exact .last pins place pin source there drawn
    · exact .via pins place pin source feeder rest target there drawn found further

theorem paths_cons (pin : InputPin) (rest : List InputPin) (target : Nat) :
    {path | Path nodes (pin :: rest) path target}.encard =
      (onward nodes target pin).encard + {path | Path nodes rest path target}.encard := by
  have alone : Function.Injective fun pair : Nat × List Nat => pair.1 :: pair.2 := by
    intro one other same
    obtain ⟨first, second⟩ := List.cons.inj same
    exact Prod.ext first second
  rw [paths_along, paths_along, alone.encard_image, alone.encard_image, encard_members_cons]

theorem onward_drawn {feeder : Node} (drawn : drawn? nodes pin = some source)
    (found : nodes[source]? = some feeder) (target : Nat) : (onward nodes target pin).encard =
      (if source = target then 1 else 0) + {path | Path nodes feeder.inputs path target}.encard := by
  have parts : onward nodes target pin = {rest | rest = [] ∧ source = target} ∪ {path | Path nodes feeder.inputs path target} := by
    ext rest
    simp [onward, drawn, found]
  have apart : Disjoint {rest : List Nat | rest = [] ∧ source = target} {path | Path nodes feeder.inputs path target} := by
    rw [Set.disjoint_left]
    rintro rest ⟨rfl, _⟩ leads
    cases leads
  rw [parts, Set.encard_union_eq apart]
  congr 1
  by_cases same : source = target
  · simp [same]
  · simp [same]

/-- Each activation is one way to its node: the way of the inputs that were being read. -/
theorem reads_paths (reads : Reads nodes calls pins values notes) (target : Nat) :
    {path | Path nodes pins path target}.encard = (begun notes).count target := by
  induction reads with
  | done =>
    rw [paths_along]
    simp [membersAlong, begun]
  | still pin rest value values notes undrawn _ _ ih =>
    have nowhere : onward nodes target pin = ∅ := by
      ext rest
      simp [onward, undrawn]
    rw [paths_cons, nowhere, Set.encard_empty, zero_add, ih]
  | drawn pin rest source feeder inputs outputs next value values inner notes fed found implicit _ _ _ inside ih =>
    have drawn : drawn? nodes pin = some source.node :=
      (drawn_iff nodes pin source.node).mpr ⟨source.parameter, feeder, fed, found, implicit⟩
    rw [paths_cons, onward_drawn nodes drawn found, inside, ih, begun_between, List.count_cons, List.count_append]
    by_cases same : source.node = target
    · rw [if_pos same, if_pos (beq_iff_eq.mpr same)]
      norm_cast
      omega
    · rw [if_neg same, if_neg (mt beq_iff_eq.mp same)]
      norm_cast
      omega

end Counting

theorem drawn_sum_congr (nodes : List Node) (cost other : Nat → Nat) (pins : List InputPin)
    (same : ∀ pin ∈ pins, ∀ source, drawn? nodes pin = some source → cost source = other source) :
    drawnSum nodes cost pins = drawnSum nodes other pins := by
  refine congrArg (List.foldr (· + ·) 0) (List.map_congr_left fun source among => ?_)
  obtain ⟨pin, inside, drawn⟩ := List.mem_filterMap.mp among
  exact same pin inside source drawn

theorem cost_within_succ {nodes : List Node} (bound : Nat) {index : Nat} {node : Node} (found : nodes[index]? = some node) :
    costWithin nodes (bound + 1) index = 1 + drawnSum nodes (costWithin nodes bound) node.inputs := by
  rw [costWithin, found]
  rfl

/-- The cost no longer changes with the bound once that is beyond all chains. -/
theorem cost_settles {nodes : List Node} (bound index : Nat) (node : Node) (found : nodes[index]? = some node)
    (short : ∀ chain reader, Chain nodes node chain reader → chain.length < bound) :
    costWithin nodes (bound + 1) index = costWithin nodes bound index := by
  induction bound generalizing index node with
  | zero => exact absurd (short [] node .nil) (Nat.not_lt_zero _)
  | succ bound ih =>
    rw [cost_within_succ (bound + 1) found, cost_within_succ bound found]
    refine congrArg (1 + ·) (drawn_sum_congr nodes _ _ node.inputs fun pin inside source drawn => ?_)
    obtain ⟨feeder, draws⟩ := draws_of_drawn inside drawn
    refine ih source feeder draws.found fun chain reader reaches => ?_
    have longer := short _ reader ((Chain.snoc [] node feeder source .nil draws).append reaches)
    rw [List.length_append] at longer
    exact Nat.lt_of_add_lt_add_left (Nat.add_comm bound 1 ▸ longer)

theorem cost_counts (nodes : List Node) (origin : Node)
    (acyclic : ∀ chain reader, Chain nodes origin chain reader → chain.Nodup) (chain : List Nat) (source : Nat) (feeder : Node)
    (reaches : Chain nodes origin (chain ++ [source]) feeder) :
    cost nodes source = 1 + drawnSum nodes (cost nodes) feeder.inputs := by
  obtain ⟨_, _, draws⟩ := reaches.last_drawn
  refine (cost_settles nodes.length source feeder draws.found fun rest reader further => ?_).symm.trans
    (cost_within_succ nodes.length draws.found)
  have whole := reaches.append further
  have fits := whole.length_le (acyclic _ reader whole)
  rw [List.length_append, List.length_append, List.length_singleton] at fits
  omega

section Machine

variable {σ : Type}

theorem gathers_acyclic (host : Host σ) {graph : Graph} (laid : graph.LaidOut) (arguments : List Value) (depth : Nat)
    {node : Node} (inside : node ∈ graph.nodes) (gathers : Gathers host (graph.job arguments) depth node) (chain : List Nat)
    (reader : Node) (reaches : Chain graph.nodes node chain reader) : chain.Nodup := by
  refine reaches.nodup host.limits.maxImplicitDepth fun chain reader reaches => ?_
  obtain ⟨_, _, bounded⟩ := chain_gathers laid inside reaches gathers
  by_cases short : chain = []
  · rw [short]
    exact Nat.zero_le _
  · exact Nat.le_trans (Nat.le_add_left _ _) (bounded short)

/-- A node that gathers its inputs runs every implicit node that it draws on once for each way to it, and each read sees what
the activation that was made for it gave. That the inputs are gathered at all excludes that the nodes are read in a circle. -/
theorem evaluations_follow_paths (host : Host σ) (source graph : Graph) (compiles : source.compile = (.ok (), graph))
    (arguments : List Value) (index : Nat) (node : Node) (found : graph.nodes[index]? = some node)
    (uncalling : ∀ chain place feeder, Chain graph.nodes node (chain ++ [place]) feeder →
      ∀ function, feeder.kind ≠ .callFunction function)
    (level depth : Nat) (run after : Run σ) (values : List Value)
    (gathered : gather host.limits (graph.job arguments)
      (fun source run => activate host level (graph.job arguments) source .pulled (depth + 1) run) depth node.inputs run =
      (.ok values, after)) :
    ∃ notes, after.env.trace = notes.reverse ++ run.env.trace ∧
      Reads graph.nodes run.env.callStack node.inputs values notes ∧
      after.env.steps = run.env.steps + drawnSum graph.nodes (cost graph.nodes) node.inputs ∧
      (∀ chain place feeder, Chain graph.nodes node (chain ++ [place]) feeder →
        cost graph.nodes place = 1 + drawnSum graph.nodes (cost graph.nodes) feeder.inputs) ∧
      ∀ target, {path | Path graph.nodes node.inputs path target}.encard = (begun notes).count target := by
  have laid := compile_laid_out source graph compiles
  have inside := List.mem_of_getElem? found
  have acyclic := gathers_acyclic host laid arguments depth inside ⟨level, run, values, after, gathered⟩
  have counts := cost_counts graph.nodes node acyclic
  obtain ⟨notes, reads, logged⟩ := gather_reads host graph arguments node laid uncalling level [] node .nil inside depth
    node.inputs (List.Subset.refl _) run values after gathered
  have total := reads_cost graph.nodes node (cost graph.nodes) counts reads [] node .nil (List.Subset.refl _)
  exact ⟨notes, logged.trace, reads, logged.steps.trans (congrArg _ total), counts, reads_paths graph.nodes reads⟩

end Machine

def countInfo : FunctionInfo := ⟨"count", "count", "", true, none, [], [⟨"Count", .int⟩]⟩

def counting : Host Nat :=
  ⟨Catalog.empty.register ⟨countInfo, fun _ calls => (.ok [.int (Int64.ofNat (calls + 1))], calls + 1)⟩, none, ⟨100, 4, 8⟩⟩

/-- A loop over an array that has another one twice, which has the count twice. -/
def lattice : Graph :=
  let nodes := [Node.callNative countInfo, Node.makeArray 2, Node.makeArray 2, Node.forEach .any]
  [Operation.connect 0 0 1 0, .connect 0 0 1 1, .connect 1 0 2 0, .connect 1 0 2 1, .connect 2 0 3 0].foldl Operation.apply
    { Graph.empty with nodes := nodes }

/-- The count is read on four ways and is another one on each of them. -/
theorem lattice_evaluated :
    let graph := lattice.compile.2
    let run : Run Nat := ⟨graph.prepare.2.frame, Env.start [] [] 0⟩
    ∃ node values after, graph.nodes[3]? = some node ∧
      inputsOf counting 9 (graph.job []) node run = (.ok values, after) ∧
      values.map Value.display = ["[[1, 2], [3, 4]]"] ∧ after.env.steps = 7 ∧
      drawnSum graph.nodes (cost graph.nodes) node.inputs = 7 ∧
      begun after.env.trace.reverse = [2, 1, 0, 0, 1, 0, 0] ∧ {path | Path graph.nodes node.inputs path 0}.encard = 4 := by
  intro graph run
  have compiles : lattice.compile = (.ok (), graph) := Prod.ext (by decide +kernel) rfl
  obtain ⟨node, found⟩ : ∃ node, graph.nodes[3]? = some node := Option.isSome_iff_exists.mp (by decide +kernel)
  have measured : (graph.nodes[3]?).map (fun node =>
      let outcome := inputsOf counting 9 (graph.job []) node run
      (outcome.1.toOption.map (·.map Value.display), begun outcome.2.env.trace.reverse,
        drawnSum graph.nodes (cost graph.nodes) node.inputs)) =
      some (some ["[[1, 2], [3, 4]]"], [2, 1, 0, 0, 1, 0, 0], 7) := by
    decide +kernel
  have uncalling : ∀ chain place feeder, Chain graph.nodes node (chain ++ [place]) feeder →
      ∀ function, feeder.kind ≠ .callFunction function := by
    have kinds : ∀ other ∈ graph.nodes, other.kind = .callNative "count" true ∨ other.kind = .makeArray ∨
        other.kind = .forEach := by decide +kernel
    intro chain place feeder reaches function kind
    obtain ⟨_, _, draws⟩ := reaches.last_drawn
    obtain native | array | loop := kinds feeder (List.mem_of_getElem? draws.found)
    · cases native.symm.trans kind
    · cases array.symm.trans kind
    · cases loop.symm.trans kind
  rw [found, Option.map_some] at measured
  cases outcome : inputsOf counting 9 (graph.job []) node run with
  | mk result after =>
    rw [outcome] at measured
    obtain ⟨shown, measured⟩ := Prod.mk.inj (Option.some.inj measured)
    obtain ⟨order, price⟩ := Prod.mk.inj measured
    cases result with
    | error => cases shown
    | ok values =>
      obtain ⟨notes, trace, _, steps, _, ways⟩ := evaluations_follow_paths counting lattice graph compiles [] 3 node found
        uncalling 9 0 run after values outcome
      have noted : notes = after.env.trace.reverse := by
        rw [trace, List.reverse_append, List.reverse_reverse]
        rfl
      refine ⟨node, values, after, found, outcome, Option.some.inj shown, ?_, price, order, ?_⟩
      · rw [steps, price]
        rfl
      · rw [ways 0, noted, order]
        rfl

end Patchbay
