import Mathlib.Data.List.Induction
import Patchbay.Proofs.Calls
import Patchbay.Proofs.InRange
import Patchbay.Proofs.Turns

set_option autoImplicit false

namespace Patchbay

variable {σ : Type}

/-- A node has an input that is connected to an implicit one, which runs whenever the input is read. -/
structure Draws (nodes : List Node) (reader : Node) (source : Nat) (feeder : Node) : Prop where
  fed : ∃ pin ∈ reader.inputs, ∃ output, pin.source = some ⟨source, output⟩
  found : nodes[source]? = some feeder
  implicit : feeder.isImplicit = true

/-- The implicit nodes that are met one after the other on the way from a node to what it draws on in the end. -/
inductive Chain (nodes : List Node) (node : Node) : List Nat → Node → Prop where
  | nil : Chain nodes node [] node
  | snoc (chain : List Nat) (reader feeder : Node) (source : Nat) (reaches : Chain nodes node chain reader)
      (draws : Draws nodes reader source feeder) : Chain nodes node (chain ++ [source]) feeder

variable {nodes : List Node} {node : Node} {chain : List Nat}

theorem Chain.append {reader feeder : Node} {rest : List Nat}
    (reaches : Chain nodes node chain reader) (further : Chain nodes reader rest feeder) :
    Chain nodes node (chain ++ rest) feeder := by
  induction further with
  | nil => rwa [List.append_nil]
  | snoc rest last feeder source _ draws ih =>
    rw [← List.append_assoc]
    exact .snoc (chain ++ rest) last feeder source ih draws

theorem Chain.around (around : Chain nodes node chain node)
    (turns : chain ≠ []) (count : Nat) : ∃ long, Chain nodes node long node ∧ count ≤ long.length := by
  induction count with
  | zero => exact ⟨[], .nil, Nat.le_refl 0⟩
  | succ count ih =>
    obtain ⟨long, reaches, enough⟩ := ih
    have one : 0 < chain.length := List.length_pos_iff.mpr turns
    exact ⟨long ++ chain, reaches.append around, by rw [List.length_append]; omega⟩

section

variable {nodes : List Node} {node reader feeder : Node} {chain rest : List Nat} {source : Nat}

theorem Chain.last_drawn (reaches : Chain nodes node (chain ++ [source]) feeder) :
    ∃ reader, Chain nodes node chain reader ∧ Draws nodes reader source feeder := by
  generalize whole : chain ++ [source] = path at reaches
  cases reaches with
  | nil => simp at whole
  | snoc before reader _ last reaches draws =>
    obtain ⟨rfl, same⟩ := List.append_inj' whole rfl
    cases same
    exact ⟨reader, reaches, draws⟩

theorem Chain.split (reaches : Chain nodes node (chain ++ rest) reader) :
    ∃ middle, Chain nodes node chain middle ∧ Chain nodes middle rest reader := by
  induction rest using List.reverseRecOn generalizing reader with
  | nil => exact ⟨reader, List.append_nil chain ▸ reaches, .nil⟩
  | append_singleton rest source ih =>
    rw [← List.append_assoc] at reaches
    obtain ⟨before, leads, draws⟩ := reaches.last_drawn
    obtain ⟨middle, first, second⟩ := ih leads
    exact ⟨middle, first, .snoc rest before reader source second draws⟩

theorem Chain.nodup (bound : Nat) (short : ∀ chain reader, Chain nodes node chain reader → chain.length ≤ bound)
    (reaches : Chain nodes node chain reader) : chain.Nodup := by
  induction reaches with
  | nil => exact List.nodup_nil
  | snoc chain reader feeder source reaches draws ih =>
    by_cases met : source ∈ chain
    · obtain ⟨before, after, rfl⟩ := List.append_of_mem met
      rw [List.append_cons] at reaches
      obtain ⟨middle, first, second⟩ := reaches.split
      obtain ⟨_, _, entered⟩ := first.last_drawn
      cases entered.found.symm.trans draws.found
      have loop : Chain nodes feeder (after ++ [source]) feeder := .snoc after reader feeder source second draws
      obtain ⟨long, around, enough⟩ := loop.around (by simp) (bound + 1)
      have within := short _ _ (first.append around)
      rw [List.length_append] at within
      omega
    · rw [← List.concat_eq_append]
      exact ih.concat met

theorem Chain.inside (reaches : Chain nodes node chain reader) : chain ⊆ List.range nodes.length := by
  induction reaches with
  | nil => exact List.nil_subset _
  | snoc chain reader feeder source _ draws ih =>
    have place := (List.getElem?_eq_some_iff.mp draws.found).1
    exact List.append_subset.mpr ⟨ih, List.cons_subset.mpr ⟨List.mem_range.mpr place, List.nil_subset _⟩⟩

theorem Chain.length_le (reaches : Chain nodes node chain reader) (distinct : chain.Nodup) : chain.length ≤ nodes.length :=
  List.length_range (n := nodes.length) ▸ (List.subperm_of_subset distinct reaches.inside).length_le

end

variable {job : Job} {reader node feeder : Node} {pin : InputPin} {source : PinSource} {limits : Limits} {depth : Nat}
  {after run : Run σ} {host : Host σ} {graph : Graph} {arguments : List Value} {part : Stage σ}

theorem draws_of_pulls (among : pin ∈ reader.inputs)
    (fed : pin.source = some source) (implicit : job.pulls source.node = true) :
    ∃ feeder, Draws job.nodes reader source.node feeder := by
  cases found : job.nodes[source.node]? with
  | none => simp [Job.pulls, found] at implicit
  | some feeder =>
    rw [pulls_implicit found] at implicit
    exact ⟨feeder, ⟨pin, among, source.parameter, fed⟩, found, implicit⟩

theorem gather_read (pull : Nat → Run σ → Except ScriptError (Option Nat) × Run σ)
    {pins : List InputPin} (run : Run σ) (values : List Value)
    (gathered : gather limits job pull depth pins run = (.ok values, after)) (among : pin ∈ pins) :
    ∃ before value later, readInput limits job pull depth pin before = (.ok value, later) := by
  induction pins generalizing run values with
  | nil => cases among
  | cons first rest ih =>
    rw [gather] at gathered
    split at gathered
    · cases gathered
    · next value ready read =>
        split at gathered
        · cases gathered
        · next others last more =>
            cases gathered
            obtain rfl | later := List.mem_cons.mp among
            · exact ⟨run, value, ready, read⟩
            · exact ih ready others more later

theorem read_pulled (pull : Nat → Run σ → Except ScriptError (Option Nat) × Run σ) {value : Value} {slot : Nat}
    (read : readInput limits job pull depth pin run = (.ok value, after)) (fed : pin.source = some source)
    (resolved : pin.slot = some slot) (implicit : job.pulls source.node = true) :
    depth < limits.maxImplicitDepth ∧
      ∃ next, pull source.node run = (.ok next, after) ∧ value = (after.frame.stack[slot]?).getD .null := by
  unfold readInput at read
  rw [fed, resolved] at read
  dsimp only at read
  rw [if_pos implicit] at read
  by_cases deep : limits.maxImplicitDepth ≤ depth
  · rw [if_pos deep] at read
    cases read
  · rw [if_neg deep] at read
    split at read
    · cases read
    · next next later outcome =>
        cases read
        exact ⟨Nat.lt_of_not_le deep, next, outcome, rfl⟩

def Gathers (host : Host σ) (job : Job) (depth : Nat) (node : Node) : Prop :=
  ∃ level run values after, gather host.limits job (pullAt host level job depth) depth node.inputs run = (.ok values, after)

theorem activate_gathers {level : Nat} {index : Nat} {activation : Activation} {next : Option Nat}
    (found : job.nodes[index]? = some node)
    (done : activate host level job index activation depth run = (.ok next, after)) : Gathers host job depth node := by
  cases level with
  | zero => cases done
  | succ level =>
    obtain ⟨env, _, inputs, ready, _, _, _, _, there, gathered, _⟩ :=
      activate_ok done
    cases found.symm.trans there
    exact ⟨level, _, inputs, ready, gathered⟩

theorem gathers_draws (laid : graph.LaidOut) (inside : reader ∈ graph.nodes) {source : Nat}
    (draws : Draws graph.nodes reader source feeder) (gathers : Gathers host (graph.job arguments) depth reader) :
    depth < host.limits.maxImplicitDepth ∧ Gathers host (graph.job arguments) (depth + 1) feeder := by
  obtain ⟨level, run, values, after, gathered⟩ := gathers
  obtain ⟨pin, among, output, fed⟩ := draws.fed
  obtain ⟨slot, resolved⟩ := Option.isSome_iff_exists.mp ((laid_out_input laid inside among).2 (by rw [fed]; rfl))
  obtain ⟨before, value, later, read⟩ := gather_read _ run values gathered among
  have implicit : (graph.job arguments).pulls source = true :=
    (pulls_implicit draws.found).trans draws.implicit
  obtain ⟨shallow, next, pulled, _⟩ := read_pulled _ read fed resolved implicit
  exact ⟨shallow, activate_gathers draws.found pulled⟩

/-- So what is gathered in the end was reached at a depth within the limit, however it was reached. -/
theorem chain_gathers (laid : graph.LaidOut) (inside : node ∈ graph.nodes) {chain : List Nat}
    (reaches : Chain graph.nodes node chain reader) (gathers : Gathers host (graph.job arguments) depth node) :
    reader ∈ graph.nodes ∧ Gathers host (graph.job arguments) (depth + chain.length) reader ∧
      (chain ≠ [] → depth + chain.length ≤ host.limits.maxImplicitDepth) := by
  induction reaches with
  | nil => exact ⟨inside, gathers, fun turns => absurd rfl turns⟩
  | snoc chain reader feeder source _ draws ih =>
    obtain ⟨inside, gathers, _⟩ := ih
    obtain ⟨shallow, deeper⟩ := gathers_draws laid inside draws gathers
    rw [List.length_append, List.length_singleton, ← Nat.add_assoc]
    exact ⟨List.mem_of_getElem? draws.found, deeper, fun _ => shallow⟩

/-- While the inputs of a node are gathered, the depth is the length of a chain to the node at work. -/
inductive Along (job : Job) (node : Node) : Stage σ → Prop where
  | reads (level : Nat) (pins : List InputPin) (run : Run σ) (chain : List Nat) (reader : Node)
      (reaches : Chain job.nodes node chain reader) (among : pins ⊆ reader.inputs) :
      Along job node (.reads level job chain.length pins run)
  | pulls (level : Nat) (run : Run σ) (chain : List Nat) (reader feeder : Node) (source : Nat)
      (reaches : Chain job.nodes node chain reader) (draws : Draws job.nodes reader source feeder) :
      Along job node (.activates level job source .pulled (chain.length + 1) run)

theorem set_off_along
    (uncalled : ∀ other ∈ job.nodes, other.isImplicit = true → ∀ function, other.kind ≠ .callFunction function)
    {outer inner : Stage σ} {opened : List ActiveCall} (leads : SetsOff host outer opened inner)
    (along : Along job node outer) : Along job node inner := by
  cases along with
  | reads level pins run chain reader reaches among =>
    cases leads with
    | pulls _ _ _ pin rest _ source slot fed _ implicit _ =>
      obtain ⟨feeder, draws⟩ := draws_of_pulls (among List.mem_cons_self) fed implicit
      exact .pulls level run chain reader feeder source.node reaches draws
    | next _ _ _ pin rest _ ready =>
      exact .reads level rest ready chain reader reaches (List.subset_of_cons_subset among)
  | pulls level run chain reader feeder source reaches draws =>
    cases leads with
    | reads level _ _ _ _ _ env there counted found =>
      cases draws.found.symm.trans found
      have longer := Chain.snoc chain reader feeder source reaches draws
      have step := Along.reads (σ := σ) level feeder.inputs
        ((run.withEnv env).note (.began ⟨env.callStack, source, .pulled⟩)) _ feeder longer (List.Subset.refl _)
      rwa [List.length_append] at step
    | calls level _ _ _ _ _ ready env there inputs function counted found gathered kind =>
      cases draws.found.symm.trans found
      exact absurd kind (uncalled feeder (List.mem_of_getElem? found) draws.implicit function)

theorem within_along
    (uncalled : ∀ other ∈ job.nodes, other.isImplicit = true → ∀ function, other.kind ≠ .callFunction function)
    {whole : Stage σ} {calls : List ActiveCall} (within : Within host whole calls part) (along : Along job node whole) :
    Along job node part := by
  induction within with
  | whole => exact along
  | part calls opened outer inner _ leads ih => exact set_off_along uncalled leads ih

theorem too_deep_chain {limit : Nat} (along : Along job node part)
    (originates : Originates host (.implicitDepthExceeded limit) part) :
    limit = host.limits.maxImplicitDepth ∧
      ∃ chain reader, Chain job.nodes node chain reader ∧ host.limits.maxImplicitDepth < chain.length := by
  cases along with
  | reads level pins run chain reader reaches among =>
    cases originates with
    | deep _ _ _ pin rest _ source fed implicit deep =>
      obtain ⟨feeder, draws⟩ := draws_of_pulls (among List.mem_cons_self) fed implicit
      refine ⟨rfl, chain ++ [source.node], feeder, .snoc chain reader feeder source.node reaches draws, ?_⟩
      rw [List.length_append, List.length_singleton]
      exact Nat.lt_succ_of_le deep
  | pulls level run chain reader feeder source =>
    cases originates with
    | outside _ _ _ _ _ _ _ outside => cases outside
    | stores _ _ _ _ _ _ _ _ given _ _ there _ outputs _ _ _ refused =>
      have own := store_outputs_own source there outputs given
      rw [refused] at own
      cases own _ rfl

def inputsOf (host : Host σ) (level : Nat) (job : Job) (node : Node) (run : Run σ) :
    Except ScriptError (List Value) × Run σ :=
  gather host.limits job (fun source run => activate host level job source .pulled 1 run) 0 node.inputs run

theorem too_deep_inputs (host : Host σ) (level : Nat) (job : Job) (node : Node)
    (uncalled : ∀ other ∈ job.nodes, other.isImplicit = true → ∀ function, other.kind ≠ .callFunction function)
    (run after : Run σ) (limit : Nat) (failed : inputsOf host level job node run = (.error (.implicitDepthExceeded limit), after)) :
    limit = host.limits.maxImplicitDepth ∧
      ∃ chain reader, Chain job.nodes node chain reader ∧ host.limits.maxImplicitDepth < chain.length := by
  have fails : (Stage.reads level job 0 node.inputs run).failure host = some (.implicitDepthExceeded limit) := by
    unfold inputsOf at failed
    dsimp only [Stage.failure]
    rw [failed]
    rfl
  obtain ⟨calls, part, within, originates⟩ := failure_originates host _ _ fails
  have begins : Along job node (.reads level job 0 node.inputs run) :=
    .reads level node.inputs run [] node .nil (List.Subset.refl _)
  exact too_deep_chain (within_along uncalled within begins) originates

/-- The limit on the depth holds exactly. A node on an implicit cycle is never read, and where no chain goes beyond the limit
no read is refused. -/
theorem implicit_depth_exact (host : Host σ) (origin graph : Graph) (compiles : origin.compile = (.ok (), graph))
    (arguments : List Value) (index : Nat) (node : Node) (found : graph.nodes[index]? = some node) :
    (∀ level run values after, inputsOf host level (graph.job arguments) node run = (.ok values, after) →
      ∀ chain reader, Chain graph.nodes node chain reader → chain.length ≤ host.limits.maxImplicitDepth) ∧
    (∀ chain, Chain graph.nodes node (chain ++ [index]) node → ∀ level depth run next after,
      activate host level (graph.job arguments) index .pulled depth run ≠ (.ok next, after)) ∧
    ((∀ other ∈ graph.nodes, other.isImplicit = true → ∀ function, other.kind ≠ .callFunction function) →
      (∀ level run limit after, inputsOf host level (graph.job arguments) node run =
        (.error (.implicitDepthExceeded limit), after) →
        limit = host.limits.maxImplicitDepth ∧
          ∃ chain reader, Chain graph.nodes node chain reader ∧ host.limits.maxImplicitDepth < chain.length) ∧
      ((∀ chain reader, Chain graph.nodes node chain reader → chain.length ≤ host.limits.maxImplicitDepth) →
        ∀ level run limit after,
          inputsOf host level (graph.job arguments) node run ≠ (.error (.implicitDepthExceeded limit), after))) := by
  have laid := compile_laid_out origin graph compiles
  have inside := List.mem_of_getElem? found
  refine ⟨?succeeds, ?cycle, ?fails⟩
  case succeeds =>
    intro level run values after gathered chain reader reaches
    have gathers : Gathers host (graph.job arguments) 0 node := ⟨level, run, values, after, gathered⟩
    obtain ⟨_, _, bounded⟩ := chain_gathers laid inside reaches gathers
    by_cases short : chain = []
    · rw [short]
      exact Nat.zero_le _
    · exact Nat.zero_add chain.length ▸ bounded short
  case cycle =>
    intro chain around level depth run next after done
    have gathers := activate_gathers found done
    obtain ⟨long, reaches, enough⟩ := around.around (by simp) (host.limits.maxImplicitDepth + 1)
    have bounded := (chain_gathers laid inside reaches gathers).2.2
    have turns : long ≠ [] := List.length_pos_iff.mp (by omega)
    have within := bounded turns
    omega
  case fails =>
    intro uncalled
    have fails := fun level run limit after => too_deep_inputs host level (graph.job arguments) node uncalled run after limit
    refine ⟨fails, fun short level run limit after failed => ?_⟩
    obtain ⟨_, chain, reader, reaches, long⟩ := fails level run limit after failed
    exact Nat.not_le_of_lt long (short chain reader reaches)

/-- A branch whose condition is cast twice, and two casts that read from each other. -/
def ladder : Graph :=
  let nodes := [Node.branch, Node.implicitCast .bool, Node.implicitCast .bool, Node.implicitCast .bool, Node.implicitCast .bool]
  let stairs := (Edit.connect 2 0 1 0 (Edit.connect 1 0 0 0 { Graph.empty with nodes := nodes }).2).2
  (Edit.connect 4 0 3 0 (Edit.connect 3 0 4 0 stairs).2).2

theorem ladder_draws {a b : Nat} (atA : ladder.compile.2.nodes[a]? = some reader)
    (atB : ladder.compile.2.nodes[b]? = some feeder)
    (fed : (ladder.compile.2.nodes[a]?).any (fun reader => (reader.inputs.map (·.source)).contains (some ⟨b, 0⟩)) = true)
    (implicit : (ladder.compile.2.nodes[b]?).any Node.isImplicit = true) : Draws ladder.compile.2.nodes reader b feeder := by
  rw [atA, Option.any_some, List.contains_iff_mem] at fed
  rw [atB, Option.any_some] at implicit
  obtain ⟨pin, among, sourced⟩ := List.mem_map.mp fed
  exact ⟨⟨pin, among, 0, sourced⟩, atB, implicit⟩

/-- Two casts are within a limit of two and beyond a limit of one. The other two are never read. -/
theorem ladder_depth :
    let host (depth : Nat) : Host Unit := ⟨Catalog.empty, none, ⟨100, 4, depth⟩⟩
    let job := ladder.compile.2.job []
    let run : Run Unit := ⟨ladder.compile.2.prepare.2.frame, Env.start [] [] ()⟩
    ∃ node, job.nodes[0]? = some node ∧ failureOf (inputsOf (host 2) 9 job node run).1 = none ∧
      (∀ chain reader, Chain job.nodes node chain reader → chain.length ≤ 2) ∧
      failureOf (inputsOf (host 1) 9 job node run).1 = some (.implicitDepthExceeded 1) ∧
      (∃ chain reader, Chain job.nodes node chain reader ∧ 1 < chain.length) ∧
      ∀ depth next after, activate (host 9) 99 job 3 .pulled depth run ≠ (.ok next, after) := by
  intro host job run
  have compiles : ladder.compile = (.ok (), ladder.compile.2) := Prod.ext (by decide +kernel) rfl
  obtain ⟨node, atBranch⟩ : ∃ node, job.nodes[0]? = some node := Option.isSome_iff_exists.mp (by decide +kernel)
  obtain ⟨third, atThird⟩ : ∃ node, job.nodes[3]? = some node := Option.isSome_iff_exists.mp (by decide +kernel)
  obtain ⟨fourth, atFourth⟩ : ∃ node, job.nodes[4]? = some node := Option.isSome_iff_exists.mp (by decide +kernel)
  have outcomes : (job.nodes[0]?).map (fun node => (failureOf (inputsOf (host 2) 9 job node run).1,
      failureOf (inputsOf (host 1) 9 job node run).1)) = some (none, some (.implicitDepthExceeded 1)) := by
    decide +kernel
  rw [atBranch] at outcomes
  obtain ⟨read, refused⟩ := Prod.mk.inj (Option.some.inj outcomes)
  have uncalled : ∀ other ∈ job.nodes, other.isImplicit = true → ∀ function, other.kind ≠ .callFunction function := by
    have kinds : ∀ other ∈ job.nodes, other.kind = .branch ∨ other.kind = .implicitCast .bool := by decide +kernel
    intro other inside _ function kind
    obtain branches | casts := kinds other inside
    · cases branches.symm.trans kind
    · cases casts.symm.trans kind
  obtain ⟨within, _⟩ := implicit_depth_exact (host 2) ladder _ compiles [] 0 node atBranch
  obtain ⟨_, _, beyond⟩ := implicit_depth_exact (host 1) ladder _ compiles [] 0 node atBranch
  obtain ⟨_, never, _⟩ := implicit_depth_exact (host 9) ladder _ compiles [] 3 third atThird
  have forth := ladder_draws atThird atFourth (by decide +kernel) (by decide +kernel)
  have back := ladder_draws atFourth atThird (by decide +kernel) (by decide +kernel)
  refine ⟨node, atBranch, read, ?_, refused, ?_, ?_⟩
  · cases outcome : inputsOf (host 2) 9 job node run with
    | mk result after =>
      cases result with
      | ok values => exact within 9 run values after outcome
      | error =>
        rw [outcome] at read
        cases read
  · exact ((beyond uncalled).1 9 run 1 _ (failure_of_pair refused)).2
  · exact fun depth next after => never [4] (.snoc [4] fourth third 3 (.snoc [] third fourth 4 .nil forth) back) 99 depth run
      next after

end Patchbay
