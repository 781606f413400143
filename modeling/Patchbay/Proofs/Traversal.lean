import Patchbay.Proofs.Rest
import Patchbay.Proofs.Turns

set_option autoImplicit false

namespace Patchbay

open Effect

variable {σ : Type}

section

variable (host : Host σ) (level : Nat) (job : Job)

def Follows (fuel index : Nat) (activation : Activation) (run after : Run σ) : Prop :=
  ∃ last, follow host (activate host level) job fuel index activation run = (.ok last, after)

/-- Control is at the end of a branch: it comes back to the innermost return point, or the run is over. -/
def Resumes (fuel : Nat) (run after : Run σ) : Prop :=
  match run.frame.returnPoints with
  | [] => after = run
  | point :: _ => Follows host level job fuel point .resumed run after

inductive Proceeds (fuel index : Nat) (run after : Run σ) : Option Nat → Prop where
  | none (resumes : Resumes host level job fuel run after) : Proceeds fuel index run after none
  | unconnected (pin : Nat) (nowhere : ∀ target, ¬ Exit job.nodes index pin target)
      (resumes : Resumes host level job fuel run after) : Proceeds fuel index run after (some pin)
  | leads (pin : Nat) (target : ExecTarget) (exit : Exit job.nodes index pin target)
      (enters : Follows host level job fuel target.node (.entered target.pin) run after) :
      Proceeds fuel index run after (some pin)

theorem resumes_of_follow (fuel index last : Nat) (run after : Run σ)
    (done : (match (.ok (run.frame.returnPoints.head?.map fun node => (node, .resumed)) :
        Except ScriptError (Option (Nat × Activation))) with
      | .error cause => (.error cause, run)
      | .ok none => (.ok index, run)
      | .ok (some (node, activation)) => follow host (activate host level) job fuel node activation run) =
        (.ok last, after)) : Resumes host level job fuel run after := by
  unfold Resumes
  cases points : run.frame.returnPoints with
  | nil =>
    rw [points] at done
    cases done
    rfl
  | cons =>
    rw [points] at done
    exact ⟨last, done⟩

variable {index fuel : Nat} {run after : Run σ} {shape wider : List Step → Ending → Prop} {guarded more : Nat → Prop}
  {points : List Nat}

theorem exec_pin_exit {pin : Nat} {exec : ExecPin} (found : job.execPin? index pin = some exec)
    (target : ExecTarget) : Exit job.nodes index pin target ↔ exec.target = some target := by
  unfold Job.execPin? at found
  cases there : job.nodes[index]? with
  | none => simp [there] at found
  | some node =>
    rw [there] at found
    simp only [Exit, there, Option.some.injEq]
    constructor
    · rintro ⟨_, other, rfl, found', leads⟩
      obtain rfl : exec = other := Option.some.inj (found.symm.trans found')
      exact leads
    · intro leads
      exact ⟨node, exec, rfl, found, leads⟩

theorem follows_step {activation : Activation} (follows : Follows host level job fuel index activation run after) :
    ∃ less next mid, fuel = less + 1 ∧ activate host level job index activation 0 run = (.ok next, mid) ∧
      Proceeds host level job less index mid after next := by
  obtain ⟨last, done⟩ := follows
  cases fuel with
  | zero => cases done
  | succ less =>
    unfold follow at done
    split at done
    · cases done
    · next next mid activated =>
        refine ⟨less, next, mid, rfl, activated, ?_⟩
        cases next with
        | none => exact .none (resumes_of_follow host level job less index last mid after done)
        | some pin =>
          cases found : job.execPin? index pin with
          | none => simp [successor, found] at done
          | some exec =>
            have exits := exec_pin_exit job found
            cases leads : exec.target with
            | none =>
              refine .unconnected pin (fun target exit => ?_)
                (resumes_of_follow host level job less index last mid after ?_)
              · rw [exits, leads] at exit
                cases exit
              · simp only [successor, found, leads] at done
                exact done
            | some target =>
              refine .leads pin target ((exits target).mpr leads) ⟨last, ?_⟩
              simpa only [successor, found, leads] using done

/-- How a part of a run ends: with the return points as given and control back at the innermost one,
or with a return, which leaves none. The part keeps the progress of the guarded nodes. -/
inductive Arrives (shape : List Step → Ending → Prop) (guarded : Nat → Prop) (points : List Nat) (fuel : Nat)
    (run after : Run σ) : Prop where
  | finished (steps : List Step) (mid : Run σ) (less : Nat) (shaped : shape steps .finished) (noted : Noted run mid steps)
      (back : mid.frame.returnPoints = points)
      (kept : ∀ n, guarded n → mid.frame.progressOf n = run.frame.progressOf n)
      (length : mid.frame.progress.length = run.frame.progress.length) (enough : less ≤ fuel)
      (resumes : Resumes host level job less mid after) : Arrives shape guarded points fuel run after
  | returned (steps : List Step) (shaped : shape steps .returned) (noted : Noted run after steps)
      (cleared : after.frame.returnPoints = []) : Arrives shape guarded points fuel run after

theorem Arrives.imp (arrives : Arrives host level job shape more points fuel run after)
    (less : ∀ n, guarded n → more n) (widens : ∀ steps ending, shape steps ending → wider steps ending) :
    Arrives host level job wider guarded points fuel run after := by
  cases arrives with
  | finished steps mid rest shaped noted back kept length enough resumes =>
    exact .finished steps mid rest (widens steps _ shaped) noted back (fun n guard => kept n (less n guard)) length
      enough resumes
  | returned steps shaped noted cleared => exact .returned steps (widens steps _ shaped) noted cleared

theorem Arrives.after_step {mid : Run σ} (arrives : Arrives host level job shape more points fuel mid after) {step : Step}
    (noted : Noted run mid [step]) (less : ∀ n, guarded n → more n)
    (kept : ∀ n, guarded n → mid.frame.progressOf n = run.frame.progressOf n)
    (length : mid.frame.progress.length = run.frame.progress.length)
    (widens : ∀ steps ending, shape steps ending → wider (step :: steps) ending) :
    Arrives host level job wider guarded points (fuel + 1) run after := by
  cases arrives with
  | finished steps last rest shaped noted' back kept' length' enough resumes =>
    exact .finished (step :: steps) last rest (widens steps _ shaped) (noted.trans noted') back
      (fun n guard => (kept' n (less n guard)).trans (kept n guard)) (length'.trans length)
      (Nat.le_succ_of_le enough) resumes
  | returned steps shaped noted' cleared =>
    exact .returned (step :: steps) (widens steps _ shaped) (noted.trans noted') cleared

end

/-- A graph whose execution pins form a tree from the start, with nodes as they are made and with
pins that lead to in-pins. -/
structure Terrain (nodes : List Node) (start : Nat) : Prop where
  tree : ExecTree nodes start
  shaped : ∀ node ∈ nodes, node.Shaped
  enters : ∀ a pin target, Exit nodes a pin target →
    ∃ node, nodes[target.node]? = some node ∧ target.pin < node.execIn.length

theorem entrances_le (kind : NodeKind) : kind.entrances ≤ if kind.isLoop = true then 2 else 1 := by
  cases kind with
  | callNative key isPure => cases isPure <;> simp [NodeKind.entrances, NodeKind.isLoop]
  | _ => simp [NodeKind.entrances, NodeKind.isLoop]

namespace Terrain

variable {nodes : List Node} {start : Nat}

theorem enters_first (terrain : Terrain nodes start) {a pin : Nat} {target : ExecTarget} (reached : Reaches nodes start a)
    (exit : Exit nodes a pin target) : target.pin = 0 := by
  obtain ⟨node, found, inside⟩ := terrain.enters a pin target exit
  rw [terrain.shaped node (List.mem_of_getElem? found)] at inside
  have few := entrances_le node.kind
  by_cases loop : node.kind.isLoop = true
  · have unbroken := terrain.tree.unbroken a pin target node reached exit found loop
    rw [if_pos loop] at few
    simp only [breakPin] at unbroken
    omega
  · rw [if_neg loop] at few
    omega

variable {index n : Nat}

theorem still (terrain : Terrain nodes start) (job : Job) (same : job.nodes = nodes) {node : Node}
    (found : nodes[index]? = some node) (entered : 0 < node.kind.entrances) : job.pulls index = false := by
  rw [pulls_implicit (same ▸ found)]
  cases implicit : node.isImplicit with
  | false => rfl
  | true =>
    have none := implicit_entrances (terrain.shaped node (List.mem_of_getElem? found)) implicit
    omega

theorem above_apart (terrain : Terrain nodes start) (reached : Reaches nodes start index)
    (above : Above nodes n index) : n ≠ index := by
  rintro rfl
  exact exec_tree_acyclic terrain.tree reached above

theorem above_still {job : Job} (above : Above job.nodes n index) : job.pulls n = false := by
  obtain ⟨_, ⟨pin, target, ⟨node, exec, found, out, _⟩, _⟩, _⟩ := Relation.TransGen.head'_iff.mp above
  rw [pulls_implicit found]
  cases pins : node.execOut with
  | nil => simp [pins] at out
  | cons => simp [Node.isImplicit, pins]

end Terrain

theorem release_absent (index : Nat) (points : List Nat) (absent : index ∉ points) : releasePoint index points = points := by
  simp [releasePoint, absent]

theorem release_head (index : Nat) (points : List Nat) : releasePoint index (index :: points) = points := by
  simp [releasePoint]

/-- A node is left once, or ends the run, or takes turns. -/
theorem node_ways (node : Node) :
    node.kind.isOrdinary = true ∨ 0 < node.kind.entrances ∧
      (node.kind = .functionReturn ∨ ∀ inputs, ∃ agenda, node.agenda? inputs = some agenda) := by
  cases kind : node.kind with
  | functionReturn => exact .inr ⟨by decide, .inl rfl⟩
  | sequence | forLoop | forEach | whileLoop =>
    exact .inr ⟨by decide, .inr fun inputs => ⟨_, by simp only [Node.agenda?, kind]; rfl⟩⟩
  | _ => exact .inl rfl

theorem activate_found {host : Host σ} {level : Nat} {job : Job} {index : Nat} {activation : Activation} {depth : Nat}
    {run after : Run σ} {next : Option Nat}
    (done : activate host level job index activation depth run = (.ok next, after)) :
    ∃ node, job.nodes[index]? = some node := by
  cases level with
  | zero => cases done
  | succ =>
    obtain ⟨_, node, _, _, _, _, _, _, found, _⟩ := activate_ok done
    exact ⟨node, found⟩

section

variable (host : Host σ) (level : Nat) (job : Job) (start : Nat)

def WalkArrives (fuel : Nat) : Prop :=
  ∀ index run after, Reaches job.nodes start index → (∀ n ∈ run.frame.returnPoints, Above job.nodes n index) →
    run.frame.progress.length = job.nodes.length → Follows host level job fuel index (.entered 0) run after →
    Arrives host level job (Walk job.nodes index) (Above job.nodes · index) run.frame.returnPoints fuel run after

def TurnsArrive (fuel : Nat) : Prop :=
  ∀ index node agenda points run after, Reaches job.nodes start index → job.nodes[index]? = some node →
    (∀ n ∈ points, Above job.nodes n index) → run.frame.returnPoints = index :: points →
    run.frame.progress.length = job.nodes.length → node.remaining? (run.frame.progressOf index) = some agenda →
    Follows host level job fuel index .resumed run after →
    Arrives host level job (fun steps ending => ∃ inputs, Turns job.nodes index .resumed inputs agenda steps ending)
      (Above job.nodes · index) points fuel run after

variable {host level job start}

variable {fuel index : Nat} {run : Run σ} {node : Node}

theorem branch_arrives (terrain : Terrain job.nodes start) (walks : WalkArrives host level job start fuel)
    {next : Option Nat} {after : Run σ} (reached : Reaches job.nodes start index)
    (points : ∀ n ∈ run.frame.returnPoints, n = index ∨ Above job.nodes n index)
    (long : run.frame.progress.length = job.nodes.length) (proceeds : Proceeds host level job fuel index run after next) :
    Arrives host level job (Branch job.nodes index next) (fun n => n = index ∨ Above job.nodes n index)
      run.frame.returnPoints fuel run after := by
  cases proceeds with
  | none resumes => exact .finished [] run fuel (.none index) (.refl run) rfl (fun _ _ => rfl) rfl (Nat.le_refl _) resumes
  | unconnected pin nowhere resumes =>
    exact .finished [] run fuel (.unconnected index pin nowhere) (.refl run) rfl (fun _ _ => rfl) rfl (Nat.le_refl _)
      resumes
  | leads pin target exit enters =>
    have edge : Leads job.nodes index target.node := ⟨pin, target, exit, rfl⟩
    have below : ∀ n, n = index ∨ Above job.nodes n index → Above job.nodes n target.node := by
      rintro n (rfl | above)
      · exact .single edge
      · exact above.tail edge
    rw [terrain.enters_first reached exit] at enters
    have arrives := walks target.node run after (reached.tail edge) (fun n member => below n (points n member)) long enters
    exact arrives.imp host level job below fun steps ending walk => .leads index pin target steps ending exit walk

theorem turn_arrives (terrain : Terrain job.nodes start) (walks : WalkArrives host level job start fuel)
    (turns : ∀ less ≤ fuel, TurnsArrive host level job start less)
    (found : job.nodes[index]? = some node) (reached : Reaches job.nodes start index) (points : List Nat)
    (above : ∀ n ∈ points, Above job.nodes n index) (activation : Activation) (inputs : List Value) (agenda : Agenda)
    {mid : Run σ} (after : Run σ)
    (noted : Noted run mid [⟨index, activation, inputs, (agenda.turn inputs).1.1, (agenda.turn inputs).1.2⟩])
    (kept : ∀ n, Above job.nodes n index → mid.frame.progressOf n = run.frame.progressOf n)
    (length : mid.frame.progress.length = run.frame.progress.length)
    (long : run.frame.progress.length = job.nodes.length)
    (last : (agenda.turn inputs).2 = none → mid.frame.returnPoints = points)
    (more : ∀ rest, (agenda.turn inputs).2 = some rest →
      mid.frame.returnPoints = index :: points ∧ node.remaining? (mid.frame.progressOf index) = some rest)
    (proceeds : Proceeds host level job fuel index mid after (agenda.turn inputs).1.2) :
    Arrives host level job (Turns job.nodes index activation inputs agenda) (Above job.nodes · index) points (fuel + 1)
      run after := by
  -- A turn: the step of the node, the branch that it leads to, and what comes after.
  cases turn : agenda.turn inputs with
  | mk yielded left =>
    rw [turn] at noted last more proceeds
    cases left with
    | none =>
      have branch := branch_arrives terrain walks reached
        (fun n member => .inr (above n (last rfl ▸ member))) (length.trans long) proceeds
      rw [last rfl] at branch
      exact branch.after_step host level job noted (fun _ guard => .inr guard) kept length
        fun steps ending below => .last index activation inputs agenda yielded steps ending turn below
    | some rest =>
      obtain ⟨registered, remains⟩ := more rest rfl
      have branch := branch_arrives terrain walks reached (fun n member => by
          rw [registered] at member
          exact (List.mem_cons.mp member).imp id (above n)) (length.trans long) proceeds
      cases branch with
      | returned steps below noted' cleared =>
        exact .returned _ (.cut index activation inputs agenda rest yielded steps turn below) (noted.trans noted') cleared
      | finished steps back less below noted' same kept' length' enough resumes =>
        have there : back.frame.returnPoints = index :: points := same.trans registered
        have again : Follows host level job less index .resumed back after := by
          simpa only [Resumes, there] using resumes
        have others := turns less enough index node rest points back after reached found above there
          (length'.trans (length.trans long)) (by rw [kept' index (.inl rfl)]; exact remains) again
        cases others with
        | returned others shaped noted'' cleared =>
          obtain ⟨again, shaped⟩ := shaped
          exact .returned _ (.turn index activation inputs agenda rest yielded steps again others _ turn below shaped)
            (noted.trans (noted'.trans noted'')) cleared
        | finished others last' fewer shaped noted'' back' kept'' length'' enough' resumes' =>
          obtain ⟨again, shaped⟩ := shaped
          exact .finished _ last' fewer
            (.turn index activation inputs agenda rest yielded steps again others _ turn below shaped)
            (noted.trans (noted'.trans noted'')) back'
            (fun n guard => (kept'' n guard).trans ((kept' n (.inr guard)).trans (kept n guard)))
            (length''.trans (length'.trans length)) (by omega) resumes'

theorem remaining_entrances {progress : Progress} {agenda : Agenda}
    (left : node.remaining? progress = some agenda) : 0 < node.kind.entrances := by
  unfold Node.remaining? at left
  split at left
  case h_5 => cases left
  all_goals
    next kind =>
      rw [kind]
      decide

theorem walk_step (terrain : Terrain job.nodes start) (walks : WalkArrives host level job start fuel)
    (turns : ∀ less ≤ fuel, TurnsArrive host level job start less) : WalkArrives host level job start (fuel + 1) := by
  intro index run after reached above long follows
  obtain ⟨_, next, mid, same, done, proceeds⟩ := follows_step host level job follows
  obtain rfl := Nat.succ.inj same
  obtain ⟨node, found⟩ := activate_found done
  have moved := traversed_moved terrain.shaped found (by decide) done
  have kept : ∀ n, Above job.nodes n index → mid.frame.progressOf n = run.frame.progressOf n := fun n higher =>
    moved.others n (Terrain.above_still higher) (terrain.above_apart reached higher)
  obtain ordinary | ⟨entered, way⟩ := node_ways node
  · obtain ⟨inputs, outputs, noted, points⟩ := ordinary_step terrain.shaped found ordinary (by decide) done
    have branch := branch_arrives terrain walks reached
      (fun n member => .inr (above n (points ▸ member))) (moved.length.trans long) proceeds
    rw [points] at branch
    exact branch.after_step host level job noted (fun _ guard => .inr guard) kept moved.length
      fun steps ending below => .ordinary index node inputs outputs next steps ending found ordinary below
  · have inside : index < run.frame.progress.length := by
      rw [long]
      exact (List.getElem?_eq_some_iff.mp found).1
    obtain ⟨inputs, effects⟩ := effect_step terrain.shaped found
      (terrain.still job rfl found entered) (by decide) inside done
    cases way with
    | inl kind =>
      -- A return clears the return points, so that control has nowhere left to go.
      obtain ⟨rfl, noted, points, _⟩ := effects ⟨[], none, .idle, .clear⟩ (by simp only [ofNode?, kind])
      cases proceeds with
      | none resumes =>
        obtain rfl : after = mid := by simpa only [Resumes, points, PointChange.apply] using resumes
        exact .returned _ (.returned index node inputs found kind) noted points
    | inr planned =>
      obtain ⟨agenda, planned⟩ := planned inputs
      obtain ⟨effect, applies, turn⟩ := entered_turn node inputs job.arguments agenda (run.frame.progressOf index) planned
      obtain ⟨rfl, noted, points, progress⟩ := effects effect applies
      have absent : index ∉ run.frame.returnPoints := fun member =>
        terrain.above_apart reached (above index member) rfl
      have yielded := turn.yielded
      have arrives := turn_arrives terrain walks turns found reached run.frame.returnPoints above
        (.entered 0) inputs agenda after (by rw [← yielded]; exact noted) kept moved.length long
        (fun last => by rw [points, turn.last last, PointChange.apply, release_absent index _ absent])
        (fun rest left => by
          obtain ⟨stays, remains⟩ := turn.more rest left
          rw [points, stays, progress, PointChange.apply, release_absent index _ absent]
          exact ⟨rfl, remains⟩)
        (by rw [← yielded]; exact proceeds)
      exact arrives.imp host level job (fun _ guard => guard) fun steps ending turns =>
        .turns index node inputs agenda steps ending found planned turns

theorem turns_step (terrain : Terrain job.nodes start) (walks : WalkArrives host level job start fuel)
    (turns : ∀ less ≤ fuel, TurnsArrive host level job start less) : TurnsArrive host level job start (fuel + 1) := by
  intro index node agenda points run after reached found above registered long left follows
  obtain ⟨_, next, mid, same, done, proceeds⟩ := follows_step host level job follows
  obtain rfl := Nat.succ.inj same
  have moved := traversed_moved terrain.shaped found (by decide) done
  have kept : ∀ n, Above job.nodes n index → mid.frame.progressOf n = run.frame.progressOf n := fun n higher =>
    moved.others n (Terrain.above_still higher) (terrain.above_apart reached higher)
  have inside : index < run.frame.progress.length := by
    rw [long]
    exact (List.getElem?_eq_some_iff.mp found).1
  have entered := remaining_entrances left
  obtain ⟨inputs, effects⟩ := effect_step terrain.shaped found
    (terrain.still job rfl found entered) (by decide) inside done
  obtain ⟨effect, applies, turn⟩ := resumed_turn inputs job.arguments left
  obtain ⟨rfl, noted, changed, progress⟩ := effects effect applies
  have yielded := turn.yielded
  have arrives := turn_arrives terrain walks turns found reached points above .resumed inputs agenda
    after (by rw [← yielded]; exact noted) kept moved.length long
    (fun last => by rw [changed, turn.last last, registered, PointChange.apply, release_head])
    (fun rest more => by
      obtain ⟨stays, remains⟩ := turn.more rest more
      rw [changed, stays, progress, registered, PointChange.apply]
      exact ⟨rfl, remains⟩)
    (by rw [← yielded]; exact proceeds)
  exact arrives.imp host level job (fun _ guard => guard) fun steps ending turns => ⟨inputs, turns⟩

end

theorem traversal_arrives (host : Host σ) (level : Nat) (job : Job) (start : Nat) (terrain : Terrain job.nodes start)
    (fuel : Nat) : WalkArrives host level job start fuel ∧ ∀ less ≤ fuel, TurnsArrive host level job start less := by
  induction fuel with
  | zero =>
    refine ⟨?_, ?_⟩
    · rintro _ _ _ _ _ _ ⟨_, done⟩
      cases done
    · intro less none
      obtain rfl := Nat.le_zero.mp none
      rintro _ _ _ _ _ _ _ _ _ _ _ _ ⟨_, done⟩
      cases done
  | succ fuel ih =>
    refine ⟨walk_step terrain ih.1 ih.2, fun less bound => ?_⟩
    cases Nat.lt_or_eq_of_le bound with
    | inl fewer => exact ih.2 less (Nat.le_of_lt_succ fewer)
    | inr same => exact same ▸ turns_step terrain ih.1 ih.2

theorem laid_out_enters {graph : Graph} (laid : graph.LaidOut) (a pin : Nat) (target : ExecTarget)
    (exit : Exit graph.nodes a pin target) :
    ∃ node, graph.nodes[target.node]? = some node ∧ target.pin < node.execIn.length := by
  obtain ⟨source, exec, found, out, leads⟩ := exit
  have member : some target ∈ source.layout.targets := leads ▸ List.mem_map_of_mem (List.mem_of_getElem? out)
  obtain ⟨entry, there, inside⟩ := laid.targets source.layout (List.mem_map_of_mem (List.mem_of_getElem? found)) target member
  rw [Graph.layouts, List.getElem?_map] at there
  obtain ⟨node, found', rfl⟩ := Option.map_eq_some_iff.mp there
  exact ⟨node, found', inside⟩

theorem run_ok {host : Host σ} {start : Nat} {arguments : List Value} {graph final : Graph} {env after : Env σ}
    {outcome : Outcome} (done : graph.run host start arguments env = (.ok outcome, final, after)) :
    ∃ stack run, graph.isCompiled = true ∧ Follows host (host.limits.maxSteps + 1) ⟨graph.nodes, graph.locals, arguments⟩
      (host.limits.maxSteps + 1) start (.entered 0)
      ⟨⟨graph.nodes.map (·.progress), stack, graph.returnPoints, none⟩, env⟩ run ∧ after = run.env := by
  obtain ⟨stack, last, run, compiled, followed, _, _, rfl⟩ := run_with_ok done
  exact ⟨stack, run, compiled, ⟨last, followed⟩, rfl⟩

/-- A run that succeeds takes the steps of the tree below its start, and these in order. -/
theorem run_walks_exec_tree (host : Host σ) (start : Nat) (arguments : List Value) (graph final : Graph)
    (env after : Env σ) (outcome : Outcome) (built : graph.Built) (shaped : ∀ node ∈ graph.nodes, node.Shaped)
    (tree : ExecTree graph.nodes start) (done : graph.run host start arguments env = (.ok outcome, final, after)) :
    ∃ steps ending, Walk graph.nodes start steps ending ∧
      history env.callStack after.trace = history env.callStack env.trace ++ steps := by
  obtain ⟨stack, run, compiled, follows, rfl⟩ := run_ok done
  have terrain : Terrain graph.nodes start := ⟨tree, shaped, laid_out_enters (built_fresh graph built compiled)⟩
  have rests : graph.returnPoints = [] := built_at_rest graph built
  have walks := (traversal_arrives host (host.limits.maxSteps + 1) ⟨graph.nodes, graph.locals, arguments⟩ start terrain
    (host.limits.maxSteps + 1)).1
  have arrives := walks start _ run .refl (by simp [rests]) (by simp) follows
  cases arrives with
  | returned steps walk noted _ => exact ⟨steps, .returned, walk, noted.steps⟩
  | finished steps mid less walk noted back _ _ _ resumes =>
    -- No return point is left to come back to, so the run is over here.
    have none : mid.frame.returnPoints = [] := back.trans rests
    obtain rfl : run = mid := by simpa only [Resumes, none] using resumes
    exact ⟨steps, .finished, walk, noted.steps⟩

def nestedHistory : List Operation :=
  [.addNode (Node.functionEntry []), .addNode (Node.functionReturn []), .addNode (Node.sequence 2), .addNode Node.forLoop,
    .addNode Node.branch, .connectExec 0 0 2 0, .connectExec 2 0 3 0, .connectExec 2 1 1 0, .connectExec 3 0 4 0,
    .setLiteral 3 1 (.int 2), .compile]

theorem run_walks_nested_loop :
    let graph := nestedHistory.foldl Operation.apply Graph.empty
    let host : Host Unit := ⟨Catalog.empty, none, Limits.default⟩
    let result := graph.run host 0 [] (Env.start [] [] ())
    result.1.isOk = true ∧ (history [] result.2.2.trace).map (·.node) = [0, 2, 3, 4, 3, 4, 3, 4, 3, 2, 1] ∧
      ∃ steps ending, Walk graph.nodes 0 steps ending ∧ history [] result.2.2.trace = [] ++ steps := by
  intro graph host result
  have succeeds : result.1.isOk = true := by decide +kernel
  refine ⟨succeeds, by decide +kernel, ?_⟩
  cases done : result with
  | mk answer left =>
    rw [done] at succeeds
    cases answer with
    | error => cases succeeds
    | ok outcome =>
      exact run_walks_exec_tree host 0 [] graph left.1 (Env.start [] [] ()) left.2 outcome
        ⟨Graph.empty, nestedHistory, .empty, rfl⟩ (by decide +kernel)
        (exec_tree_of_exits graph.nodes 0 (by decide +kernel) (by decide +kernel) (by decide +kernel)) done

end Patchbay
