import Mathlib.Data.List.Nodup
import Mathlib.Data.List.Perm.Subperm
import Patchbay.Proofs.Simulation
import Patchbay.Proofs.Surroundings
import Patchbay.Proofs.Traversal

set_option autoImplicit false

namespace Patchbay

open Effect

def NodeKind.takesTurns : NodeKind → Bool
  | .sequence | .forLoop | .forEach | .whileLoop => true
  | _ => false

/-- How far such a node is while control is to come back: a counting loop and a loop over an array
have their cursor, and a conditional loop is active. -/
def NodeKind.awaits : NodeKind → Progress → Bool
  | .sequence, .stepping _ => true
  | .forLoop, .counting _ _ => true
  | .forEach, .walking _ _ => true
  | .whileLoop, .looping => true
  | _, _ => false

variable {progress : Progress} {index : Nat} {points : List Nat}

theorem awaits_takes_turns {kind : NodeKind} (awaits : kind.awaits progress = true) :
    kind.takesTurns = true := by
  cases kind <;> first | rfl | (cases progress <;> cases awaits)

/-- What a node does to the return points goes with its progress. -/
inductive Effect.Orderly (kind : NodeKind) (activation : Activation) (effect : Effect) : Prop where
  | turn (awaits : kind.awaits effect.progress = true) (leaves : ∃ pin, effect.next = some pin)
      (points : effect.points = .keep ∨ effect.points = .register ∧ ∃ pin, activation = .entered pin)
  | finished (points : effect.points = .release)
  | returned (points : effect.points = .clear) (empty : effect.outputs = [])
  | ordinary (kind : kind.takesTurns = false) (points : effect.points = .keep)

theorem entry_points (activation : Activation) :
    entryPoints activation = .keep ∨ entryPoints activation = .register ∧ ∃ pin, activation = .entered pin := by
  unfold entryPoints
  split
  · exact .inr ⟨rfl, 0, rfl⟩
  · exact .inl rfl

theorem sequence_orderly (count : Nat) (activation : Activation) (progress : Progress) :
    (Effect.sequence count activation progress).Orderly .sequence activation := by
  have turns : ∀ next points, points = .keep ∨ points = .register ∧ (∃ pin, activation = .entered pin) →
      (if next < count then ⟨[], some next, .stepping (next + 1), points⟩ else ⟨[], none, .stepping next, .release⟩ :
        Effect).Orderly .sequence activation := by
    intro next points stays
    split
    · exact .turn rfl ⟨next, rfl⟩ stays
    · exact .finished rfl
  apply turns
  split
  · next pin => exact .inr ⟨rfl, pin, rfl⟩
  · exact .inl rfl

theorem for_loop_orderly (activation : Activation) (progress : Progress) (inputs : List Value) :
    (Effect.forLoop activation progress inputs).Orderly .forLoop activation := by
  unfold Effect.forLoop
  split
  · split
    · exact .turn rfl ⟨_, rfl⟩ (entry_points activation)
    · exact .finished rfl
  · exact .finished rfl

theorem for_each_orderly (activation : Activation) (progress : Progress) (inputs : List Value) :
    (Effect.forEach activation progress inputs).Orderly .forEach activation := by
  unfold Effect.forEach
  split
  · split
    · exact .turn rfl ⟨_, rfl⟩ (entry_points activation)
    · exact .finished rfl
  · exact .finished rfl

theorem while_loop_orderly (activation : Activation) (progress : Progress) (inputs : List Value) :
    (Effect.whileLoop activation progress inputs).Orderly .whileLoop activation := by
  unfold Effect.whileLoop
  split
  · exact .turn rfl ⟨_, rfl⟩ (entry_points activation)
  · exact .finished rfl

theorem effect_orderly {node : Node} {activation : Activation} {arguments inputs : List Value}
    {effect : Effect} (applies : ofNode? node activation progress arguments inputs = some effect) :
    effect.Orderly node.kind activation := by
  by_cases ordinary : node.kind.isOrdinary = true
  · have kind : node.kind.takesTurns = false := by
      cases kind : node.kind <;> first | rfl | simp [kind, NodeKind.isOrdinary] at ordinary
    exact .ordinary kind (ordinary_effect ordinary applies)
  · unfold ofNode? at applies
    cases kind : node.kind with
    | sequence =>
      simp only [kind, Option.some.injEq] at applies
      exact applies ▸ sequence_orderly _ activation progress
    | forLoop =>
      simp only [kind, Option.some.injEq] at applies
      exact applies ▸ for_loop_orderly activation progress inputs
    | forEach =>
      simp only [kind, Option.some.injEq] at applies
      exact applies ▸ for_each_orderly activation progress inputs
    | whileLoop =>
      simp only [kind, Option.some.injEq] at applies
      exact applies ▸ while_loop_orderly activation progress inputs
    | functionReturn =>
      simp only [kind, Option.some.injEq] at applies
      exact applies ▸ .returned rfl rfl
    | _ => simp [kind, NodeKind.isOrdinary] at ordinary

theorem release_split {above : List Nat} (below : List Nat) (absent : index ∉ above) :
    releasePoint index (above ++ index :: below) = below := by
  have passed : ∀ point ∈ above, (point != index) = true := by
    intro point member
    simp only [bne_iff_ne, ne_eq]
    rintro rfl
    exact absent member
  simp only [releasePoint, List.contains_append, List.contains_cons, beq_self_eq_true, Bool.true_or, Bool.or_true, if_true]
  rw [List.dropWhile_append_of_pos passed, List.dropWhile_cons_of_neg (by simp)]
  rfl

/-- A node that is released goes with all that lie above it; those below stay. -/
theorem release_cases (index : Nat) (distinct : points.Nodup) :
    index ∉ points ∧ releasePoint index points = points ∨
      ∃ above below, points = above ++ index :: below ∧ index ∉ below ∧ releasePoint index points = below := by
  by_cases member : index ∈ points
  · obtain ⟨above, below, rfl⟩ := List.append_of_mem member
    have apart := List.nodup_middle.mp distinct
    obtain ⟨absent, _⟩ := List.nodup_cons.mp apart
    simp only [List.mem_append, not_or] at absent
    exact .inr ⟨above, below, rfl, absent.2, release_split below absent.1⟩
  · exact .inl ⟨member, release_absent index points member⟩

theorem release_sublist (index : Nat) (points : List Nat) : (releasePoint index points).Sublist points := by
  unfold releasePoint
  split
  · exact (List.drop_sublist 1 _).trans (List.dropWhile_sublist _)
  · exact .refl points

theorem release_absent_after (index : Nat) (distinct : points.Nodup) :
    index ∉ releasePoint index points := by
  obtain ⟨absent, same⟩ | ⟨above, below, _, absent, same⟩ := release_cases index distinct <;> rwa [same]

theorem release_position {position : Nat} (distinct : points.Nodup) (there : points.reverse[position]? = some index) :
    (releasePoint index points).reverse = points.reverse.take position := by
  obtain ⟨inside, same⟩ := List.getElem?_eq_some_iff.mp there
  have split : points.reverse = points.reverse.take position ++ index :: points.reverse.drop (position + 1) := by
    rw [← same, List.getElem_cons_drop, List.take_append_drop]
  have turned : points = (points.reverse.drop (position + 1)).reverse ++ index :: (points.reverse.take position).reverse := by
    have both := congrArg List.reverse split
    rwa [List.reverse_reverse, List.reverse_append, List.reverse_cons, List.append_assoc, List.singleton_append] at both
  have absent : index ∉ (points.reverse.drop (position + 1)).reverse := by
    have apart := turned ▸ distinct
    obtain ⟨absent, _⟩ := List.nodup_cons.mp (List.nodup_middle.mp apart)
    exact fun member => absent (List.mem_append_left _ member)
  have released := release_split (points.reverse.take position).reverse absent
  rw [← turned] at released
  rw [released, List.reverse_reverse]

/-- The return points of a frame are distinct nodes that await control. -/
structure Disciplined (nodes : List Node) (frame : Frame) : Prop where
  length : frame.progress.length = nodes.length
  distinct : frame.returnPoints.Nodup
  awaited : ∀ index ∈ frame.returnPoints, ∃ node, nodes[index]? = some node ∧
    node.kind.awaits (frame.progressOf index) = true

namespace Disciplined

variable {nodes : List Node} {frame : Frame}

theorem bounded (disciplined : Disciplined nodes frame) :
    frame.returnPoints.length ≤ nodes.countP (·.kind.takesTurns) := by
  have among : frame.returnPoints ⊆ (nodes.zipIdx.filter (·.1.kind.takesTurns)).map (·.2) := by
    intro index member
    obtain ⟨node, found, awaits⟩ := disciplined.awaited index member
    refine List.mem_map.mpr ⟨(node, index), List.mem_filter.mpr ⟨?_, awaits_takes_turns awaits⟩, rfl⟩
    exact List.mem_zipIdx_iff_getElem?.mpr found
  have count : ((nodes.zipIdx.filter (·.1.kind.takesTurns)).map (·.2)).length = nodes.countP (·.kind.takesTurns) := by
    have fst : nodes = nodes.zipIdx.map (·.1) := by simp
    conv_rhs => rw [fst, List.countP_map]
    rw [List.length_map, ← List.countP_eq_length_filter]
    rfl
  exact count ▸ (List.subperm_of_subset disciplined.distinct among).length_le

variable {index : Nat} {node : Node}

/-- The points after an effect are old ones whose node did nothing, or the node itself while it awaits. -/
theorem applied (disciplined : Disciplined nodes frame) (found : nodes[index]? = some node)
    (effect : Effect) (points : (effect.points.apply index frame.returnPoints).Nodup)
    (old : ∀ point ∈ effect.points.apply index frame.returnPoints, point ≠ index → point ∈ frame.returnPoints)
    (own : index ∈ effect.points.apply index frame.returnPoints → node.kind.awaits effect.progress = true) :
    Disciplined nodes (frame.applyEffect index effect) := by
  have inside : index < frame.progress.length := by
    rw [disciplined.length]
    exact (List.getElem?_eq_some_iff.mp found).1
  refine ⟨by simpa [Frame.applyEffect] using disciplined.length, points, fun point member => ?_⟩
  by_cases same : point = index
  · subst same
    refine ⟨node, found, ?_⟩
    have progress : (frame.applyEffect point effect).progressOf point = effect.progress := by
      simp only [Frame.progressOf, Frame.applyEffect, List.getElem?_set_self inside, Option.getD_some]
    rw [progress]
    exact own member
  · rw [progress_applied frame index effect point same]
    exact disciplined.awaited point (old point member same)

theorem effect (disciplined : Disciplined nodes frame) (found : nodes[index]? = some node)
    {activation : Activation} {effect : Effect} (orderly : effect.Orderly node.kind activation) :
    Disciplined nodes (frame.applyEffect index effect) := by
  have absent := release_absent_after index disciplined.distinct
  have fewer := release_sublist index frame.returnPoints
  cases orderly with
  | turn awaits _ points =>
    obtain keep | ⟨register, _⟩ := points
    · refine disciplined.applied found effect ?_ ?_ fun _ => awaits
      · rw [keep]
        exact disciplined.distinct
      · rw [keep]
        exact fun _ member _ => member
    · refine disciplined.applied found effect ?_ ?_ fun _ => awaits
      · rw [register]
        exact List.nodup_cons.mpr ⟨absent, disciplined.distinct.sublist fewer⟩
      · rw [register]
        intro point member other
        exact fewer.subset (List.mem_of_ne_of_mem other member)
  | finished release =>
    refine disciplined.applied found effect ?_ ?_ ?_ <;> rw [release]
    · exact disciplined.distinct.sublist fewer
    · exact fun _ member _ => fewer.subset member
    · exact fun member => absurd member absent
  | returned clear =>
    refine disciplined.applied found effect ?_ ?_ ?_ <;> rw [clear]
    · exact List.nodup_nil
    · exact fun _ member _ => absurd member List.not_mem_nil
    · exact fun member => absurd member List.not_mem_nil
  | ordinary kind keep =>
    refine disciplined.applied found effect ?_ ?_ ?_ <;> rw [keep]
    · exact disciplined.distinct
    · exact fun _ member _ => member
    · -- A node that takes no turns is never registered.
      intro member
      obtain ⟨other, found', awaits⟩ := disciplined.awaited index member
      obtain rfl : node = other := Option.some.inj (found.symm.trans found')
      rw [awaits_takes_turns awaits] at kind
      cases kind

end Disciplined

theorem disciplined_stable (job : Job) :
    FrameStable job (fun _ _ => True) fun a b => Disciplined job.nodes a → Disciplined job.nodes b where
  refl _ := id
  trans first second := second ∘ first
  pulls _ _ := trivial
  effect _ _ _ _ _ _ _ found applies disciplined :=
    disciplined.effect found (effect_orderly applies)
  returned _ _ disciplined := ⟨disciplined.length, disciplined.distinct, disciplined.awaited⟩
  stack _ _ _ disciplined := ⟨disciplined.length, disciplined.distinct, disciplined.awaited⟩

variable {σ : Type}

/-- The states that an activation goes through: the one in which it begins, those of the reads that
it sets off one after the other, and the one in which it ends. -/
inductive Seen (host : Host σ) (job : Job) : Nat → Nat → Activation → Nat → Run σ → Run σ → Prop where
  | begins (level index : Nat) (activation : Activation) (depth : Nat) (run : Run σ) :
      Seen host job level index activation depth run run
  | reads (level index : Nat) (activation : Activation) (depth : Nat) (run ready seen : Run σ) (env : Env σ) (node : Node)
      (count : Nat) (values : List Value) (pin : InputPin) (source : PinSource)
      (counted : run.env.step host.limits = (.ok (), env)) (found : job.nodes[index]? = some node)
      (gathered : gather host.limits job (pullAt host level job depth) depth
        (node.inputs.take count) ((run.withEnv env).note (.began ⟨env.callStack, index, activation⟩)) = (.ok values, ready))
      (next : node.inputs[count]? = some pin) (fed : pin.source = some source) (implicit : job.pulls source.node = true)
      (within : Seen host job level source.node .pulled (depth + 1) ready seen) :
      Seen host job (level + 1) index activation depth run seen
  | ends (level index : Nat) (activation : Activation) (depth : Nat) (run : Run σ) :
      Seen host job level index activation depth run (activate host level job index activation depth run).2

/-- The activations that a run comes to one after the other, each with the state in which it begins. -/
inductive Comes (host : Host σ) (level : Nat) (job : Job) (start : Nat) (run : Run σ) : Nat → Activation → Run σ → Prop where
  | starts : Comes host level job start run start (.entered 0) run
  | goes (index : Nat) (activation : Activation) (before after : Run σ) (next : Option Nat) (node : Nat) (way : Activation)
      (came : Comes host level job start run index activation before)
      (acted : activate host level job index activation 0 before = (.ok next, after))
      (leads : successor job index next after.frame.returnPoints = .ok (some (node, way))) :
      Comes host level job start run node way after

variable {host : Host σ} {job : Job} {level index depth start pin : Nat} {activation : Activation}
  {run before ready after : Run σ} {next : Option Nat} {points : List Nat} {graph : Graph} {limits : Limits}
  {node : Node}

theorem seen_disciplined {seen : Run σ} (within : Seen host job level index activation depth run seen)
    (disciplined : Disciplined job.nodes run.frame) : Disciplined job.nodes seen.frame := by
  have stable := disciplined_stable job
  induction within with
  | begins => exact disciplined
  | reads level index activation depth run ready seen env node count values pin source _ _ gathered _ _ _ _ ih =>
    have read := stable.gather host.limits (pullAt host level job depth) depth (node.inputs.take count)
      ((run.withEnv env).note (.began ⟨env.callStack, index, activation⟩))
      (fun source run _ => stable.activate host level source .pulled (depth + 1) run trivial)
    rw [gathered] at read
    exact ih (read disciplined)
  | ends level index activation depth run => exact stable.activate host level index activation depth run trivial disciplined

theorem comes_disciplined (came : Comes host level job start run index activation before)
    (disciplined : Disciplined job.nodes run.frame) : Disciplined job.nodes before.frame := by
  induction came with
  | starts => exact disciplined
  | goes index activation before after next node way _ acted _ ih =>
    have kept := (disciplined_stable job).activate host level index activation 0 before trivial
    rw [acted] at kept
    exact kept ih

theorem successor_ways {node : Nat} {way : Activation}
    (leads : successor job index next points = .ok (some (node, way))) :
    (∃ (origin : Node) (pin : Nat) (exec : ExecPin) (target : ExecTarget), job.nodes[index]? = some origin ∧
      origin.execOut[pin]? = some exec ∧ exec.target = some target ∧ node = target.node ∧ way = .entered target.pin) ∨
        way = .resumed ∧ node ∈ points := by
  have resumed : points.head?.map (fun node => (node, Activation.resumed)) = some (node, way) →
      way = .resumed ∧ node ∈ points := by
    intro back
    obtain ⟨point, head, same⟩ := Option.map_eq_some_iff.mp back
    cases same
    exact ⟨rfl, List.mem_of_head? head⟩
  unfold successor at leads
  split at leads
  · exact .inr (resumed (Except.ok.inj leads))
  · next pin =>
      split at leads
      · cases leads
      · next exec found =>
          split at leads
          · next target goes =>
              cases leads
              unfold Job.execPin? at found
              split at found
              · next origin there => exact .inl ⟨origin, pin, exec, target, there, found, goes, rfl, rfl⟩
              · cases found
          · exact .inr (resumed (Except.ok.inj leads))

/-- Control comes back to a node only as long as the node awaits it. -/
theorem resumed_awaits
    (came : Comes host level job start run index .resumed before) (disciplined : Disciplined job.nodes run.frame) :
    ∃ node, job.nodes[index]? = some node ∧ node.kind.takesTurns = true := by
  have kept := comes_disciplined came disciplined
  cases came with
  | goes origin activation earlier _ next _ _ _ _ leads =>
    obtain ⟨_, _, _, _, _, _, _, _, entered⟩ | ⟨_, member⟩ := successor_ways leads
    · cases entered
    · obtain ⟨node, found, awaits⟩ := kept.awaited index member
      exact ⟨node, found, awaits_takes_turns awaits⟩

def Job.Sourced (job : Job) : Prop :=
  ∀ node ∈ job.nodes, ∀ pin ∈ node.inputs, ∀ source, pin.source = some source →
    ∃ origin, job.nodes[source.node]? = some origin ∧ origin.outputs ≠ []

theorem laid_out_sourced (laid : graph.LaidOut) (arguments : List Value) :
    (graph.job arguments).Sourced := by
  intro node inside pin pinIn source fed
  obtain ⟨resolved, slotted⟩ := laid_out_input laid inside pinIn
  rw [fed] at resolved slotted
  obtain ⟨slot, placed⟩ := Option.isSome_iff_exists.mp (slotted rfl)
  obtain ⟨origin, found, inside, _⟩ := slot_found (resolved.symm.trans placed)
  exact ⟨origin, found, List.ne_nil_of_length_pos (Nat.zero_lt_of_lt inside)⟩

def Standing (job : Job) (frame : Frame) : Prop := ∀ index ∈ frame.returnPoints, job.pulls index = false

def PullsStill (job : Job) (pull : Nat → Run σ → Except ScriptError (Option Nat) × Run σ) : Prop :=
  ∀ index node run next after, job.nodes[index]? = some node → node.outputs ≠ [] → job.pulls index = true →
    Standing job run.frame → pull index run = (.ok next, after) → after.frame.returnPoints = run.frame.returnPoints

theorem read_input_points (sourced : job.Sourced)
    (pull : Nat → Run σ → Except ScriptError (Option Nat) × Run σ) (still : PullsStill job pull)
    (inside : node ∈ job.nodes) {pin : InputPin} (pinIn : pin ∈ node.inputs) {value : Value}
    (standing : Standing job run.frame) (read : readInput limits job pull depth pin run = (.ok value, ready)) :
    ready.frame.returnPoints = run.frame.returnPoints := by
  unfold readInput at read
  split at read
  · next source slot fed _ =>
      split at read
      · next implicit =>
          split at read
          · cases read
          · split at read
            · cases read
            · next next after pulled =>
                cases read
                obtain ⟨origin, found, outputs⟩ := sourced node inside pin pinIn source fed
                exact still source.node origin run next _ found outputs implicit standing pulled
      · cases read
        rfl
  · cases read
    rfl

theorem gather_points (sourced : job.Sourced) (pull : Nat → Run σ → Except ScriptError (Option Nat) × Run σ)
    (still : PullsStill job pull) (inside : node ∈ job.nodes) {pins : List InputPin}
    (pinsIn : ∀ pin ∈ pins, pin ∈ node.inputs) (run : Run σ) (values : List Value) (standing : Standing job run.frame)
    (gathered : gather limits job pull depth pins run = (.ok values, ready)) :
    ready.frame.returnPoints = run.frame.returnPoints := by
  induction pins generalizing run values with
  | nil =>
    cases gathered
    rfl
  | cons pin rest ih =>
    obtain ⟨pinIn, restIn⟩ := List.forall_mem_cons.mp pinsIn
    unfold gather at gathered
    split at gathered
    · cases gathered
    · next value middle read =>
        have first := read_input_points sourced pull still inside pinIn standing read
        have stands : Standing job middle.frame := by
          unfold Standing
          rw [first]
          exact standing
        split at gathered
        · cases gathered
        · next others last after =>
            cases gathered
            exact (ih restIn middle others stands after).trans first

/-- An activation that succeeds changes the return points by the effect of its own node alone. -/
inductive ActedPoints (job : Job) (index : Nat) (node : Node) (activation : Activation) (next : Option Nat)
    (before after : List Nat) : Prop where
  | nothing (progress : Progress) (inputs : List Value)
      (none : ofNode? node activation progress job.arguments inputs = none) (same : after = before) :
      ActedPoints job index node activation next before after
  | effect (progress : Progress) (inputs : List Value) (effect : Effect)
      (applies : ofNode? node activation progress job.arguments inputs = some effect) (leaves : next = effect.next)
      (count : effect.outputs.length = node.outputs.length) (points : after = effect.points.apply index before) :
      ActedPoints job index node activation next before after

theorem acted_points (sourced : job.Sourced)
    (still : PullsStill job fun source (run : Run σ) => activate host level job source .pulled (depth + 1) run)
    (standing : Standing job run.frame)
    (done : activate host (level + 1) job index activation depth run = (.ok next, after)) :
    ∃ node, job.nodes[index]? = some node ∧
      ActedPoints job index node activation next run.frame.returnPoints after.frame.returnPoints := by
  obtain ⟨env, node, inputs, ready, outputs, given, stored, _, found, gathered, performed, kept, rfl⟩ :=
    activate_ok done
  refine ⟨node, found, ?_⟩
  have read : ready.frame.returnPoints = run.frame.returnPoints :=
    gather_points sourced _ still (List.mem_of_getElem? found)
      (fun _ member => member) ((run.withEnv env).note (.began ⟨env.callStack, index, activation⟩)) inputs standing
      gathered
  have stays := (store_outputs_frame kept).1
  cases applies : ofNode? node activation (ready.frame.progressOf index) job.arguments inputs with
  | none =>
    have worked := (perform_without_effect host (callAt host level) job index node activation inputs applies).1
    rw [performed] at worked
    exact .nothing _ inputs applies (stays.trans (worked.trans read))
  | some effect =>
    obtain ⟨rfl, rfl, points, _⟩ := perform_effect host _ job index node activation inputs applies performed
    have count : effect.outputs.length = node.outputs.length := by
      unfold storeOutputs at kept
      split at kept
      · cases kept
      · next same => exact not_not.mp same
    exact .effect _ inputs effect applies rfl count (stays.trans (points.trans (by rw [read])))

theorem pulls_still (host : Host σ) (level : Nat) (sourced : job.Sourced) (depth : Nat) :
    PullsStill job fun source (run : Run σ) => activate host level job source .pulled depth run := by
  induction level generalizing depth with
  | zero =>
    intro index node run next after _ _ _ _ done
    cases done
  | succ level ih =>
    intro index node run next after found filled implicit standing done
    obtain ⟨other, found', acted⟩ :=
      acted_points sourced (ih (depth + 1)) standing done
    cases acted with
    | nothing _ _ _ same => exact same
    | effect progress inputs effect applies _ count points =>
      obtain rfl : node = other := Option.some.inj (found.symm.trans found')
      rw [points]
      cases effect_orderly applies with
      | turn _ _ points =>
        obtain keep | ⟨_, pin, entered⟩ := points
        · rw [keep]
          rfl
        · cases entered
      | finished release =>
        rw [release]
        refine release_absent index run.frame.returnPoints fun member => ?_
        rw [standing index member] at implicit
        cases implicit
      | returned _ empty =>
        rw [empty] at count
        exact absurd (List.eq_nil_of_length_eq_zero count.symm) filled
      | ordinary _ keep =>
        rw [keep]
        rfl

theorem came_points (sourced : job.Sourced) (standing : Standing job run.frame)
    (done : activate host level job index activation 0 run = (.ok next, after)) :
    ∃ node, job.nodes[index]? = some node ∧
      ActedPoints job index node activation next run.frame.returnPoints after.frame.returnPoints := by
  cases level with
  | zero => cases done
  | succ level =>
    exact acted_points sourced (pulls_still host level sourced 1) standing done

theorem successor_pin {way : Option (Nat × Activation)}
    (leads : successor job index (some pin) points = .ok way) : job.pulls index = false := by
  unfold successor Job.execPin? at leads
  cases found : job.nodes[index]? with
  | none => simp [found] at leads
  | some node =>
    rw [pulls_implicit found]
    cases pins : node.execOut with
    | nil => simp [found, pins] at leads
    | cons => simp [Node.isImplicit, pins]

theorem comes_standing (sourced : job.Sourced) (came : Comes host level job start run index activation before)
    (standing : Standing job run.frame) : Standing job before.frame := by
  -- A node that registers goes on at one of its pins, so that it is not implicit when control leaves it.
  induction came with
  | starts => exact standing
  | goes index activation before after next node way _ acted leads ih =>
    intro point member
    obtain ⟨other, _, changed⟩ := came_points sourced ih acted
    cases changed with
    | nothing _ _ _ same => exact ih point (same ▸ member)
    | effect progress inputs effect applies leaves _ points =>
      rw [points] at member
      cases effect_orderly applies with
      | turn _ goes points =>
        obtain keep | ⟨register, _⟩ := points
        · rw [keep] at member
          exact ih point member
        · rw [register] at member
          obtain rfl | old := List.mem_cons.mp member
          · obtain ⟨pin, goes⟩ := goes
            rw [leaves, goes] at leads
            exact successor_pin leads
          · exact ih point ((release_sublist index _).subset old)
      | finished release =>
        rw [release] at member
        exact ih point ((release_sublist index _).subset member)
      | returned clear =>
        rw [clear] at member
        cases member
      | ordinary _ keep =>
        rw [keep] at member
        exact ih point member

theorem break_effect (loop : node.kind.isLoop = true) (other : pin ≠ executePin)
    (progress : Progress) (arguments inputs : List Value) :
    (ofNode? node (.entered pin) progress arguments inputs).map (·.points) = some .release := by
  obtain ⟨before, rfl⟩ := Nat.exists_eq_succ_of_ne_zero other
  unfold ofNode?
  cases kind : node.kind with
  | forLoop => rfl
  | forEach => rfl
  | whileLoop => rfl
  | _ => simp [kind, NodeKind.isLoop] at loop

theorem break_points (sourced : job.Sourced) (found : job.nodes[index]? = some node) (loop : node.kind.isLoop = true)
    (other : pin ≠ executePin) (disciplined : Disciplined job.nodes run.frame) (standing : Standing job run.frame)
    {position : Nat} (registered : run.frame.returnPoints.reverse[position]? = some index)
    (done : activate host level job index (.entered pin) 0 run = (.ok next, after)) :
    after.frame.returnPoints.reverse = run.frame.returnPoints.reverse.take position := by
  obtain ⟨same, found', acted⟩ := came_points sourced standing done
  obtain rfl : node = same := Option.some.inj (found.symm.trans found')
  have release := break_effect loop other
  cases acted with
  | nothing progress inputs none =>
    have released := release progress job.arguments inputs
    rw [none] at released
    cases released
  | effect progress inputs effect applies _ _ points =>
    have released : effect.points = .release := by simpa [applies] using release progress job.arguments inputs
    rw [points, released]
    exact release_position disciplined.distinct registered

def Env.AtRest (env : Env σ) : Prop := ∀ function ∈ env.functions, function.body.graph.AtRest

/-- What a run keeps of its graph, it keeps of the graphs of all functions that it calls. -/
theorem graphs_stable (host : Host σ) (P : Graph → Prop) (placeholder : P Function.placeholder.body.graph)
    (ran : ∀ level arguments graph env, P graph → P (graph.runWith host (activate host level) entryNode arguments env).2.1) :
    EnvStable host (fun a b => P a → P b) fun a b =>
      (∀ function ∈ a.functions, P function.body.graph) → ∀ function ∈ b.functions, P function.body.graph where
  refl _ := id
  trans first second := second ∘ first
  counted _ _ := id
  noted _ _ := id
  assigned _ _ _ := id
  changed _ _ _ := id
  still _ := id
  ran := ran
  called env after guid position callee graph _ _ there ran kept all := by
    have inside := all_set env.functions (P ·.body.graph) position Function.placeholder all placeholder
    exact all_set after.functions (P ·.body.graph) position _ (kept inside) (ran (all callee (List.mem_of_getElem? there)))

theorem at_rest_stable (host : Host σ) :
    EnvStable host (fun a b => a.AtRest → b.AtRest) fun a b => a.AtRest → b.AtRest :=
  graphs_stable host Graph.AtRest rfl fun level => run_with_at_rest host (activate host level) entryNode

theorem follow_seen (host : Host σ) (level : Nat) (job : Job) (start : Nat) (run : Run σ) (fuel index : Nat)
    (activation : Activation) (before : Run σ) (came : Comes host level job start run index activation before) :
    ∃ last way begun, Comes host level job start run last way begun ∧
      Seen host job level last way 0 begun (follow host (activate host level) job fuel index activation before).2 := by
  induction fuel generalizing index activation before with
  | zero => exact ⟨index, activation, before, came, .begins level index activation 0 before⟩
  | succ fuel ih =>
    have ends : Seen host job level index activation 0 before _ := .ends level index activation 0 before
    unfold follow
    split
    · next outcome =>
        rw [outcome] at ends
        exact ⟨index, activation, before, came, ends⟩
    · next next after outcome =>
        rw [outcome] at ends
        split
        · exact ⟨index, activation, before, came, ends⟩
        · exact ⟨index, activation, before, came, ends⟩
        · next node way leads => exact ih node way after (.goes index activation before after next node way came outcome leads)

def Graph.ComesTo (graph : Graph) (host : Host σ) (level start : Nat) (arguments : List Value) (env : Env σ) (index : Nat)
    (activation : Activation) (before : Run σ) : Prop :=
  ∃ ready, graph.prepare = (.ok (), ready) ∧
    Comes host level (graph.job arguments) start ⟨ready.frame, env⟩ index activation before

def Graph.Moment (graph : Graph) (host : Host σ) (level start : Nat) (arguments : List Value) (env : Env σ)
    (seen : Run σ) : Prop :=
  ∃ index activation before, graph.ComesTo host level start arguments env index activation before ∧
    Seen host (graph.job arguments) level index activation 0 before seen

theorem run_ends_in_moment (host : Host σ) (level start : Nat) (arguments : List Value) (graph : Graph) (env : Env σ)
    (compiled : graph.isCompiled = true) (there : start < graph.nodes.length) :
    ∃ ready seen failed, graph.prepare = (.ok (), ready) ∧ graph.Moment host level start arguments env seen ∧
      (graph.runWith host (activate host level) start arguments env).2 = (ready.absorb seen.frame failed, seen.env) := by
  obtain ⟨size, sized⟩ := Option.isSome_iff_exists.mp compiled
  have prepared : graph.prepare = (.ok (), { graph with stack := Graph.initialStack graph.locals size }) := by
    simp only [Graph.prepare, sized]
  obtain ⟨last, way, begun, came, seen⟩ := follow_seen host level (graph.job arguments) start
    ⟨{ graph with stack := Graph.initialStack graph.locals size }.frame, env⟩ (host.limits.maxSteps + 1) start (.entered 0) _
    .starts
  unfold Graph.runWith
  rw [if_neg (Nat.not_le_of_lt there), prepared]
  dsimp only
  split <;> next outcome =>
    rw [Graph.job, outcome] at seen
    exact ⟨_, _, _, rfl, ⟨last, way, begun, ⟨_, prepared, came⟩, seen⟩, rfl⟩

theorem prepared_disciplined {ready : Graph} (rests : graph.AtRest) (prepared : graph.prepare = (.ok (), ready)) :
    Disciplined graph.nodes ready.frame ∧ ready.frame.returnPoints = [] := by
  obtain ⟨size, _, rfl⟩ := prepare_ok prepared
  have none : graph.returnPoints = [] := rests
  exact ⟨⟨by simp [Graph.frame], by simp [Graph.frame, none], by simp [Graph.frame, none]⟩, none⟩

/-- At every moment of a run the return points are distinct nodes that await control, and no more than there are such nodes.
Control comes back to nothing else, and leaving a loop by its break takes it off with all above it. After a run nothing is
left, in the graph and in the functions that it called. A called function runs in the same way, at a level of its own. -/
theorem return_points_disciplined (host : Host σ) (level start : Nat) (arguments : List Value) (graph : Graph) (env : Env σ)
    (fresh : graph.Fresh) (rests : graph.AtRest) (settled : env.AtRest) :
    (∀ seen, graph.Moment host level start arguments env seen →
      Disciplined graph.nodes seen.frame ∧ seen.frame.returnPoints.length ≤ graph.nodes.countP (·.kind.takesTurns)) ∧
    (∀ index before, graph.ComesTo host level start arguments env index .resumed before →
      ∃ node, graph.nodes[index]? = some node ∧ node.kind.takesTurns = true) ∧
    (∀ index pin before next after node position, graph.ComesTo host level start arguments env index (.entered pin) before →
      graph.nodes[index]? = some node → node.kind.isLoop = true → pin ≠ executePin →
      before.frame.returnPoints.reverse[position]? = some index →
      activate host level (graph.job arguments) index (.entered pin) 0 before = (.ok next, after) →
      after.frame.returnPoints.reverse = before.frame.returnPoints.reverse.take position) ∧
    (graph.isCompiled = true → start < graph.nodes.length →
      ∃ ready seen failed, graph.prepare = (.ok (), ready) ∧ graph.Moment host level start arguments env seen ∧
        (graph.runWith host (activate host level) start arguments env).2 = (ready.absorb seen.frame failed, seen.env)) ∧
    (graph.runWith host (activate host level) start arguments env).2.1.AtRest ∧
    (graph.runWith host (activate host level) start arguments env).2.2.AtRest := by
  refine ⟨?moments, ?resumed, ?broken, run_ends_in_moment host level start arguments graph env,
    run_with_at_rest host _ start arguments graph env rests, ?functions⟩
  case moments =>
    rintro seen ⟨index, activation, before, ⟨ready, prepared, came⟩, within⟩
    have first := (prepared_disciplined rests prepared).1
    have begun := comes_disciplined came first
    have kept := seen_disciplined within begun
    exact ⟨kept, kept.bounded⟩
  case resumed =>
    rintro index before ⟨ready, prepared, came⟩
    exact resumed_awaits came (prepared_disciplined rests prepared).1
  case broken =>
    rintro index pin before next after node position ⟨ready, prepared, came⟩ found loop other registered acted
    obtain ⟨first, none⟩ := prepared_disciplined rests prepared
    have laid : graph.LaidOut := by
      obtain ⟨size, sized, _⟩ := prepare_ok prepared
      exact fresh (by rw [Graph.isCompiled, sized]; rfl)
    have sourced := laid_out_sourced laid arguments
    have stands : Standing (graph.job arguments) ready.frame := by simp [Standing, none]
    exact break_points sourced found loop other (comes_disciplined came first)
      (comes_standing sourced came stands) registered acted
  case functions => exact (at_rest_stable host).run_with _ ((at_rest_stable host).activate level) start arguments graph env settled

def brokenLoops : Graph :=
  [Operation.addNode (Node.functionEntry []), .addNode Node.forLoop, .addNode Node.forLoop, .connectExec 0 0 1 0,
    .connectExec 1 0 2 0, .connectExec 2 0 1 1, .setLiteral 1 1 (.int 3), .setLiteral 2 1 (.int 3), .compile].foldl
    Operation.apply Graph.empty

theorem return_points_of_broken_loops :
    let host : Host Unit := ⟨Catalog.empty, none, ⟨100, 4, 4⟩⟩
    let env : Env Unit := Env.start [] [Function.placeholder] ()
    ∃ before after, brokenLoops.ComesTo host 3 0 [] env 1 (.entered breakPin) before ∧ before.frame.returnPoints = [2, 1] ∧
      activate host 3 (brokenLoops.job []) 1 (.entered breakPin) 0 before = (.ok (some donePin), after) ∧
      before.frame.returnPoints.length ≤ 2 ∧ after.frame.returnPoints.reverse = [] ∧
      (brokenLoops.runWith host (activate host 3) 0 [] env).2.1.AtRest := by
  intro host env
  have fresh : brokenLoops.Fresh := compile_fresh _
  have settled : env.AtRest := by
    intro function member
    obtain rfl : function = Function.placeholder := by simpa [env, Env.start] using member
    rfl
  obtain ⟨moments, _, broken, _, ends, _⟩ := return_points_disciplined host 3 0 [] brokenLoops env fresh rfl settled
  have came : brokenLoops.ComesTo host 3 0 [] env 1 (.entered breakPin) _ :=
    ⟨_, rfl, .goes 2 (.entered 0) _ _ (some 0) _ _ (.goes 1 (.entered 0) _ _ (some 0) _ _
      (.goes 0 (.entered 0) _ _ (some 0) _ _ .starts rfl rfl) rfl rfl) rfl rfl⟩
  exact ⟨_, _, came, rfl, rfl, (moments _ ⟨1, _, _, came, .begins 3 1 _ 0 _⟩).2,
    broken 1 breakPin _ _ _ _ 0 came rfl rfl (by decide) rfl rfl, ends⟩

end Patchbay
