import Patchbay.Proofs.CompiledFlag
import Patchbay.Proofs.Walk

set_option autoImplicit false

namespace Patchbay

open Effect

namespace Agenda

theorem turn_pins (inputs : List Value) (first count : Nat) :
    (pins first count).turn inputs =
      if first < count then (([], some first), some (pins (first + 1) count)) else (([], none), none) := by
  by_cases more : first < count
  · have size : count - first = (count - (first + 1)) + 1 := by omega
    simp only [pins, size, List.range'_succ, List.map_cons, turn, if_pos more]
  · have size : count - first = 0 := by omega
    simp only [pins, size, List.range'_zero, List.map_nil, turn, if_neg more]

theorem turn_counting (inputs : List Value) (first last : Int) :
    (counting first last).turn inputs =
      if first ≤ last then (([.int (Int64.ofInt first)], some loopPin), some (counting (first + 1) last))
      else (([.int (-1)], some donePin), none) := by
  by_cases more : first ≤ last
  · have size : (last - first + 1).toNat = (last - (first + 1) + 1).toNat + 1 := by omega
    simp only [counting, size, List.range_succ_eq_map, List.map_cons, List.map_map, turn, if_pos more]
    have shifted : ∀ offset : Nat, first + ((offset + 1 : Nat) : Int) = first + 1 + offset := by omega
    simp only [Function.comp_def, Nat.succ_eq_add_one, shifted, Int.natCast_zero, Int.add_zero]
  · have size : (last - first + 1).toNat = 0 := by omega
    simp only [counting, size, List.range_zero, List.map_nil, turn, if_neg more]

theorem turn_walking (inputs items : List Value) (first : Nat) :
    (walking items first).turn inputs =
      match items[first]? with
      | some item => (([item, .int (Int64.ofNat first)], some loopPin), some (walking items (first + 1)))
      | none => (([.null, .int (-1)], some donePin), none) := by
  cases found : items[first]? with
  | some item =>
    have rest : items.drop first = item :: items.drop (first + 1) := by
      obtain ⟨inside, same⟩ := List.getElem?_eq_some_iff.mp found
      rw [List.drop_eq_getElem_cons inside, same]
    simp only [walking, rest, List.zipIdx_cons, List.map_cons, turn]
  | none =>
    have rest : items.drop first = [] := List.drop_eq_nil_of_le (List.getElem?_eq_none_iff.mp found)
    simp only [walking, rest, List.zipIdx_nil, List.map_nil, turn]

end Agenda

def Node.remaining? (node : Node) (progress : Progress) : Option Agenda :=
  match node.kind, progress with
  | .sequence, .stepping next => some (.pins next node.execOut.length)
  | .forLoop, .counting index last => some (.counting (index.toInt + 1) last.toInt)
  | .forEach, .walking items index => some (.walking items (index + 1))
  | .whileLoop, .looping => some .conditional
  | _, _ => none

/-- An effect takes the next turn. It releases the return point with the last one, and otherwise
keeps in the progress what is left. -/
structure TakesTurn (node : Node) (inputs : List Value) (agenda : Agenda) (stay : PointChange) (effect : Effect) : Prop where
  yielded : (effect.outputs, effect.next) = (agenda.turn inputs).1
  last : (agenda.turn inputs).2 = none → effect.points = .release
  more : ∀ rest, (agenda.turn inputs).2 = some rest → effect.points = stay ∧ node.remaining? effect.progress = some rest

variable {node : Node} {inputs : List Value} {agenda : Agenda} {stay : PointChange} {yielded : Yield}
  {progress : Progress}

theorem TakesTurn.of_last (progress : Progress) (turn : agenda.turn inputs = (yielded, none)) :
    TakesTurn node inputs agenda stay ⟨yielded.1, yielded.2, progress, .release⟩ := by
  refine ⟨by rw [turn], fun _ => rfl, fun rest left => ?_⟩
  simp [turn] at left

theorem TakesTurn.of_more {rest : Agenda} (turn : agenda.turn inputs = (yielded, some rest))
    (left : node.remaining? progress = some rest) :
    TakesTurn node inputs agenda stay ⟨yielded.1, yielded.2, progress, stay⟩ := by
  refine ⟨by rw [turn], fun none => by simp [turn] at none, fun other same => ⟨rfl, ?_⟩⟩
  obtain rfl : rest = other := by simpa [turn] using same
  exact left

theorem for_loop_turn (kind : node.kind = .forLoop) (inputs : List Value) (activation : Activation)
    (progress : Progress) {index last : Int64} (state : forLoopState activation progress inputs = some (index, last)) :
    TakesTurn node inputs (.counting index.toInt last.toInt) (entryPoints activation)
      (forLoop activation progress inputs) := by
  have turn := Agenda.turn_counting inputs index.toInt last.toInt
  unfold forLoop
  rw [state]
  dsimp only
  by_cases more : index ≤ last
  · rw [if_pos (Int64.le_iff_toInt_le.mp more), Int64.ofInt_toInt] at turn
    rw [if_pos more]
    exact .of_more turn (by simp only [Node.remaining?, kind])
  · rw [if_neg (fun le => more (Int64.le_iff_toInt_le.mpr le))] at turn
    rw [if_neg more]
    exact .of_last _ turn

theorem for_loop_resumes (kind : node.kind = .forLoop) (inputs : List Value) (index last : Int64) :
    TakesTurn node inputs (.counting (index.toInt + 1) last.toInt) .keep
      (forLoop .resumed (.counting index last) inputs) := by
  -- An index that cannot grow is the last one, whatever the bound.
  have top : Int64.maxValue.toInt = 9223372036854775807 := by decide
  have bottom : Int64.minValue.toInt = -9223372036854775808 := by decide
  have bound := Int64.le_iff_toInt_le.mp (Int64.le_maxValue last)
  by_cases full : index = Int64.maxValue
  · have turn := Agenda.turn_counting inputs (index.toInt + 1) last.toInt
    rw [if_neg (by rw [full]; omega)] at turn
    simp only [forLoop, forLoopState, if_pos full]
    exact .of_last _ turn
  · have state : forLoopState .resumed (.counting index last) inputs = some (index + 1, last) := by
      simp only [forLoopState, if_neg full]
    have next : (index + 1).toInt = index.toInt + 1 := by
      have low := Int64.minValue_le_toInt index
      have high := Int64.le_iff_toInt_le.mp (Int64.le_maxValue index)
      have apart : index.toInt ≠ Int64.maxValue.toInt := fun same => full (Int64.toInt_inj.mp same)
      rw [Int64.toInt_add, Int64.toInt_one]
      exact Int.bmod_eq_of_le (by omega) (by omega)
    rw [← next]
    exact for_loop_turn kind inputs .resumed _ state

theorem for_each_turn (kind : node.kind = .forEach) (inputs : List Value) (activation : Activation)
    (progress : Progress) (items : List Value) (position : Nat)
    (state : forEachState activation progress inputs = some (items, position)) :
    TakesTurn node inputs (.walking items position) (entryPoints activation) (forEach activation progress inputs) := by
  have turn := Agenda.turn_walking inputs items position
  unfold forEach
  rw [state]
  dsimp only
  cases found : items[position]? with
  | some item =>
    rw [found] at turn
    exact .of_more turn (by simp only [Node.remaining?, kind])
  | none =>
    rw [found] at turn
    exact .of_last _ turn

theorem while_loop_turn (kind : node.kind = .whileLoop) (inputs : List Value) (activation : Activation)
    (progress : Progress) (active : whileLoopActive activation progress = true) :
    TakesTurn node inputs .conditional (entryPoints activation) (whileLoop activation progress inputs) := by
  unfold whileLoop
  rw [active, Bool.true_and]
  by_cases holds : (Node.input inputs 0).bool?.getD false = true
  · rw [if_pos holds]
    have turn : Agenda.conditional.turn inputs = (([], some loopPin), some .conditional) := by
      simp only [Agenda.turn, holds, if_true]
    exact .of_more turn (by simp only [Node.remaining?, kind])
  · rw [if_neg holds]
    have turn : Agenda.conditional.turn inputs = (([], some donePin), none) := by
      simp only [Agenda.turn, if_neg holds]
    exact .of_last _ turn

theorem sequence_turn (kind : node.kind = .sequence) (inputs : List Value) (next : Nat) (stay : PointChange) :
    TakesTurn node inputs (.pins next node.execOut.length) stay
      (if next < node.execOut.length then ⟨[], some next, .stepping (next + 1), stay⟩
        else ⟨[], none, .stepping next, .release⟩) := by
  have turn := Agenda.turn_pins inputs next node.execOut.length
  by_cases more : next < node.execOut.length
  · rw [if_pos more] at turn ⊢
    exact .of_more turn (by simp only [Node.remaining?, kind])
  · rw [if_neg more] at turn ⊢
    exact .of_last _ turn

/-- Control that enters a node begins its agenda, and control that comes back goes on with the rest. -/
theorem entered_turn (node : Node) (inputs arguments : List Value) (agenda : Agenda) (progress : Progress)
    (planned : node.agenda? inputs = some agenda) :
    ∃ effect, ofNode? node (.entered 0) progress arguments inputs = some effect ∧
      TakesTurn node inputs agenda .register effect := by
  unfold Node.agenda? at planned
  split at planned <;> cases planned
  · next kind => exact ⟨_, by simp only [ofNode?, kind]; rfl, sequence_turn kind inputs 0 .register⟩
  · next kind => exact ⟨_, by simp only [ofNode?, kind], for_loop_turn kind inputs (.entered 0) progress rfl⟩
  · next kind => exact ⟨_, by simp only [ofNode?, kind], for_each_turn kind inputs (.entered 0) progress _ _ rfl⟩
  · next kind => exact ⟨_, by simp only [ofNode?, kind], while_loop_turn kind inputs (.entered 0) progress rfl⟩

theorem resumed_turn (inputs arguments : List Value) (left : node.remaining? progress = some agenda) :
    ∃ effect, ofNode? node .resumed progress arguments inputs = some effect ∧ TakesTurn node inputs agenda .keep effect := by
  unfold Node.remaining? at left
  split at left <;> cases left
  · next next kind => exact ⟨_, by simp only [ofNode?, kind]; rfl, sequence_turn kind inputs next .keep⟩
  · next index last kind => exact ⟨_, by simp only [ofNode?, kind], for_loop_resumes kind inputs index last⟩
  · next items position kind =>
      exact ⟨_, by simp only [ofNode?, kind],
        for_each_turn kind inputs .resumed (.walking items position) items (position + 1) rfl⟩
  · next kind => exact ⟨_, by simp only [ofNode?, kind], while_loop_turn kind inputs .resumed .looping rfl⟩

theorem pulls_implicit {job : Job} {index : Nat} (found : job.nodes[index]? = some node) :
    job.pulls index = node.isImplicit := by
  simp only [Job.pulls, found, Option.map_some, Option.getD_some]

theorem implicit_entrances (shaped : node.Shaped) (implicit : node.isImplicit = true) :
    node.kind.entrances = 0 := by
  simp only [Node.isImplicit, Bool.and_eq_true, List.isEmpty_iff] at implicit
  rw [← shaped, implicit.1, List.length_nil]

theorem entrances_ordinary {kind : NodeKind} (without : kind.entrances = 0) : kind.isOrdinary = true := by
  cases kind <;> simp [NodeKind.entrances, NodeKind.isOrdinary] at without ⊢

theorem cast_points (target : PinType) (inputs : List Value) : (Effect.cast target inputs).points = .keep := by
  unfold Effect.cast
  split <;> rfl

theorem implicit_cast_points (target : PinType) (inputs : List Value) :
    (implicitCast target inputs).points = .keep := by
  unfold implicitCast
  split <;> rfl

theorem ordinary_effect (ordinary : node.kind.isOrdinary = true) {activation : Activation} {arguments : List Value}
    {effect : Effect}
    (applies : ofNode? node activation progress arguments inputs = some effect) : effect.points = .keep := by
  unfold ofNode? at applies
  cases kind : node.kind with
  | sequence | forLoop | forEach | whileLoop | functionReturn => simp [kind, NodeKind.isOrdinary] at ordinary
  | cast target =>
    obtain rfl : Effect.cast target inputs = effect := by simpa [kind] using applies
    exact cast_points target inputs
  | implicitCast target =>
    obtain rfl : implicitCast target inputs = effect := by simpa [kind] using applies
    exact implicit_cast_points target inputs
  | _ =>
    simp only [kind, reduceCtorEq, Option.some.injEq] at applies <;> rw [← applies] <;> rfl

theorem progress_applied (frame : Frame) (index : Nat) (effect : Effect) (n : Nat) (apart : n ≠ index) :
    (frame.applyEffect index effect).progressOf n = frame.progressOf n := by
  simp only [Frame.progressOf, Frame.applyEffect, List.getElem?_set_ne (Ne.symm apart)]

structure PullKept (job : Job) (a b : Frame) : Prop where
  points : b.returnPoints = a.returnPoints
  progress : ∀ n, job.pulls n = false → b.progressOf n = a.progressOf n

theorem pulls_stable (job : Job) (shaped : ∀ node ∈ job.nodes, node.Shaped) :
    FrameStable job (fun index activation => activation = .pulled ∧ job.pulls index = true) (PullKept job) where
  refl _ := ⟨rfl, fun _ _ => rfl⟩
  trans first second :=
    ⟨second.points.trans first.points, fun n still => (second.progress n still).trans (first.progress n still)⟩
  pulls _ implicit := ⟨rfl, implicit⟩
  effect frame index node activation inputs effect allowed found applies := by
    have implicit := allowed.2
    rw [pulls_implicit found] at implicit
    have without := implicit_entrances (shaped node (List.mem_of_getElem? found)) implicit
    have points := ordinary_effect (entrances_ordinary without) applies
    refine ⟨by simp only [Frame.applyEffect, points, PointChange.apply], fun n still => ?_⟩
    refine progress_applied frame index effect n fun same => ?_
    rw [same, allowed.2] at still
    cases still
  returned _ _ := ⟨rfl, fun _ _ => rfl⟩
  stack _ _ _ := ⟨rfl, fun _ _ => rfl⟩

variable {σ : Type}

structure Noted (run after : Run σ) (steps : List Step) : Prop where
  calls : after.env.callStack = run.env.callStack
  steps : history run.env.callStack after.env.trace = history run.env.callStack run.env.trace ++ steps

theorem Noted.trans {a b c : Run σ} {first second : List Step} (before : Noted a b first) (after : Noted b c second) :
    Noted a c (first ++ second) := by
  refine ⟨after.calls.trans before.calls, ?_⟩
  rw [← before.calls, after.steps, before.calls, before.steps, List.append_assoc]

theorem Noted.refl (run : Run σ) : Noted run run [] := ⟨rfl, (List.append_nil _).symm⟩

variable {index level depth : Nat} {node : Node} {run after : Run σ} {host : Host σ} {job : Job}
  {activation : Activation} {next : Option Nat}

theorem store_outputs_frame {outputs : List Value} {stored : Run σ}
    (kept : storeOutputs index node outputs run = (.ok (), stored)) :
    stored.frame.returnPoints = run.frame.returnPoints ∧ stored.frame.progress = run.frame.progress := by
  unfold storeOutputs at kept
  split at kept
  · cases kept
  · split at kept <;> cases kept
    exact ⟨rfl, rfl⟩

/-- What control comes to and what succeeds is one step of the graph, noted last of all. -/
theorem activation_noted
    (found : job.nodes[index]? = some node) (traversed : activation ≠ .pulled)
    (done : activate host (level + 1) job index activation depth run = (.ok next, after)) :
    ∃ env inputs outputs ready given stored,
      gather host.limits job (pullAt host level job depth) depth node.inputs
        ((run.withEnv env).note (.began ⟨env.callStack, index, activation⟩)) = (.ok inputs, ready) ∧
      perform host (callAt host level) job index node activation inputs ready = (.ok (outputs, next), given) ∧
      storeOutputs index node outputs given = (.ok (), stored) ∧
      after = stored.note (.ended ⟨run.env.callStack, index, activation⟩ inputs outputs next) ∧
      Noted run after [⟨index, activation, inputs, outputs, next⟩] := by
  obtain ⟨env, other, inputs, ready, outputs, given, stored, counted, found', gathered, performed, kept, rfl⟩ :=
    activate_ok done
  obtain rfl : node = other := Option.some.inj (found.symm.trans found')
  have acts := activate_quiet host level
  have began : Quiet (Outer run.env.callStack) run.env env := by
    have stepped := step_quiet (Outer run.env.callStack) host.limits run.env
    rwa [counted] at stepped
  have read := gathered_quiet host level job index activation depth acts node began
  rw [gathered] at read
  have worked := performed_quiet host level job index activation acts node inputs run.env ready read
  rw [performed] at worked
  have same : stored.env = given.env := by rw [← store_outputs_env index node outputs given, kept]
  refine ⟨env, inputs, outputs, ready, given, stored, gathered, performed, kept, by rw [began.calls], ?calls, ?steps⟩
  case calls => exact (congrArg Env.callStack same).trans worked.calls
  case steps =>
    rw [began.calls]
    simp only [Run.note, Run.withEnv, same]
    exact noted_step run.env.callStack worked rfl index traversed inputs outputs next

theorem traversed_step (shaped : ∀ node ∈ job.nodes, node.Shaped) (found : job.nodes[index]? = some node)
    (traversed : activation ≠ .pulled) (done : activate host level job index activation depth run = (.ok next, after)) :
    ∃ call inputs outputs ready given, PullKept job run.frame ready.frame ∧
      perform host call job index node activation inputs ready = (.ok (outputs, next), given) ∧
      after.frame.returnPoints = given.frame.returnPoints ∧ after.frame.progress = given.frame.progress ∧
      Noted run after [⟨index, activation, inputs, outputs, next⟩] := by
  -- A step reads its inputs, which only moves implicit nodes, and then works on them.
  cases level with
  | zero => cases done
  | succ level =>
    obtain ⟨env, inputs, outputs, ready, given, stored, gathered, performed, kept, rfl, noted⟩ :=
      activation_noted found traversed done
    have frames := (pulls_stable job shaped).gather host.limits (pullAt host level job depth) depth node.inputs
      ((run.withEnv env).note (.began ⟨env.callStack, index, activation⟩))
      (fun source run implicit => (pulls_stable job shaped).activate host level source .pulled (depth + 1) run ⟨rfl, implicit⟩)
    rw [gathered] at frames
    obtain ⟨points, progress⟩ := store_outputs_frame kept
    exact ⟨_, inputs, outputs, ready, given, frames, performed, points, progress, noted⟩

theorem write_variable_frame {reference : Reference} {value : Value} {next : Run σ}
    (written : run.writeVariable job reference value = .ok next) :
    next.frame.returnPoints = run.frame.returnPoints ∧ next.frame.progress = run.frame.progress := by
  unfold Run.writeVariable at written
  split at written <;> cases written <;> exact ⟨rfl, rfl⟩

section

variable (host : Host σ) (call : Call σ) (job : Job) (index : Nat) (node : Node) (activation : Activation)
  (inputs : List Value)

theorem perform_effect {run given : Run σ} {outputs : List Value} {next : Option Nat} {effect : Effect}
    (applies : ofNode? node activation (run.frame.progressOf index) job.arguments inputs = some effect)
    (performed : perform host call job index node activation inputs run = (.ok (outputs, next), given)) :
    outputs = effect.outputs ∧ next = effect.next ∧
      given.frame.returnPoints = effect.points.apply index run.frame.returnPoints ∧
      given.frame.progress = run.frame.progress.set index effect.progress := by
  simp only [perform, applies] at performed
  cases performed
  refine ⟨rfl, rfl, ?_, ?_⟩ <;> dsimp only <;> split <;> rfl

theorem perform_without_effect {run : Run σ}
    (none : ofNode? node activation (run.frame.progressOf index) job.arguments inputs = none) :
    (perform host call job index node activation inputs run).2.frame.returnPoints = run.frame.returnPoints ∧
      (perform host call job index node activation inputs run).2.frame.progress = run.frame.progress := by
  simp only [perform, none]
  split
  · exact ⟨rfl, rfl⟩
  · split
    · exact ⟨rfl, rfl⟩
    · next next written => exact write_variable_frame written
  · exact ⟨rfl, rfl⟩

theorem perform_others (run : Run σ) {n : Nat} (apart : n ≠ index) :
    (perform host call job index node activation inputs run).2.frame.progressOf n = run.frame.progressOf n := by
  cases applies : ofNode? node activation (run.frame.progressOf index) job.arguments inputs with
  | none =>
    have kept := (perform_without_effect host call job index node activation inputs applies).2
    rw [Frame.progressOf, Frame.progressOf, kept]
  | some effect =>
    simp only [perform, applies]
    split <;> exact progress_applied run.frame index effect n apart

theorem perform_ordinary (ordinary : node.kind.isOrdinary = true) (run : Run σ) :
    (perform host call job index node activation inputs run).2.frame.returnPoints = run.frame.returnPoints := by
  cases applies : ofNode? node activation (run.frame.progressOf index) job.arguments inputs with
  | none => exact (perform_without_effect host call job index node activation inputs applies).1
  | some =>
    have keep := ordinary_effect ordinary applies
    simp only [perform, applies]
    split <;> simp only [Frame.applyEffect, keep, PointChange.apply]

end

structure Moved (job : Job) (index : Nat) (run after : Run σ) : Prop where
  length : after.frame.progress.length = run.frame.progress.length
  others : ∀ n, job.pulls n = false → n ≠ index → after.frame.progressOf n = run.frame.progressOf n

variable {host : Host σ} {level index depth : Nat} {job : Job} {node : Node} {activation : Activation}
  {run after : Run σ} {next : Option Nat}

theorem traversed_moved (shaped : ∀ node ∈ job.nodes, node.Shaped) (found : job.nodes[index]? = some node)
    (traversed : activation ≠ .pulled)
    (done : activate host level job index activation depth run = (.ok next, after)) : Moved job index run after := by
  have length := (progress_length_stable job).activate host level index activation depth run trivial
  rw [done] at length
  obtain ⟨call, inputs, outputs, ready, given, pulled, performed, _, progress, _⟩ :=
    traversed_step shaped found traversed done
  refine ⟨length, fun n still apart => ?_⟩
  have worked := perform_others host call job index node activation inputs ready apart
  rw [performed] at worked
  have same : after.frame.progressOf n = given.frame.progressOf n := by rw [Frame.progressOf, Frame.progressOf, progress]
  exact same.trans (worked.trans (pulled.progress n still))

theorem effect_step (shaped : ∀ node ∈ job.nodes, node.Shaped) (found : job.nodes[index]? = some node)
    (still : job.pulls index = false) (traversed : activation ≠ .pulled) (inside : index < run.frame.progress.length)
    (done : activate host level job index activation depth run = (.ok next, after)) :
    ∃ inputs, ∀ effect,
      ofNode? node activation (run.frame.progressOf index) job.arguments inputs = some effect →
      next = effect.next ∧ Noted run after [⟨index, activation, inputs, effect.outputs, effect.next⟩] ∧
      after.frame.returnPoints = effect.points.apply index run.frame.returnPoints ∧
      after.frame.progressOf index = effect.progress := by
  obtain ⟨call, inputs, outputs, ready, given, pulled, performed, points, progress, noted⟩ :=
    traversed_step shaped found traversed done
  refine ⟨inputs, fun effect applies => ?_⟩
  have moved := traversed_moved shaped found traversed done
  rw [← pulled.progress index still] at applies
  obtain ⟨rfl, rfl, points', progress'⟩ :=
    perform_effect host call job index node activation inputs applies performed
  refine ⟨rfl, noted, by rw [points, points', pulled.points], ?_⟩
  have inside' : index < ready.frame.progress.length := by
    have kept := congrArg List.length (progress.trans progress')
    rw [List.length_set, moved.length] at kept
    omega
  rw [Frame.progressOf, progress, progress', List.getElem?_set_self inside', Option.getD_some]

theorem ordinary_step (shaped : ∀ node ∈ job.nodes, node.Shaped) (found : job.nodes[index]? = some node)
    (ordinary : node.kind.isOrdinary = true) (traversed : activation ≠ .pulled)
    (done : activate host level job index activation depth run = (.ok next, after)) :
    ∃ inputs outputs, Noted run after [⟨index, activation, inputs, outputs, next⟩] ∧
      after.frame.returnPoints = run.frame.returnPoints := by
  obtain ⟨call, inputs, outputs, ready, given, pulled, performed, points, _, noted⟩ :=
    traversed_step shaped found traversed done
  refine ⟨inputs, outputs, noted, ?_⟩
  have kept := perform_ordinary host call job index node activation inputs ordinary ready
  rw [performed] at kept
  exact points.trans (kept.trans pulled.points)

end Patchbay
