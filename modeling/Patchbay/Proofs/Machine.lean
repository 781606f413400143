import Patchbay.Run.Machine

set_option autoImplicit false

namespace Patchbay

variable {σ : Type}

/-- The calls that an activation makes with the levels that are left to it. -/
abbrev callAt (host : Host σ) (level : Nat) : Call σ :=
  callFunctionWith host.limits (Graph.runWith host (activate host level) entryNode)

/-- Its reads of implicit nodes. -/
abbrev pullAt (host : Host σ) (level : Nat) (job : Job) (depth source : Nat) (run : Run σ) :
    Except ScriptError (Option Nat) × Run σ :=
  activate host level job source .pulled (depth + 1) run

/-! A node reads its inputs one by one, an activation goes through its stages, and the loop activates node by node. A
relation that bears each of them bears all. -/

section Chained

variable (Kept : Run σ → Run σ → Prop) (refl : ∀ run, Kept run run) (trans : ∀ {a b c}, Kept a b → Kept b c → Kept a c)
include refl

theorem read_input_kept (limits : Limits) (job : Job) (pull : Nat → Run σ → Except ScriptError (Option Nat) × Run σ)
    (depth : Nat) (pin : InputPin) (run : Run σ)
    (pulled : ∀ source run, job.pulls source = true → Kept run (pull source run).2) :
    Kept run (readInput limits job pull depth pin run).2 := by
  unfold readInput
  split
  · next source slot _ _ =>
      split
      · next implicit =>
          split
          · exact refl run
          · have after := pulled source.node run implicit
            split <;> next outcome => rwa [outcome] at after
      · exact refl run
  · exact refl run

include trans

theorem gather_kept (limits : Limits) (job : Job) (pull : Nat → Run σ → Except ScriptError (Option Nat) × Run σ)
    (depth : Nat) (pins : List InputPin) (run : Run σ)
    (pulled : ∀ source run, job.pulls source = true → Kept run (pull source run).2) :
    Kept run (gather limits job pull depth pins run).2 := by
  induction pins generalizing run with
  | nil => exact refl run
  | cons pin rest ih =>
    have first := read_input_kept Kept refl limits job pull depth pin run pulled
    unfold gather
    split
    · next outcome => rwa [outcome] at first
    · next value next outcome =>
        rw [outcome] at first
        have others := trans first (ih next)
        split <;> next outcome => rwa [outcome] at others

theorem follow_kept (host : Host σ) (act : Activate σ) (job : Job)
    (acts : ∀ index activation run, Kept run (act job index activation 0 run).2) (fuel index : Nat) (activation : Activation)
    (run : Run σ) : Kept run (follow host act job fuel index activation run).2 := by
  induction fuel generalizing index activation run with
  | zero => exact refl run
  | succ fuel ih =>
    have first := acts index activation run
    unfold follow
    split
    · next outcome => rwa [outcome] at first
    · next next after outcome =>
        rw [outcome] at first
        split
        · exact first
        · exact first
        · next node activation _ => exact trans first (ih node activation after)

theorem activate_kept (host : Host σ) (level : Nat) (job : Job) (index : Nat) (activation : Activation) (depth : Nat)
    (run : Run σ) (counted : Kept run (run.withEnv (run.env.step host.limits).2)) (noted : ∀ run entry, Kept run (run.note entry))
    (pulled : ∀ source run, job.pulls source = true → Kept run (activate host level job source .pulled (depth + 1) run).2)
    (performed : ∀ node inputs run, job.nodes[index]? = some node → Kept run (perform host
      (callAt host level) job index node activation inputs run).2)
    (stored : ∀ node outputs run, Kept run (storeOutputs index node outputs run).2) :
    Kept run (activate host (level + 1) job index activation depth run).2 := by
  -- Each stage begins where the one before it left the run, and the activation ends with the first that fails.
  unfold activate
  split
  · next outcome => rwa [outcome] at counted
  · next env outcome =>
      rw [outcome] at counted
      split
      · exact counted
      · next node found =>
          dsimp only
          have began := trans counted (noted (run.withEnv env) (.began ⟨env.callStack, index, activation⟩))
          have read := trans began (gather_kept Kept refl trans host.limits job
            (pullAt host level job depth) depth node.inputs _ pulled)
          split
          · next outcome => rwa [outcome] at read
          · next inputs ready outcome =>
              rw [outcome] at read
              have worked := trans read (performed node inputs ready found)
              split
              · next outcome => rwa [outcome] at worked
              · next outputs next given outcome =>
                  rw [outcome] at worked
                  have kept := trans worked (stored node outputs given)
                  split
                  · next outcome => rwa [outcome] at kept
                  · next last outcome =>
                      rw [outcome] at kept
                      exact trans kept (noted last _)

end Chained

/-- What a run does to its frame, said once: a node applies its effect or hands values back, and the
stack is overwritten in place. A relation that bears these changes bears every activation. The
activations in question may be restricted, as long as the reads of implicit nodes are among them. -/
structure FrameStable (job : Job) (allowed : Nat → Activation → Prop) (Kept : Frame → Frame → Prop) : Prop where
  refl : ∀ frame, Kept frame frame
  trans : ∀ {a b c}, Kept a b → Kept b c → Kept a c
  pulls : ∀ source, job.pulls source = true → allowed source .pulled
  effect : ∀ frame index node activation inputs effect, allowed index activation → job.nodes[index]? = some node →
    Effect.ofNode? node activation (frame.progressOf index) job.arguments inputs = some effect →
    Kept frame (frame.applyEffect index effect)
  returned : ∀ frame values, Kept frame { frame with returned := values }
  stack : ∀ frame stack, stack.length = frame.stack.length → Kept frame { frame with stack := stack }

namespace FrameStable

theorem length_write_slots {base : Nat} {values stack : List Value} (fits : base + values.length ≤ stack.length) :
    (writeSlots base values stack).length = stack.length := by
  simp only [writeSlots, List.length_append, List.length_take, List.length_drop]
  omega

variable {job : Job} {allowed : Nat → Activation → Prop} {Kept : Frame → Frame → Prop} (stable : FrameStable job allowed Kept)
include stable

theorem read_input (limits : Limits)
    (pull : Nat → Run σ → Except ScriptError (Option Nat) × Run σ) (depth : Nat) (pin : InputPin) (run : Run σ)
    (pulled : ∀ source run, job.pulls source = true → Kept run.frame (pull source run).2.frame) :
    Kept run.frame (readInput limits job pull depth pin run).2.frame :=
  read_input_kept (Kept ·.frame ·.frame) (stable.refl ·.frame) limits job pull depth pin run pulled

theorem gather (limits : Limits)
    (pull : Nat → Run σ → Except ScriptError (Option Nat) × Run σ) (depth : Nat) (pins : List InputPin) (run : Run σ)
    (pulled : ∀ source run, job.pulls source = true → Kept run.frame (pull source run).2.frame) :
    Kept run.frame (gather limits job pull depth pins run).2.frame :=
  gather_kept (Kept ·.frame ·.frame) (stable.refl ·.frame) stable.trans limits job pull depth
    pins run pulled

theorem write_variable {reference : Reference} {value : Value} {run next : Run σ}
    (written : run.writeVariable job reference value = .ok next) : Kept run.frame next.frame := by
  unfold Run.writeVariable at written
  split at written
  · cases written
  · cases written
    exact stable.stack run.frame _ (by simp)
  · cases written
    exact stable.refl run.frame

theorem perform (host : Host σ) (call : Call σ) {index : Nat} {node : Node}
    (activation : Activation) (inputs : List Value) (run : Run σ) (allow : allowed index activation)
    (found : job.nodes[index]? = some node) :
    Kept run.frame (perform host call job index node activation inputs run).2.frame := by
  unfold Patchbay.perform
  split
  · next effect applies =>
      have kept := stable.effect run.frame index node activation inputs effect allow found applies
      dsimp only
      split
      · exact stable.trans kept (stable.returned _ _)
      · exact kept
  · split
    · exact stable.refl run.frame
    · split
      · exact stable.refl run.frame
      · next next written => exact stable.write_variable written
    · exact stable.refl run.frame

theorem store_outputs (index : Nat) (node : Node) (outputs : List Value)
    (run : Run σ) : Kept run.frame (storeOutputs index node outputs run).2.frame := by
  unfold storeOutputs
  split
  · exact stable.refl run.frame
  · split
    · exact stable.refl run.frame
    · next fits => exact stable.stack run.frame _ (length_write_slots (Nat.le_of_not_lt fits))

theorem activate (host : Host σ) (level index : Nat) (activation : Activation)
    (depth : Nat) (run : Run σ) (allow : allowed index activation) :
    Kept run.frame (activate host level job index activation depth run).2.frame := by
  induction level generalizing index activation depth run with
  | zero => exact stable.refl run.frame
  | succ level ih =>
    exact activate_kept (Kept ·.frame ·.frame) (stable.refl ·.frame) stable.trans host level job index
      activation depth run (stable.refl run.frame) (fun run _ => stable.refl run.frame)
      (fun source run implicit => ih source .pulled (depth + 1) run (stable.pulls source implicit))
      (fun node inputs run found => stable.perform host _ activation inputs run allow found) (stable.store_outputs index)

end FrameStable

/-- Control may go anywhere, so that a whole run asks for a relation that bears every activation. -/
theorem follow_frame {job : Job} {Kept : Frame → Frame → Prop} (stable : FrameStable job (fun _ _ => True) Kept)
    (host : Host σ) (level fuel index : Nat) (activation : Activation) (run : Run σ) :
    Kept run.frame (follow host (activate host level) job fuel index activation run).2.frame :=
  follow_kept (Kept ·.frame ·.frame) (stable.refl ·.frame) stable.trans host (activate host level) job
    (fun index activation run => stable.activate host level index activation 0 run trivial) fuel index activation run

end Patchbay
