import Mathlib.Logic.Function.Basic
import Patchbay.Proofs.Subscriptions

set_option autoImplicit false

namespace Patchbay

variable {ε : Type}

namespace World

def posts (script : Nat) (world : World ε) : List Post := ((world.script? script).map (·.posts)).getD []

theorem script_found (index : Nat) (world : World ε) (script : Script) :
    world.script? index = some script ↔ world.scripts[index]? = some (.idle script) := by
  unfold script?
  split
  · rename_i found
    simp [found]
  · rename_i other
    exact ⟨nofun, fun found => absurd found (other script)⟩

variable {index script : Nat} {world start after : World ε} {owner : Option Nat} {place : EventPlace}
  {event : Event Binding}

theorem set_slot_found (slot : Slot) (inside : index < world.scripts.length) :
    (world.setSlot index slot).scripts[index]? = some slot := by
  simp [setSlot, inside]

theorem confined_inside (index : Nat) (script : Script) (world after : World ε) (found : world.script? index = some script)
    (confined : Confined index world after) : index < after.scripts.length := by
  rw [confined.count]
  exact (List.getElem?_eq_some_iff.mp ((script_found index world script).mp found)).1

/-- A script that can be started is settled. One that was dropped, or was never idle, has no owner and no handlers. -/
def Stands (world start : World ε) (owner : Option Nat) (script : Nat) : Prop :=
  world.Settled (start.posts script) owner script (world.posts script) ∨
    world.script? script = none ∧ owner = none ∧ world.Holds script []

theorem missing_stands (missing : world.script? script = none)
    (stands : world.Stands start owner script) : world.Stands start none script := by
  refine .inr ⟨missing, rfl, ?_⟩
  rcases stands with settled | ⟨_, _, holds⟩
  · simpa [posts, missing] using settled.holds
  · exact holds

theorem idle_stands (world start : World ε) (owner : Option Nat) (index : Nat) (script : Script)
    (found : world.script? index = some script) (stands : world.Stands start owner index) :
    world.Settled (start.posts index) owner index script.posts := by
  rcases stands with settled | ⟨missing, _, _⟩
  · simpa [posts, found] using settled
  · rw [found] at missing
    cases missing

theorem placed_stands {script : Script}
    (inside : index < world.scripts.length) (settled : world.Settled (start.posts index) owner index script.posts) :
    (world.setScript index script).Stands start owner index := by
  have found : (world.setScript index script).script? index = some script :=
    (script_found index _ script).mpr (set_slot_found (.idle script) inside)
  refine .inl ⟨?_, ?_, ?_⟩ <;> simp only [posts, found, Option.map_some, Option.getD_some]
  · exact settled.holds
  · exact settled.kept
  · exact settled.same

theorem dropped_stands {world : World ε} (start : World ε) (inside : index < world.scripts.length)
    (holds : world.Holds index []) : (world.setSlot index .gone).Stands start none index := by
  refine .inr ⟨?_, rfl, holds⟩
  simp only [script?, set_slot_found .gone inside]

theorem handlers_of_standing (stands : world.Stands start owner script) (found : world.eventAt? place = some event) :
    (event.handlersOf script).map (·.2) =
      if owner = some place.entity then awaiting script place (start.posts script) else [] := by
  rcases stands with settled | ⟨_, rfl, holds⟩
  · rw [settled.holds place event found]
    cases owner with
    | none => simp [bound_without_owner script place _ settled.kept]
    | some entity =>
      rw [bound_with_owner script entity place _ settled.kept, ← awaiting_loose, settled.same, awaiting_loose]
      simp
  · rw [holds place event found]
    simp [boundAt]

theorem ownerless_last (stands : world.Stands start none script) : world.Last script := by
  refine last_without_handlers script world ?_
  obtain settled | ⟨_, _, holds⟩ := stands
  · exact settled_ownerless settled
  · exact holds

structure Orderly (world start : World ε) (owners : Nat → Option Nat) : Prop where
  numbered : world.Numbered
  hushed : world.Hushed
  stands : ∀ script, world.Stands start (owners script) script

theorem others_stand {other : Nat} (apart : other ≠ script)
    (confined : Confined script world after) (stands : world.Stands start owner other) : after.Stands start owner other := by
  have slot : after.script? other = world.script? other := by simp only [script?, confined.slots other apart]
  rcases stands with settled | ⟨missing, ownerless, holds⟩
  · refine .inl ⟨?_, ?_, ?_⟩ <;> simp only [posts, slot]
    · exact holds_others confined apart settled.holds
    · exact settled.kept
    · exact settled.same
  · exact .inr ⟨slot.trans missing, ownerless, holds_others confined apart holds⟩

theorem orderly_step (owners : Nat → Option Nat)
    (orderly : world.Orderly start owners) (confined : Confined script world after) (stands : after.Stands start owner script) :
    after.Orderly start (Function.update owners script owner) := by
  refine ⟨confined.numbered orderly.numbered, confined.hushed orderly.hushed, fun other => ?_⟩
  by_cases same : other = script
  · rw [same, Function.update_self]
    exact stands
  · rw [Function.update_of_ne same]
    exact others_stand same confined (orderly.stands other)

theorem init_missing (entity : Nat) (limits : Limits) (missing : world.script? index = none) :
    world.init index entity limits = (.error .busy, world) := by
  unfold init withScript
  split
  · rename_i script found
    rw [(script_found index world script).mpr found] at missing
    cases missing
  · rfl
  · rfl

theorem init_attached (entity : Nat) (limits : Limits) {script : Script}
    (numbered : world.Numbered) (stands : world.Stands start owner index) (found : world.script? index = some script) :
    let ended := (world.setSlot index .busy).attach index entity limits script
    world.init index entity limits = (ended.1, ended.2.2.setScript index ended.2.1) ∧ index < ended.2.2.scripts.length ∧
      ended.2.2.Settled (start.posts index) (startedOn entity ended.1) index ended.2.1.posts ∧
      Confined index world ended.2.2 ∧ ended.2.2.Last index := by
  intro ended
  have there := (script_found index world script).mp found
  have before := idle_stands world start _ index script found stands
  obtain ⟨settled, attached, last⟩ := attach_settled index entity limits script (world.setSlot index .busy) numbered before.holds
  have confined := (set_slot_confined index .busy world).trans attached
  refine ⟨?_, confined_inside index script world _ found confined,
    ⟨settled.holds, settled.kept, settled.same.trans before.same⟩, confined, last⟩
  simp only [ended, init, withScript, there]

theorem init_settles (entity : Nat) (limits : Limits)
    (numbered : world.Numbered) (stands : world.Stands start owner index) :
    let after := world.init index entity limits
    after.2.Stands start (startedOn entity after.1) index ∧ Confined index world after.2 ∧ after.2.Last index := by
  intro after
  cases found : world.script? index with
  | none =>
    have refused : after = (.error .busy, world) := init_missing entity limits found
    have missing := missing_stands found stands
    rw [refused]
    exact ⟨missing, Confined.refl index world, ownerless_last missing⟩
  | some script =>
    obtain ⟨went, inside, settled, confined, last⟩ := init_attached entity limits numbered stands found
    rw [show after = _ from went]
    generalize (world.setSlot index .busy).attach index entity limits script = ended at inside settled confined last ⊢
    have placed := set_slot_confined index (.idle ended.2.1) ended.2.2
    exact ⟨placed_stands inside settled, confined.trans placed, placed.last last⟩

theorem init_stands (index entity : Nat) (limits : Limits) (owners : Nat → Option Nat)
    (orderly : world.Orderly start owners) :
    let after := world.init index entity limits
    after.2.Stands start (startedOn entity after.1) index ∧ Confined index world after.2 := by
  obtain ⟨stands, confined, _⟩ := init_settles entity limits orderly.numbered (orderly.stands index)
  exact ⟨stands, confined⟩

theorem detached_stands {script : Script} (numbered : world.Numbered)
    (stands : world.Stands start owner index) (found : world.script? index = some script) :
    index < (world.detach script).2.scripts.length ∧
      (world.detach script).2.Settled (start.posts index) none index (world.detach script).1.posts ∧
      Confined index world (world.detach script).2 := by
  have before := idle_stands world start _ index script found stands
  obtain ⟨settled, confined⟩ := detach_settled index script _ world numbered before.holds before.same
  exact ⟨confined_inside index script world _ found confined, settled, confined⟩

theorem shutdown_settles (numbered : world.Numbered) (stands : world.Stands start owner index) :
    (world.shutdown index).Stands start none index ∧ Confined index world (world.shutdown index) := by
  unfold shutdown
  cases found : world.script? index with
  | none => exact ⟨missing_stands found stands, Confined.refl index world⟩
  | some =>
    obtain ⟨inside, settled, confined⟩ := detached_stands numbered stands found
    exact ⟨placed_stands inside settled, confined.trans (set_slot_confined index _ _)⟩

theorem drop_settles (numbered : world.Numbered) (stands : world.Stands start owner index) :
    (world.dropScript index).Stands start none index ∧ Confined index world (world.dropScript index) := by
  unfold dropScript
  cases found : world.script? index with
  | none => exact ⟨missing_stands found stands, Confined.refl index world⟩
  | some =>
    obtain ⟨inside, settled, confined⟩ := detached_stands numbered stands found
    have bare := settled_ownerless settled
    exact ⟨dropped_stands start inside bare, confined.trans (set_slot_confined index _ _)⟩

structure Untouched (world : World ε) : Prop where
  events : ∀ entity ∈ world.entities, ∀ scope ∈ entity.scopes, ∀ entry ∈ scope.2.events, entry.2.handlers = []
  scripts : ∀ script, Slot.idle script ∈ world.scripts → ∀ graph ∈ script.eventGraphs, graph.subscription = none

theorem untouched_silent (untouched : world.Untouched)
    (found : world.eventAt? place = some event) : event.handlers = [] := by
  obtain ⟨entity, there, named⟩ := Option.bind_eq_some_iff.mp found
  obtain ⟨scope, inside, entry, member, rfl⟩ := Entity.event_member named
  exact untouched.events entity (List.mem_of_getElem? there) scope inside entry member

theorem untouched_orderly (untouched : world.Untouched) : world.Orderly world fun _ => none := by
  refine ⟨fun place event found => ?_, fun index entity found => ?_, fun index => ?_⟩
  · exact Event.empty_numbered (untouched_silent untouched found)
  · exact Entity.silent_hushed entity (untouched.events entity (List.mem_of_getElem? found))
  · have bare : world.Holds index [] := by
      intro place event found
      simp [Event.handlersOf, untouched_silent untouched found, boundAt]
    cases found : world.script? index with
    | none => exact .inr ⟨found, rfl, bare⟩
    | some script =>
      have there := (script_found index world script).mp found
      have loose : ∀ post ∈ world.posts index, post.Kept none := by
        simp only [posts, found, Option.map_some, Option.getD_some, Script.posts, List.mem_map]
        rintro post ⟨graph, member, rfl⟩
        exact untouched.scripts script (List.mem_of_getElem? there) graph member
      exact .inl ⟨holds_append index [] _ world bare loose, loose, rfl⟩

/-- The handlers that a script should have at a place, by the owner it was last started on. -/
def subscribers (owners : Nat → Option Nat) (script : Nat) (place : EventPlace) (world : World ε) : List Binding :=
  if owners script = some place.entity then awaiting script place (world.posts script) else []

end World

inductive Lifecycle where
  | start (script entity : Nat) (limits : Limits)
  | stop (script : Nat)
  | drop (script : Nat)

namespace Lifecycle

def script : Lifecycle → Nat
  | .start script _ _ => script
  | .stop script => script
  | .drop script => script

/-- One step, with the owner that each script has by a start that succeeded and was not undone. -/
def apply (state : World ε × (Nat → Option Nat)) : Lifecycle → World ε × (Nat → Option Nat)
  | .start script entity limits =>
    let (result, world) := state.1.init script entity limits
    (world, Function.update state.2 script (World.startedOn entity result))
  | .stop script => (state.1.shutdown script, Function.update state.2 script none)
  | .drop script => (state.1.dropScript script, Function.update state.2 script none)

theorem apply_owners (step : Lifecycle) (state : World ε × (Nat → Option Nat)) :
    (step.apply state).2 = Function.update state.2 step.script ((step.apply state).2 step.script) := by
  cases step <;> simp [apply, script]

variable {start : World ε}

theorem step_settles (step : Lifecycle) (state : World ε × (Nat → Option Nat)) (numbered : state.1.Numbered)
    (stands : state.1.Stands start (state.2 step.script) step.script) :
    (step.apply state).1.Stands start ((step.apply state).2 step.script) step.script ∧
      World.Confined step.script state.1 (step.apply state).1 ∧ (step.apply state).1.Last step.script := by
  cases step with
  | start script entity limits =>
    have settles := World.init_settles entity limits numbered stands
    simpa only [apply, Lifecycle.script, Function.update_self] using settles
  | stop =>
    obtain ⟨stands, confined⟩ := World.shutdown_settles numbered stands
    simp only [apply, Lifecycle.script, Function.update_self]
    exact ⟨stands, confined, World.ownerless_last stands⟩
  | drop =>
    obtain ⟨stands, confined⟩ := World.drop_settles numbered stands
    simp only [apply, Lifecycle.script, Function.update_self]
    exact ⟨stands, confined, World.ownerless_last stands⟩

theorem step_orderly (step : Lifecycle) (state : World ε × (Nat → Option Nat))
    (orderly : state.1.Orderly start state.2) :
    (step.apply state).1.Orderly start (step.apply state).2 ∧ World.Confined step.script state.1 (step.apply state).1 := by
  obtain ⟨stands, confined, _⟩ := step.step_settles state orderly.numbered (orderly.stands step.script)
  rw [step.apply_owners state]
  exact ⟨World.orderly_step state.2 orderly confined stands, confined⟩

theorem history_orderly (history : List Lifecycle) (state : World ε × (Nat → Option Nat))
    (orderly : state.1.Orderly start state.2) :
    (history.foldl apply state).1.Orderly start (history.foldl apply state).2 := by
  induction history generalizing state with
  | nil => exact orderly
  | cons step rest ih => exact ih (step.apply state) (step_orderly step state orderly).1

end Lifecycle

/-- Scripts are started, stopped and dropped in any order. Then an event has, of each script, one handler for each of its
graphs that waits for it on the entity of its last start, in the order of the graphs, and no other. No event that scripts
cannot find has any. A further step leaves the handlers of all other scripts alone, and a start that fails leaves none of its
own. -/
theorem subscriptions_follow_lifecycles (start : World ε) (untouched : start.Untouched) (history : List Lifecycle) :
    let state := history.foldl Lifecycle.apply (start, fun _ => none)
    (∀ place event, state.1.eventAt? place = some event → ∀ script,
        (event.handlersOf script).map (·.2) = start.subscribers state.2 script place) ∧
      (∀ index entity, state.1.entity? index = some entity → ∀ scope ∈ entity.scopes, ∀ entry ∈ scope.2.events,
        entry.2.handlers ≠ [] → state.1.eventAt? ⟨index, scope.1, entry.1⟩ = some entry.2) ∧
      (∀ step : Lifecycle, ∀ other, other ≠ step.script → ∀ place,
        ((step.apply state).1.eventAt? place).map (·.handlersOf other) = (state.1.eventAt? place).map (·.handlersOf other)) ∧
      ∀ script entity limits cause, (state.1.init script entity limits).1 = .error cause →
        ∀ place event, (state.1.init script entity limits).2.eventAt? place = some event → event.handlersOf script = [] := by
  intro state
  have orderly := Lifecycle.history_orderly history (start, fun _ => none) (World.untouched_orderly untouched)
  refine ⟨fun place event found script => ?_, fun index entity found scope inside entry member loud => ?_,
    fun step other apart place => ?_, fun script entity limits cause failed place event found => ?_⟩
  · exact World.handlers_of_standing (orderly.stands script) found
  · have named := Entity.hushed_found (orderly.hushed index entity found) inside member loud
    exact Option.bind_eq_some_iff.mpr ⟨entity, found, named⟩
  · exact (Lifecycle.step_orderly step state orderly).2.others apart place
  · have stands := (World.init_stands script entity limits state.2 orderly).1
    rw [failed] at stands
    have none := World.handlers_of_standing stands found
    exact List.map_eq_nil_iff.mp (none.trans (if_neg nofun))

def bell (number : Nat) : Thing := ⟨⟨number⟩, "Bell", [], [("rung", ⟨"rung", [], [], 0⟩)]⟩

def tower (number : Nat) : Entity := ⟨bell number, [bell 7, bell 7]⟩

def listener (graphs : List EventGraph) : Slot := .idle { Script.empty "listener" with eventGraphs := graphs }

/-- The first script listens to a tower twice, the second to its component. The third listens to a tower, and then to an event
that there is not. -/
def towers : World Unit :=
  ⟨[tower 1, tower 2],
    [listener [.fresh ⟨11⟩ "rung" none [], .fresh ⟨12⟩ "rung" none []], listener [.fresh ⟨21⟩ "rung" (some ⟨7⟩) []],
      listener [.fresh ⟨31⟩ "rung" none [], .fresh ⟨32⟩ "struck" none []]], ()⟩

/-- The first script moves to the other tower after the third has failed. -/
theorem moved_script_leaves_old_owner :
    let state := [Lifecycle.start 0 0 .default, .start 1 0 .default, .start 2 0 .default, .start 0 1 .default].foldl
      Lifecycle.apply (towers, fun _ => none)
    towers.Untouched ∧ (state.2 0, state.2 1, state.2 2) = (some 1, some 0, none) ∧
      ∃ left entered component, state.1.eventAt? ⟨0, none, "rung"⟩ = some left ∧
        state.1.eventAt? ⟨1, none, "rung"⟩ = some entered ∧ state.1.eventAt? ⟨0, some ⟨7⟩, "rung"⟩ = some component ∧
        (left.handlersOf 0).map (·.2) = [] ∧ (left.handlersOf 2).map (·.2) = [] ∧
        (entered.handlersOf 0).map (·.2) = [⟨0, ⟨11⟩⟩, ⟨0, ⟨12⟩⟩] ∧ (component.handlersOf 1).map (·.2) = [⟨1, ⟨21⟩⟩] := by
  intro state
  have untouched : towers.Untouched := by
    refine ⟨by decide, fun script member graph inside => ?_⟩
    simp only [towers, listener, List.mem_cons, Slot.idle.injEq, List.not_mem_nil, or_false] at member
    rcases member with rfl | rfl | rfl <;> simp only [List.mem_cons, List.not_mem_nil, or_false] at inside
    · rcases inside with rfl | rfl <;> rfl
    · subst inside
      rfl
    · rcases inside with rfl | rfl <;> rfl
  obtain ⟨exactly, _⟩ := subscriptions_follow_lifecycles towers untouched
    [.start 0 0 .default, .start 1 0 .default, .start 2 0 .default, .start 0 1 .default]
  have owners : (state.2 0, state.2 1, state.2 2) = (some 1, some 0, none) := by decide +kernel
  refine ⟨untouched, owners, _, _, _, rfl, rfl, rfl, ?_, ?_, ?_, ?_⟩
  · exact (exactly ⟨0, none, "rung"⟩ _ rfl 0).trans (by decide +kernel)
  · exact (exactly ⟨0, none, "rung"⟩ _ rfl 2).trans (by decide +kernel)
  · exact (exactly ⟨1, none, "rung"⟩ _ rfl 0).trans (by decide +kernel)
  · exact (exactly ⟨0, some ⟨7⟩, "rung"⟩ _ rfl 1).trans (by decide +kernel)

end Patchbay
