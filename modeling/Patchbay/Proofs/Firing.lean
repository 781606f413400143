import Patchbay.Proofs.Initialization
import Patchbay.Proofs.Lifecycles
import Patchbay.Proofs.Unedited

set_option autoImplicit false

namespace Patchbay

variable {ε : Type}

theorem Entity.modify_scope_found {component : Option Guid} {changed thing : Thing} (change : Thing → Thing) {entity : Entity}
    (found : entity.scope? component = some thing) (same : change thing = changed) :
    entity.modifyScope component (fun _ => changed) = entity.modifyScope component change := by
  cases component with
  | none =>
    cases found
    simp only [modifyScope, same]
  | some guid =>
    simp only [modifyScope, componentIndex?]
    cases place : entity.components.findIdx? (·.guid == guid) with
    | none => rfl
    | some index =>
      obtain ⟨inside, named, first⟩ := List.findIdx?_eq_some_iff_getElem.mp place
      have there : entity.components[index] = thing := by
        have earlier : entity.components.find? (·.guid == guid) = some entity.components[index] :=
          List.find?_eq_some_iff_getElem.mpr ⟨named, index, inside, rfl, fun j before => by simpa using first j before⟩
        exact Option.some.inj (earlier.symm.trans found)
      have once : entity.components.modify index (fun _ => changed) = entity.components.modify index change := by
        refine List.ext_getElem? fun other => ?_
        rw [List.getElem?_modify, List.getElem?_modify]
        by_cases here : index = other
        · subst here
          simp [inside, there, same]
        · simp [here]
      simp only [once]

theorem Entity.set_property_events {object : Guid} {name : String} {value : Value} (entity : Entity) {changed : Entity}
    (set : entity.setProperty? object name value = some changed) (component : Option Guid) (event : String) :
    changed.event? component event = entity.event? component event := by
  unfold setProperty? at set
  dsimp only at set
  split at set
  · cases set
  · next thing found =>
      obtain ⟨after, placed, rfl⟩ := Option.map_eq_some_iff.mp set
      unfold Thing.setProperty? at placed
      split at placed
      · cases placed
        rw [modify_scope_found
          (fun thing => { thing with properties := Fields.insert name value thing.properties }) found rfl]
        have seen := scope_modified (entity.scopeOf object) component
          (fun thing => { thing with properties := Fields.insert name value thing.properties }) (fun _ => rfl) entity
        simp only [event?, seen]
        by_cases scope : component = entity.scopeOf object
        · rw [if_pos scope, scope, found]
          rfl
        · rw [if_neg scope]
      · cases placed

namespace World

structure Calm (before after : World ε) : Prop where
  scripts : after.scripts = before.scripts
  events : ∀ place, after.eventAt? place = before.eventAt? place

theorem set_property_calm {index : Nat} {entity : Entity} {object : Guid} {name : String} {value : Value} {before after : World ε}
    (set : (owner index entity).setProperty? object name value before = some after) : before.Calm after := by
  simp only [owner] at set
  split at set
  · cases set
  · next target found =>
      obtain ⟨changed, placed, rfl⟩ := Option.map_eq_some_iff.mp set
      refine ⟨rfl, fun place => ?_⟩
      have inside : index < before.entities.length := (List.getElem?_eq_some_iff.mp found).1
      by_cases same : place.entity = index
      · simp only [eventAt?, same, found]
        simp only [entity?, setEntity, List.getElem?_set_self inside, Option.bind_some]
        exact target.set_property_events placed _ _
      · simp only [eventAt?, entity?, setEntity, List.getElem?_set_ne (Ne.symm same)]

end World

/-- Native functions that neither fire events nor edit them: whatever else they do, scripts and events stay as they are. -/
def Catalog.Peaceful (catalog : Catalog (World ε)) : Prop :=
  ∀ key native, catalog.find? key = some native → ∀ inputs (world : World ε), world.Calm (native.call inputs world).2

theorem Catalog.invoke_calm (catalog : Catalog (World ε)) (peaceful : catalog.Peaceful) (key : String) (inputs : List Value)
    (world : World ε) : world.Calm (catalog.invoke key inputs world).2 := by
  unfold invoke
  split
  · exact ⟨rfl, fun _ => rfl⟩
  · next native found =>
      split
      · exact ⟨rfl, fun _ => rfl⟩
      · have calm := peaceful key native found inputs world
        split <;> next called => rwa [called] at calm

variable {catalog : Catalog (World ε)} {host : Host (World ε)} {script after : Script}

theorem calm_stable (peaceful : catalog.Peaceful)
    (natives : host.catalog = catalog) (owned : ∀ owner, host.owner = some owner → ∃ index entity,
    owner = World.owner index entity) :
    EnvStable host (fun _ _ => True) fun a b => a.world.Calm b.world where
  refl _ := ⟨rfl, fun _ => rfl⟩
  trans first second :=
    ⟨second.scripts.trans first.scripts, fun place => (second.events place).trans (first.events place)⟩
  counted _ _ := ⟨rfl, fun _ => rfl⟩
  noted _ _ := ⟨rfl, fun _ => rfl⟩
  assigned _ _ _ := ⟨rfl, fun _ => rfl⟩
  changed env world changes := by
    cases changes with
    | native key inputs =>
      rw [natives]
      exact catalog.invoke_calm peaceful key inputs env.world
    | property owner object member value _ own set =>
      obtain ⟨index, entity, rfl⟩ := owned owner own
      exact World.set_property_calm set
  still _ := trivial
  ran _ _ _ _ := trivial
  called _ _ _ _ _ _ _ _ _ _ kept := kept

theorem host_calm (peaceful : catalog.Peaceful) {before : World ε} (world : World ε)
    (hosted : script.host (World.services catalog) before = .ok host) (start : Nat)
    (arguments : List Value) (graph : Graph) : world.Calm (graph.run host start arguments (script.env world)).2.2.world := by
  have stable : EnvStable host (fun _ _ => True) fun a b => a.world.Calm b.world := by
    unfold Script.host at hosted
    split at hosted <;> cases hosted
    refine calm_stable peaceful rfl fun owner own => ?_
    obtain ⟨index, _, made⟩ := Option.bind_eq_some_iff.mp own
    obtain ⟨entity, _, rfl⟩ := Option.map_eq_some_iff.mp made
    exact ⟨index, entity, rfl⟩
  exact stable.run_with _ (stable.activate (host.limits.maxSteps + 1)) start arguments graph (script.env world)

theorem unedited_trans {middle : Script} (first : Unedited script middle) (second : Unedited middle after) :
    Unedited script after := by
  refine unedited_of_wiped script after (second.vars.trans first.vars) ?_
  exact (congrArg (fun wiped : Script => { wiped with vars := script.vars }) second.rest).trans first.rest

theorem unedited_runtime (unedited : Unedited script after) : after.runtime = script.runtime := by
  have same := congrArg Script.runtime unedited.rest
  exact same

theorem unedited_posts (unedited : Unedited script after) : after.posts = script.posts := by
  have wiped (event : EventGraph) : (event.mapGraph Graph.wiped).post = event.post := by
    have same := event_of_kinds (event.mapGraph Graph.wiped) event
      (by simp only [EventGraph.mapGraph, Graph.wiped, List.map_map, Function.comp_def, Node.withProgress])
    simp only [EventGraph.post, same]
    rfl
  have posts := congrArg Script.posts unedited.rest
  simpa only [Script.posts, Script.wiped, Script.mapGraphs, List.map_map, Function.comp_def, wiped] using posts

/-- What runs leave of a place for scripts: at most the script there has run. -/
inductive Slot.Ran : Option Slot → Option Slot → Prop where
  | still (slot : Option Slot) : Ran slot slot
  | ran (script after : Script) (unedited : Unedited script after) : Ran (some (.idle script)) (some (.idle after))

theorem Slot.Ran.trans {a b c : Option Slot} (first : Slot.Ran a b) (second : Slot.Ran b c) : Slot.Ran a c := by
  cases first with
  | still => exact second
  | ran script middle before =>
    cases second with
    | still => exact .ran script middle before
    | ran _ after later => exact .ran script after (unedited_trans before later)

namespace World

structure Ran (before after : World ε) : Prop where
  events : ∀ place, after.eventAt? place = before.eventAt? place
  slots : ∀ index : Nat, Slot.Ran before.scripts[index]? after.scripts[index]?

theorem Ran.refl (world : World ε) : world.Ran world := ⟨fun _ => rfl, fun _ => .still _⟩

theorem Ran.trans {a b c : World ε} (first : a.Ran b) (second : b.Ran c) : a.Ran c :=
  ⟨fun place => (second.events place).trans (first.events place), fun index => (first.slots index).trans (second.slots index)⟩

variable {catalog : Catalog (World ε)} {before after : World ε}

theorem run_event_calm (peaceful : catalog.Peaceful) (index : Nat) (arguments : List Value)
    (script : Script) (world : World ε) : world.Calm (script.runEventGraph (services catalog) index arguments world).2.2 := by
  unfold Script.runEventGraph
  cases hosted : script.host (services catalog) world with
  | error => exact ⟨rfl, fun _ => rfl⟩
  | ok host =>
    dsimp only
    cases script.eventGraphs[index]? with
    | none => exact ⟨rfl, fun _ => rfl⟩
    | some event =>
      dsimp only
      cases event.event with
      | error => exact ⟨rfl, fun _ => rfl⟩
      | ok _ => exact host_calm peaceful world hosted receiveNode arguments event.graph

theorem returned_ran {index : Nat} {script after : Script} (unedited : Unedited script after) {world : World ε}
    (idle : before.scripts[index]? = some (.idle script)) (calm : (before.setSlot index .busy).Calm world) :
    (world.setScript index after).scripts = before.scripts.set index (.idle after) ∧
      before.Ran (world.setScript index after) := by
  have scripts : (world.setScript index after).scripts = before.scripts.set index (.idle after) := by
    simp only [setScript, setSlot, calm.scripts, List.set_set]
  refine ⟨scripts, calm.events, fun other => ?_⟩
  rw [scripts]
  by_cases same : index = other
  · subst same
    rw [List.getElem?_set_self (List.getElem?_eq_some_iff.mp idle).1, idle]
    exact .ran script after unedited
  · rw [List.getElem?_set_ne same]
    exact .still _

theorem deliver_ran (peaceful : catalog.Peaceful) (binding : Binding) (arguments : List Value)
    (world : World ε) : world.Ran (deliver catalog binding arguments world).2 := by
  unfold deliver withScript
  split
  · next script idle =>
      have unedited : Unedited script (script.runEventGraphOf (services catalog) binding.graph arguments
          (world.setSlot binding.script .busy)).2.1 := by
        unfold Script.runEventGraphOf
        split
        · exact unedited_refl script
        · exact run_event_unedited _ _ arguments script _
      have calm : (world.setSlot binding.script .busy).Calm (script.runEventGraphOf (services catalog) binding.graph arguments
          (world.setSlot binding.script .busy)).2.2 := by
        unfold Script.runEventGraphOf
        split
        · exact ⟨rfl, fun _ => rfl⟩
        · exact run_event_calm peaceful _ arguments script _
      exact (returned_ran unedited idle calm).2
  · exact .refl world
  · exact .refl world

theorem run_all_ran (peaceful : catalog.Peaceful) (arguments : List Value) (bindings : List Binding)
    (world : World ε) : world.Ran (Event.runAll (deliver catalog) arguments bindings world).2 := by
  induction bindings generalizing world with
  | nil => exact .refl world
  | cons binding rest ih => exact (deliver_ran peaceful binding arguments world).trans (ih _)

theorem fire_ran (peaceful : catalog.Peaceful) (place : EventPlace) (arguments : List Value) (world : World ε) :
    world.Ran (((world.fire catalog place.entity place.component place.name arguments).map (·.2)).getD world) := by
  unfold fire
  split
  · exact .refl world
  · rw [Option.map_some, Option.getD_some, Event.invoke]
    split
    · exact .refl world
    · exact run_all_ran peaceful arguments _ world

theorem ran_script (ran : before.Ran after) (index : Nat) :
    (before.script? index = none ∧ after.script? index = none) ∨
      ∃ script now, before.script? index = some script ∧ after.script? index = some now ∧ Unedited script now := by
  have slots := ran.slots index
  unfold script?
  generalize before.scripts[index]? = old at slots ⊢
  generalize after.scripts[index]? = new at slots ⊢
  cases slots with
  | ran script now unedited => exact .inr ⟨script, now, rfl, rfl, unedited⟩
  | still =>
    cases old with
    | none => exact .inl ⟨rfl, rfl⟩
    | some slot =>
      cases slot with
      | idle script => exact .inr ⟨script, script, rfl, rfl, unedited_refl script⟩
      | busy | gone => exact .inl ⟨rfl, rfl⟩

theorem ran_posts (ran : before.Ran after) (index : Nat) : after.posts index = before.posts index := by
  unfold posts
  obtain ⟨missing, gone⟩ | ⟨script, now, found, there, unedited⟩ := ran_script ran index
  · rw [missing, gone]
  · rw [found, there, Option.map_some, Option.map_some, unedited_posts unedited]

end World

end Patchbay
