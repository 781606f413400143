import Patchbay.Proofs.Firing

set_option autoImplicit false

namespace Patchbay

variable {ε : Type}

namespace World

structure Owned (owner : Option Nat) (index : Nat) (world : World ε) : Prop where
  present : ∀ script, world.script? index = some script → script.owner = owner ∧ (owner ≠ none → script.limits ≠ none)
  absent : world.script? index = none → owner = none

theorem missing_owned {world : World ε} {index : Nat} (found : world.script? index = none) : world.Owned none index :=
  ⟨fun _ there => absurd (there.symm.trans found) (Option.some_ne_none _), fun _ => rfl⟩

theorem init_owned {index : Nat} (entity : Nat) (limits : Limits) {world start : World ε} {owner : Option Nat}
    (numbered : world.Numbered) (stands : world.Stands start owner index) :
    (world.init index entity limits).2.Owned (startedOn entity (world.init index entity limits).1) index := by
  cases found : world.script? index with
  | none =>
    rw [init_missing entity limits found]
    exact missing_owned found
  | some script =>
    obtain ⟨went, inside, _⟩ := init_attached entity limits numbered stands found
    have runtime := attach_runtime index entity limits script (world.setSlot index .busy)
    rw [went]
    generalize (world.setSlot index .busy).attach index entity limits script = ended at inside runtime ⊢
    have placed : (ended.2.2.setScript index ended.2.1).script? index = some ended.2.1 :=
      (script_found index _ _).mpr (set_slot_found (.idle ended.2.1) inside)
    refine ⟨fun other same => ?_, fun missing => absurd (placed.symm.trans missing) (Option.some_ne_none _)⟩
    obtain rfl : ended.2.1 = other := Option.some.inj (placed.symm.trans same)
    obtain ⟨started, runtime⟩ | ⟨⟨cause, failed⟩, runtime⟩ := runtime
    · obtain ⟨owned, limited⟩ : ended.2.1.owner = some entity ∧ ended.2.1.limits = some limits := by
        simpa only [Script.runtime, Prod.mk.injEq] using runtime
      dsimp only at started ⊢
      rw [started, owned, limited]
      exact ⟨rfl, fun _ => Option.some_ne_none _⟩
    · dsimp only at failed ⊢
      rw [failed]
      exact ⟨congrArg Prod.fst runtime, fun owned => absurd rfl owned⟩

end World

theorem Lifecycle.step_owned (step : Lifecycle) {start : World ε} (state : World ε × (Nat → Option Nat))
    (numbered : state.1.Numbered) (stands : state.1.Stands start (state.2 step.script) step.script) :
    (step.apply state).1.Owned ((step.apply state).2 step.script) step.script := by
  obtain ⟨_, confined, _⟩ := step.step_settles state numbered stands
  cases step with
  | start script entity limits =>
    have owned := World.init_owned entity limits numbered stands
    simpa only [apply, Lifecycle.script, Function.update_self] using owned
  | stop script =>
    simp only [apply, Lifecycle.script, Function.update_self]
    unfold World.shutdown
    cases found : state.1.script? script with
    | none => exact World.missing_owned found
    | some old =>
      refine ⟨fun now there => ?_, fun _ => rfl⟩
      obtain ⟨inside, _, _⟩ := World.detached_stands numbered stands found
      have placed := (World.script_found script _ _).mpr (World.set_slot_found (.idle (state.1.detach old).1) inside)
      obtain rfl : (state.1.detach old).1 = now := Option.some.inj (placed.symm.trans there)
      exact ⟨rfl, fun owned => absurd rfl owned⟩
  | drop script =>
    simp only [apply, Lifecycle.script, Function.update_self]
    unfold World.dropScript
    cases found : state.1.script? script with
    | none => exact World.missing_owned found
    | some old =>
      refine ⟨fun now there => ?_, fun _ => rfl⟩
      obtain ⟨inside, _, _⟩ := World.detached_stands numbered stands found
      have gone := World.set_slot_found .gone inside
      cases gone.symm.trans ((World.script_found script _ now).mp there)

theorem Event.grouped_step {script : Nat} {order : List Nat} {before after : Event Binding}
    (grouped : before.handlers = order.flatMap before.handlersOf) (foreign : after.foreign script = before.foreign script)
    (last : after.Last script) : after.handlers = (order.filter (· != script) ++ [script]).flatMap after.handlersOf := by
  have others : before.foreign script = (order.filter (· != script)).flatMap after.handlersOf := by
    rw [Event.foreign, grouped]
    clear grouped
    induction order with
    | nil => rfl
    | cons other rest ih =>
      rw [List.flatMap_cons, List.filter_append, ih]
      by_cases own : other = script
      · have none : (before.handlersOf other).filter (·.2.script != script) = [] := by
          rw [own, Event.handlersOf, List.filter_filter]
          simp
        rw [none, List.nil_append, List.filter_cons_of_neg (by simp [own])]
      · have all : (before.handlersOf other).filter (·.2.script != script) = after.handlersOf other := by
          rw [after.foreign_handlers own, foreign, Event.foreign, Event.handlersOf, List.filter_filter,
            List.filter_filter]
          exact List.filter_congr fun _ _ => Bool.and_comm _ _
        rw [all, List.filter_cons_of_pos (by simpa using own), List.flatMap_cons]
  rw [List.flatMap_append, ← others, ← foreign, List.flatMap_singleton]
  exact last

inductive Happening where
  | life (step : Lifecycle)
  | fire (place : EventPlace) (arguments : List Value)

/-- A world with the owner of each script by its last start, and the scripts in the order of their last steps. Those that have
an owner are so in the order of their starts. -/
structure Course (ε : Type) where
  world : World ε
  owners : Nat → Option Nat
  order : List Nat

def Happening.apply (catalog : Catalog (World ε)) (course : Course ε) : Happening → Course ε
  | .life step =>
    let after := step.apply (course.world, course.owners)
    ⟨after.1, after.2, course.order.filter (· != step.script) ++ [step.script]⟩
  | .fire place arguments =>
    let fired := course.world.fire catalog place.entity place.component place.name arguments
    { course with world := (fired.map (·.2)).getD course.world }

namespace Course

def start (world : World ε) : Course ε := ⟨world, fun _ => none, []⟩

/-- The handlers of an event stand script by script, in the order of the starts. -/
structure Sound (start : World ε) (course : Course ε) : Prop where
  numbered : course.world.Numbered
  stands : ∀ script, course.world.Stands start (course.owners script) script
  owned : ∀ script, course.world.Owned (course.owners script) script
  grouped : ∀ place event, course.world.eventAt? place = some event → event.handlers = course.order.flatMap event.handlersOf
  once : course.order.Nodup
  listed : ∀ script, course.owners script ≠ none → script ∈ course.order

variable {start : World ε} {course : Course ε} {catalog : Catalog (World ε)}

theorem life_sound (catalog : Catalog (World ε)) (step : Lifecycle) (sound : course.Sound start) :
    ((Happening.life step).apply catalog course).Sound start := by
  have numbered : (course.world, course.owners).1.Numbered := sound.numbered
  obtain ⟨stands, confined, last⟩ := step.step_settles (course.world, course.owners) numbered (sound.stands step.script)
  have owners (other : Nat) (apart : other ≠ step.script) :
      (step.apply (course.world, course.owners)).2 other = course.owners other := by
    rw [step.apply_owners, Function.update_of_ne apart]
  refine ⟨confined.numbered numbered, fun other => ?_, fun other => ?_, fun place event found => ?_, ?_, fun other owned => ?_⟩
  · by_cases same : other = step.script
    · exact same ▸ stands
    · dsimp only [Happening.apply]
      rw [owners other same]
      exact World.others_stand same confined (sound.stands other)
  · by_cases same : other = step.script
    · exact same ▸ step.step_owned (course.world, course.owners) numbered (sound.stands step.script)
    · have slot : (step.apply (course.world, course.owners)).1.script? other = course.world.script? other := by
        simp only [World.script?, confined.slots other same]
      dsimp only [Happening.apply]
      rw [owners other same]
      exact ⟨fun script there => (sound.owned other).present script (slot ▸ there),
        fun missing => (sound.owned other).absent (slot ▸ missing)⟩
  · have foreign := confined.foreign place
    rw [show (step.apply (course.world, course.owners)).1.eventAt? place = some event from found] at foreign
    obtain ⟨old, there, same⟩ := Option.map_eq_some_iff.mp foreign.symm
    exact Event.grouped_step (sound.grouped place old there) same.symm (last place event found)
  · refine List.nodup_append.mpr ⟨sound.once.filter _, List.nodup_singleton _, fun other inside own isOwn => ?_⟩
    rw [List.mem_singleton.mp isOwn]
    simpa using (List.mem_filter.mp inside).2
  · by_cases same : other = step.script
    · exact List.mem_append_right _ (same ▸ List.mem_singleton_self _)
    · refine List.mem_append_left _ (List.mem_filter.mpr ⟨sound.listed other ?_, by simpa using same⟩)
      rwa [← owners other same]

theorem fire_sound (peaceful : catalog.Peaceful)
    (place : EventPlace) (arguments : List Value) (sound : course.Sound start) :
    ((Happening.fire place arguments).apply catalog course).Sound start := by
  have ran := World.fire_ran peaceful place arguments course.world
  refine ⟨fun other event found => ?_, fun script => ?_, fun script => ?_, fun other event found => ?_, sound.once, sound.listed⟩
  · exact sound.numbered other event ((ran.events other).symm.trans found)
  · have holds (posts : List Post) (holds : course.world.Holds script posts) :
        ((Happening.fire place arguments).apply catalog course).world.Holds script posts :=
      fun other event found => holds other event ((ran.events other).symm.trans found)
    have posts := World.ran_posts ran script
    obtain settled | ⟨missing, ownerless, bare⟩ := sound.stands script
    · exact .inl ⟨posts ▸ holds _ settled.holds, posts ▸ settled.kept, posts ▸ settled.same⟩
    · obtain ⟨_, gone⟩ | ⟨old, _, found, _, _⟩ := World.ran_script ran script
      · exact .inr ⟨gone, ownerless, holds _ bare⟩
      · cases missing.symm.trans found
  · obtain ⟨missing, gone⟩ | ⟨old, now, found, there, unedited⟩ := World.ran_script ran script
    · exact ⟨fun _ there => absurd (there.symm.trans gone) (Option.some_ne_none _), fun _ => (sound.owned script).absent missing⟩
    · refine ⟨fun other same => ?_, fun missing => absurd (there.symm.trans missing) (Option.some_ne_none _)⟩
      obtain rfl : now = other := Option.some.inj (there.symm.trans same)
      have runtime := unedited_runtime unedited
      have owner : now.owner = old.owner := congrArg Prod.fst runtime
      have limits : now.limits = old.limits := congrArg Prod.snd runtime
      rw [owner, limits]
      exact (sound.owned script).present old found
  · exact sound.grouped other event ((ran.events other).symm.trans found)

theorem history_sound (peaceful : catalog.Peaceful) (history : List Happening)
    (course : Course ε) (sound : course.Sound start) : (history.foldl (Happening.apply catalog) course).Sound start := by
  induction history generalizing course with
  | nil => exact sound
  | cons happening rest ih =>
    cases happening with
    | life step => exact ih _ (life_sound catalog step sound)
    | fire place arguments => exact ih _ (fire_sound peaceful place arguments sound)

end Course

/-- Nothing was started yet, and the event graphs of a script can be told apart. -/
structure World.Fresh (world : World ε) : Prop extends world.Untouched where
  ownerless : ∀ script, Slot.idle script ∈ world.scripts → script.owner = none
  distinct : ∀ script, Slot.idle script ∈ world.scripts → (script.eventGraphs.map (·.guid)).Nodup

theorem Course.start_sound {world : World ε} (fresh : world.Fresh) : (Course.start world).Sound world := by
  have orderly := World.untouched_orderly fresh.toUntouched
  refine ⟨orderly.numbered, orderly.stands, fun index => ⟨fun script found => ?_, fun _ => rfl⟩, fun place event found => ?_,
    List.nodup_nil, fun _ owned => absurd rfl owned⟩
  · exact ⟨fresh.ownerless script (List.mem_of_getElem? ((World.script_found index world script).mp found)),
    fun owned => absurd rfl owned⟩
  · exact World.untouched_silent fresh.toUntouched found

end Patchbay
