import Patchbay.World.Lifecycle

set_option autoImplicit false

namespace Patchbay

section

variable {α κ : Type}

def QuietBehind (key : α → κ) (quiet : α → Prop) (items : List α) : Prop :=
  items.Pairwise fun first later => key first = key later → quiet later

theorem all_quiet (key : α → κ) (quiet : α → Prop) (items : List α) (all : ∀ item ∈ items, quiet item) :
    QuietBehind key quiet items :=
  List.pairwise_iff_getElem.mpr fun _ _ _ inside _ _ => all _ (List.getElem_mem inside)

variable [DecidableEq κ]

/-- Entries of a thing and components of an entity are both found by a key, and of several with one key the first counts. -/
def modifyFirst (key : α → κ) (name : κ) (change : α → α) : List α → List α
  | [] => []
  | item :: rest => if key item = name then change item :: rest else item :: modifyFirst key name change rest

theorem modify_first_find (key : α → κ) (name other : κ) (change : α → α) (kept : ∀ item, key (change item) = key item)
    (items : List α) :
    (modifyFirst key name change items).find? (key · == other) =
      if other = name then (items.find? (key · == name)).map change else items.find? (key · == other) := by
  induction items with
  | nil => by_cases same : other = name <;> simp [modifyFirst, same]
  | cons item rest ih =>
    by_cases here : key item = name
    · by_cases same : other = name
      · simp [modifyFirst, here, same, kept]
      · simp [modifyFirst, here, same, kept, Ne.symm same]
    · by_cases same : other = name
      · subst same
        simpa [modifyFirst, here] using ih
      · by_cases there : key item = other
        · simp [modifyFirst, same, there]
        · simpa [modifyFirst, here, same, there] using ih

theorem modify_first_index (key : α → κ) (name : κ) (change : α → α) (items : List α) :
    modifyFirst key name change items =
      match items.findIdx? (key · == name) with
      | some index => items.modify index change
      | none => items := by
  induction items with
  | nil => rfl
  | cons item rest ih =>
    by_cases here : key item = name
    · simp [modifyFirst, List.findIdx?_cons, here]
    · cases found : rest.findIdx? (key · == name) <;> simp [modifyFirst, List.findIdx?_cons, here, ih, found]

variable {items : List α} {item : α}

variable (key : α → κ)

theorem modify_first_mem {name : κ} (change : α → α) (member : item ∈ modifyFirst key name change items) :
    item ∈ items ∨ ∃ old ∈ items, key old = name ∧ change old = item := by
  induction items with
  | nil => simp [modifyFirst] at member
  | cons head rest ih =>
    by_cases here : key head = name
    · rw [modifyFirst, if_pos here] at member
      rcases List.mem_cons.mp member with rfl | later
      · exact .inr ⟨head, List.mem_cons_self, here, rfl⟩
      · exact .inl (List.mem_cons_of_mem head later)
    · rw [modifyFirst, if_neg here] at member
      rcases List.mem_cons.mp member with rfl | later
      · exact .inl List.mem_cons_self
      · rcases ih later with old | ⟨old, inside, named, changed⟩
        · exact .inl (List.mem_cons_of_mem head old)
        · exact .inr ⟨old, List.mem_cons_of_mem head inside, named, changed⟩

theorem modify_first_quiet (quiet : α → Prop) (name : κ) (change : α → α)
    (kept : ∀ item, key (change item) = key item) (behind : QuietBehind key quiet items) :
    QuietBehind key quiet (modifyFirst key name change items) := by
  induction items with
  | nil => exact behind
  | cons item rest ih =>
    obtain ⟨before, behind⟩ := List.pairwise_cons.mp behind
    by_cases here : key item = name
    · rw [modifyFirst, if_pos here]
      exact List.pairwise_cons.mpr ⟨fun later inside => kept item ▸ before later inside, behind⟩
    · rw [modifyFirst, if_neg here]
      refine List.pairwise_cons.mpr ⟨fun later inside same => ?_, ih behind⟩
      rcases modify_first_mem key change inside with old | ⟨old, _, named, rfl⟩
      · exact before later old same
      · exact absurd (same.trans ((kept old).trans named)) here

theorem loud_found (quiet : α → Prop) (behind : QuietBehind key quiet items)
    (member : item ∈ items) (loud : ¬ quiet item) : items.find? (key · == key item) = some item := by
  induction items with
  | nil => simp at member
  | cons head rest ih =>
    obtain ⟨before, behind⟩ := List.pairwise_cons.mp behind
    rcases List.mem_cons.mp member with rfl | later
    · simp
    · have other : key head ≠ key item := fun same => loud (before item later same)
      rw [List.find?_cons_of_neg (by simpa using other)]
      exact ih behind later

end

section

variable {α : Type}

theorem Fields.find_eq (name : String) (fields : Fields α) :
    Fields.find? name fields = (List.find? (·.1 == name) fields).map (·.2) := by
  induction fields with
  | nil => rfl
  | cons entry rest ih => by_cases here : entry.1 = name <;> simp [Fields.find?, here, ih]

theorem Fields.modify_eq (name : String) (change : α → α) (fields : Fields α) :
    Fields.modify name change fields = modifyFirst (·.1) name (fun entry => (entry.1, change entry.2)) fields := by
  induction fields with
  | nil => rfl
  | cons entry rest ih => by_cases here : entry.1 = name <;> simp [Fields.modify, modifyFirst, here, ih]

theorem Fields.find_modify (name other : String) (change : α → α) (fields : Fields α) :
    Fields.find? other (Fields.modify name change fields) =
      if other = name then (Fields.find? name fields).map change else Fields.find? other fields := by
  rw [Fields.modify_eq, Fields.find_eq, Fields.find_eq, Fields.find_eq,
    modify_first_find (·.1) name other (fun entry => (entry.1, change entry.2)) (fun _ => rfl)]
  by_cases same : other = name
  · rw [if_pos same, if_pos same, Option.map_map, Option.map_map]
    rfl
  · rw [if_neg same, if_neg same]

end

namespace Entity

theorem modify_component (guid : Guid) (change : Thing → Thing) (entity : Entity) :
    entity.modifyScope (some guid) change =
      { entity with components := modifyFirst (·.guid) guid change entity.components } := by
  rw [modify_first_index]
  simp only [modifyScope, componentIndex?]
  cases entity.components.findIdx? (·.guid == guid) <;> rfl

theorem scope_modified (component other : Option Guid) (change : Thing → Thing) (kept : ∀ thing, (change thing).guid = thing.guid)
    (entity : Entity) :
    (entity.modifyScope component change).scope? other =
      if other = component then (entity.scope? component).map change else entity.scope? other := by
  cases component with
  | none => cases other <;> rfl
  | some guid =>
    rw [modify_component]
    cases other with
    | none => rfl
    | some other =>
      have found := modify_first_find (·.guid) guid other change kept entity.components
      simpa [scope?, component?] using found

theorem event_modified (component other : Option Guid) (name wanted : String) (change : Event Binding → Event Binding)
    (entity : Entity) :
    (entity.modifyEvent component name change).event? other wanted =
      if other = component ∧ wanted = name then (entity.event? component name).map change
      else entity.event? other wanted := by
  unfold event? modifyEvent
  rw [scope_modified component other (·.modifyEvent name change) (fun _ => rfl) entity]
  by_cases scope : other = component
  · subst scope
    rw [if_pos rfl]
    cases entity.scope? other with
    | none => by_cases same : wanted = name <;> simp [same]
    | some => simp [Thing.modifyEvent, Fields.find_modify]
  · simp [scope]

/-- The entity and its components, each with the scope that it is for scripts. -/
def scopes (entity : Entity) : List (Option Guid × Thing) :=
  (none, entity.self) :: entity.components.map fun thing => (some thing.guid, thing)

end Entity

def Thing.Silent (thing : Thing) : Prop := ∀ entry ∈ thing.events, entry.2.handlers = []

def Thing.Hushed (thing : Thing) : Prop := QuietBehind (·.1) (·.2.handlers = []) thing.events

/-- Events that scripts cannot find, behind others of the same name or scope, have no handlers. -/
structure Entity.Hushed (entity : Entity) : Prop where
  self : entity.self.Hushed
  things : ∀ thing ∈ entity.components, thing.Hushed
  components : QuietBehind (·.guid) Thing.Silent entity.components

theorem Thing.modify_event_hushed (name : String) (change : Event Binding → Event Binding) {thing : Thing}
    (hushed : thing.Hushed) : (thing.modifyEvent name change).Hushed := by
  unfold Thing.Hushed Thing.modifyEvent
  rw [Fields.modify_eq]
  exact modify_first_quiet _ _ name (fun entry => (entry.1, change entry.2)) (fun _ => rfl) hushed

namespace Entity

variable {entity : Entity}

theorem modify_event_hushed (component : Option Guid) (name : String) (change : Event Binding → Event Binding)
    (hushed : entity.Hushed) : (entity.modifyEvent component name change).Hushed := by
  cases component with
  | none => exact ⟨Thing.modify_event_hushed name change hushed.self, hushed.things, hushed.components⟩
  | some guid =>
    unfold modifyEvent
    rw [modify_component]
    refine ⟨hushed.self, fun thing member => ?_, ?_⟩
    · rcases modify_first_mem _ _ member with old | ⟨old, inside, _, rfl⟩
      · exact hushed.things thing old
      · exact Thing.modify_event_hushed name change (hushed.things old inside)
    · exact modify_first_quiet _ _ guid (·.modifyEvent name change) (fun _ => rfl) hushed.components

theorem event_member {component : Option Guid} {name : String} {event : Event Binding}
    (found : entity.event? component name = some event) :
    ∃ scope ∈ entity.scopes, ∃ entry ∈ scope.2.events, entry.2 = event := by
  have listed (thing : Thing) (named : Fields.find? name thing.events = some event) : ∃ entry ∈ thing.events, entry.2 = event := by
    rw [Fields.find_eq] at named
    obtain ⟨entry, there, same⟩ := Option.map_eq_some_iff.mp named
    exact ⟨entry, List.mem_of_find?_eq_some there, same⟩
  cases component with
  | none => exact ⟨(none, entity.self), List.mem_cons_self, listed entity.self found⟩
  | some guid =>
    unfold event? at found
    split at found
    · rename_i thing scope
      have member : thing ∈ entity.components := List.mem_of_find?_eq_some scope
      exact ⟨(some thing.guid, thing), List.mem_cons_of_mem _ (List.mem_map_of_mem member), listed thing found⟩
    · cases found

theorem silent_hushed (entity : Entity)
    (silent : ∀ scope ∈ entity.scopes, ∀ entry ∈ scope.2.events, entry.2.handlers = []) : entity.Hushed := by
  have component (thing : Thing) (member : thing ∈ entity.components) : thing.Silent :=
    silent (some thing.guid, thing) (List.mem_cons_of_mem _ (List.mem_map_of_mem member))
  refine ⟨all_quiet _ _ _ (silent (none, entity.self) List.mem_cons_self), fun thing member => ?_, all_quiet _ _ _ component⟩
  exact all_quiet _ _ _ (component thing member)

theorem hushed_found (hushed : entity.Hushed) {scope : Option Guid × Thing} (inside : scope ∈ entity.scopes)
    {entry : String × Event Binding} (member : entry ∈ scope.2.events) (loud : entry.2.handlers ≠ []) :
    entity.event? scope.1 entry.1 = some entry.2 := by
  have named (thing : Thing) (hushed : thing.Hushed) (member : entry ∈ thing.events) :
      Fields.find? entry.1 thing.events = some entry.2 := by
    have found := loud_found (fun entry : String × Event Binding => entry.1) (·.2.handlers = []) hushed member loud
    rw [Fields.find_eq, found]
    rfl
  rcases List.mem_cons.mp inside with rfl | component
  · exact named entity.self hushed.self member
  · obtain ⟨thing, there, rfl⟩ := List.mem_map.mp component
    have found := loud_found (·.guid) _ hushed.components there (fun silent => loud (silent entry member))
    simp only [event?, scope?, component?, found]
    exact named thing (hushed.things thing there) member

end Entity

structure EventPlace where
  entity : Nat
  component : Option Guid
  name : String
deriving DecidableEq

def Subscription.place (subscription : Subscription) : EventPlace :=
  ⟨subscription.entity, subscription.component, subscription.event⟩

namespace World

variable {ε : Type}

def eventAt? (place : EventPlace) (world : World ε) : Option (Event Binding) :=
  (world.entity? place.entity).bind (·.event? place.component place.name)

def modifyEventAt (place : EventPlace) (change : Event Binding → Event Binding) (world : World ε) : World ε :=
  world.modifyEntity place.entity (·.modifyEvent place.component place.name change)

theorem event_at_modified (place other : EventPlace) (change : Event Binding → Event Binding) (world : World ε) :
    (world.modifyEventAt place change).eventAt? other =
      if other = place then (world.eventAt? place).map change else world.eventAt? other := by
  obtain ⟨index, component, name⟩ := place
  obtain ⟨wanted, scope, label⟩ := other
  simp only [eventAt?, modifyEventAt, modifyEntity, entity?, List.getElem?_modify, EventPlace.mk.injEq]
  by_cases same : wanted = index
  · subst same
    cases world.entities[wanted]? with
    | none => simp
    | some => simp [Entity.event_modified]
  · simp [same, Ne.symm same]

theorem modified_event_cases {place other : EventPlace} (change : Event Binding → Event Binding) {world : World ε}
    {event : Event Binding} (found : (world.modifyEventAt place change).eventAt? other = some event) :
    (other = place ∧ ∃ old, world.eventAt? place = some old ∧ change old = event) ∨
      (other ≠ place ∧ world.eventAt? other = some event) := by
  rw [event_at_modified] at found
  by_cases same : other = place
  · rw [if_pos same] at found
    exact .inl ⟨same, Option.map_eq_some_iff.mp found⟩
  · rw [if_neg same] at found
    exact .inr ⟨same, found⟩

def Hushed (world : World ε) : Prop := ∀ index entity, world.entity? index = some entity → entity.Hushed

theorem modify_event_at_hushed (place : EventPlace) (change : Event Binding → Event Binding) (world : World ε)
    (hushed : world.Hushed) : (world.modifyEventAt place change).Hushed := by
  intro index entity found
  simp only [modifyEventAt, modifyEntity, entity?, List.getElem?_modify] at found
  obtain ⟨old, there, rfl⟩ := Option.map_eq_some_iff.mp found
  by_cases same : place.entity = index
  · rw [if_pos same]
    exact Entity.modify_event_hushed place.component place.name change (hushed index old there)
  · rw [if_neg same]
    exact hushed index old there

end World

end Patchbay
