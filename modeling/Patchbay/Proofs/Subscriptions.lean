import Patchbay.Proofs.Places
import Patchbay.Proofs.Snapshots

set_option autoImplicit false

namespace Patchbay

variable {ε : Type}

/-- What an event graph is for the events: the one that it waits for, and the one that it is subscribed to. -/
structure Post where
  guid : Guid
  event : Except ScriptError (String × Option Guid)
  subscription : Option Subscription

def EventGraph.post (graph : EventGraph) : Post := ⟨graph.guid, graph.event, graph.subscription⟩

def Script.posts (script : Script) : List Post := script.eventGraphs.map (·.post)

namespace Post

def loose (post : Post) : Post := { post with subscription := none }

def handlerAt? (script : Nat) (place : EventPlace) (post : Post) : Option (Nat × Binding) :=
  match post.subscription with
  | some subscription => if subscription.place = place then some (subscription.id, ⟨script, post.guid⟩) else none
  | none => none

def awaits (place : EventPlace) (post : Post) : Bool :=
  match post.event with
  | .ok (name, component) => name == place.name && component == place.component
  | .error _ => false

/-- Without an owner there is no subscription. With one there is one, to the event of the owner that the graph waits for. -/
def Kept (post : Post) : Option Nat → Prop
  | none => post.subscription = none
  | some entity => ∃ name component id,
      post.event = .ok (name, component) ∧ post.subscription = some ⟨entity, component, name, id⟩

end Post

def boundAt (script : Nat) (place : EventPlace) (posts : List Post) : List (Nat × Binding) :=
  posts.filterMap (·.handlerAt? script place)

def awaiting (script : Nat) (place : EventPlace) (posts : List Post) : List Binding :=
  (posts.filter (·.awaits place)).map fun post => ⟨script, post.guid⟩

theorem awaiting_loose (script : Nat) (place : EventPlace) (posts : List Post) :
    awaiting script place (posts.map Post.loose) = awaiting script place posts := by
  unfold awaiting
  rw [List.filter_map, List.map_map]
  rfl

theorem bound_without_owner (script : Nat) (place : EventPlace) (posts : List Post) (kept : ∀ post ∈ posts, post.Kept none) :
    boundAt script place posts = [] := by
  refine List.filterMap_eq_nil_iff.mpr fun post member => ?_
  have loose : post.subscription = none := kept post member
  simp only [Post.handlerAt?, loose]

theorem kept_handler (script : Nat) {entity : Nat} (place : EventPlace) {post : Post} (kept : post.Kept (some entity)) :
    (post.handlerAt? script place).map (·.2) =
      if entity = place.entity ∧ post.awaits place = true then some ⟨script, post.guid⟩ else none := by
  obtain ⟨name, component, id, event, subscription⟩ := kept
  have meant : (⟨entity, component, name⟩ : EventPlace) = place ↔ entity = place.entity ∧ post.awaits place = true := by
    obtain ⟨wanted, scope, label⟩ := place
    simp [Post.awaits, event, and_comm]
  simp only [Post.handlerAt?, subscription, Subscription.place, ← meant]
  by_cases here : (⟨entity, component, name⟩ : EventPlace) = place <;> simp [here]

theorem bound_with_owner (script entity : Nat) (place : EventPlace) (posts : List Post)
    (kept : ∀ post ∈ posts, post.Kept (some entity)) :
    (boundAt script place posts).map (·.2) = if entity = place.entity then awaiting script place posts else [] := by
  induction posts with
  | nil => simp [boundAt, awaiting]
  | cons post rest ih =>
    have here := kept_handler script place (kept post List.mem_cons_self)
    have later := ih fun post member => kept post (List.mem_cons_of_mem _ member)
    by_cases bound : entity = place.entity ∧ post.awaits place = true
    · rw [if_pos bound] at here
      obtain ⟨handler, found, same⟩ := Option.map_eq_some_iff.mp here
      rw [if_pos bound.1] at later ⊢
      simpa [boundAt, awaiting, found, bound.2, same] using later
    · rw [if_neg bound] at here
      have absent : post.handlerAt? script place = none := Option.map_eq_none_iff.mp here
      by_cases owner : entity = place.entity
      · have unawaited : post.awaits place = false := by simpa [owner] using bound
        rw [if_pos owner] at later ⊢
        simpa [boundAt, awaiting, absent, unawaited] using later
      · rw [if_neg owner] at later ⊢
        simpa [boundAt, absent] using later

/-! Compilation changes the bases of the nodes and the slots of their inputs, and whatever else can be seen of a node stays,
whether it succeeds or not. -/

section Compiled

variable {β : Type} (view : Node → β) (placed : ∀ (node : Node) (base : Nat), view { node with base := base } = view node)

include placed in
theorem assign_bases_view (next : Nat) (nodes : List Node) : (assignBases next nodes).1.map view = nodes.map view := by
  induction nodes generalizing next with
  | nil => rfl
  | cons node rest ih => simp [assignBases, ih, placed]

variable (resolved : ∀ (nodes : List Node) (index : Nat) (node : Node),
  view { node with inputs := (resolveInputs nodes index node.inputs).1 } = view node)

include resolved in
theorem resolve_nodes_view (nodes : List Node) (index : Nat) (list : List Node) :
    (resolveNodes nodes index list).1.map view = list.map view := by
  induction list generalizing index with
  | nil => rfl
  | cons node rest ih =>
    have first := resolved nodes index node
    simp only [resolveNodes]
    split
    · rw [List.map_cons, List.map_cons, first]
    · split
      · rw [List.map_cons, List.map_cons, first]
      · rw [List.map_cons, List.map_cons, first, ih]

include placed resolved in
theorem compile_view (graph : Graph) : graph.compile.2.nodes.map view = graph.nodes.map view := by
  have views := (resolve_nodes_view view resolved (assignBases graph.locals.length graph.nodes).1 0 _).trans
    (assign_bases_view view placed graph.locals.length graph.nodes)
  simp only [Graph.compile]
  split <;> rename_i outcome <;> rw [outcome] at views <;> exact views

end Compiled

theorem compile_kinds (graph : Graph) : graph.compile.2.nodes.map (·.kind) = graph.nodes.map (·.kind) :=
  compile_view (·.kind) (fun _ _ => rfl) (fun _ _ _ => rfl) graph

theorem event_of_kinds (a b : EventGraph) (same : a.graph.nodes.map (·.kind) = b.graph.nodes.map (·.kind)) :
    a.event = b.event := by
  have first : (a.graph.nodes[receiveNode]?).map (·.kind) = (b.graph.nodes[receiveNode]?).map (·.kind) := by
    rw [← List.getElem?_map, ← List.getElem?_map, same]
  unfold EventGraph.event
  cases left : a.graph.nodes[receiveNode]? <;> cases right : b.graph.nodes[receiveNode]? <;> simp_all

theorem compile_event_post (graph : EventGraph) : (Script.compileEvent graph).2.post = graph.post := by
  have same := event_of_kinds (Script.compileEvent graph).2 graph (compile_kinds graph.graph)
  simp only [EventGraph.post, same]
  rfl

theorem compile_graphs_view {α β : Type} (view : α → β) (compile : α → Except ScriptError Unit × α)
    (same : ∀ item, view (compile item).2 = view item) (items : List α) :
    (Script.compileGraphs compile items).2.map view = items.map view := by
  induction items with
  | nil => rfl
  | cons item rest ih =>
    have first := same item
    unfold Script.compileGraphs
    split <;> rename_i compiled <;> rw [compiled] at first
    · simp [first]
    · simp [first, ih]

theorem compile_all_parts {α β γ : Type} (event : EventGraph → α) (interface : InterfaceFunction → β) (function : Function → γ)
    (sameEvent : ∀ graph, event (Script.compileEvent graph).2 = event graph)
    (sameInterface : ∀ provided, interface (Script.compileInterface provided).2 = interface provided)
    (sameFunction : ∀ own, function (Script.compileFunction own).2 = function own) (script : Script) :
    ∃ events interfaces functions,
      script.compileAll.2 = { script with eventGraphs := events, interfaceFunctions := interfaces, functions := functions } ∧
      events.map event = script.eventGraphs.map event ∧
      interfaces.map interface = script.interfaceFunctions.map interface ∧
      functions.map function = script.functions.map function := by
  -- A compilation goes as far as it can. Where it stops, the graphs behind are as they were.
  have events := compile_graphs_view event Script.compileEvent sameEvent script.eventGraphs
  have interfaces := compile_graphs_view interface Script.compileInterface sameInterface script.interfaceFunctions
  have functions := compile_graphs_view function Script.compileFunction sameFunction script.functions
  unfold Script.compileAll
  split <;> rename_i compiled <;> rw [compiled] at events
  · exact ⟨_, _, _, rfl, events, rfl, rfl⟩
  · dsimp only
    split <;> rename_i compiled <;> rw [compiled] at interfaces
    · exact ⟨_, _, _, rfl, events, interfaces, rfl⟩
    · exact ⟨_, _, _, rfl, events, interfaces, functions⟩

theorem compile_all_posts (script : Script) : script.compileAll.2.posts = script.posts := by
  obtain ⟨_, _, _, same, events, _⟩ := compile_all_parts (·.post) (fun _ => ()) (fun _ => ()) compile_event_post (fun _ => rfl)
    (fun _ => rfl) script
  rw [same]
  exact events

def Event.handlersOf (script : Nat) (event : Event Binding) : List (Nat × Binding) :=
  event.handlers.filter (·.2.script == script)

def Event.foreign (script : Nat) (event : Event Binding) : List (Nat × Binding) :=
  event.handlers.filter (·.2.script != script)

def Event.Last (script : Nat) (event : Event Binding) : Prop :=
  event.handlers = event.foreign script ++ event.handlersOf script

variable (event : Event Binding) (binding : Binding)

theorem Event.foreign_handlers {script other : Nat} (apart : other ≠ script) :
    event.handlersOf other = (event.foreign script).filter (·.2.script == other) := by
  rw [Event.foreign, List.filter_filter, Event.handlersOf]
  refine List.filter_congr fun entry _ => ?_
  by_cases own : entry.2.script = other <;> simp [own, apart]

theorem Event.last_of_none {script : Nat} (none : event.handlersOf script = []) : event.Last script := by
  rw [Event.Last, none, List.append_nil, Event.foreign]
  refine (List.filter_eq_self.mpr fun entry member => ?_).symm
  simpa using List.filter_eq_nil_iff.mp none entry member

theorem Event.subscribe_handlers :
    (event.subscribe binding).2.handlersOf binding.script = event.handlersOf binding.script ++ [(event.nextId, binding)] := by
  simp [Event.subscribe, Event.handlersOf]

theorem Event.subscribe_foreign :
    (event.subscribe binding).2.foreign binding.script = event.foreign binding.script := by
  simp [Event.subscribe, Event.foreign]

theorem Event.subscribe_last (last : event.Last binding.script) :
    (event.subscribe binding).2.Last binding.script := by
  rw [Event.Last, Event.subscribe_handlers, Event.subscribe_foreign, ← List.append_assoc, ← last]
  rfl

theorem Event.unsubscribe_last (id script : Nat) (last : event.Last script) :
    (event.unsubscribe id).2.Last script := by
  have kept := congrArg (List.filter (·.1 != id)) last
  rw [List.filter_append, Event.foreign, Event.handlersOf, List.filter_filter, List.filter_filter] at kept
  simp only [Event.Last, Event.foreign, Event.handlersOf, Event.unsubscribe, List.filter_filter, Bool.and_comm] at kept ⊢
  exact kept

/-- The number of a script's first handler takes away this handler, and none of another script. -/
theorem Event.unsubscribe_first {event : Event Binding} (numbered : event.Numbered) {script id : Nat} {binding : Binding}
    {rest : List (Nat × Binding)} (first : event.handlersOf script = (id, binding) :: rest) :
    (event.unsubscribe id).2.handlersOf script = rest ∧ (event.unsubscribe id).2.foreign script = event.foreign script := by
  obtain ⟨before, after, there, skipped, own, remain⟩ := List.filter_eq_cons_iff.mp first
  rw [Event.unsubscribe_split numbered there]
  constructor
  · have none : before.filter (·.2.script == script) = [] := List.filter_eq_nil_iff.mpr skipped
    simp only [Event.handlersOf, List.filter_append, none, remain, List.nil_append]
  · have own : binding.script = script := by simpa using own
    simp [Event.foreign, there, own]

namespace World

def Numbered (world : World ε) : Prop := ∀ place event, world.eventAt? place = some event → event.Numbered

def Holds (script : Nat) (posts : List Post) (world : World ε) : Prop :=
  ∀ place event, world.eventAt? place = some event → event.handlersOf script = boundAt script place posts

def Last (script : Nat) (world : World ε) : Prop := ∀ place event, world.eventAt? place = some event → event.Last script

/-- What a script may do to the world: its own handlers and its own slot are all that changes. -/
structure Confined (script : Nat) (world after : World ε) : Prop where
  foreign : ∀ place, (after.eventAt? place).map (·.foreign script) = (world.eventAt? place).map (·.foreign script)
  last : world.Last script → after.Last script
  slots : ∀ other, other ≠ script → after.scripts[other]? = world.scripts[other]?
  count : after.scripts.length = world.scripts.length
  numbered : world.Numbered → after.Numbered
  hushed : world.Hushed → after.Hushed

theorem Confined.refl (script : Nat) (world : World ε) : Confined script world world :=
  ⟨fun _ => rfl, id, fun _ _ => rfl, rfl, id, id⟩

variable {script other : Nat} {world after : World ε} {posts : List Post} {graph : EventGraph}

theorem Confined.trans {a b c : World ε} (first : Confined script a b) (second : Confined script b c) :
    Confined script a c :=
  ⟨fun place => (second.foreign place).trans (first.foreign place), second.last ∘ first.last,
    fun other apart => (second.slots other apart).trans (first.slots other apart),
    second.count.trans first.count, second.numbered ∘ first.numbered, second.hushed ∘ first.hushed⟩

theorem Confined.others (confined : Confined script world after) (apart : other ≠ script) (place : EventPlace) :
    (after.eventAt? place).map (·.handlersOf other) = (world.eventAt? place).map (·.handlersOf other) := by
  have same := congrArg (Option.map (List.filter (·.2.script == other))) (confined.foreign place)
  rw [Option.map_map, Option.map_map] at same
  simpa only [Function.comp_def, ← Event.foreign_handlers _ apart] using same

theorem set_slot_confined (script : Nat) (slot : Slot) (world : World ε) : Confined script world (world.setSlot script slot) :=
  ⟨fun _ => rfl, id, fun other apart => by simp [setSlot, Ne.symm apart], by simp [setSlot], id, id⟩

theorem modify_event_confined (script : Nat) (place : EventPlace) (change : Event Binding → Event Binding) (world : World ε)
    (numbered : ∀ event, event.Numbered → (change event).Numbered)
    (last : ∀ event, event.Last script → (change event).Last script)
    (foreign : ∀ event, world.eventAt? place = some event → (change event).foreign script = event.foreign script) :
    Confined script world (world.modifyEventAt place change) := by
  -- What a change of events keeps, it keeps at every place.
  have everywhere (Good : Event Binding → Prop) (kept : ∀ event, Good event → Good (change event))
      (all : ∀ place event, world.eventAt? place = some event → Good event) (wanted : EventPlace) (event : Event Binding)
      (found : (world.modifyEventAt place change).eventAt? wanted = some event) : Good event := by
    rcases modified_event_cases change found with ⟨_, old, there, rfl⟩ | ⟨_, there⟩
    · exact kept old (all place old there)
    · exact all wanted event there
  refine ⟨fun wanted => ?_, everywhere _ last, fun _ _ => rfl, rfl, everywhere _ numbered,
    modify_event_at_hushed place change world⟩
  rw [event_at_modified]
  by_cases same : wanted = place
  · rw [if_pos same, same]
    cases found : world.eventAt? place with
    | none => rfl
    | some event => exact congrArg some (foreign event found)
  · rw [if_neg same]

theorem holds_others (confined : Confined script world after)
    (apart : other ≠ script) (holds : world.Holds other posts) : after.Holds other posts := by
  intro place event found
  have same := confined.others apart place
  rw [found] at same
  obtain ⟨old, there, kept⟩ := Option.map_eq_some_iff.mp same.symm
  exact kept.symm.trans (holds place old there)

theorem holds_append (script : Nat) (done added : List Post) (world : World ε) (holds : world.Holds script done)
    (loose : ∀ post ∈ added, post.Kept none) : world.Holds script (done ++ added) := by
  intro place event found
  have none := bound_without_owner script place added loose
  rw [holds place event found]
  unfold boundAt at none ⊢
  rw [List.filterMap_append, none, List.append_nil]

theorem unsubscribe_releases (script : Nat) (graph : EventGraph) (rest : List Post) (world : World ε) (numbered : world.Numbered)
    (holds : world.Holds script (graph.post :: rest)) :
    (world.unsubscribe graph).1.post = graph.post.loose ∧ (world.unsubscribe graph).2.Holds script rest ∧
      Confined script world (world.unsubscribe graph).2 := by
  cases bound : graph.subscription with
  | none =>
    have still : world.unsubscribe graph = (graph, world) := by simp only [unsubscribe, bound]
    rw [still]
    refine ⟨by simp only [EventGraph.post, Post.loose, bound], fun place event found => ?_, Confined.refl script world⟩
    rw [holds place event found]
    simp [boundAt, Post.handlerAt?, EventGraph.post, bound]
  | some subscription =>
    have released : world.unsubscribe graph =
        ({ graph with subscription := none },
          world.modifyEventAt subscription.place fun event => (event.unsubscribe subscription.id).2) := by
      simp only [unsubscribe, bound]
      rfl
    have first (event : Event Binding) (found : world.eventAt? subscription.place = some event) :
        event.handlersOf script = (subscription.id, ⟨script, graph.guid⟩) :: boundAt script subscription.place rest := by
      rw [holds _ event found]
      simp [boundAt, Post.handlerAt?, EventGraph.post, bound]
    rw [released]
    refine ⟨rfl, fun place event found => ?_, ?_⟩
    · rcases modified_event_cases _ found with ⟨rfl, old, there, rfl⟩ | ⟨elsewhere, there⟩
      · exact (Event.unsubscribe_first (numbered _ old there) (first old there)).1
      · rw [holds place event there]
        simp [boundAt, Post.handlerAt?, EventGraph.post, bound, Ne.symm elsewhere]
    · refine modify_event_confined script _ _ world (fun event => Event.unsubscribe_numbered event _)
        (fun event => Event.unsubscribe_last event _ script) fun event found => ?_
      exact (Event.unsubscribe_first (numbered _ event found) (first event found)).2

theorem unsubscribe_all_releases {graphs : List EventGraph} (world : World ε) (numbered : world.Numbered)
    (holds : world.Holds script (graphs.map (·.post))) :
    (unsubscribeAll graphs world).1.map (·.post) = graphs.map (·.post.loose) ∧
      (unsubscribeAll graphs world).2.Holds script [] ∧ Confined script world (unsubscribeAll graphs world).2 := by
  induction graphs generalizing world with
  | nil => exact ⟨rfl, holds, Confined.refl script world⟩
  | cons graph rest ih =>
    obtain ⟨post, remaining, confined⟩ := unsubscribe_releases script graph _ world numbered holds
    obtain ⟨posts, none, later⟩ := ih (world.unsubscribe graph).2 (confined.numbered numbered) remaining
    refine ⟨?_, none, confined.trans later⟩
    simp only [unsubscribeAll, List.map_cons, post, posts]

theorem find_event_ok {entity : Entity} {name : String} {component : Option Guid}
    (found : findEvent graph entity = .ok (name, component)) :
    graph.event = .ok (name, component) ∧ ∃ event, entity.event? component name = some event := by
  unfold findEvent at found
  cases named : graph.event with
  | error => simp [named, bind, Except.bind] at found
  | ok pair =>
    obtain ⟨label, scope⟩ := pair
    simp only [named, bind, Except.bind] at found
    cases there : entity.event? scope label with
    | none =>
      simp only [there] at found
      repeat' split at found
      all_goals cases found
    | some event =>
      simp only [there] at found
      repeat' split at found
      all_goals cases found
      all_goals exact ⟨rfl, event, there⟩

theorem subscribe_cases (script entity : Nat) (world : World ε) (loose : graph.subscription = none) :
    (∃ cause, world.subscribe script entity graph = (.error cause, graph, world)) ∨
      ∃ name component event, graph.event = .ok (name, component) ∧
        world.eventAt? ⟨entity, component, name⟩ = some event ∧
        world.subscribe script entity graph =
          (.ok (), { graph with subscription := some ⟨entity, component, name, event.nextId⟩ },
            world.modifyEventAt ⟨entity, component, name⟩ fun event => (event.subscribe ⟨script, graph.guid⟩).2) := by
  have still : world.unsubscribe graph = (graph, world) := by simp only [unsubscribe, loose]
  unfold subscribe
  cases owner : world.entity? entity with
  | none => exact .inl ⟨.noOwner, rfl⟩
  | some target =>
    dsimp only
    cases found : findEvent graph target with
    | error cause => exact .inl ⟨cause, rfl⟩
    | ok pair =>
      obtain ⟨name, component⟩ := pair
      obtain ⟨named, event, there⟩ := find_event_ok found
      have at_place : world.eventAt? ⟨entity, component, name⟩ = some event := by
        simp only [eventAt?, owner, Option.bind_some, there]
      refine .inr ⟨name, component, event, named, at_place, ?_⟩
      simp only [still, owner, Option.bind_some, there, Option.map_some, Option.getD_some]
      rfl

theorem subscribe_binds (script entity : Nat) (graph : EventGraph) (done : List Post) (world : World ε)
    (loose : graph.subscription = none) (holds : world.Holds script done) :
    (∃ cause, world.subscribe script entity graph = (.error cause, graph, world)) ∨
      ∃ bound after, world.subscribe script entity graph = (.ok (), bound, after) ∧
        after.Holds script (done ++ [bound.post]) ∧ Confined script world after ∧
        bound.post.loose = graph.post.loose ∧ bound.post.Kept (some entity) := by
  rcases subscribe_cases script entity world loose with refused | ⟨name, component, event, named, there, subscribed⟩
  · exact .inl refused
  · refine .inr ⟨_, _, subscribed, fun place now found => ?_, ?_, rfl, name, component, event.nextId, named, rfl⟩
    · rcases modified_event_cases _ found with ⟨rfl, old, same, rfl⟩ | ⟨elsewhere, same⟩
      · obtain rfl : event = old := Option.some.inj (there.symm.trans same)
        rw [Event.subscribe_handlers event ⟨script, graph.guid⟩, holds _ event there]
        simp [boundAt, Post.handlerAt?, EventGraph.post, Subscription.place]
      · rw [holds place now same]
        simp [boundAt, Post.handlerAt?, EventGraph.post, Subscription.place, Ne.symm elsewhere]
    · exact modify_event_confined script _ _ world (fun event => Event.subscribe_numbered event _)
        (fun event => Event.subscribe_last event ⟨script, graph.guid⟩) fun event _ => Event.subscribe_foreign event
          ⟨script, graph.guid⟩

theorem subscribe_all_binds (entity : Nat) (graphs : List EventGraph) (done : List Post) (world : World ε)
    (loose : ∀ graph ∈ graphs, graph.subscription = none) (holds : world.Holds script done) :
    let after := world.subscribeAll script entity graphs
    after.2.2.Holds script (done ++ after.2.1.map (·.post)) ∧ Confined script world after.2.2 ∧
      after.2.1.map (·.post.loose) = graphs.map (·.post.loose) ∧
      (after.1 = .ok () → ∀ graph ∈ after.2.1, graph.post.Kept (some entity)) := by
  -- The graphs are subscribed in turn. Where one is refused those before it are bound, and the handlers are theirs.
  induction graphs generalizing done world with
  | nil => exact ⟨by simpa [subscribeAll] using holds, Confined.refl script world, rfl, by simp [subscribeAll]⟩
  | cons graph rest ih =>
    intro after
    rcases subscribe_binds script entity graph done world (loose graph List.mem_cons_self) holds with
      ⟨cause, refused⟩ | ⟨bound, next, subscribed, held, confined, named, own⟩
    · have stopped : after = (.error cause, graph :: rest, world) := by simp only [after, subscribeAll, refused]
      rw [stopped]
      refine ⟨?_, Confined.refl script world, rfl, nofun⟩
      refine holds_append script done _ world holds fun post member => ?_
      obtain ⟨unbound, inside, rfl⟩ := List.mem_map.mp member
      exact loose unbound inside
    · obtain ⟨all, later, same, kept⟩ := ih _ next (fun graph member => loose graph (List.mem_cons_of_mem _ member)) held
      have went : after = ((next.subscribeAll script entity rest).1, bound :: (next.subscribeAll script entity rest).2.1,
          (next.subscribeAll script entity rest).2.2) := by
        simp only [after, subscribeAll, subscribed]
      rw [went]
      refine ⟨by simpa using all, confined.trans later, ?_, fun ok graph member => ?_⟩
      · simp only [List.map_cons, named, same]
      · rcases List.mem_cons.mp member with rfl | behind
        · exact own
        · exact kept ok graph behind

/-- How a script stands that was started on an entity or has no owner, against the posts that it began with. -/
structure Settled (original : List Post) (owner : Option Nat) (script : Nat) (posts : List Post) (world : World ε) : Prop where
  holds : world.Holds script posts
  kept : ∀ post ∈ posts, post.Kept owner
  same : posts.map Post.loose = original.map Post.loose

theorem settled_ownerless {original : List Post}
    (settled : world.Settled original none script posts) : world.Holds script [] := by
  intro place event found
  rw [settled.holds place event found]
  exact bound_without_owner script place posts settled.kept

theorem detach_settled (index : Nat) (script : Script) (original : List Post) (world : World ε) (numbered : world.Numbered)
    (holds : world.Holds index script.posts) (same : script.posts.map Post.loose = original.map Post.loose) :
    (world.detach script).2.Settled original none index (world.detach script).1.posts ∧
      Confined index world (world.detach script).2 := by
  obtain ⟨posts, none, confined⟩ := unsubscribe_all_releases world numbered holds
  have loosened : (world.detach script).1.posts = script.posts.map Post.loose := by
    simp only [Script.posts, List.map_map]
    exact posts
  have kept : ∀ post ∈ script.posts.map Post.loose, post.Kept .none := by
    intro post member
    obtain ⟨old, _, rfl⟩ := List.mem_map.mp member
    rfl
  rw [loosened]
  refine ⟨⟨holds_append index [] _ _ none kept, kept, ?_⟩, confined⟩
  rw [← same, List.map_map]
  rfl

def startedOn (entity : Nat) : Except ScriptError Unit → Option Nat
  | .ok () => some entity
  | .error _ => none

def bound (index entity : Nat) (script : Script) (world : World ε) : Except ScriptError Unit × Script × World ε :=
  let stopped := world.detach script
  let after := stopped.2.subscribeAll index entity stopped.1.eventGraphs
  (after.1, { stopped.1 with eventGraphs := after.2.1 }, after.2.2)

theorem attach_cases (index entity : Nat) (limits : Limits) (script : Script) (world : World ε) :
    let held := world.bound index entity script
    (∃ cause, held.1 = .error cause ∧ world.attach index entity limits script = (.error cause, held.2.2.detach held.2.1)) ∨
      (∃ cause final, held.1 = .ok () ∧ held.2.1.compileAll = (.error cause, final) ∧
        world.attach index entity limits script = (.error cause, held.2.2.detach final)) ∨
      ∃ final, held.1 = .ok () ∧ held.2.1.compileAll = (.ok (), final) ∧
        world.attach index entity limits script =
          (.ok (), { final with owner := some entity, limits := some limits }, held.2.2) := by
  intro held
  cases result : held.1 with
  | error cause =>
    refine .inl ⟨cause, rfl, ?_⟩
    dsimp only [held, bound] at result ⊢
    simp only [attach, result]
  | ok done =>
    rcases compiled : held.2.1.compileAll with ⟨outcome, final⟩
    dsimp only [held, bound] at result compiled
    cases outcome with
    | error cause =>
      refine .inr (.inl ⟨cause, final, rfl, rfl, ?_⟩)
      simp only [attach, result, compiled]
      rfl
    | ok done =>
      refine .inr (.inr ⟨final, rfl, rfl, ?_⟩)
      simp only [attach, result, compiled]
      rfl

theorem last_without_handlers (script : Nat) (world : World ε) (bare : world.Holds script []) : world.Last script :=
  fun place event found => event.last_of_none (bare place event found)

theorem attach_settled (index entity : Nat) (limits : Limits) (script : Script) (world : World ε) (numbered : world.Numbered)
    (holds : world.Holds index script.posts) :
    let after := world.attach index entity limits script
    after.2.2.Settled script.posts (startedOn entity after.1) index after.2.1.posts ∧ Confined index world after.2.2 ∧
      after.2.2.Last index := by
  obtain ⟨stopped, first⟩ := detach_settled index script script.posts world numbered holds rfl
  have loose : ∀ graph ∈ (world.detach script).1.eventGraphs, graph.subscription = none :=
    fun graph member => stopped.kept graph.post (List.mem_map_of_mem member)
  obtain ⟨all, second, named, kept⟩ := subscribe_all_binds entity (world.detach script).1.eventGraphs []
    (world.detach script).2 loose (settled_ownerless stopped)
  have confined := first.trans second
  have same : (world.bound index entity script).2.1.posts.map Post.loose = script.posts.map Post.loose := by
    rw [← stopped.same]
    simp only [Script.posts, List.map_map]
    exact named
  -- Wherever the start fails, the script has by then the handlers of what is bound, and lets go of them.
  have failed (held : Script) (posts : held.posts = (world.bound index entity script).2.1.posts) :
      ((world.bound index entity script).2.2.detach held).2.Settled script.posts none index
          ((world.bound index entity script).2.2.detach held).1.posts ∧
        Confined index world ((world.bound index entity script).2.2.detach held).2 ∧
        ((world.bound index entity script).2.2.detach held).2.Last index := by
    obtain ⟨settled, third⟩ := detach_settled index held script.posts (world.bound index entity script).2.2
      (confined.numbered numbered) (posts ▸ all) (posts ▸ same)
    exact ⟨settled, confined.trans third, last_without_handlers index _ (settled_ownerless settled)⟩
  have compiled (result : Except ScriptError Unit) (final : Script)
      (done : (world.bound index entity script).2.1.compileAll = (result, final)) :
      final.posts = (world.bound index entity script).2.1.posts := by
    rw [← compile_all_posts (world.bound index entity script).2.1, done]
  obtain ⟨cause, _, refused⟩ | ⟨cause, final, _, done, refused⟩ | ⟨final, bound, done, started⟩ :=
    attach_cases index entity limits script world
  · rw [refused]
    exact failed _ rfl
  · rw [refused]
    exact failed final (compiled _ final done)
  · have posts := compiled _ final done
    rw [started]
    refine ⟨⟨posts ▸ all, fun post member => ?_, posts ▸ same⟩, confined,
      second.last (last_without_handlers index _ (settled_ownerless stopped))⟩
    obtain ⟨graph, inside, rfl⟩ := List.mem_map.mp (posts ▸ member)
    exact kept bound graph inside

end World

end Patchbay
