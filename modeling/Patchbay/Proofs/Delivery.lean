import Patchbay.Proofs.Courses

set_option autoImplicit false

namespace Patchbay

variable {ε : Type}

structure Listener where
  script : Nat
  graph : Nat
deriving DecidableEq

/-- The graphs of a script that an event of its owner is for, with the handlers that it has for them. -/
def Script.audience (place : EventPlace) (index : Nat) (script : Script) : List (Binding × Listener) :=
  if script.owner = some place.entity then
    (script.posts.zipIdx.filter (·.1.awaits place)).map fun entry => (⟨index, entry.1.guid⟩, ⟨index, entry.2⟩)
  else []

theorem Script.audience_bindings (place : EventPlace) (index : Nat) (script : Script) :
    (script.audience place index).map (·.1) =
      if script.owner = some place.entity then awaiting index place script.posts else [] := by
  unfold audience
  split
  · rw [List.map_map, awaiting, ← List.zipIdx_map_fst 0 script.posts, List.filter_map, List.map_map]
    simp only [List.zipIdx_map_fst]
    rfl
  · rfl

theorem Post.awaits_iff (place : EventPlace) (post : Post) : post.awaits place = true ↔ post.event = .ok
    (place.name, place.component) := by
  unfold Post.awaits
  split
  · next name component named =>
      rw [named]
      simp
  · next cause failed =>
      rw [failed]
      simp

theorem Script.audience_iff (place : EventPlace) (index : Nat) (script : Script) (binding : Binding) (listener : Listener) :
    (binding, listener) ∈ script.audience place index ↔ script.owner = some place.entity ∧ listener.script = index ∧
      ∃ post, script.posts[listener.graph]? = some post ∧ post.event = .ok (place.name, place.component) ∧
        binding = ⟨index, post.guid⟩ := by
  unfold audience
  split
  · next owned =>
      simp only [owned, true_and, List.mem_map, List.mem_filter, Post.awaits_iff, Prod.mk.injEq]
      constructor
      · rintro ⟨⟨post, graph⟩, ⟨member, waits⟩, rfl, rfl⟩
        exact ⟨rfl, post, List.mem_zipIdx_iff_getElem?.mp member, waits, rfl⟩
      · rintro ⟨rfl, post, there, waits, rfl⟩
        exact ⟨(post, listener.graph), ⟨List.mem_zipIdx_iff_getElem?.mpr there, waits⟩, rfl, rfl⟩
  · next foreign => simp [foreign]

theorem Script.audience_once (place : EventPlace) (index : Nat) (script : Script) :
    ((script.audience place index).map (·.2)).Nodup := by
  unfold audience
  split
  · have graphs : (script.posts.zipIdx.map (·.2)).Nodup := by
      rw [List.zipIdx_map_snd]
      exact List.nodup_range'
    have kept : ((script.posts.zipIdx.filter (·.1.awaits place)).map (·.2)).Nodup :=
      graphs.sublist (List.filter_sublist.map _)
    have injective : Function.Injective (Listener.mk index) := fun _ _ same => congrArg Listener.graph same
    have made := kept.map injective
    rw [List.map_map] at made ⊢
    exact made
  · exact List.nodup_nil

namespace Course

def audience (place : EventPlace) (course : Course ε) : List (Binding × Listener) :=
  course.order.flatMap fun index => ((course.world.script? index).map (·.audience place index)).getD []

def listeners (place : EventPlace) (course : Course ε) : List Listener := (course.audience place).map (·.2)

variable {place : EventPlace} {start : World ε} {course : Course ε}

theorem audience_member (course : Course ε) {pair : Binding × Listener} (member : pair ∈ course.audience place) :
    ∃ index ∈ course.order, ∃ script, course.world.script? index = some script ∧ pair ∈ script.audience place index := by
  obtain ⟨index, listed, inside⟩ := List.mem_flatMap.mp member
  cases found : course.world.script? index with
  | none =>
    rw [found] at inside
    cases inside
  | some script =>
    rw [found] at inside
    exact ⟨index, listed, script, found, inside⟩

theorem listener_iff (sound : course.Sound start) (place : EventPlace) (listener : Listener) :
    listener ∈ course.listeners place ↔ ∃ script event, course.world.script? listener.script = some script ∧
      script.owner = some place.entity ∧ script.eventGraphs[listener.graph]? = some event ∧
      event.event = .ok (place.name, place.component) := by
  constructor
  · intro member
    obtain ⟨pair, inside, rfl⟩ := List.mem_map.mp member
    obtain ⟨index, _, script, found, heard⟩ := course.audience_member inside
    obtain ⟨owned, same, post, there, waits, _⟩ := (script.audience_iff place index pair.1 pair.2).mp heard
    rw [Script.posts, List.getElem?_map] at there
    obtain ⟨event, at_place, rfl⟩ := Option.map_eq_some_iff.mp there
    exact ⟨script, event, same ▸ found, owned, at_place, waits⟩
  · rintro ⟨script, event, found, owned, at_place, waits⟩
    have known := ((sound.owned listener.script).present script found).1
    have listed := sound.listed listener.script (by rw [← known, owned]; exact Option.some_ne_none _)
    have there : script.posts[listener.graph]? = some event.post := by
      rw [Script.posts, List.getElem?_map, at_place, Option.map_some]
    have heard := (script.audience_iff place listener.script ⟨listener.script, event.guid⟩ listener).mpr
      ⟨owned, rfl, event.post, there, waits, rfl⟩
    refine List.mem_map.mpr ⟨(⟨listener.script, event.guid⟩, listener), List.mem_flatMap.mpr ⟨listener.script, listed, ?_⟩, rfl⟩
    rw [found]
    exact heard

theorem listeners_once (sound : course.Sound start) (place : EventPlace) :
    (course.listeners place).Nodup := by
  rw [listeners, audience, List.map_flatMap]
  refine List.nodup_flatMap.mpr ⟨fun index _ => ?_, sound.once.imp fun {a b} apart => ?_⟩
  · cases course.world.script? index with
    | none => exact List.nodup_nil
    | some script => exact script.audience_once place index
  · have named (index : Nat) (listener : Listener)
        (member : listener ∈ (((course.world.script? index).map (·.audience place index)).getD []).map (·.2)) :
        listener.script = index := by
      obtain ⟨pair, inside, rfl⟩ := List.mem_map.mp member
      cases found : course.world.script? index with
      | none =>
        rw [found] at inside
        cases inside
      | some script =>
        rw [found] at inside
        exact ((script.audience_iff place index pair.1 pair.2).mp inside).2.1
    intro listener first second
    exact apart ((named a listener first).symm.trans (named b listener second))

theorem handlers_audience (sound : course.Sound start)
    {event : Event Binding} (found : course.world.eventAt? place = some event) :
    event.handlers.map (·.2) = (course.audience place).map (·.1) := by
  rw [sound.grouped place event found, audience, List.map_flatMap, List.map_flatMap]
  refine congrArg (List.flatMap · course.order) (funext fun index => ?_)
  rw [World.handlers_of_standing (sound.stands index) found]
  cases there : course.world.script? index with
  | none =>
    rw [(sound.owned index).absent there]
    rfl
  | some script =>
    have settled := World.idle_stands course.world start _ index script there (sound.stands index)
    rw [Option.map_some, Option.getD_some, Script.audience_bindings, ((sound.owned index).present script there).1,
      ← awaiting_loose, ← settled.same, awaiting_loose]

end Course

namespace World

/-- A graph of an idle script is run from its first node, while the script is out of its place. -/
def hear (arguments : List Value) (listener : Listener) (script : Script) (event : EventGraph) (host : Host (World ε))
    (world : World ε) : Except ScriptError Unit × World ε :=
  let ran := event.graph.run host receiveNode arguments (script.env (world.setSlot listener.script .busy))
  let after := { script.absorb ran.2.2 with
    eventGraphs := script.eventGraphs.set listener.graph { event with graph := ran.2.1 } }
  (ran.1.map fun _ => (), ran.2.2.world.setScript listener.script after)

/-- Graphs get the arguments one after the other, whatever comes of those before them. A script that is held is left alone. -/
inductive Delivers (catalog : Catalog (World ε)) (arguments : List Value) :
    List Listener → World ε → List (Except ScriptError Unit) → World ε → Prop where
  | done (world : World ε) : Delivers catalog arguments [] world [] world
  | busy (listener : Listener) (rest : List Listener) (world : World ε) (results : List (Except ScriptError Unit)) (after : World ε)
      (held : world.scripts[listener.script]? = some .busy) (later : Delivers catalog arguments rest world results after) :
      Delivers catalog arguments (listener :: rest) world (.error .busy :: results) after
  | runs (listener : Listener) (rest : List Listener) (world : World ε) (results : List (Except ScriptError Unit)) (after : World ε)
      (script : Script) (event : EventGraph) (host : Host (World ε)) (idle : world.scripts[listener.script]? = some (.idle script))
      (there : script.eventGraphs[listener.graph]? = some event)
      (hosted : script.host (services catalog) (world.setSlot listener.script .busy) = .ok host)
      (later : Delivers catalog arguments rest (world.hear arguments listener script event host).2 results after) :
      Delivers catalog arguments (listener :: rest) world ((world.hear arguments listener script event host).1 :: results) after

/-- What is outside the graphs that are run: events stay, other scripts too, and of a script that runs the other graphs. -/
structure Spared (listeners : List Listener) (before after : World ε) : Prop where
  ran : before.Ran after
  others : ∀ index, (∀ graph, ⟨index, graph⟩ ∉ listeners) → after.scripts[index]? = before.scripts[index]?
  graphs : ∀ index script now, before.script? index = some script → after.script? index = some now →
    ∀ graph, ⟨index, graph⟩ ∉ listeners → now.eventGraphs[graph]? = script.eventGraphs[graph]?

variable {catalog : Catalog (World ε)} {listener : Listener} {world after : World ε} {binding : Binding}

theorem hear_ran (peaceful : catalog.Peaceful) (arguments : List Value)
    {script : Script} {event : EventGraph} {host : Host (World ε)}
    (idle : world.scripts[listener.script]? = some (.idle script)) (there : script.eventGraphs[listener.graph]? = some event)
    (hosted : script.host (services catalog) (world.setSlot listener.script .busy) = .ok host) :
    ∃ after, (∀ graph, graph ≠ listener.graph → after.eventGraphs[graph]? = script.eventGraphs[graph]?) ∧
      (world.hear arguments listener script event host).2.scripts = world.scripts.set listener.script (.idle after) ∧
      world.Ran (world.hear arguments listener script event host).2 := by
  have calm := host_calm peaceful (world.setSlot listener.script .busy) hosted receiveNode arguments event.graph
  have unedited : Unedited script { script.absorb
      (event.graph.run host receiveNode arguments (script.env (world.setSlot listener.script .busy))).2.2 with
      eventGraphs := script.eventGraphs.set listener.graph { event with
        graph := (event.graph.run host receiveNode arguments (script.env (world.setSlot listener.script .busy))).2.1 } } := by
    refine unedited_absorbed (run_left_over host receiveNode arguments event.graph _) ?_ rfl
    refine set_viewed (·.mapGraph Graph.wiped) _ there ?_
    exact congrArg (fun graph => ({ event with graph := graph } : EventGraph))
      (run_with_wiped host (host.limits.maxSteps + 1) receiveNode arguments event.graph _)
  obtain ⟨scripts, ran⟩ := returned_ran unedited idle calm
  exact ⟨_, fun graph other => List.getElem?_set_ne (Ne.symm other), scripts, ran⟩

theorem delivers_spared (peaceful : catalog.Peaceful) {arguments : List Value} {listeners : List Listener}
    {results : List (Except ScriptError Unit)}
    (delivers : Delivers catalog arguments listeners world results after) : Spared listeners world after := by
  induction delivers with
  | done world =>
    refine ⟨.refl world, fun _ _ => rfl, fun index script now found there graph _ => ?_⟩
    rw [Option.some.inj (found.symm.trans there)]
  | busy listener rest world results after held later ih =>
    refine ⟨ih.ran, fun index apart => ih.others index fun graph => (List.not_mem_of_not_mem_cons (apart graph)), ?_⟩
    exact fun index script now found there graph apart => ih.graphs index script now found there graph
      (List.not_mem_of_not_mem_cons apart)
  | runs listener rest world results after script event host idle there hosted later ih =>
    obtain ⟨final, graphs, scripts, ran⟩ := hear_ran peaceful arguments idle there hosted
    refine ⟨ran.trans ih.ran, fun index apart => ?_, fun index old now found placed graph apart => ?_⟩
    · have other : listener.script ≠ index := fun same => apart listener.graph (same ▸ List.mem_cons_self)
      rw [ih.others index fun graph => List.not_mem_of_not_mem_cons (apart graph), scripts, List.getElem?_set_ne other]
    · have rest := List.not_mem_of_not_mem_cons apart
      by_cases same : index = listener.script
      · subst same
        obtain rfl : script = old := Option.some.inj (((script_found _ world script).mpr idle).symm.trans found)
        have placed' : (world.hear arguments listener script event host).2.script? listener.script = some final := by
          rw [script_found, scripts, List.getElem?_set_self (List.getElem?_eq_some_iff.mp idle).1]
        rw [ih.graphs listener.script final now placed' placed graph rest]
        exact graphs graph fun here => apart (here ▸ List.mem_cons_self)
      · have still : (world.hear arguments listener script event host).2.script? index = some old := by
          rw [script_found, scripts, List.getElem?_set_ne (Ne.symm same)]
          exact (script_found index world old).mp found
        exact ih.graphs index old now still placed graph rest

inductive Hears (world : World ε) (binding : Binding) (listener : Listener) : Prop where
  | busy (same : binding.script = listener.script) (held : world.scripts[listener.script]? = some .busy)
  | idle (same : binding.script = listener.script) (script : Script) (post : Post) (awaited : String × Option Guid)
      (idle : world.scripts[listener.script]? = some (.idle script)) (limited : script.limits ≠ none)
      (found : script.posts.findIdx? (·.guid == binding.graph) = some listener.graph)
      (there : script.posts[listener.graph]? = some post) (event : post.event = .ok awaited)

theorem ran_hears {before : World ε} (ran : before.Ran after)
    (hears : before.Hears binding listener) : after.Hears binding listener := by
  have slots := ran.slots listener.script
  generalize placed : after.scripts[listener.script]? = slot at slots
  cases hears with
  | busy same held =>
    rw [held] at slots
    cases slots
    exact .busy same placed
  | idle same script post awaited idle limited found there event =>
    rw [idle] at slots
    cases slots with
    | still => exact .idle same script post awaited placed limited found there event
    | ran _ now unedited =>
      have posts := unedited_posts unedited
      have limits : now.limits = script.limits := congrArg Prod.snd (unedited_runtime unedited)
      exact .idle same now post awaited placed (limits ▸ limited) (posts ▸ found) (posts ▸ there) event

theorem hears_delivered (catalog : Catalog (World ε)) (arguments : List Value) (hears : world.Hears binding listener) :
    (world.scripts[listener.script]? = some .busy ∧ deliver catalog binding arguments world = (.error .busy, world)) ∨
      ∃ script event host, world.scripts[listener.script]? = some (.idle script) ∧
        script.eventGraphs[listener.graph]? = some event ∧
        script.host (services catalog) (world.setSlot listener.script .busy) = .ok host ∧
        deliver catalog binding arguments world = world.hear arguments listener script event host := by
  cases hears with
  | busy same held =>
    refine .inl ⟨held, ?_⟩
    simp only [deliver, withScript, same, held]
  | idle same script post awaited idle limited found there event =>
    obtain ⟨limits, limited⟩ := Option.ne_none_iff_exists'.mp limited
    obtain ⟨host, hosted⟩ := Script.host_limits (services catalog) (world.setSlot listener.script .busy) limited
    rw [Script.posts, List.getElem?_map] at there
    obtain ⟨graph, spot, rfl⟩ := Option.map_eq_some_iff.mp there
    have place : script.eventGraphs.findIdx? (·.guid == binding.graph) = some listener.graph := by
      rw [Script.posts, List.findIdx?_map] at found
      exact found
    have waits : graph.event = .ok awaited := event
    refine .inr ⟨script, graph, host, idle, spot, hosted, ?_⟩
    simp only [deliver, withScript, same, idle, Script.runEventGraphOf, place, Script.runEventGraph, hosted, spot, waits]
    rfl

theorem audience_delivered (peaceful : catalog.Peaceful) (arguments : List Value)
    (audience : List (Binding × Listener)) (world : World ε) (hears : ∀ pair ∈ audience, world.Hears pair.1 pair.2) :
    ∃ results after, Delivers catalog arguments (audience.map (·.2)) world results after ∧
      Event.runAll (deliver catalog) arguments (audience.map (·.1)) world = (Event.firstFailure results, after) := by
  induction audience generalizing world with
  | nil => exact ⟨[], world, .done world, rfl⟩
  | cons pair rest ih =>
    have ran := deliver_ran peaceful pair.1 arguments world
    obtain ⟨results, after, delivers, all⟩ := ih (deliver catalog pair.1 arguments world).2
      fun other member => ran_hears ran (hears other (List.mem_cons_of_mem _ member))
    have both : Event.runAll (deliver catalog) arguments ((pair :: rest).map (·.1)) world =
        (Event.firstFailure ((deliver catalog pair.1 arguments world).1 :: results), after) := by
      simp only [Event.first_failure_cons, List.map_cons, Event.runAll, all]
    obtain ⟨held, delivered⟩ | ⟨script, event, host, idle, there, hosted, delivered⟩ :=
      hears_delivered catalog arguments (hears pair List.mem_cons_self)
    · rw [delivered] at delivers both
      exact ⟨_, after, .busy pair.2 _ world results after held delivers, both⟩
    · rw [delivered] at delivers both
      exact ⟨_, after, .runs pair.2 _ world results after script event host idle there hosted delivers, both⟩

def hold (held : List Nat) (world : World ε) : World ε := held.foldl (fun world index => world.setSlot index .busy) world

theorem hold_slot (held : List Nat) (world : World ε) (index : Nat) :
    (world.hold held).scripts[index]? =
      if index ∈ held then (world.scripts[index]?).map fun _ => .busy else world.scripts[index]? := by
  induction held generalizing world with
  | nil => rfl
  | cons first rest ih =>
    rw [hold, List.foldl_cons]
    refine (ih (world.setSlot first .busy)).trans ?_
    by_cases here : first = index
    · subst here
      have taken : (world.setSlot first .busy).scripts[first]? = (world.scripts[first]?).map fun _ => .busy :=
        List.getElem?_set_self'
      rw [if_pos List.mem_cons_self, taken, Option.map_map]
      exact ite_self _
    · simp [setSlot, List.getElem?_set_ne here, Ne.symm here]

theorem hold_events (held : List Nat) (world : World ε) (place : EventPlace) :
    (world.hold held).eventAt? place = world.eventAt? place := by
  induction held generalizing world with
  | nil => rfl
  | cons first rest ih => exact ih (world.setSlot first .busy)

end World

theorem first_of_distinct {posts : List Post} (distinct : (posts.map (·.guid)).Nodup) {graph : Nat} {post : Post}
    (there : posts[graph]? = some post) : posts.findIdx? (·.guid == post.guid) = some graph := by
  obtain ⟨inside, rfl⟩ := List.getElem?_eq_some_iff.mp there
  refine List.findIdx?_eq_some_iff_getElem.mpr ⟨inside, by simp, fun earlier before same => ?_⟩
  have within : earlier < posts.length := Nat.lt_trans before inside
  have names : (posts.map (·.guid))[earlier]? = (posts.map (·.guid))[graph]? := by simpa [within, inside] using same
  exact Nat.ne_of_lt before ((List.getElem?_inj (by simpa using within) distinct).mp names)

theorem Course.audience_hears {start : World ε} (fresh : start.Fresh) {course : Course ε} (sound : course.Sound start)
    (held : List Nat) {place : EventPlace} {pair : Binding × Listener} (member : pair ∈ course.audience place) :
    (course.world.hold held).Hears pair.1 pair.2 := by
  obtain ⟨index, _, script, found, heard⟩ := course.audience_member member
  obtain ⟨owned, same, post, there, waits, binding⟩ := (script.audience_iff place index pair.1 pair.2).mp heard
  obtain ⟨known, limited⟩ := (sound.owned index).present script found
  have settled := World.idle_stands course.world start _ index script found (sound.stands index)
  have distinct : (script.posts.map (·.guid)).Nodup := by
    have guids := congrArg (List.map Post.guid) settled.same
    rw [List.map_map, List.map_map] at guids
    rw [show script.posts.map (·.guid) = (start.posts index).map (·.guid) from guids]
    cases begun : start.script? index with
    | none => simp [World.posts, begun]
    | some first =>
      have listed := fresh.distinct first (List.mem_of_getElem? ((World.script_found index start first).mp begun))
      simpa [World.posts, begun, Script.posts, Function.comp_def, EventGraph.post] using listed
  have slot := World.hold_slot held course.world index
  rw [(World.script_found index course.world script).mp found] at slot
  have one : pair.1.script = pair.2.script := by rw [binding, same]
  by_cases busy : index ∈ held
  · rw [if_pos busy] at slot
    exact .busy one (same ▸ slot)
  · rw [if_neg busy] at slot
    refine .idle one script post _ (same ▸ slot) (limited (by rw [← known, owned]; exact Option.some_ne_none _)) ?_ there waits
    rw [binding]
    exact first_of_distinct distinct there

/-- Scripts come and go and events are fired, and then an event is fired with as many arguments as it declares while some
scripts are held. Its handlers lead, in the order of subscription, to the graphs that wait for it on their owner, each of them
once. So each of these graphs runs from its first node on the arguments, or is left alone with its script if that is held,
whatever comes of the others. The first error counts, and nothing else runs. -/
theorem events_reach_their_graphs (catalog : Catalog (World ε)) (peaceful : catalog.Peaceful) (start : World ε)
    (fresh : start.Fresh)
    (history : List Happening) (held : List Nat) (place : EventPlace) (event : Event Binding) (arguments : List Value) :
    let course := history.foldl (Happening.apply catalog) (Course.start start)
    let world := course.world.hold held
    course.world.eventAt? place = some event → arguments.length = event.parameters.length →
      event.handlers.map (·.2) = (course.audience place).map (·.1) ∧ (course.listeners place).Nodup ∧
      (∀ listener, listener ∈ course.listeners place ↔ ∃ script graph, course.world.script? listener.script = some script ∧
        script.owner = some place.entity ∧ script.eventGraphs[listener.graph]? = some graph ∧
        graph.event = .ok (place.name, place.component)) ∧
      ∃ results after, World.Delivers catalog arguments (course.listeners place) world results after ∧
        world.fire catalog place.entity place.component place.name arguments = some (Event.firstFailure results, after) ∧
        World.Spared (course.listeners place) world after := by
  intro course world found count
  have sound := Course.history_sound peaceful history (Course.start start) (Course.start_sound fresh)
  have handlers := Course.handlers_audience sound found
  obtain ⟨results, after, delivers, all⟩ := World.audience_delivered peaceful arguments (course.audience place) world
    fun pair member => Course.audience_hears fresh sound held member
  refine ⟨handlers, Course.listeners_once sound place, Course.listener_iff sound place,
    results, after, delivers, ?_, World.delivers_spared peaceful delivers⟩
  have there : (world.entity? place.entity).bind (·.event? place.component place.name) = some event :=
    (World.hold_events held course.world place).trans found
  rw [World.fire, there]
  dsimp only
  rw [Event.invoke, if_neg (not_not_intro count), handlers, all]

def choir : World Unit :=
  ⟨[tower 1], [listener [.fresh ⟨11⟩ "rung" none [], .fresh ⟨12⟩ "rung" none []], listener [.fresh ⟨21⟩ "rung" none []]], ()⟩

/-- The second script starts first and is held when the event is fired again. -/
theorem held_script_is_skipped :
    let history : List Happening := [.life (.start 1 0 .default), .life (.start 0 0 .default), .fire ⟨0, none, "rung"⟩ []]
    let course := history.foldl (Happening.apply Catalog.empty) (Course.start choir)
    let world := course.world.hold [1]
    choir.Fresh ∧ course.listeners ⟨0, none, "rung"⟩ = [⟨1, 0⟩, ⟨0, 0⟩, ⟨0, 1⟩] ∧
      ∃ results after, World.Delivers Catalog.empty [] [⟨1, 0⟩, ⟨0, 0⟩, ⟨0, 1⟩] world results after ∧
        world.fire Catalog.empty 0 none "rung" [] = some (Event.firstFailure results, after) ∧
        Event.firstFailure results = .error .busy := by
  intro history course world
  have fresh : choir.Fresh := by
    have each (script : Script) (member : Slot.idle script ∈ choir.scripts) :
        script.owner = none ∧ (script.eventGraphs.map (·.guid)).Nodup ∧ ∀ graph ∈ script.eventGraphs,
          graph.subscription = none := by
      simp only [choir, listener, List.mem_cons, Slot.idle.injEq, List.not_mem_nil, or_false] at member
      rcases member with rfl | rfl <;> exact ⟨rfl, by decide, by decide⟩
    exact ⟨⟨by decide, fun script member => (each script member).2.2⟩, fun script member => (each script member).1,
      fun script member => (each script member).2.1⟩
  have peaceful : (Catalog.empty : Catalog (World Unit)).Peaceful := by
    intro _ _ found
    cases found
  have listeners : course.listeners ⟨0, none, "rung"⟩ = [⟨1, 0⟩, ⟨0, 0⟩, ⟨0, 1⟩] := by decide +kernel
  obtain ⟨_, _, _, results, after, delivers, fired, _⟩ := events_reach_their_graphs Catalog.empty peaceful choir fresh history [1]
    ⟨0, none, "rung"⟩ _ [] rfl rfl
  refine ⟨fresh, listeners, results, after, listeners ▸ delivers, fired, ?_⟩
  have outcome : (world.fire Catalog.empty 0 none "rung" []).map (·.1) = some (.error .busy) := rfl
  rw [fired] at outcome
  exact Option.some.inj outcome

end Patchbay
