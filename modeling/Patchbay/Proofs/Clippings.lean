import Patchbay.Clipboard
import Patchbay.Proofs.Persistence
import Patchbay.Proofs.Sorting

set_option autoImplicit false

namespace Patchbay

namespace Node

def subject? (locals globals : List Variable) (node : Node) : Option Guid :=
  node.kind.reference?.bind (·.identifier? locals globals)

def resolves (locals globals : List Variable) (node : Node) : Bool :=
  node.kind.reference?.isNone || (node.subject? locals globals).isSome

def relabelled (write : Guid → Reference) (guid : Option Guid) (node : Node) : Node :=
  { node with kind := (guid.map fun guid => node.kind.withReference (write guid)).getD node.kind }

theorem convert_resolved (locals globals : List Variable) (form : ReferenceForm) (write : Guid → Reference)
    (written : form = .byGuid ∧ write = .byGuid ∨ form = .live ∧ write = .live) (node : Node) :
    node.convertVariable? locals globals form =
      if node.resolves locals globals then some (node.relabelled write (node.subject? locals globals)) else none := by
  unfold convertVariable?
  cases named : node.kind.reference? with
  | none => simp only [resolves, subject?, named, Option.isNone_none, Bool.true_or, if_true, Option.bind_none, relabelled,
      Option.map_none, Option.getD_none]
  | some reference =>
    dsimp only
    rw [reference.convert_identifier locals globals form write written]
    cases found : reference.identifier? locals globals <;> simp [resolves, subject?, named, found, relabelled]

theorem with_reference (kind : NodeKind) (reference : Reference) :
    (kind.withReference reference).reference? = kind.reference?.map fun _ => reference := by
  cases kind <;> rfl

theorem with_reference_again (kind : NodeKind) (first second : Reference) :
    (kind.withReference first).withReference second = kind.withReference second := by
  cases kind <;> rfl

theorem relabelled_reference {locals globals : List Variable} (write : Guid → Reference) (node : Node)
    (resolves : node.resolves locals globals = true) :
    (node.relabelled write (node.subject? locals globals)).kind.reference? = (node.subject? locals globals).map write := by
  unfold relabelled
  cases found : node.subject? locals globals with
  | some guid =>
    obtain ⟨reference, named, _⟩ := Option.bind_eq_some_iff.mp found
    exact (with_reference node.kind (write guid)).trans (by rw [named]; rfl)
  | none =>
    rw [Node.resolves, found, Option.isSome_none, Bool.or_false] at resolves
    exact Option.isNone_iff_eq_none.mp resolves

end Node

theorem kept_filtered (convert : Node → Option Node) (passes : Node → Bool) (change : Node → Node) (pairs : List (Nat × Node))
    (each : ∀ entry ∈ pairs, convert entry.2 = if passes entry.2 then some (change entry.2) else none) :
    keepResolved convert pairs = (pairs.filter fun entry => passes entry.2).map fun entry => (entry.1, change entry.2) := by
  induction pairs with
  | nil => rfl
  | cons entry pairs ih =>
    obtain ⟨first, later⟩ := List.forall_mem_cons.mp each
    have rest := ih later
    unfold keepResolved at rest ⊢
    by_cases passed : passes entry.2 = true
    · simp [first, passed, rest]
    · simp [first, passed, rest]

theorem increasing_above {numbers : List Nat} (increasing : numbers.Pairwise (· < ·)) {place : Nat} (number : Nat)
    (found : numbers[place]? = some number) : place ≤ number := by
  induction place generalizing number with
  | zero => exact Nat.zero_le number
  | succ place ih =>
    obtain ⟨inside, rfl⟩ := List.getElem?_eq_some_iff.mp found
    have before := ih _ (List.getElem?_eq_getElem (Nat.lt_of_succ_lt inside))
    exact Nat.lt_of_le_of_lt before (List.pairwise_iff_getElem.mp increasing place (place + 1) _ inside (Nat.lt_succ_self place))

theorem renumbering_iff (base : Nat) {indices : List Nat} (distinct : indices.Nodup) (index place : Nat) :
    renumbering base indices index = some place ↔ ∃ position, indices[position]? = some index ∧ place = base + position := by
  constructor
  · intro renamed
    obtain ⟨position, first, rfl⟩ := Option.map_eq_some_iff.mp renamed
    obtain ⟨inside, here, _⟩ := List.findIdx?_eq_some_iff_getElem.mp first
    exact ⟨position, by rw [List.getElem?_eq_getElem inside, beq_iff_eq.mp here], rfl⟩
  · rintro ⟨position, found, rfl⟩
    obtain ⟨inside, here⟩ := List.getElem?_eq_some_iff.mp found
    refine Option.map_eq_some_iff.mpr ⟨position, List.findIdx?_eq_some_iff_getElem.mpr ⟨inside, beq_iff_eq.mpr here, ?_⟩, rfl⟩
    intro earlier below same
    have twice := (List.Nodup.getElem_inj_iff distinct).mp ((beq_iff_eq.mp same).trans here.symm)
    omega

namespace Node

theorem rewire_values (rename : Nat → Option Nat) (node : Node) : (node.rewire rename).values = node.values := by
  rw [← node.renumber_values rename]
  have literals : (node.rewire rename).inputs.map (·.literal) = (node.renumber rename).inputs.map (·.literal) := by
    rw [rewire, List.map_map]
    rfl
  rw [values, values, literals]
  rfl

theorem rewire_representable (rename : Nat → Option Nat) (shrinks : ∀ index place, rename index = some place → place ≤ index)
    {node : Node} (representable : node.Representable) : (node.rewire rename).Representable := by
  have moved := node.renumber_representable rename shrinks representable
  refine ⟨?_, fun pin inside => ?_, moved.targets⟩
  · rw [rewire_values]
    exact representable.ordered
  · obtain ⟨old, there, rfl⟩ := List.mem_map.mp inside
    exact moved.sources old there

end Node

namespace Graph

variable (selection : List Nat) (globals : List Variable) (graph : Graph)

/-- The indices of the nodes that go into a copy: those of the chosen nodes that exist, may be copied and work with no
variable that is gone. -/
def copied : List Nat :=
  (List.range graph.nodes.length).filter fun index => selection.contains index &&
    (graph.nodes[index]?).any fun node => node.isCopyable && node.resolves graph.locals globals

def originals : List (Nat × Node) := (graph.selectable selection).filter fun entry => entry.2.resolves graph.locals globals

theorem original_found {entry : Nat × Node} (inside : entry ∈ graph.originals selection globals) :
    graph.nodes[entry.1]? = some entry.2 ∧ entry.2.resolves graph.locals globals = true := by
  obtain ⟨there, resolves⟩ := List.mem_filter.mp inside
  exact ⟨selectable_origin selection graph entry there, resolves⟩

/-- To choose nodes and to bring the choice in order comes to the same as to look through all nodes. -/
theorem selectable_scanned : graph.selectable selection =
    ((List.range graph.nodes.length).filter fun index =>
      selection.contains index && (graph.nodes[index]?).any Node.isCopyable).filterMap
        fun index => (graph.nodes[index]?).map (index, ·) := by
  have ordered := erase_reps_increasing
    (sorted_ordered (selection.filter fun index => (graph.nodes[index]?).any Node.isCopyable))
  have scanned : ((List.range graph.nodes.length).filter fun index =>
      selection.contains index && (graph.nodes[index]?).any Node.isCopyable).Pairwise (· < ·) :=
    List.Pairwise.filter _ List.pairwise_lt_range
  have distinct {indices : List Nat} (increasing : indices.Pairwise (· < ·)) : indices.Nodup := increasing.imp Nat.ne_of_lt
  refine congrArg (List.filterMap _) (increasing_unique ordered scanned ?_)
  refine (List.perm_ext_iff_of_nodup (distinct ordered) (distinct scanned)).mpr fun index => ?_
  rw [erase_reps_mem, (sorted_perm _).mem_iff, List.mem_filter, List.mem_filter, List.mem_range, Bool.and_eq_true,
    List.contains_iff_mem]
  refine ⟨fun picked => ⟨?_, picked⟩, And.right⟩
  cases found : graph.nodes[index]? with
  | none => rw [found] at picked; cases picked.2
  | some node => exact (List.getElem?_eq_some_iff.mp found).1

theorem original_indices : (graph.originals selection globals).map (·.1) = graph.copied selection globals := by
  rw [originals, selectable_scanned, List.filter_filterMap, List.map_filterMap, copied, ← List.filterMap_eq_filter,
    ← List.filterMap_eq_filter, List.filterMap_filterMap]
  refine List.filterMap_congr fun index _ => ?_
  cases found : graph.nodes[index]? with
  | none => simp [found, Option.guard]
  | some node =>
    by_cases picked : selection.contains index = true <;> by_cases copyable : node.isCopyable = true <;>
      by_cases resolves : node.resolves graph.locals globals = true <;>
      simp_all [Option.guard, Option.filter]

theorem copied_increasing : (graph.copied selection globals).Pairwise (· < ·) :=
  List.Pairwise.filter _ List.pairwise_lt_range

theorem copied_distinct : (graph.copied selection globals).Nodup := List.nodup_range.filter _

theorem copied_nodes : graph.copiedNodes selection globals = (graph.originals selection globals).map fun entry =>
    (entry.2.relabelled .byGuid (entry.2.subject? graph.locals globals)).rewire
      (renumbering 0 (graph.copied selection globals)) := by
  have kept := kept_filtered (·.convertVariable? graph.locals globals .byGuid) (·.resolves graph.locals globals)
    (fun node => node.relabelled .byGuid (node.subject? graph.locals globals)) (graph.selectable selection)
    fun entry _ => entry.2.convert_resolved graph.locals globals .byGuid .byGuid (.inl ⟨rfl, rfl⟩)
  rw [copiedNodes, kept, List.map_map, List.map_map, ← original_indices]
  rfl

theorem copied_storable (representable : ∀ node ∈ graph.nodes, node.Representable) :
    ∀ node ∈ graph.copiedNodes selection globals, node.Storable := by
  intro node inside
  rw [copied_nodes] at inside
  obtain ⟨entry, there, rfl⟩ := List.mem_map.mp inside
  obtain ⟨found, resolves⟩ := graph.original_found selection globals there
  have whole := representable entry.2 (List.mem_of_getElem? found)
  refine ⟨Node.rewire_representable _ (fun index place renamed => ?_) ⟨whole.ordered, whole.sources, whole.targets⟩,
    fun reference named => ?_⟩
  · obtain ⟨position, here, rfl⟩ := (renumbering_iff 0 (graph.copied_distinct selection globals) index place).mp renamed
    rw [Nat.zero_add]
    exact increasing_above (graph.copied_increasing selection globals) index here
  · have labels := (entry.2.relabelled_reference .byGuid resolves).symm.trans named
    obtain ⟨guid, _, rfl⟩ := Option.map_eq_some_iff.mp labels
    exact .inr ⟨guid, rfl⟩

theorem copied_finite (finite : ∀ node ∈ graph.nodes, node.finite = true) :
    (graph.copiedNodes selection globals).all Node.finite = true := by
  refine List.all_eq_true.mpr fun node inside => ?_
  rw [copied_nodes] at inside
  obtain ⟨entry, there, rfl⟩ := List.mem_map.mp inside
  have before := finite entry.2 (List.mem_of_getElem? (graph.original_found selection globals there).1)
  rw [Node.finite, Node.rewire_values]
  exact before

def clipping (near : Float → Float) (nearSingle : Float32 → Float32) (node : Node) : Node :=
  (((node.relabelled .byGuid (node.subject? graph.locals globals)).rewire (renumbering 0 (graph.copied selection globals))).rounded
    near nearSingle).reset

/-- The document of the nodes is not nested too deep to be read, and its numbers are read as numbers. -/
def clipboardReadable (nodes : List Node) : Bool :=
  (clipboardDocument? nodes).all fun document =>
    document.legible Document.ofNumeral .near && decide (document.depth ≤ Document.maxNesting)

theorem clipboard_survives (nodes : List Node) (readable : clipboardReadable nodes = true) (document : Document)
    (written : clipboardDocument? nodes = some document) :
    document.Survives Document.compact Document.parse? (reread Document.ofNumeral) (rereadSingle Document.ofNumeral) := by
  rw [clipboardReadable, written] at readable
  obtain ⟨legible, shallow⟩ := Bool.and_eq_true_iff.mp readable
  exact ⟨_, Echo.spelled_near Document.ofNumeral, Document.Layout.dense.parse_printed legible (of_decide_eq_true shallow)⟩

variable {write : Document → String} {read : String → Option Document} {near : Float → Float}
  {nearSingle : Float32 → Float32}

theorem clipboard_read (nodes : List Node) (storable : ∀ node ∈ nodes, node.Storable) (finite : nodes.all Node.finite = true)
    (survives : ∀ document, clipboardDocument? nodes = some document → document.Survives write read near nearSingle) :
    ∃ document, clipboardDocument? nodes = some document ∧ clipboardNodes? read (write document) =
      some (nodes.map fun node => (node.rounded near nearSingle).reset) := by
  have comes {numbers : Echo} {near : Float → Float} {nearSingle : Float32 → Float32}
      (faithful : numbers.Faithful near nearSingle) := Document.written_list numbers Node.ofDocument? Node.toDocument?
    Node.finite (fun node => (node.rounded near nearSingle).reset) nodes
    fun node inside => node_echo faithful .json (storable node inside)
  obtain ⟨documents, written, _⟩ := comes Echo.plain_faithful
  have whole : clipboardDocument? nodes = some (.object [("nodes", .array documents)]) := by
    rw [clipboardDocument?, written]
    rfl
  obtain ⟨numbers, faithful, back⟩ := survives _ whole
  obtain ⟨others, again, comes⟩ := comes faithful
  cases written.symm.trans again
  have listed := comes.read
  rw [if_pos finite] at listed
  refine ⟨_, whole, ?_⟩
  rw [clipboardNodes?, Document.bind_found back]
  exact (field_found "nodes" _ _).trans listed

theorem copy_read (representable : ∀ node ∈ graph.nodes, node.Representable) (finite : ∀ node ∈ graph.nodes, node.finite = true)
    (survives : ∀ document, clipboardDocument? (graph.copiedNodes selection globals) = some document →
      document.Survives write read near nearSingle) :
    ∃ text, graph.copyNodesWith write selection globals = .ok text ∧
      clipboardNodes? read text = some ((graph.originals selection globals).map fun entry =>
        graph.clipping selection globals near nearSingle entry.2) := by
  obtain ⟨document, written, listed⟩ := clipboard_read (graph.copiedNodes selection globals)
    (graph.copied_storable selection globals representable) (graph.copied_finite selection globals finite) survives
  refine ⟨write document, by rw [copyNodesWith, written], listed.trans ?_⟩
  rw [copied_nodes, List.map_map]
  rfl

end Graph

end Patchbay
