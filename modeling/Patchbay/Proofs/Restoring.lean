import Patchbay.Proofs.Echo
import Patchbay.Storage.Script

set_option autoImplicit false

namespace Patchbay

namespace Fields

variable {α : Type}

theorem insert_above (fields : Fields α) (name : String) (value : α) (above : ∀ entry ∈ fields, entry.1 < name) :
    insert name value fields = fields ++ [(name, value)] := by
  induction fields with
  | nil => rfl
  | cons entry rest ih =>
    obtain ⟨first, others⟩ := List.forall_mem_cons.mp above
    have other : name ≠ entry.1 := by
      rintro rfl
      exact String.lt_irrefl _ first
    rw [insert, if_neg other, if_neg (String.lt_asymm first), ih others, List.cons_append]

theorem of_ordered {fields : List (String × α)} (ordered : (fields.map (·.1)).Pairwise (· < ·)) : ofList fields = fields := by
  have collect : ∀ done rest : List (String × α), ((done ++ rest).map (·.1)).Pairwise (· < ·) →
      rest.foldl (fun fields entry => insert entry.1 entry.2 fields) done = done ++ rest := by
    intro done rest
    induction rest generalizing done with
    | nil => simp
    | cons entry rest ih =>
      intro ordered
      have above : ∀ before ∈ done, before.1 < entry.1 := by
        intro before inside
        rw [List.map_append, List.pairwise_append] at ordered
        exact ordered.2.2 before.1 (List.mem_map_of_mem inside) entry.1 (by simp)
      rw [List.foldl_cons, insert_above done entry.1 entry.2 above, ih _ (by simpa using ordered), List.append_assoc,
        List.singleton_append]
  exact collect [] fields ordered

end Fields

theorem Handle.handle_echo (numbers : Echo) (handle : Handle) : ofDocument? (handle.toDocument.echo numbers) = some handle := by
  have record : Document.record? ["id", "type_id"] (handle.toDocument.echo numbers) =
      some ⟨false, [("id", .ofGuid handle.id), ("type_id", .string handle.typeId)]⟩ := rfl
  rw [ofDocument?, record]
  simp [Record.required, Record.find?, Document.guid_written, Document.string?]

namespace Value

mutual

def finite : Value → Bool
  | .float value => value.isFinite
  | .array items => finiteItems items
  | .object _ fields => finiteFields fields
  | _ => true

def finiteItems : List Value → Bool
  | [] => true
  | item :: rest => item.finite && finiteItems rest

def finiteFields : List (String × Value) → Bool
  | [] => true
  | (_, value) :: rest => value.finite && finiteFields rest

end

mutual

/-- The fields of every object in a value are in increasing order of name. -/
def Ordered : Value → Prop
  | .array items => OrderedItems items
  | .object _ fields => (fields.map (·.1)).Pairwise (· < ·) ∧ OrderedFields fields
  | _ => True

def OrderedItems : List Value → Prop
  | [] => True
  | item :: rest => item.Ordered ∧ OrderedItems rest

def OrderedFields : List (String × Value) → Prop
  | [] => True
  | (_, value) :: rest => value.Ordered ∧ OrderedFields rest

end

mutual

def decideOrdered : (value : Value) → Decidable value.Ordered
  | .array items => decideItems items
  | .object _ fields => @instDecidableAnd _ _ inferInstance (decideFields fields)
  | .null | .bool _ | .int _ | .float _ | .string _ | .handle _ => isTrue trivial

def decideItems : (items : List Value) → Decidable (OrderedItems items)
  | [] => isTrue trivial
  | item :: rest => @instDecidableAnd _ _ item.decideOrdered (decideItems rest)

def decideFields : (fields : List (String × Value)) → Decidable (OrderedFields fields)
  | [] => isTrue trivial
  | (_, value) :: rest => @instDecidableAnd _ _ value.decideOrdered (decideFields rest)

end

instance (value : Value) : Decidable value.Ordered := value.decideOrdered

mutual

/-- A value with another number in place of every float. -/
def rounded (near : Float → Float) : Value → Value
  | .float value => .float (near value)
  | .array items => .array (roundedItems near items)
  | .object typeId fields => .object typeId (roundedFields near fields)
  | value => value

def roundedItems (near : Float → Float) : List Value → List Value
  | [] => []
  | item :: rest => item.rounded near :: roundedItems near rest

def roundedFields (near : Float → Float) : List (String × Value) → List (String × Value)
  | [] => []
  | (name, value) :: rest => (name, value.rounded near) :: roundedFields near rest

end

theorem rounded_names (near : Float → Float) (fields : List (String × Value)) :
    (roundedFields near fields).map (·.1) = fields.map (·.1) := by
  induction fields with
  | nil => rfl
  | cons field rest ih => rw [roundedFields, List.map_cons, List.map_cons, ih]

mutual

theorem rounded_id : ∀ value : Value, value.rounded id = value
  | .null | .bool _ | .int _ | .float _ | .string _ | .handle _ => rfl
  | .array items => by rw [rounded, rounded_items_id items]
  | .object typeId fields => by rw [rounded, rounded_fields_id fields]

theorem rounded_items_id : ∀ items : List Value, roundedItems id items = items
  | [] => rfl
  | item :: rest => by rw [roundedItems, rounded_id item, rounded_items_id rest]

theorem rounded_fields_id : ∀ fields : List (String × Value), roundedFields id fields = fields
  | [] => rfl
  | (name, value) :: rest => by rw [roundedFields, rounded_id value, rounded_fields_id rest]

end

mutual

theorem written_sound : ∀ value : Value, value.toDocument.sound = true
  | .null | .bool _ | .int _ | .string _ | .handle _ => rfl
  | .float x => by
      rw [toDocument]
      cases x.isFinite <;> rfl
  | .array items => by simp [toDocument, kindDocument, Document.sound, Document.soundEntries, written_items_sound items]
  | .object typeId fields => by
      cases typeId <;>
        simp [toDocument, kindDocument, typeEntry, Document.sound, Document.soundEntries, written_fields_sound fields]

theorem written_items_sound : ∀ items : List Value, Document.soundItems (itemDocuments items) = true
  | [] => rfl
  | item :: rest => Bool.and_eq_true_iff.mpr ⟨written_sound item, written_items_sound rest⟩

theorem written_fields_sound : ∀ fields : List (String × Value), Document.soundEntries (fieldDocuments fields) = true
  | [] => rfl
  | (_, value) :: rest => Bool.and_eq_true_iff.mpr ⟨written_sound value, written_fields_sound rest⟩

end

section

variable {numbers : Echo} {near : Float → Float} {nearSingle : Float32 → Float32}

theorem content_depth {kind : String} {content : Document} {fuel : Nat}
    (enough : ((kindDocument kind content).echo numbers).depth ≤ fuel) :
    ∃ rest, fuel = rest + 1 ∧ (content.echo numbers).depth ≤ rest := by
  simp only [kindDocument, Document.echo, Document.echoEntries, Document.depth, Document.depthEntries] at enough
  exact ⟨fuel - 1, by omega, by omega⟩

mutual

theorem nested_echo (faithful : numbers.Faithful near nearSingle) : ∀ (value : Value) (fuel : Nat) (medium : Medium),
    value.Ordered → (value.toDocument.echo numbers).depth ≤ fuel →
    readNested fuel medium (value.toDocument.echo numbers) = if value.finite then some (value.rounded near) else none
  | .null, fuel, medium, _, enough => by
      cases fuel with
      | zero => cases enough
      | succ fuel => rfl
  | .bool value, fuel, medium, _, enough => by
      obtain ⟨fuel, rfl, _⟩ := content_depth enough
      rfl
  | .int value, fuel, medium, _, enough => by
      obtain ⟨fuel, rfl, _⟩ := content_depth enough
      exact congrArg (Option.map Value.int) (Document.int_written value)
  | .float x, fuel, medium, _, enough => by
      obtain ⟨fuel, rfl, _⟩ := content_depth enough
      rw [toDocument, finite]
      cases finite : x.isFinite with
      | false => rfl
      | true => exact congrArg (Option.map Value.float) (faithful.double x finite)
  | .string value, fuel, medium, _, enough => by
      obtain ⟨fuel, rfl, _⟩ := content_depth enough
      rfl
  | .array items, fuel, medium, ordered, enough => by
      obtain ⟨fuel, rfl, inside⟩ := content_depth enough
      have each := items_echo faithful items fuel medium ordered (Nat.le_of_succ_le inside)
      have opened : readNested (fuel + 1) medium ((toDocument (.array items)).echo numbers) =
          ((Document.echoItems numbers (itemDocuments items)).mapM (readNested fuel medium)).map .array := rfl
      rw [opened, each, finite]
      cases finiteItems items <;> rfl
  | .object typeId fields, fuel, medium, ordered, enough => by
      obtain ⟨fuel, rfl, inside⟩ := content_depth enough
      have deep : Document.depthEntries (Document.echoEntries numbers (fieldDocuments fields)) ≤ fuel := by
        cases typeId <;>
          simp only [typeEntry, List.nil_append, List.cons_append, Document.echo, Document.echoEntries, Document.depth,
            Document.depthEntries] at inside <;>
          omega
      have each := fields_echo faithful fields fuel medium ordered.2 deep
      have opened : readNested (fuel + 1) medium ((toDocument (.object typeId fields)).echo numbers) =
          ((Document.echoEntries numbers (fieldDocuments fields)).mapM
            fun entry => (readNested fuel medium entry.2).map (entry.1, ·)).bind
            fun fields => some (.object typeId (Fields.ofList fields)) := by
        cases typeId <;> rfl
      rw [opened, each, finite]
      cases finiteFields fields with
      | false => rfl
      | true =>
        have sorted : ((roundedFields near fields).map (·.1)).Pairwise (· < ·) := by
          rw [rounded_names]
          exact ordered.1
        simp only [if_true, Option.bind_some, Fields.of_ordered sorted, rounded]
  | .handle target, fuel, medium, _, enough => by
      obtain ⟨fuel, rfl, _⟩ := content_depth enough
      have again := target.handle_echo numbers
      simp only [toDocument, kindDocument, Document.echo, Document.echoEntries]
      generalize target.toDocument.echo numbers = content at again
      exact congrArg (Option.map Value.handle) again

theorem items_echo (faithful : numbers.Faithful near nearSingle) : ∀ (items : List Value) (fuel : Nat) (medium : Medium),
    OrderedItems items → Document.depthItems (Document.echoItems numbers (itemDocuments items)) ≤ fuel →
    (Document.echoItems numbers (itemDocuments items)).mapM (readNested fuel medium) =
      if finiteItems items then some (roundedItems near items) else none
  | [], _, _, _, _ => rfl
  | item :: rest, fuel, medium, ordered, enough => by
      simp only [itemDocuments, Document.echoItems, Document.depthItems] at enough ⊢
      rw [List.mapM_cons, Document.bind_guarded (nested_echo faithful item fuel medium ordered.1 (by omega)),
        Document.bind_guarded (items_echo faithful rest fuel medium ordered.2 (by omega)), Document.guard_and]
      rfl

theorem fields_echo (faithful : numbers.Faithful near nearSingle) : ∀ (fields : List (String × Value)) (fuel : Nat)
    (medium : Medium), OrderedFields fields →
    Document.depthEntries (Document.echoEntries numbers (fieldDocuments fields)) ≤ fuel →
    (Document.echoEntries numbers (fieldDocuments fields)).mapM
      (fun entry => (readNested fuel medium entry.2).map (entry.1, ·)) =
      if finiteFields fields then some (roundedFields near fields) else none
  | [], _, _, _, _ => rfl
  | (name, value) :: rest, fuel, medium, ordered, enough => by
      simp only [fieldDocuments, Document.echoEntries, Document.depthEntries] at enough ⊢
      rw [List.mapM_cons, nested_echo faithful value fuel medium ordered.1 (by omega),
        fields_echo faithful rest fuel medium ordered.2 (by omega), finiteFields]
      cases value.finite with
      | false => rfl
      | true => cases finiteFields rest <;> rfl

end

theorem value_echo (faithful : numbers.Faithful near nearSingle) {value : Value} (medium : Medium) (ordered : value.Ordered) :
    read medium (value.toDocument.echo numbers) = if value.finite then some (value.rounded near) else none :=
  nested_echo faithful value _ medium ordered (Nat.le_refl _)

end

end Value

namespace PinType

variable {numbers : Echo}

theorem echo_type (type : PinType) : type.toDocument.echo numbers = type.toDocument := by
  induction type with
  | array element ih => simp only [toDocument, Document.tag, Document.echo, Document.echoEntries, ih]
  | _ => rfl

theorem type_sound (type : PinType) : type.toDocument.sound = true := by
  induction type with
  | array element ih => simp only [toDocument, Document.tag, Document.sound, Document.soundEntries, ih, Bool.and_true]
  | _ => rfl

theorem nested_written {type : PinType} (fuel : Nat) (medium : Medium) (enough : type.toDocument.depth ≤ fuel) :
    readNested fuel medium type.toDocument = some type := by
  induction type generalizing fuel medium with
  | array element ih =>
    simp only [toDocument, Document.tag, Document.depth, Document.depthEntries] at enough
    obtain ⟨fuel, rfl⟩ : ∃ rest, fuel = rest + 1 := ⟨fuel - 1, by omega⟩
    have tagged := Document.tagged_written medium "type" "Array" tagNames [("element", element.toDocument)] (by simp)
      (by simp [Document.soundEntries, type_sound])
    have inner := ih fuel .held (by omega)
    rw [readNested, toDocument, Document.tag, tagged]
    exact congrArg (Option.map PinType.array) inner
  | _ =>
    cases fuel with
    | zero => cases enough
    | succ fuel => rfl

theorem type_echo (numbers : Echo) (type : PinType) (medium : Medium) :
    read medium (type.toDocument.echo numbers) = some type := by
  rw [echo_type]
  exact nested_written _ medium (Nat.le_refl _)

end PinType

theorem Parameter.parameter_echo (numbers : Echo) (parameter : Parameter) (medium : Medium) :
    read medium (parameter.toDocument.echo numbers) = some parameter := by
  have record : Document.record? ["name", "type"] (parameter.toDocument.echo numbers) =
      some ⟨false, [("name", .string parameter.name), ("type", parameter.type.toDocument.echo numbers)]⟩ := rfl
  rw [read, record]
  simp [Record.required, Record.find?, Document.string?, PinType.type_echo]

theorem Parameter.parameter_sound (parameter : Parameter) : parameter.toDocument.sound = true := by
  simp [toDocument, Document.sound, Document.soundEntries, PinType.type_sound]

def Variable.rounded (near : Float → Float) (entry : Variable) : Variable := { entry with value := entry.value.rounded near }

def SwitchCase.rounded (near : Float → Float) (case : SwitchCase) : SwitchCase :=
  { case with value := case.value.rounded near }

def InputPin.rounded (near : Float → Float) (pin : InputPin) : InputPin := { pin with literal := pin.literal.rounded near }

def ExecPin.rounded (near : Float → Float) (pin : ExecPin) : ExecPin := { pin with case := pin.case.map (·.rounded near) }

def Position.rounded (near : Float32 → Float32) (position : Position) : Position := ⟨near position.x, near position.y⟩

def Position.finite (position : Position) : Bool := position.x.isFinite && position.y.isFinite

def InputPin.reset (pin : InputPin) : InputPin := { pin with slot := none }

def ExecPin.values (pin : ExecPin) : List Value := (pin.case.map (·.value)).toList

def PinSource.Fits (source : PinSource) : Prop := Patchbay.Fits source.node ∧ Patchbay.Fits source.parameter

def ExecTarget.Fits (target : ExecTarget) : Prop := Patchbay.Fits target.node ∧ Patchbay.Fits target.pin

instance (source : PinSource) : Decidable source.Fits := inferInstanceAs (Decidable (_ ∧ _))

instance (target : ExecTarget) : Decidable target.Fits := inferInstanceAs (Decidable (_ ∧ _))

/-- A reference that names a variable by its position, as those of a saved script do, or by its identifier, as those of a
copy. -/
def Reference.Saved (reference : Reference) : Prop :=
  (∃ isLocal index, reference = .indexed isLocal index ∧ Fits index) ∨ ∃ guid, reference = .byGuid guid

def Node.values (node : Node) : List Value :=
  node.inputs.map (·.literal) ++ (node.execIn ++ node.execOut).flatMap ExecPin.values

def Node.finite (node : Node) : Bool := node.position.finite && node.values.all Value.finite

def Node.rounded (near : Float → Float) (nearSingle : Float32 → Float32) (node : Node) : Node :=
  { node with
    position := node.position.rounded nearSingle
    execIn := node.execIn.map (·.rounded near)
    execOut := node.execOut.map (·.rounded near)
    inputs := node.inputs.map (·.rounded near) }

def Node.reset (node : Node) : Node := { node with inputs := node.inputs.map InputPin.reset, base := 0, progress := .idle }

/-- The fields of every object are in order, and indices are 64-bit numbers. -/
structure Node.Representable (node : Node) : Prop where
  ordered : ∀ value ∈ node.values, value.Ordered
  sources : ∀ pin ∈ node.inputs, ∀ source ∈ pin.source, source.Fits
  targets : ∀ pin ∈ node.execIn ++ node.execOut, ∀ target ∈ pin.target, target.Fits

instance (node : Node) : Decidable node.Representable :=
  decidable_of_iff (_ ∧ _ ∧ _) ⟨fun ⟨ordered, sources, targets⟩ => ⟨ordered, sources, targets⟩,
    fun ⟨ordered, sources, targets⟩ => ⟨ordered, sources, targets⟩⟩

structure Node.Storable (node : Node) : Prop extends node.Representable where
  saved : ∀ reference, node.kind.reference? = some reference → reference.Saved

namespace Graph

def finite (graph : Graph) : Bool := graph.nodes.all Node.finite && graph.locals.all fun entry => entry.value.finite

def rounded (near : Float → Float) (nearSingle : Float32 → Float32) (graph : Graph) : Graph :=
  { graph with nodes := graph.nodes.map (·.rounded near nearSingle), locals := graph.locals.map (·.rounded near) }

def reset (graph : Graph) : Graph := ⟨graph.nodes.map Node.reset, graph.locals, [], [], none⟩

structure Storable (graph : Graph) : Prop where
  nodes : ∀ node ∈ graph.nodes, node.Storable
  locals : ∀ entry ∈ graph.locals, entry.value.Ordered

end Graph

def EventGraph.reset (graph : EventGraph) : EventGraph := { graph.mapGraph Graph.reset with subscription := none }

namespace Script

def finite (script : Script) : Bool := script.vars.all (fun entry => entry.value.finite) && script.graphs.all Graph.finite

def rounded (near : Float → Float) (nearSingle : Float32 → Float32) (script : Script) : Script :=
  { script.mapGraphs (Graph.rounded near nearSingle) with vars := script.vars.map (·.rounded near) }

/-- A script that is not running: no graph has run, waits for an event or is compiled. -/
def reset (script : Script) : Script :=
  { script.mapGraphs Graph.reset with eventGraphs := script.eventGraphs.map EventGraph.reset, owner := none, limits := none }

structure Storable (script : Script) : Prop where
  vars : ∀ entry ∈ script.vars, entry.value.Ordered
  graphs : ∀ graph ∈ script.graphs, graph.Storable

end Script

variable {numbers : Echo}

theorem variable_sound (entry : Variable) : entry.toDocument.sound = true := by
  simp [Variable.toDocument, Document.ofGuid, Document.sound, Document.soundEntries, PinType.type_sound, Value.written_sound]

theorem source_echo {source : PinSource} (fits : source.Fits) :
    PinSource.ofDocument? (source.toDocument.echo numbers) = some source := by
  let record : Record := ⟨false, [("node", .ofNat source.node), ("parameter", .ofNat source.parameter)]⟩
  have known : Document.record? ["node", "parameter"] (source.toDocument.echo numbers) = some record := rfl
  have node := (record.required_found "node" rfl Document.nat?).trans (Document.nat_written fits.1)
  have parameter := (record.required_found "parameter" rfl Document.nat?).trans (Document.nat_written fits.2)
  rw [PinSource.ofDocument?, Document.bind_found known, Document.bind_found node, Document.bind_found parameter]
  rfl

theorem target_echo {target : ExecTarget} (fits : target.Fits) :
    ExecTarget.ofDocument? (target.toDocument.echo numbers) = some target := by
  let record : Record := ⟨false, [("node", .ofNat target.node), ("pin", .ofNat target.pin)]⟩
  have known : Document.record? ["node", "pin"] (target.toDocument.echo numbers) = some record := rfl
  have node := (record.required_found "node" rfl Document.nat?).trans (Document.nat_written fits.1)
  have pin := (record.required_found "pin" rfl Document.nat?).trans (Document.nat_written fits.2)
  rw [ExecTarget.ofDocument?, Document.bind_found known, Document.bind_found node, Document.bind_found pin]
  rfl

theorem output_echo (pin : OutputPin) (medium : Medium) : OutputPin.read medium (pin.toDocument.echo numbers) = some pin := by
  let record : Record := ⟨false, [("name", .string pin.name), ("type", pin.type.toDocument.echo numbers)]⟩
  have known : Document.record? ["name", "type"] (pin.toDocument.echo numbers) = some record := rfl
  have name : record.required "name" Document.string? = some pin.name := rfl
  have type := (record.required_found "type" rfl (PinType.read medium)).trans (PinType.type_echo numbers pin.type medium)
  rw [OutputPin.read, Document.bind_found known, Document.bind_found name, Document.bind_found type]
  rfl

theorem indexed_echo (numbers : Echo) (isLocal : Bool) {index : Nat} (fits : Fits index) (medium : Medium) :
    Reference.read medium
      ((Document.tag "by" "indexed" [("local", .bool isLocal), ("index", .ofNat index)]).echo numbers) =
      some (.indexed isLocal index) := by
  let record : Record := ⟨false, [("local", .bool isLocal), ("index", .ofNat index)]⟩
  have tagged : Document.tagged? medium "by" Reference.tagNames
      ((Document.tag "by" "indexed" [("local", .bool isLocal), ("index", .ofNat index)]).echo numbers) =
      some ("indexed", .object [("local", .bool isLocal), ("index", .ofNat index)]) := rfl
  have known : Document.record? ["local", "index"] (.object [("local", .bool isLocal), ("index", .ofNat index)]) =
      some record := rfl
  have side : record.required "local" Document.bool? = some isLocal := rfl
  have place := (record.required_found "index" rfl Document.nat?).trans (Document.nat_written fits)
  have content : (do
      let record ← Document.record? ["local", "index"] (.object [("local", .bool isLocal), ("index", .ofNat index)])
      return Reference.indexed (← record.required "local" Document.bool?) (← record.required "index" Document.nat?)) =
      some (.indexed isLocal index) := by
    rw [Document.bind_found known, Document.bind_found side, Document.bind_found place]
    rfl
  rw [Reference.read, Document.bind_found tagged]
  exact content

theorem identifier_echo (numbers : Echo) (guid : Guid) (medium : Medium) :
    Reference.read medium ((Document.tag "by" "guid" [("guid", .ofGuid guid)]).echo numbers) = some (.byGuid guid) := by
  have tagged : Document.tagged? medium "by" Reference.tagNames ((Document.tag "by" "guid" [("guid", .ofGuid guid)]).echo numbers) =
      some ("guid", .object [("guid", .ofGuid guid)]) := rfl
  let record : Record := ⟨false, [("guid", .ofGuid guid)]⟩
  have known : Document.record? ["guid"] (.object [("guid", .ofGuid guid)]) = some record := rfl
  have part := (record.required_found "guid" rfl Document.guid?).trans (Document.guid_written guid)
  have content : (do
      let record ← Document.record? ["guid"] (.object [("guid", .ofGuid guid)])
      return Reference.byGuid (← record.required "guid" Document.guid?)) = some (.byGuid guid) := by
    rw [Document.bind_found known, Document.bind_found part]
    rfl
  rw [Reference.read, Document.bind_found tagged]
  exact content

theorem reference_echo (numbers : Echo) {reference : Reference} (saved : reference.Saved) (medium : Medium) :
    ∃ document, reference.toDocument? = some document ∧ document.sound = true ∧
      Reference.read medium (document.echo numbers) = some reference := by
  obtain ⟨isLocal, index, rfl, fits⟩ | ⟨guid, rfl⟩ := saved
  · exact ⟨_, rfl, rfl, indexed_echo numbers isLocal fits medium⟩
  · exact ⟨_, rfl, rfl, identifier_echo numbers guid medium⟩

theorem field_found {α : Type} (key : String) (document : Document) (read : Document → Option α) :
    (do (← (Document.object [(key, document)]).record? [key]).required key read) = read document := by
  have known := Document.record_of_known [key] [(key, document)] (by simp) (by simp)
  have here : (Record.mk false [(key, document)]).find? key = some document := by simp [Record.find?]
  rw [Document.bind_found known, Record.required_found _ key here]

theorem exec_sound (pin : ExecPin) : pin.toDocument.sound = true := by
  obtain ⟨name, target, case⟩ := pin
  cases target <;> cases case <;>
    simp [ExecPin.toDocument, optionalEntry, ExecTarget.toDocument, SwitchCase.toDocument, Document.ofNat, Document.sound,
      Document.soundEntries, PinType.type_sound, Value.written_sound]

theorem input_sound (pin : InputPin) : pin.toDocument.sound = true := by
  obtain ⟨name, type, literal, source, slot, literalOnly⟩ := pin
  cases source <;> cases literalOnly <;>
    simp [InputPin.toDocument, optionalEntry, PinSource.toDocument, Document.ofNat, Document.sound, Document.soundEntries,
      PinType.type_sound, Value.written_sound]

theorem output_sound (pin : OutputPin) : pin.toDocument.sound = true := by
  simp [OutputPin.toDocument, Document.sound, Document.soundEntries, PinType.type_sound]

theorem list_sound {α : Type} (write : α → Document) (sound : ∀ item, (write item).sound = true) (items : List α) :
    (Document.ofList write items).sound = true := by
  induction items with
  | nil => rfl
  | cons item rest ih => exact Bool.and_eq_true_iff.mpr ⟨sound item, ih⟩

theorem Node.finite_parts (node : Node) :
    node.finite = (node.position.finite && node.execIn.all (fun pin => pin.values.all Value.finite) &&
      node.execOut.all (fun pin => pin.values.all Value.finite) && node.inputs.all (fun pin => pin.literal.finite)) := by
  rw [Node.finite, Node.values, List.all_append, List.all_map, List.all_flatMap, List.all_append, Bool.and_comm (List.all _ _),
    Bool.and_assoc, Bool.and_assoc, Bool.and_assoc]
  rfl

theorem parameters_echo (numbers : Echo) (parameters : List Parameter) (medium : Medium) :
    Document.list? (Parameter.read medium) ((Document.ofList Parameter.toDocument parameters).echo numbers) =
      some parameters :=
  Document.list_back numbers _ _ (Parameter.parameter_echo numbers · medium) parameters

theorem Script.finite_parts (script : Script) :
    script.finite = (script.vars.all (fun entry => entry.value.finite) && script.eventGraphs.all (·.graph.finite) &&
      script.interfaceFunctions.all (·.body.graph.finite) && script.functions.all (·.body.graph.finite)) := by
  rw [Script.finite, Script.graphs, List.all_append, List.all_append, List.all_map, List.all_map, List.all_map,
    Bool.and_assoc, Bool.and_assoc, Bool.and_assoc]
  rfl

section

variable {near : Float → Float} {nearSingle : Float32 → Float32} (faithful : numbers.Faithful near nearSingle)
include faithful

theorem variable_echo {entry : Variable} (medium : Medium)
    (ordered : entry.value.Ordered) :
    Variable.read medium (entry.toDocument.echo numbers) =
      if entry.value.finite then some (entry.rounded near) else none := by
  have record : Document.record? ["guid", "name", "type", "value"] (entry.toDocument.echo numbers) =
      some ⟨false, [("guid", .ofGuid entry.guid), ("name", .string entry.name), ("type", entry.type.toDocument.echo numbers),
        ("value", entry.value.toDocument.echo numbers)]⟩ := rfl
  have value := Value.value_echo faithful medium ordered
  rw [Variable.read, record]
  cases finite : entry.value.finite <;>
    simp [Record.required, Record.withDefault, Record.find?, Document.guid_written, Document.string?, PinType.type_echo,
      value, finite, Variable.rounded]

theorem case_echo {case : SwitchCase} (medium : Medium)
    (ordered : case.value.Ordered) :
    SwitchCase.read medium (case.toDocument.echo numbers) =
      if case.value.finite then some (case.rounded near) else none := by
  let record : Record :=
    ⟨false, [("type", case.type.toDocument.echo numbers), ("value", case.value.toDocument.echo numbers)]⟩
  have known : Document.record? ["type", "value"] (case.toDocument.echo numbers) = some record := rfl
  have type := (record.required_found "type" rfl (PinType.read medium)).trans (PinType.type_echo numbers case.type medium)
  have value := (record.required_found "value" rfl (Value.read medium)).trans
    (Value.value_echo faithful medium ordered)
  rw [SwitchCase.read, Document.bind_found known, Document.bind_found type, Document.bind_guarded value]
  rfl

theorem input_echo {pin : InputPin} (medium : Medium)
    (ordered : pin.literal.Ordered) (fits : ∀ source ∈ pin.source, source.Fits) :
    InputPin.read medium (pin.toDocument.echo numbers) =
      if pin.literal.finite then some (pin.rounded near).reset else none := by
  obtain ⟨name, type, literal, source, slot, literalOnly⟩ := pin
  let record : Record := ⟨false, Document.echoEntries numbers ([("name", .string name), ("type", type.toDocument),
    ("literal", literal.toDocument)] ++ optionalEntry "source" PinSource.toDocument source ++
    if literalOnly then [("literal_only", .bool true)] else [])⟩
  have known : Document.record? ["name", "type", "literal", "source", "literal_only"]
      ((InputPin.mk name type literal source slot literalOnly).toDocument.echo numbers) = some record := by
    cases source <;> cases literalOnly <;> rfl
  have named : record.required "name" Document.string? = some name := rfl
  have typed := (record.required_found "type" rfl (PinType.read medium)).trans (PinType.type_echo numbers type medium)
  have value := (record.default_found "literal" rfl .null (Value.read medium)).trans
    (Value.value_echo faithful medium ordered)
  have fed : record.optional "source" PinSource.ofDocument? = some source := by
    cases source with
    | none => cases literalOnly <;> rfl
    | some source =>
      exact (record.optional_found "source" rfl nofun _).trans
        (congrArg (Option.map some) (source_echo (fits source rfl)))
  have fixed : record.withDefault "literal_only" false Document.bool? = some literalOnly := by
    cases source <;> cases literalOnly <;> rfl
  rw [InputPin.read, Document.bind_found known, Document.bind_found named, Document.bind_found typed,
    Document.bind_guarded value, Document.bind_found fed, Document.bind_found fixed]
  rfl

theorem exec_echo (pin : ExecPin) (medium : Medium)
    (ordered : ∀ value ∈ pin.values, value.Ordered) (fits : ∀ target ∈ pin.target, target.Fits) :
    ExecPin.read medium (pin.toDocument.echo numbers) =
      if pin.values.all Value.finite then some (pin.rounded near) else none := by
  obtain ⟨name, target, case⟩ := pin
  let record : Record := ⟨false, Document.echoEntries numbers (("name", .string name) ::
    optionalEntry "target" ExecTarget.toDocument target ++ optionalEntry "discriminant" SwitchCase.toDocument case)⟩
  have known : Document.record? ["name", "target", "discriminant"] ((ExecPin.mk name target case).toDocument.echo numbers) =
      some record := by
    cases target <;> cases case <;> rfl
  have named : record.required "name" Document.string? = some name := rfl
  have leads : record.optional "target" ExecTarget.ofDocument? = some target := by
    cases target with
    | none => cases case <;> rfl
    | some target =>
      exact (record.optional_found "target" rfl nofun _).trans
        (congrArg (Option.map some) (target_echo (fits target rfl)))
  have compared : record.optional "discriminant" (SwitchCase.read medium) =
      if (ExecPin.mk name target case).values.all Value.finite then some (case.map (·.rounded near)) else none := by
    cases case with
    | none => cases target <;> rfl
    | some case =>
      have back := case_echo faithful medium (ordered case.value (by simp [ExecPin.values]))
      have found : record.find? "discriminant" = some (case.toDocument.echo numbers) := by cases target <;> rfl
      refine ((record.optional_found "discriminant" found nofun _).trans (congrArg (Option.map some) back)).trans ?_
      simp only [ExecPin.values, Option.map_some, Option.toList_some, List.all_cons, List.all_nil, Bool.and_true]
      cases case.value.finite <;> rfl
  rw [ExecPin.read, Document.bind_found known, Document.bind_found named, Document.bind_found leads,
    Document.bind_guarded compared]
  rfl

theorem position_echo (position : Position) :
    Position.ofDocument? (position.toDocument.echo numbers) =
      if position.finite then some (position.rounded nearSingle) else none := by
  have single (x : Float32) : (numbers.single x).single? = if x.isFinite then some (nearSingle x) else none := by
    cases finite : x.isFinite with
    | true => exact faithful.single x finite
    | false =>
      rw [faithful.lostSingle x finite]
      rfl
  have opened : Position.ofDocument? (position.toDocument.echo numbers) =
      ((numbers.single position.x).single? >>= fun x => (numbers.single position.y).single? >>= fun y =>
        pure (Position.mk x y)) := rfl
  rw [opened, Document.bind_guarded (single position.x), Document.bind_guarded (single position.y), Position.finite]
  exact Document.guard_and _ _ _

/-- A kind with a single field comes back with what is read from that field. -/
theorem single_tagged {α : Type} {reader : Document → Option α} {value : α} (medium : Medium) (name key : String)
    (part : Document) (apart : "type" ≠ key) (sound : part.sound = true) (read : reader (part.echo numbers) = some value) :
    ∃ content, Document.tagged? medium "type" NodeKind.tagNames ((Document.tag "type" name [(key, part)]).echo numbers) =
        some (name, content) ∧ (do (← content.record? [key]).required key reader) = some value := by
  have again := Document.echo_sound faithful part sound
  exact ⟨_, Document.tagged_written medium "type" name NodeKind.tagNames [(key, part.echo numbers)] (by simpa using apart)
    (by simp [Document.soundEntries, again]), (field_found key _ reader).trans read⟩

theorem kind_echo (kind : NodeKind) (medium : Medium)
    (saved : ∀ reference, kind.reference? = some reference → reference.Saved) :
    ∃ document, kind.toDocument? = some document ∧ document.sound = true ∧
      NodeKind.read medium (document.echo numbers) = some kind := by
  cases kind with
  | receiveEvent event component =>
    cases component with
    | none => exact ⟨_, rfl, rfl, rfl⟩
    | some component =>
      refine ⟨_, rfl, rfl, ?_⟩
      let record : Record := ⟨false, [("event", .string event), ("component", .ofGuid component)]⟩
      have tagged : Document.tagged? medium "type" NodeKind.tagNames ((Document.tag "type" "ReceiveEvent"
          (("event", .string event) :: NodeKind.componentEntry (some component))).echo numbers) =
          some ("ReceiveEvent", .object [("event", .string event), ("component", .ofGuid component)]) := rfl
      have known : Document.record? ["event", "component"]
          (.object [("event", .string event), ("component", .ofGuid component)]) = some record := rfl
      have named : record.required "event" Document.string? = some event := rfl
      have part : record.optional "component" Document.guid? = some (some component) :=
        (record.optional_found "component" rfl nofun _).trans
          (congrArg (Option.map some) (Document.guid_written component))
      have content : (do
          let record ← Document.record? ["event", "component"]
            (.object [("event", .string event), ("component", .ofGuid component)])
          return NodeKind.receiveEvent (← record.required "event" Document.string?)
            (← record.optional "component" Document.guid?)) = some (.receiveEvent event (some component)) := by
        rw [Document.bind_found known, Document.bind_found named, Document.bind_found part]
        rfl
      rw [NodeKind.read, NodeKind.name, Document.bind_found tagged]
      exact content
  | cast target | implicitCast target =>
    refine ⟨_, rfl, by simp [Document.tag, Document.sound, Document.soundEntries, PinType.type_sound], ?_⟩
    obtain ⟨content, tagged, part⟩ := single_tagged faithful medium _ "target" target.toDocument (by decide) target.type_sound
      (PinType.type_echo numbers target .held)
    rw [NodeKind.read, NodeKind.name, Document.bind_found tagged]
    exact congrArg (Option.map _) part
  | getVariable reference | setVariable reference =>
    obtain ⟨document, written, sound, read⟩ := reference_echo numbers (saved reference rfl) .held
    refine ⟨.tag "type" _ [("variable", document)], by simp only [NodeKind.toDocument?, written]; rfl,
      by simp [Document.tag, Document.sound, Document.soundEntries, sound], ?_⟩
    obtain ⟨content, tagged, part⟩ := single_tagged faithful medium _ "variable" document (by decide) sound read
    rw [NodeKind.read, Document.bind_found tagged]
    exact congrArg (Option.map _) part
  | getComponent guid =>
    obtain ⟨content, tagged, part⟩ := single_tagged faithful medium "GetComponent" "component" (.ofGuid guid) (by decide) rfl
      (Document.guid_written guid)
    refine ⟨_, rfl, rfl, ?_⟩
    rw [NodeKind.read, NodeKind.name, Document.bind_found tagged]
    exact congrArg (Option.map _) part
  | callFunction guid =>
    obtain ⟨content, tagged, part⟩ := single_tagged faithful medium "CallFunction" "function" (.ofGuid guid) (by decide) rfl
      (Document.guid_written guid)
    refine ⟨_, rfl, rfl, ?_⟩
    rw [NodeKind.read, NodeKind.name, Document.bind_found tagged]
    exact congrArg (Option.map _) part
  | _ => exact ⟨_, rfl, rfl, rfl⟩

theorem node_echo {node : Node} (medium : Medium) (storable : node.Storable) :
    ∃ document, node.toDocument? = some document ∧ Document.Comes numbers (Node.read medium) node.finite
      (node.rounded near nearSingle).reset document := by
  obtain ⟨kind, written, sound, read⟩ := kind_echo faithful node.kind medium storable.saved
  have execPins : ∀ pins : List ExecPin, (∀ pin ∈ pins, pin ∈ node.execIn ++ node.execOut) →
      Document.list? (ExecPin.read medium) ((Document.ofList ExecPin.toDocument pins).echo numbers) =
        if pins.all (fun pin => pin.values.all Value.finite) then some (pins.map (·.rounded near)) else none := by
    intro pins among
    refine Document.list_echo numbers _ _ _ _ pins fun pin member => ?_
    refine exec_echo faithful pin medium (fun value inside => storable.ordered value ?_)
      (storable.targets pin (among pin member))
    exact List.mem_append_right _ (List.mem_flatMap.mpr ⟨pin, among pin member, inside⟩)
  have inputPins : Document.list? (InputPin.read medium) ((Document.ofList InputPin.toDocument node.inputs).echo numbers) =
      if node.inputs.all (fun pin => pin.literal.finite) then some (node.inputs.map fun pin => (pin.rounded near).reset)
      else none := by
    refine Document.list_echo numbers _ _ _ _ node.inputs fun pin member => ?_
    refine input_echo faithful medium (storable.ordered pin.literal ?_) (storable.sources pin member)
    exact List.mem_append_left _ (List.mem_map_of_mem member)
  have outputPins := Document.list_back numbers (OutputPin.read medium) OutputPin.toDocument (output_echo · medium) node.outputs
  let entries : List (String × Document) := [("kind", kind), ("name", .string node.name),
    ("position", node.position.toDocument), ("in_execution_pins", .ofList ExecPin.toDocument node.execIn),
    ("out_execution_pins", .ofList ExecPin.toDocument node.execOut), ("input_pins", .ofList InputPin.toDocument node.inputs),
    ("output_pins", .ofList OutputPin.toDocument node.outputs)]
  let record : Record := ⟨false, Document.echoEntries numbers entries⟩
  have known : Document.record? Node.fieldNames ((Document.object entries).echo numbers) = some record := rfl
  have kinds := (record.required_found "kind" rfl (NodeKind.read medium)).trans read
  have named : record.required "name" Document.string? = some node.name := rfl
  have placed := (record.default_found "position" rfl Node.origin Position.ofDocument?).trans
    (position_echo faithful node.position)
  have ins := (record.default_found "in_execution_pins" rfl [] _).trans
    (execPins node.execIn fun _ => List.mem_append_left _)
  have outs := (record.default_found "out_execution_pins" rfl [] _).trans
    (execPins node.execOut fun _ => List.mem_append_right _)
  have inputs := (record.default_found "input_pins" rfl [] _).trans inputPins
  have outputs := (record.default_found "output_pins" rfl [] _).trans outputPins
  refine ⟨.object entries, ?_, ?_, ?_⟩
  · rw [Node.toDocument?, Document.bind_found written]
    rfl
  · simp [entries, Document.sound, Document.soundEntries, sound, Position.toDocument, Document.soundItems,
      list_sound _ exec_sound, list_sound _ input_sound, list_sound _ output_sound]
  · rw [Node.read, Document.bind_found known, Document.bind_found kinds, Document.bind_found named,
      Document.bind_guarded placed, Document.bind_guarded ins, Document.bind_guarded outs, Document.bind_guarded inputs,
      Document.bind_found outputs, Document.guard_and, Document.guard_and, Document.guard_and, ← Node.finite_parts]
    simp [Node.reset, Node.rounded, Function.comp_def]

theorem variables_echo (vars : List Variable) (medium : Medium)
    (ordered : ∀ entry ∈ vars, entry.value.Ordered) :
    Document.list? (Variable.read medium) ((Document.ofList Variable.toDocument vars).echo numbers) =
      if vars.all (fun entry => entry.value.finite) then some (vars.map (·.rounded near)) else none :=
  Document.list_echo numbers _ _ _ _ vars fun entry member => variable_echo faithful medium (ordered entry member)

theorem graph_echo {graph : Graph} (medium : Medium)
    (storable : graph.Storable) :
    ∃ document, graph.toDocument? = some document ∧ Document.Comes numbers (Graph.read medium) graph.finite
      (graph.rounded near nearSingle).reset document := by
  obtain ⟨documents, written, sound, read⟩ := Document.written_list numbers (Node.read medium) Node.toDocument? Node.finite
    (fun node => (node.rounded near nearSingle).reset) graph.nodes
    fun node member => node_echo faithful medium (storable.nodes node member)
  obtain ⟨nodes, locals, stack, returnPoints, size⟩ := graph
  cases locals with
  | nil =>
    let record : Record := ⟨false, [("nodes", (Document.array documents).echo numbers)]⟩
    have known : Document.record? ["nodes", "local_variables"]
        ((Document.object [("nodes", .array documents)]).echo numbers) = some record := rfl
    have parts := (record.default_found "nodes" rfl [] _).trans read
    have vars := record.default_missing "local_variables" rfl [] (Document.list? (Variable.read medium))
    refine ⟨.object [("nodes", .array documents)], ?_, ?_, ?_⟩
    · rw [Graph.toDocument?, Document.bind_found written]
      rfl
    · rw [Document.sound, Document.soundEntries, sound]
      rfl
    · rw [Graph.read, Document.bind_found known, Document.bind_guarded parts, Document.bind_found vars, Graph.finite,
        List.all_nil, Bool.and_true]
      simp [Graph.reset, Graph.rounded, Graph.empty, Function.comp_def]
  | cons entry rest =>
    have echoed := variables_echo faithful (entry :: rest) medium storable.locals
    let entries : List (String × Document) :=
      [("nodes", .array documents), ("local_variables", .ofList Variable.toDocument (entry :: rest))]
    let record : Record := ⟨false, Document.echoEntries numbers entries⟩
    have known : Document.record? ["nodes", "local_variables"] ((Document.object entries).echo numbers) = some record := rfl
    have parts := (record.default_found "nodes" rfl [] _).trans read
    have vars := (record.default_found "local_variables" rfl [] _).trans echoed
    refine ⟨.object entries, ?_, ?_, ?_⟩
    · rw [Graph.toDocument?, Document.bind_found written]
      rfl
    · have locals := list_sound _ variable_sound (entry :: rest)
      rw [Document.sound, Document.soundEntries, sound, Document.soundEntries, locals]
      rfl
    · rw [Graph.read, Document.bind_found known, Document.bind_guarded parts, Document.bind_guarded vars,
        Document.guard_and, Graph.finite]
      simp [Graph.reset, Graph.rounded, Graph.empty, Function.comp_def]

theorem body_echo {body : Body} (storable : body.graph.Storable)
    (key name : String) (part : Document) (apart : key ∉ "name" :: Body.fieldNames) (sound : part.sound = true) :
    ∃ entries record, body.entries? = some entries ∧
      (Document.object ([(key, part), ("name", .string name)] ++ entries)).sound = true ∧
      Document.mergedRecord? (key :: "name" :: Body.fieldNames)
        ((Document.object ([(key, part), ("name", .string name)] ++ entries)).echo numbers) = some record ∧
      record.find? key = some (part.echo numbers) ∧ record.required "name" Document.string? = some name ∧
      Body.ofRecord? record =
        if body.graph.finite then some (body.mapGraph fun graph => (graph.rounded near nearSingle).reset) else none := by
  obtain ⟨document, written, comes⟩ := graph_echo faithful .held storable
  let entries : List (String × Document) := [(key, part), ("name", .string name), ("graph", document),
    ("input_parameters", .ofList Parameter.toDocument body.inputs),
    ("output_parameters", .ofList Parameter.toDocument body.outputs)]
  have whole : (Document.object entries).sound = true := by
    simp [entries, Document.sound, Document.soundEntries, sound, comes.sound, list_sound _ Parameter.parameter_sound]
  let record : Record := ⟨false, Document.echoEntries numbers entries⟩
  have known : Document.mergedRecord? (key :: "name" :: Body.fieldNames) ((Document.object entries).echo numbers) =
      some record := by
    rw [Document.mergedRecord?, Document.echo_sound faithful _ whole, if_pos rfl]
    have distinct : ("name" :: Body.fieldNames).Nodup := by decide
    exact Document.record_of_known _ _ (List.nodup_cons.mpr ⟨apart, distinct⟩) fun _ => id
  have other : ∀ name ∈ "name" :: Body.fieldNames, (key == name) = false := by
    intro name member
    exact beq_false_of_ne fun same => apart (same ▸ member)
  have skipped : ∀ name ∈ "name" :: Body.fieldNames,
      record.find? name = (Record.mk false (Document.echoEntries numbers entries.tail)).find? name := by
    intro name member
    simp [record, entries, Record.find?, Document.echoEntries, List.find?_cons, other name member]
  have graphs := (record.required_found "graph" (skipped "graph" (by decide)) _).trans comes.read
  have ins := (record.default_found "input_parameters" (skipped _ (by decide)) [] _).trans
    (parameters_echo numbers body.inputs .held)
  have outs := (record.default_found "output_parameters" (skipped _ (by decide)) [] _).trans
    (parameters_echo numbers body.outputs .held)
  refine ⟨entries.drop 2, record, ?_, whole, known, ?_, record.required_found "name" (skipped _ (by decide)) _, ?_⟩
  · rw [Body.entries?, Document.bind_found written]
    rfl
  · simp [record, entries, Record.find?, Document.echoEntries]
  · rw [Body.ofRecord?, Document.bind_guarded graphs, Document.bind_found ins, Document.bind_found outs]
    rfl

theorem function_echo {function : Function}
    (storable : function.body.graph.Storable) :
    ∃ document, function.toDocument? = some document ∧ Document.Comes numbers Function.ofDocument? function.body.graph.finite
      (function.mapGraph fun graph => (graph.rounded near nearSingle).reset) document := by
  obtain ⟨entries, record, written, sound, known, here, named, body⟩ :=
    body_echo faithful storable "guid" function.name (.ofGuid function.guid) (by decide) rfl
  have guid := (record.required_found "guid" here Document.guid?).trans (Document.guid_written function.guid)
  refine ⟨_, ?_, sound, ?_⟩
  · rw [Function.toDocument?, Document.bind_found written]
    rfl
  · rw [Function.ofDocument?, Document.bind_found known, Document.bind_found guid, Document.bind_found named,
      Document.bind_guarded body]
    rfl

theorem interface_function_echo {function : InterfaceFunction}
    (storable : function.body.graph.Storable) :
    ∃ document, function.toDocument? = some document ∧
      Document.Comes numbers InterfaceFunction.ofDocument? function.body.graph.finite
        (function.mapGraph fun graph => (graph.rounded near nearSingle).reset) document := by
  obtain ⟨entries, record, written, sound, known, here, named, body⟩ :=
    body_echo faithful storable "interface" function.name (.string function.interface) (by decide) rfl
  have interface : record.required "interface" Document.string? = some function.interface :=
    record.required_found "interface" here Document.string?
  refine ⟨_, ?_, sound, ?_⟩
  · rw [InterfaceFunction.toDocument?, Document.bind_found written]
    rfl
  · rw [InterfaceFunction.ofDocument?, Document.bind_found known, Document.bind_found interface, Document.bind_found named,
      Document.bind_guarded body]
    rfl

theorem event_graph_echo {graph : EventGraph} (storable : graph.graph.Storable) :
    ∃ document, graph.toDocument? = some document ∧ Document.Comes numbers EventGraph.ofDocument? graph.graph.finite
      (graph.mapGraph (Graph.rounded near nearSingle)).reset document := by
  obtain ⟨document, written, comes⟩ := graph_echo faithful .json storable
  let entries : List (String × Document) := [("guid", .ofGuid graph.guid), ("graph", document)]
  let record : Record := ⟨false, Document.echoEntries numbers entries⟩
  have known : Document.record? ["guid", "graph"] ((Document.object entries).echo numbers) = some record := rfl
  have guid := (record.required_found "guid" rfl Document.guid?).trans (Document.guid_written graph.guid)
  have inner := (record.required_found "graph" rfl Graph.ofDocument?).trans comes.read
  refine ⟨.object entries, ?_, ?_, ?_⟩
  · rw [EventGraph.toDocument?, Document.bind_found written]
    rfl
  · simp [entries, Document.sound, Document.soundEntries, Document.ofGuid, comes.sound]
  · rw [EventGraph.ofDocument?, Document.bind_found known, Document.bind_found guid, Document.bind_guarded inner]
    rfl

theorem script_echo {script : Script} (storable : script.Storable) :
    ∃ document, script.toDocument? = some document ∧ Script.ofDocument? (document.echo numbers) =
      if script.finite then some (script.rounded near nearSingle).reset else none := by
  obtain ⟨events, eventsWritten, _, eventsRead⟩ := Document.written_list numbers EventGraph.ofDocument?
    EventGraph.toDocument? (·.graph.finite) (fun graph => (graph.mapGraph (Graph.rounded near nearSingle)).reset)
    script.eventGraphs fun graph member => event_graph_echo faithful
      (storable.graphs _ (List.mem_append_left _ (List.mem_append_left _ (List.mem_map_of_mem member))))
  obtain ⟨provided, providedWritten, _, providedRead⟩ := Document.written_list numbers InterfaceFunction.ofDocument?
    InterfaceFunction.toDocument? (·.body.graph.finite)
    (·.mapGraph fun graph => (graph.rounded near nearSingle).reset)
    script.interfaceFunctions fun function member => interface_function_echo faithful
      (storable.graphs _ (List.mem_append_left _ (List.mem_append_right _ (List.mem_map_of_mem member))))
  obtain ⟨functions, functionsWritten, _, functionsRead⟩ := Document.written_list numbers Function.ofDocument?
    Function.toDocument? (·.body.graph.finite) (·.mapGraph fun graph => (graph.rounded near nearSingle).reset)
    script.functions fun function member => function_echo faithful
      (storable.graphs _ (List.mem_append_right _ (List.mem_map_of_mem member)))
  have varsRead := variables_echo faithful script.vars .json storable.vars
  have interfacesRead := Document.list_back numbers Document.string? Document.string (fun _ => rfl) script.interfaces
  let entries : List (String × Document) := [("name", .string script.name),
    ("variables", .ofList Variable.toDocument script.vars), ("event_graphs", .array events),
    ("interface_graphs", .array provided), ("function_graphs", .array functions),
    ("included_interfaces", .ofList Document.string script.interfaces)]
  let record : Record := ⟨false, Document.echoEntries numbers entries⟩
  have known : Document.record? Script.fieldNames ((Document.object entries).echo numbers) = some record := rfl
  have named : record.required "name" Document.string? = some script.name := rfl
  have vars := (record.default_found "variables" rfl [] (Document.list? Variable.ofDocument?)).trans varsRead
  have eventGraphs := (record.default_found "event_graphs" rfl [] _).trans eventsRead
  have interfaceFunctions := (record.default_found "interface_graphs" rfl [] _).trans providedRead
  have functionGraphs := (record.default_found "function_graphs" rfl [] _).trans functionsRead
  have interfaces := (record.default_found "included_interfaces" rfl [] _).trans interfacesRead
  refine ⟨.object entries, ?_, ?_⟩
  · rw [Script.toDocument?, Document.bind_found eventsWritten, Document.bind_found providedWritten,
      Document.bind_found functionsWritten]
    rfl
  · rw [Script.ofDocument?, Document.bind_found known, Document.bind_found named, Document.bind_guarded vars,
      Document.bind_guarded eventGraphs, Document.bind_guarded interfaceFunctions, Document.bind_guarded functionGraphs,
      Document.bind_found interfaces, Document.guard_and, Document.guard_and, Document.guard_and, ← script.finite_parts]
    simp [Script.reset, Script.rounded, Script.mapGraphs, Function.comp_def, InterfaceFunction.mapGraph, Function.mapGraph,
      Body.mapGraph]

end

end Patchbay
