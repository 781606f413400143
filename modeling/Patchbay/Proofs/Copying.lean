import Patchbay.Clipboard
import Patchbay.Proofs.Reread

set_option autoImplicit false

namespace Patchbay

namespace Document

variable {entries : List (String × Document)} {read : Document} {s : String}

theorem object_reread (rereads : Rereads (.object entries) read) :
    read = .invalid ∨ ∃ others, read = .object others ∧ EntriesReread entries others := by
  cases rereads with
  | rough _ _ rough => cases rough
  | lost => exact .inl rfl
  | object _ others each => exact .inr ⟨others, rfl, each⟩

theorem array_reread {items : List Document} (rereads : Rereads (.array items) read) :
    read = .invalid ∨ ∃ others, read = .array others ∧ ItemsReread items others := by
  cases rereads with
  | rough _ _ rough => cases rough
  | lost => exact .inl rfl
  | array _ others each => exact .inr ⟨others, rfl, each⟩

theorem text_reread (rereads : Rereads (.string s) read) : read = .invalid ∨ read = .string s := by
  cases rereads with
  | rough _ _ rough => cases rough
  | lost => exact .inl rfl
  | string _ => exact .inr rfl

theorem string_solid : ¬ Rereads (.string s) .null := by
  intro rereads
  obtain none | none := text_reread rereads <;> cases none

theorem object_solid : ¬ Rereads (.object entries) .null := by
  intro rereads
  obtain none | ⟨_, none, _⟩ := object_reread rereads <;> cases none

theorem string_reread {value : String} (rereads : Rereads (.string s) read)
    (got : read.string? = some value) : value = s := by
  obtain rfl | rfl := text_reread rereads
  · cases got
  · cases got
    rfl

theorem guid_reread {guid value : Guid} (rereads : Rereads (.ofGuid guid) read)
    (got : read.guid? = some value) : value = guid := by
  obtain rfl | rfl := text_reread rereads
  · cases got
  · exact Option.some.inj (got.symm.trans guid.parse_text)

theorem bool_reread {b value : Bool} (rereads : Rereads (.bool b) read)
    (got : read.bool? = some value) : value = b := by
  cases rereads with
  | rough _ _ rough => cases rough
  | lost => cases got
  | bool _ =>
    cases got
    rfl

theorem nat_reread {n value : Nat} (rereads : Rereads (.ofNat n) read) (got : read.nat? = some value) :
    value = n := by
  generalize written : Document.ofNat n = document at rereads
  cases rereads with
  | count m =>
    obtain rfl : n = m := Int.ofNat.inj (Document.int.inj written)
    rw [nat?] at got
    generalize Number.fitsUnsigned 64 (n : Int) = fits at got
    cases fits with
    | true =>
      cases got
      exact Int.toNat_natCast n
    | false => cases got
  | large m _ other =>
    unfold nat? at got
    split at got
    · exact absurd rfl (other _)
    · cases got
  | rough _ _ rough =>
    subst written
    simp [ofNat, isRough, Int.not_lt.mpr (Int.natCast_nonneg n)] at rough
  | lost => cases got
  | _ => cases written

theorem named_reread (name : String) (others : List (String × Document)) (each : EntriesReread entries others) :
    Option.Rel Rereads ((Record.mk false entries).find? name) ((Record.mk false others).find? name) := by
  induction entries generalizing others with
  | nil =>
    cases each
    exact .none
  | cons entry entries ih =>
    cases each with
    | cons key item other _ others first rest =>
      simp only [Record.find?, List.find?_cons]
      by_cases here : (key == name) = true
      · simp only [here, Option.map_some]
        exact .some first
      · simp only [Bool.eq_false_iff.mpr here]
        exact ih others rest

end Document

/-- A record that was read from the text of an object has its known fields as they come back. -/
def Record.Rereads (names : List String) (entries : List (String × Document)) (record : Record) : Prop :=
  ∀ name ∈ names, Option.Rel Document.Rereads ((Record.mk false entries).find? name) (record.find? name)

namespace Document

theorem record_reread {names : List String} {entries : List (String × Document)} {read : Document} {record : Record}
    (rereads : Rereads (.object entries) read) (found : read.record? names = some record) :
    record.Rereads names entries := by
  obtain rfl | ⟨others, rfl, each⟩ := object_reread rereads
  · cases found
  · intro name known
    rw [record?] at found
    split at found <;> cases found
    have same : (Record.mk false (others.filter fun entry => names.contains entry.1)).find? name =
        (Record.mk false others).find? name := by
      simp only [Record.find?, List.find?_filter]
      congr 2
      funext entry
      by_cases here : entry.1 = name
      · simp [here, known]
      · simp [here]
    rw [same]
    exact named_reread name others each

end Document

namespace Record

variable {α : Type} {names : List String} {entries : List (String × Document)} {record : Record}

variable {name : String} {default value : α}

theorem Rereads.found (rereads : record.Rereads names entries) (known : name ∈ names)
    (written : Document) (there : (Record.mk false entries).find? name = some written) :
    ∃ part, record.find? name = some part ∧ Document.Rereads written part := by
  have field := rereads name known
  rw [there] at field
  cases found : record.find? name with
  | none =>
    rw [found] at field
    cases field
  | some part =>
    rw [found] at field
    cases field with
    | some comes => exact ⟨part, rfl, comes⟩

theorem Rereads.required (rereads : record.Rereads names entries) (known : name ∈ names)
    (written : Document) (there : (Record.mk false entries).find? name = some written) (reader : Document → Option α)
    (value : α) (got : record.required name reader = some value) :
    ∃ part, Document.Rereads written part ∧ reader part = some value := by
  obtain ⟨part, found, comes⟩ := rereads.found known written there
  rw [Record.required, found] at got
  exact ⟨part, comes, got⟩

theorem Rereads.withDefault (rereads : record.Rereads names entries) (known : name ∈ names)
    (written : Document) (there : (Record.mk false entries).find? name = some written)
    (reader : Document → Option α) (got : record.withDefault name default reader = some value) :
    ∃ part, Document.Rereads written part ∧ reader part = some value := by
  obtain ⟨part, found, comes⟩ := rereads.found known written there
  rw [Record.withDefault, found] at got
  exact ⟨part, comes, got⟩

theorem Rereads.withDefault_missing (rereads : record.Rereads names entries) (known : name ∈ names)
    (missing : (Record.mk false entries).find? name = none) (reader : Document → Option α)
    (got : record.withDefault name default reader = some value) : value = default := by
  have field := rereads name known
  rw [missing] at field
  unfold Record.withDefault at got
  cases found : record.find? name with
  | some part =>
    rw [found] at field
    cases field
  | none =>
    rw [found] at got
    exact (Option.some.inj got).symm

theorem Rereads.optional {β : Type} (rereads : record.Rereads names entries) (known : name ∈ names) (write : α → Document)
    (written : Option α) (there : (Record.mk false entries).find? name = written.map write)
    (solid : ∀ item, ¬ Document.Rereads (write item) .null) (reader : Document → Option α) (view : α → β)
    (same : ∀ item part value, Document.Rereads (write item) part → reader part = some value → view value = view item)
    {value : Option α} (got : record.optional name reader = some value) : value.map view = written.map view := by
  cases written with
  | none => rw [rereads.withDefault_missing known there _ got]
  | some item =>
    obtain ⟨part, comes, read⟩ := rereads.withDefault known (write item) there _ got
    have present : (reader part).map some = some value := by
      cases part with
      | null => exact absurd comes (solid item)
      | _ => exact read
    obtain ⟨other, taken, rfl⟩ := Option.map_eq_some_iff.mp present
    exact congrArg some (same item part other comes taken)

end Record

namespace Document

variable {α β : Type} {key : String}

theorem field_reread {written content : Document} {record : Record}
    (reader : Document → Option α) {value : α} (rereads : Rereads (.object [(key, written)]) content)
    (found : content.record? [key] = some record) (got : record.required key reader = some value) :
    ∃ part, Rereads written part ∧ reader part = some value :=
  (record_reread rereads found).required (by simp) written (by simp [Record.find?])
    reader value got

theorem items_reread (write : α → Option Document) (reader : Document → Option α) (view : α → β)
    (same : ∀ item document read value, write item = some document → Rereads document read → reader read = some value →
      view value = view item)
    {items : List α} (values : List α) (documents others : List Document) (written : items.mapM write = some documents)
    (each : ItemsReread documents others) (got : others.mapM reader = some values) : values.map view = items.map view := by
  induction items generalizing documents others values with
  | nil =>
    cases written
    cases each
    cases got
    rfl
  | cons item items ih =>
    simp only [List.mapM_cons, bind, Option.bind_eq_some_iff, pure, Option.some.injEq] at written
    obtain ⟨document, writes, documents, later, rfl⟩ := written
    cases each with
    | cons _ other _ others first rest =>
      simp only [List.mapM_cons, bind, Option.bind_eq_some_iff, pure, Option.some.injEq] at got
      obtain ⟨value, one, values, more, rfl⟩ := got
      rw [List.map_cons, List.map_cons, same item document other value writes first one,
        ih values documents others later rest more]

theorem parts_reread (write : α → Option Document) (reader : Document → Option α) (view : α → β)
    (same : ∀ item document read value, write item = some document → Rereads document read → reader read = some value →
      view value = view item)
    {items values : List α} {documents : List Document} (written : items.mapM write = some documents) {part : Document}
    (comes : Rereads (.array documents) part) (got : list? reader part = some values) : values.map view = items.map view := by
  obtain rfl | ⟨others, rfl, each⟩ := array_reread comes
  · cases got
  · exact items_reread write reader view same values documents others written each got

theorem list_reread (write : α → Document) (reader : Document → Option α) (view : α → β)
    (same : ∀ item read value, Rereads (write item) read → reader read = some value → view value = view item)
    (items values : List α) (read : Document) (rereads : Rereads (.ofList write items) read)
    (got : list? reader read = some values) : values.map view = items.map view := by
  refine parts_reread (fun item => pure (write item)) reader view ?_ List.mapM_pure rereads got
  intro item document part value writes comes
  cases writes
  exact same item part value comes

theorem entries_names {entries : List (String × Document)} (others : List (String × Document))
    (each : EntriesReread entries others) : others.map (·.1) = entries.map (·.1) := by
  induction entries generalizing others with
  | nil =>
    cases each
    rfl
  | cons entry entries ih =>
    cases each with
    | cons name item other _ others _ rest => rw [List.map_cons, List.map_cons, ih others rest]

theorem tagged_reread {medium : Medium} {name found : String} {names : List String} {fields : List (String × Document)}
    {read content : Document} (apart : key ∉ fields.map (·.1)) (rereads : Rereads (.tag key name fields) read)
    (got : read.tagged? medium key names = some (found, content)) : found = name ∧ Rereads (.object fields) content := by
  obtain rfl | ⟨others, rfl, each⟩ := object_reread rereads
  · cases got
  · cases each with
    | cons _ _ tag _ others first rest =>
      rw [← entries_names others rest] at apart
      have other (entry : String × Document) (inside : entry ∈ others) : entry.1 ≠ key := by
        rintro rfl
        exact apart (List.mem_map_of_mem inside)
      have none : others.filter (fun entry => entry.1 == key) = [] :=
        List.filter_eq_nil_iff.mpr fun entry inside => by simp [other entry inside]
      have all : others.filter (fun entry => entry.1 != key) = others :=
        List.filter_eq_self.mpr fun entry inside => by simp [other entry inside]
      simp only [tagged?, entriesNamed, List.filter_cons, beq_self_eq_true, if_true, none, List.map_cons, List.map_nil,
        bne_self_eq_false, Bool.false_eq_true, if_false, all] at got
      split at got
      · obtain ⟨tagName, named, same⟩ := Option.map_eq_some_iff.mp got
        cases same
        refine ⟨?_, .object fields others rest⟩
        cases first with
        | rough _ _ rough => cases rough
        | lost => cases named
        | string _ =>
          cases named
          rfl
      · cases got

end Document

namespace PinType

variable {type value : PinType}

theorem simple_reread {content : Document}
    (got : (if content.isEmptyContent = true then some type else none) = some value) : value = type := by
  split at got <;> cases got
  rfl

theorem nested_reread {type : PinType} (fuel : Nat) (medium : Medium) (read : Document) (value : PinType)
    (rereads : Document.Rereads type.toDocument read) (got : readNested fuel medium read = some value) : value = type := by
  induction fuel generalizing type medium read value with
  | zero => cases got
  | succ fuel ih =>
    obtain ⟨⟨name, content⟩, tagged, inner⟩ := Option.bind_eq_some_iff.mp got
    cases type with
    | array =>
      obtain ⟨rfl, comes⟩ := Document.tagged_reread (by simp) rereads tagged
      obtain ⟨record, found, wrapped⟩ := Option.bind_eq_some_iff.mp inner
      obtain ⟨type, required, rfl⟩ := Option.map_eq_some_iff.mp wrapped
      obtain ⟨part, again, nested⟩ := Document.field_reread _ comes found required
      rw [ih .held part type again nested]
    | object typeId | handle typeId =>
      obtain ⟨rfl, comes⟩ := Document.tagged_reread (by simp) rereads tagged
      obtain ⟨record, found, wrapped⟩ := Option.bind_eq_some_iff.mp inner
      obtain ⟨text, required, rfl⟩ := Option.map_eq_some_iff.mp wrapped
      obtain ⟨part, again, read⟩ := Document.field_reread _ comes found required
      rw [Document.string_reread again read]
    | _ =>
      obtain ⟨rfl, _⟩ := Document.tagged_reread (by simp) rereads tagged
      exact simple_reread inner

theorem type_reread {medium : Medium} {read : Document}
    (rereads : Document.Rereads type.toDocument read) (got : PinType.read medium read = some value) : value = type :=
  nested_reread read.depth medium read value rereads got

end PinType

/-- The parts of a node that decide whether it is well formed and what its inputs may be connected to. -/
structure Outline where
  target : Option PinType
  isSwitch : Bool
  inputs : List (PinType × Option PinSource × Bool)
  outputs : List PinType
  cases : List (Option PinType)

def NodeKind.castTarget? : NodeKind → Option PinType
  | .cast target | .implicitCast target => some target
  | _ => none

def InputPin.outline (pin : InputPin) : PinType × Option PinSource × Bool := (pin.type, pin.source, pin.literalOnly)

def ExecPin.caseType (pin : ExecPin) : Option PinType := pin.case.map SwitchCase.type

def Node.outline (node : Node) : Outline :=
  ⟨node.kind.castTarget?, node.kind == .switch, node.inputs.map InputPin.outline, node.outputs.map OutputPin.type,
    node.execOut.map ExecPin.caseType⟩

/-- What comes back of a node as it was. Its place and the values that it holds may not. -/
def InputPin.bones (pin : InputPin) : InputPin := { pin with literal := .null, slot := none }

def ExecPin.bones (pin : ExecPin) : ExecPin := { pin with case := pin.case.map fun case => { case with value := .null } }

def Node.bones (node : Node) : Node :=
  { node with
    position := Node.origin
    execIn := node.execIn.map (·.bones)
    execOut := node.execOut.map (·.bones)
    inputs := node.inputs.map (·.bones)
    base := 0
    progress := .idle }

theorem source_reread {source value : PinSource} {read : Document} (rereads : Document.Rereads source.toDocument read)
    (got : PinSource.ofDocument? read = some value) : value = source := by
  unfold PinSource.ofDocument? at got
  simp only [bind, Option.bind_eq_some_iff, pure, Option.some.injEq] at got
  obtain ⟨record, found, node, first, parameter, second, rfl⟩ := got
  have fields := Document.record_reread rereads found
  obtain ⟨_, nodeComes, nodeRead⟩ := fields.required (by simp) (.ofNat source.node) rfl _ node first
  obtain ⟨_, parameterComes, parameterRead⟩ :=
    fields.required (by simp) (.ofNat source.parameter) rfl _ parameter second
  rw [Document.nat_reread nodeComes nodeRead, Document.nat_reread parameterComes parameterRead]

theorem target_pin_reread {target value : ExecTarget} {read : Document} (rereads : Document.Rereads target.toDocument read)
    (got : ExecTarget.ofDocument? read = some value) : value = target := by
  unfold ExecTarget.ofDocument? at got
  simp only [bind, Option.bind_eq_some_iff, pure, Option.some.injEq] at got
  obtain ⟨record, found, node, first, pin, second, rfl⟩ := got
  have fields := Document.record_reread rereads found
  obtain ⟨_, nodeComes, nodeRead⟩ := fields.required (by simp) (.ofNat target.node) rfl _ node first
  obtain ⟨_, pinComes, pinRead⟩ := fields.required (by simp) (.ofNat target.pin) rfl _ pin second
  rw [Document.nat_reread nodeComes nodeRead, Document.nat_reread pinComes pinRead]

variable (medium : Medium)

theorem input_reread (pin : InputPin) (read : Document) (value : InputPin)
    (rereads : Document.Rereads pin.toDocument read) (got : InputPin.read medium read = some value) :
    value.bones = pin.bones := by
  unfold InputPin.read at got
  simp only [bind, Option.bind_eq_some_iff, pure, Option.some.injEq] at got
  obtain ⟨record, found, name, nameRead, type, typeRead, _, _, source, sourceRead, literalOnly, flagRead, rfl⟩ := got
  have fields := Document.record_reread rereads found
  obtain ⟨_, comes, named⟩ := fields.required (by simp) (.string pin.name) rfl _ name nameRead
  have sameName := Document.string_reread comes named
  obtain ⟨_, comes, typed⟩ := fields.required (by simp) pin.type.toDocument rfl _ type typeRead
  have sameType := PinType.type_reread comes typed
  have sameSource := fields.optional (by simp) PinSource.toDocument pin.source
    (by cases pin.source <;> cases pin.literalOnly <;> rfl) (fun _ => Document.object_solid) _ id
    (fun _ _ _ => source_reread) sourceRead
  have sameFlag : literalOnly = pin.literalOnly := by
    cases flag : pin.literalOnly with
    | false =>
      refine fields.withDefault_missing (by simp) ?_ _ flagRead
      cases pin.source <;> simp [Record.find?, flag, optionalEntry]
    | true =>
      obtain ⟨_, comes, got⟩ := fields.withDefault (by simp) (.bool true)
        (by cases pin.source <;> simp [Record.find?, flag, optionalEntry]) _ flagRead
      exact Document.bool_reread comes got
  rw [Option.map_id_fun, id, id] at sameSource
  simp only [InputPin.bones, sameName, sameType, sameSource, sameFlag]

theorem output_reread (pin : OutputPin) (read : Document) (value : OutputPin)
    (rereads : Document.Rereads pin.toDocument read) (got : OutputPin.read medium read = some value) : value = pin := by
  unfold OutputPin.read at got
  simp only [bind, Option.bind_eq_some_iff, pure, Option.some.injEq] at got
  obtain ⟨record, found, name, nameRead, type, typeRead, rfl⟩ := got
  have fields := Document.record_reread rereads found
  obtain ⟨_, comes, named⟩ := fields.required (by simp) (.string pin.name) rfl _ name nameRead
  obtain ⟨_, again, typed⟩ := fields.required (by simp) pin.type.toDocument rfl _ type typeRead
  rw [Document.string_reread comes named, PinType.type_reread again typed]

theorem case_reread {medium : Medium} {case : SwitchCase} {read : Document} {value : SwitchCase}
    (rereads : Document.Rereads case.toDocument read) (got : SwitchCase.read medium read = some value) :
    value.type = case.type := by
  unfold SwitchCase.read at got
  simp only [bind, Option.bind_eq_some_iff, pure, Option.some.injEq] at got
  obtain ⟨record, found, type, typeRead, _, _, rfl⟩ := got
  obtain ⟨_, comes, typed⟩ := (Document.record_reread rereads found).required (by simp)
    case.type.toDocument rfl _ type typeRead
  exact PinType.type_reread comes typed

theorem exec_reread (pin : ExecPin) (read : Document) (value : ExecPin)
    (rereads : Document.Rereads pin.toDocument read) (got : ExecPin.read medium read = some value) :
    value.bones = pin.bones := by
  unfold ExecPin.read at got
  simp only [bind, Option.bind_eq_some_iff, pure, Option.some.injEq] at got
  obtain ⟨record, found, name, nameRead, target, targetRead, case, caseRead, rfl⟩ := got
  have fields := Document.record_reread rereads found
  obtain ⟨_, comes, named⟩ := fields.required (by simp) (.string pin.name) rfl _ name nameRead
  have sameName := Document.string_reread comes named
  have sameTarget := fields.optional (by simp) ExecTarget.toDocument pin.target
    (by cases pin.target <;> cases pin.case <;> rfl) (fun _ => Document.object_solid) _ id
    (fun _ _ _ => target_pin_reread) targetRead
  have sameCase := fields.optional (by simp) SwitchCase.toDocument pin.case
    (by cases pin.target <;> cases pin.case <;> rfl) (fun _ => Document.object_solid) _ (SwitchCase.mk ·.type .null)
    (fun _ _ _ comes got => congrArg (SwitchCase.mk · .null) (case_reread comes got)) caseRead
  rw [Option.map_id_fun, id, id] at sameTarget
  exact congrArg₂ (ExecPin.mk · · _) sameName sameTarget |>.trans (congrArg (ExecPin.mk _ _) sameCase)

theorem reference_reread {reference value : Reference} {document read : Document}
    (written : reference.toDocument? = some document) (rereads : Document.Rereads document read)
    (got : Reference.read medium read = some value) : value = reference := by
  obtain ⟨⟨name, content⟩, tagged, inner⟩ := Option.bind_eq_some_iff.mp got
  cases reference with
  | live guid => cases written
  | indexed isLocal index =>
    cases written
    obtain ⟨rfl, comes⟩ := Document.tagged_reread (by simp) rereads tagged
    simp only [bind, Option.bind_eq_some_iff, pure, Option.some.injEq] at inner
    obtain ⟨record, found, flag, first, place, second, rfl⟩ := inner
    have fields := Document.record_reread comes found
    obtain ⟨_, comes, readFlag⟩ := fields.required (by simp) (.bool isLocal) rfl _ flag first
    obtain ⟨_, again, readPlace⟩ := fields.required (by simp) (.ofNat index) rfl _ place second
    rw [Document.bool_reread comes readFlag, Document.nat_reread again readPlace]
  | byGuid guid =>
    cases written
    obtain ⟨rfl, comes⟩ := Document.tagged_reread (by simp) rereads tagged
    simp only [bind, Option.bind_eq_some_iff, pure, Option.some.injEq] at inner
    obtain ⟨record, found, other, required, rfl⟩ := inner
    obtain ⟨_, again, read⟩ := Document.field_reread _ comes found required
    rw [Document.guid_reread again read]

namespace NodeKind

theorem written_tag {kind : NodeKind} {document : Document} (written : kind.toDocument? = some document) :
    ∃ fields, document = .tag "type" kind.name fields ∧ "type" ∉ fields.map (·.1) := by
  cases kind with
  | receiveEvent event component =>
    cases written
    exact ⟨_, rfl, by cases component <;> simp [componentEntry]⟩
  | getVariable reference | setVariable reference =>
    obtain ⟨_, _, same⟩ := Option.bind_eq_some_iff.mp written
    cases same
    exact ⟨_, rfl, by simp⟩
  | _ =>
    cases written
    exact ⟨_, rfl, by simp⟩

theorem field_reread {α : Type} {key : String} {content written : Document} {value : NodeKind} (wrap : α → NodeKind) (item : α)
    (reader : Document → Option α) (same : ∀ part other, Document.Rereads written part → reader part = some other → other = item)
    (comes : Document.Rereads (.object [(key, written)]) content)
    (inner : ((content.record? [key]).bind (·.required key reader)).map wrap = some value) : value = wrap item := by
  obtain ⟨other, got, rfl⟩ := Option.map_eq_some_iff.mp inner
  obtain ⟨record, found, required⟩ := Option.bind_eq_some_iff.mp got
  obtain ⟨part, again, read⟩ := Document.field_reread _ comes found required
  rw [same part other again read]

theorem kind_reread (kind : NodeKind) (document read : Document) (value : NodeKind)
    (written : kind.toDocument? = some document) (rereads : Document.Rereads document read)
    (got : NodeKind.read medium read = some value) : value = kind := by
  obtain ⟨fields, rfl, apart⟩ := written_tag written
  obtain ⟨⟨name, content⟩, tagged, inner⟩ := Option.bind_eq_some_iff.mp got
  obtain ⟨rfl, comes⟩ := Document.tagged_reread apart rereads tagged
  cases kind with
  | receiveEvent event component =>
    cases written
    simp only [bind, NodeKind.name, Option.bind_eq_some_iff, pure, Option.some.injEq] at inner
    obtain ⟨record, found, text, first, scope, second, rfl⟩ := inner
    have fields := Document.record_reread comes found
    obtain ⟨_, again, readText⟩ := fields.required (by simp) (.string event) rfl _ text first
    have sameScope := fields.optional (by simp) Document.ofGuid component (by cases component <;> rfl)
      (fun _ => Document.string_solid) _ id (fun _ _ _ => Document.guid_reread) second
    rw [Option.map_id_fun, id, id] at sameScope
    rw [Document.string_reread again readText, sameScope]
  | callNative key isPure =>
    cases written
    simp only [bind, NodeKind.name, Option.bind_eq_some_iff, pure, Option.some.injEq] at inner
    obtain ⟨record, found, text, first, flag, second, rfl⟩ := inner
    have fields := Document.record_reread comes found
    obtain ⟨_, again, readText⟩ := fields.required (by simp) (.string key) rfl _ text first
    obtain ⟨_, comes, readFlag⟩ := fields.withDefault (by simp) (.bool isPure) rfl _ second
    rw [Document.string_reread again readText, Document.bool_reread comes readFlag]
  | getVariable reference | setVariable reference =>
    obtain ⟨_, referred, same⟩ := Option.bind_eq_some_iff.mp written
    cases same
    exact field_reread _ reference _ (fun _ _ => reference_reread .held referred) comes inner
  | cast target | implicitCast target =>
    cases written
    exact field_reread _ target _ (fun _ _ => PinType.type_reread) comes inner
  | getMember member | setMember member =>
    cases written
    exact field_reread _ member _ (fun _ _ => Document.string_reread) comes inner
  | getComponent guid | callFunction guid =>
    cases written
    exact field_reread _ guid _ (fun _ _ => Document.guid_reread) comes inner
  | _ =>
    obtain ⟨_, simple⟩ := Option.ite_none_right_eq_some.mp inner
    cases simple
    rfl

end NodeKind

theorem node_reread (node : Node) (document read : Document) (value : Node)
    (written : node.toDocument? = some document) (rereads : Document.Rereads document read)
    (got : Node.read medium read = some value) : value.bones = node.bones := by
  obtain ⟨kindText, kindWritten, same⟩ := Option.bind_eq_some_iff.mp written
  cases same
  unfold Node.read at got
  simp only [bind, Option.bind_eq_some_iff, pure, Option.some.injEq] at got
  obtain ⟨record, found, kind, kindRead, name, nameRead, _, _, ins, insRead, outs, outsRead, inputs, inputsRead, outputs,
    outputsRead, rfl⟩ := got
  have fields := Document.record_reread rereads found
  obtain ⟨_, comes, got⟩ := fields.required (by simp [Node.fieldNames]) kindText rfl _ kind kindRead
  have sameKind := NodeKind.kind_reread medium node.kind kindText _ kind kindWritten comes got
  obtain ⟨_, comes, got⟩ := fields.required (by simp [Node.fieldNames]) (.string node.name) rfl _ name nameRead
  have sameName := Document.string_reread comes got
  obtain ⟨_, comes, got⟩ := fields.withDefault (by simp [Node.fieldNames]) _ rfl _ insRead
  have sameIns := Document.list_reread ExecPin.toDocument _ ExecPin.bones (exec_reread medium) node.execIn ins _ comes got
  obtain ⟨_, comes, got⟩ := fields.withDefault (by simp [Node.fieldNames]) _ rfl _ outsRead
  have sameOuts := Document.list_reread ExecPin.toDocument _ ExecPin.bones (exec_reread medium) node.execOut outs _ comes got
  obtain ⟨_, comes, got⟩ := fields.withDefault (by simp [Node.fieldNames]) _ rfl _ inputsRead
  have sameInputs := Document.list_reread InputPin.toDocument _ InputPin.bones (input_reread medium) node.inputs inputs _ comes
    got
  obtain ⟨_, comes, got⟩ := fields.withDefault (by simp [Node.fieldNames]) _ rfl _ outputsRead
  have sameOutputs := Document.list_reread OutputPin.toDocument _ id (output_reread medium) node.outputs outputs _ comes got
  rw [List.map_id, List.map_id] at sameOutputs
  simp only [Node.bones, sameKind, sameName, sameIns, sameOuts, sameInputs, sameOutputs]

/-- A view of nodes that takes no notice of what may not come back is the same of the nodes that come back. -/
theorem bones_view {β : Type} (view : Node → β) (blind : ∀ node : Node, view node.bones = view node) {nodes others : List Node}
    (same : others.map Node.bones = nodes.map Node.bones) : others.map view = nodes.map view := by
  have seen (nodes : List Node) : nodes.map view = (nodes.map Node.bones).map view := by
    rw [List.map_map]
    exact List.map_congr_left fun node _ => (blind node).symm
  rw [seen others, same, ← seen nodes]

theorem nodes_reread {medium : Medium} {graph value : Graph} {document read : Document}
    (written : graph.toDocument? = some document) (rereads : Document.Rereads document read)
    (got : Graph.read medium read = some value) : value.nodes.map Node.bones = graph.nodes.map Node.bones := by
  obtain ⟨documents, nodesWritten, same⟩ := Option.bind_eq_some_iff.mp written
  cases same
  unfold Graph.read at got
  simp only [bind, Option.bind_eq_some_iff, pure, Option.some.injEq] at got
  obtain ⟨record, found, nodes, nodesRead, _, _, rfl⟩ := got
  obtain ⟨_, comes, listed⟩ := (Document.record_reread rereads found).withDefault (by simp) (.array documents) rfl _ nodesRead
  exact Document.parts_reread _ _ _ (node_reread medium) nodesWritten comes listed

variable {graph : Graph} {selection : List Nat} {globals : List Variable} {text : String} {nodes : List Node}

theorem clipboard_view {β : Type} (view : Node → β) (blind : ∀ node : Node, view node.bones = view node)
    (copied : graph.copyNodes selection globals = .ok text) (pasted : Graph.clipboardNodes? Document.parse? text = some nodes) :
    nodes.map view = (graph.copiedNodes selection globals).map view := by
  unfold Graph.copyNodes Graph.copyNodesWith at copied
  split at copied
  · next document whole =>
      cases copied
      obtain ⟨documents, written, same⟩ := Option.bind_eq_some_iff.mp whole
      cases same
      unfold Graph.clipboardNodes? at pasted
      obtain ⟨read, parsed, again⟩ := Option.bind_eq_some_iff.mp pasted
      obtain ⟨record, found, required⟩ := Option.bind_eq_some_iff.mp again
      have rereads := Document.Layout.dense.parse_back parsed
      obtain ⟨part, comes, got⟩ := Document.field_reread _ rereads found required
      exact bones_view view blind (Document.parts_reread _ _ _ (node_reread .json) written comes got)
  · cases copied

theorem clipboard_outlines (copied : graph.copyNodes selection globals = .ok text)
    (pasted : Graph.clipboardNodes? Document.parse? text = some nodes) :
    nodes.map Node.outline = (graph.copiedNodes selection globals).map Node.outline := by
  refine clipboard_view Node.outline (fun node => ?_) copied pasted
  simp [Node.outline, Node.bones, InputPin.outline, InputPin.bones, ExecPin.caseType, ExecPin.bones, Function.comp_def]

end Patchbay
