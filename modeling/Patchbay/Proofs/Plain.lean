import Patchbay.Proofs.Entries
import Patchbay.Proofs.Restoring
import Patchbay.Storage.Plain

set_option autoImplicit false

namespace Patchbay

namespace Value

theorem deep_induction {motive : Value → Prop} (null : motive .null) (bool : ∀ flag, motive (.bool flag))
    (int : ∀ number, motive (.int number)) (float : ∀ number, motive (.float number))
    (string : ∀ text, motive (.string text)) (array : ∀ items, (∀ item ∈ items, motive item) → motive (.array items))
    (object : ∀ typeId fields, (∀ field ∈ fields, motive field.2) → motive (.object typeId fields))
    (handle : ∀ target, motive (.handle target)) (value : Value) : motive value := by
  refine @Value.rec motive (fun items => ∀ item ∈ items, motive item) (fun fields => ∀ field ∈ fields, motive field.2)
    (fun field => motive field.2) null bool int float string array object handle ?_ ?_ ?_ ?_ ?_ value
  · intro item inside
    cases inside
  · intro first rest here there item inside
    obtain rfl | later := List.mem_cons.mp inside
    · exact here
    · exact there item later
  · intro field inside
    cases inside
  · intro first rest here there field inside
    obtain rfl | later := List.mem_cons.mp inside
    · exact here
    · exact there field later
  · intro name content holds
    exact holds

/-- A value is a part of itself, and so are the parts of its items and fields. -/
inductive Within (part : Value) : Value → Prop where
  | self : Within part part
  | item (item : Value) (items : List Value) (inside : item ∈ items) (deeper : Within part item) : Within part (.array items)
  | field (typeId : Option String) (fields : List (String × Value)) (field : String × Value) (inside : field ∈ fields)
    (deeper : Within part field.2) : Within part (.object typeId fields)

/-- What a plain document has no form of its own for: handles, floats that are no numbers, and a field named like the type. -/
inductive Foreign : Value → Prop where
  | handle (target : Handle) : Foreign (.handle target)
  | float (number : Float) (wild : number.isFinite = false) : Foreign (.float number)
  | object (typeId : Option String) (fields : List (String × Value)) (taken : typeKey ∈ fields.map (·.1)) :
    Foreign (.object typeId fields)

def Portable (value : Value) : Prop := ∀ part, Within part value → ¬ Foreign part

theorem portable_float (number : Float) : (float number).Portable ↔ number.isFinite = true := by
  constructor
  · intro portable
    by_contra wild
    exact portable _ .self (.float number (Bool.eq_false_iff.mpr wild))
  · intro finite part within foreign
    cases within with
    | self =>
      cases foreign with
      | float _ wild => cases finite.symm.trans wild

variable (items : List Value)

theorem portable_array : (array items).Portable ↔ ∀ item ∈ items, item.Portable := by
  constructor
  · intro portable item inside part deeper
    exact portable part (.item item items inside deeper)
  · intro each part within
    cases within with
    | self =>
      intro foreign
      cases foreign
    | item item _ inside deeper => exact each item inside part deeper

theorem portable_object (typeId : Option String) (fields : List (String × Value)) :
    (object typeId fields).Portable ↔ typeKey ∉ fields.map (·.1) ∧ ∀ field ∈ fields, field.2.Portable := by
  constructor
  · intro portable
    refine ⟨?_, ?_⟩
    · intro taken
      exact portable _ .self (.object typeId fields taken)
    · intro field inside part deeper
      exact portable part (.field typeId fields field inside deeper)
  · rintro ⟨free, each⟩ part within
    cases within with
    | self =>
      intro foreign
      cases foreign with
      | object _ _ taken => exact free taken
    | field _ _ field inside deeper => exact each field inside part deeper

theorem ordered_items : OrderedItems items ↔ ∀ item ∈ items, item.Ordered := by
  induction items with
  | nil => simp [OrderedItems]
  | cons item rest ih => rw [OrderedItems, ih, List.forall_mem_cons]

theorem ordered_fields (fields : List (String × Value)) : OrderedFields fields ↔ ∀ field ∈ fields, field.2.Ordered := by
  induction fields with
  | nil => simp [OrderedFields]
  | cons field rest ih => rw [OrderedFields, ih, List.forall_mem_cons]

theorem plain_items : plainItems items = items.map plain := by
  induction items with
  | nil => rfl
  | cons item rest ih => rw [plainItems, ih, List.map_cons]

theorem plain_fields (fields : List (String × Value)) :
    plainFields fields = fields.map fun field => (field.1, field.2.plain) := by
  induction fields with
  | nil => rfl
  | cons field rest ih => rw [plainFields, ih, List.map_cons]

theorem same_items (change : Value → Value) (items : List Value) :
    sameItems (items.map change) items = true ↔ ∀ item ∈ items, (change item).same item = true := by
  induction items with
  | nil => simp [sameItems]
  | cons item rest ih => rw [List.map_cons, sameItems, Bool.and_eq_true, ih, List.forall_mem_cons]

theorem same_fields (change : Value → Value) (fields : List (String × Value)) :
    sameFields (fields.map fun field => (field.1, change field.2)) fields = true ↔
      ∀ field ∈ fields, (change field.2).same field.2 = true := by
  induction fields with
  | nil => simp [sameFields]
  | cons field rest ih => simp only [List.map_cons, sameFields, beq_self_eq_true, Bool.true_and, Bool.and_eq_true, ih,
      List.forall_mem_cons]

theorem same_names {fields : List (String × Value)} (others : List (String × Value)) (same : sameFields fields others = true) :
    fields.map (·.1) = others.map (·.1) := by
  induction fields generalizing others with
  | nil =>
    cases others with
    | nil => rfl
    | cons => cases same
  | cons field fields ih =>
    cases others with
    | nil => cases same
    | cons other rest =>
      simp only [sameFields, Bool.and_eq_true, beq_iff_eq] at same
      rw [List.map_cons, List.map_cons, same.1.1, ih rest same.2]

end Value

namespace Document

theorem to_values (documents : List Document) : toValues documents = documents.map toValue := by
  induction documents with
  | nil => rfl
  | cons document rest ih => rw [toValues, ih, List.map_cons]

theorem to_fields (entries : List (String × Document)) :
    toFields entries = entries.map fun entry => (entry.1, entry.2.toValue) := by
  induction entries with
  | nil => rfl
  | cons entry rest ih => rw [toFields, ih, List.map_cons]

end Document

namespace Fields

variable {α : Type}

theorem insert_others (name : String) (value : α) (fields : Fields α) :
    (insert name value fields).filter (·.1 != name) = fields.filter (·.1 != name) := by
  induction fields with
  | nil => simp [insert]
  | cons entry rest ih =>
    rw [insert]
    split
    · next same => simp [same]
    · split
      · simp
      · rw [List.filter_cons, List.filter_cons, ih]

variable {name : String} {fields : Fields α}

theorem others_all (fresh : name ∉ fields.map (·.1)) :
    fields.filter (·.1 != name) = fields := by
  rw [List.filter_eq_self]
  intro entry inside
  exact bne_iff_ne.mpr fun same => fresh (same ▸ List.mem_map_of_mem inside)

theorem named_none (fresh : name ∉ fields.map (·.1)) :
    fields.filter (·.1 == name) = [] := by
  rw [List.filter_eq_nil_iff]
  intro entry inside same
  exact fresh (beq_iff_eq.mp same ▸ List.mem_map_of_mem inside)

theorem insert_fresh (value : α) (fresh : name ∉ fields.map (·.1)) :
    (insert name value fields).filter (·.1 == name) = [(name, value)] := by
  have found := (insert_perm name value fields fresh).filter (·.1 == name)
  rw [List.filter_cons, beq_self_eq_true, if_pos rfl, named_none fresh] at found
  exact List.perm_singleton.mp found

end Fields

namespace Value

theorem returned_array (items : List Value) :
    (array items).plain.toValue = .array (items.map fun item => item.plain.toValue) := by
  rw [plain, plain_items, Document.toValue, Document.to_values, List.map_map]
  rfl

variable {fields : List (String × Value)}

theorem returned_fields (sorted : (fields.map (·.1)).Pairwise (· < ·)) {entries : List (String × Document)}
    (others : entries.filter (·.1 != typeKey) = (plainFields fields).filter (·.1 != typeKey)) :
    Fields.ofList ((Document.toFields entries).filter (·.1 != typeKey)) =
      (fields.filter (·.1 != typeKey)).map fun field => (field.1, field.2.plain.toValue) := by
  have kept : (Document.toFields entries).filter (·.1 != typeKey) =
      (fields.filter (·.1 != typeKey)).map fun field => (field.1, field.2.plain.toValue) := by
    rw [Document.to_fields, List.filter_map]
    change (entries.filter (·.1 != typeKey)).map _ = _
    rw [others, plain_fields, List.filter_map, List.map_map]
    rfl
  have names : ((fields.filter (·.1 != typeKey)).map fun field => (field.1, field.2.plain.toValue)).map (·.1) =
      (fields.filter (·.1 != typeKey)).map (·.1) := by
    rw [List.map_map]
    rfl
  rw [kept, Fields.of_ordered]
  rw [names]
  exact sorted.sublist (List.filter_sublist.map _)

theorem returned_object (typeId : Option String) (sorted : (fields.map (·.1)).Pairwise (· < ·)) :
    ∃ found, (object typeId fields).plain.toValue =
        .object found ((fields.filter (·.1 != typeKey)).map fun field => (field.1, field.2.plain.toValue)) ∧
      (typeKey ∉ fields.map (·.1) → found = typeId) := by
  have names : (plainFields fields).map (·.1) = fields.map (·.1) := by
    rw [plain_fields, List.map_map]
    rfl
  cases typeId with
  | none =>
    refine ⟨plainTypeId (plainFields fields), ?_, ?_⟩
    · rw [plain, Document.toValue, returned_fields sorted rfl]
    · intro free
      rw [plainTypeId, Document.entriesNamed, Fields.named_none (names ▸ free)]
      rfl
  | some type =>
    let entries := Fields.insert typeKey (.string type) (plainFields fields)
    refine ⟨plainTypeId entries, ?_, ?_⟩
    · rw [plain, Document.toValue, returned_fields sorted (Fields.insert_others typeKey _ _)]
    · intro free
      rw [plainTypeId, Document.entriesNamed, Fields.insert_fresh _ (names ▸ free)]
      rfl

theorem float_same_self {number : Float} (finite : number.isFinite = true) : (number == number) = true := by
  change (number.toModel.unpack.compare number.toModel.unpack == some .eq) = true
  change number.toModel.unpack.isFinite = true at finite
  generalize number.toModel.unpack = content at finite ⊢
  cases content with
  | notANumber => cases finite
  | infinity sign => cases finite
  | zero sign => rfl
  | finite sign significand exponent positive =>
    have same : (compare exponent exponent).then (compare significand significand) = .eq := by simp
    cases sign with
    | positive => exact beq_iff_eq.mpr (congrArg some same)
    | negative => exact beq_iff_eq.mpr (congrArg (fun order : Ordering => some order.swap) same)

theorem float_returned (number : Float) :
    (float number).plain.toValue = if number.isFinite = true then .float number else .null := by
  rw [plain]
  split
  · next finite => rw [Document.toValue, plainFloat, if_pos finite]
  · rfl

/-- The value comes back equal exactly if it has no foreign part, and then as it was, to the last bit. -/
def Returns (value : Value) : Prop :=
  (value.plain.toValue.same value = true ↔ value.Portable) ∧ (value.Portable → value.plain.toValue = value)

def isScalar : Value → Bool
  | .null | .bool _ | .int _ | .string _ => true
  | _ => false

theorem scalar_portable (value : Value) (scalar : value.isScalar = true) : value.Portable := by
  intro part within foreign
  cases within with
  | self => cases foreign <;> cases scalar
  | item | field => cases scalar

theorem scalar_returns {value : Value} (scalar : value.isScalar = true) : value.Returns := by
  have back : value.plain.toValue = value ∧ value.same value = true := by
    cases value with
    | int number =>
      refine ⟨?_, by simp [same]⟩
      rw [plain, Document.toValue, if_pos (Document.int64_fits number), Int64.ofInt_toInt]
    | null | bool flag | string text => exact ⟨rfl, by simp [same]⟩
    | _ => cases scalar
  refine ⟨iff_of_true ?_ (scalar_portable value scalar), fun _ => back.1⟩
  rw [back.1, back.2]

theorem float_returns (number : Float) : (float number).Returns := by
  rw [Returns, float_returned, portable_float]
  by_cases finite : number.isFinite = true
  · rw [if_pos finite]
    exact ⟨iff_of_true (float_same_self finite) finite, fun _ => rfl⟩
  · rw [if_neg finite]
    exact ⟨iff_of_false Bool.false_ne_true finite, fun same => absurd same finite⟩

theorem array_returns (items : List Value) (each : ∀ item ∈ items, item.Returns) : (array items).Returns := by
  rw [Returns, returned_array, portable_array, same, same_items]
  refine ⟨forall₂_congr fun item inside => (each item inside).1, ?_⟩
  intro portable
  rw [List.map_congr_left fun item inside => (each item inside).2 (portable item inside), List.map_id']

theorem object_returns (typeId : Option String)
    (sorted : (fields.map (·.1)).Pairwise (· < ·)) (each : ∀ field ∈ fields, field.2.Returns) :
    (object typeId fields).Returns := by
  obtain ⟨found, back, tagged⟩ := returned_object typeId sorted
  rw [Returns, back, portable_object, same, Bool.and_eq_true, beq_iff_eq]
  by_cases taken : typeKey ∈ fields.map (·.1)
  · have lost : ¬ sameFields ((fields.filter (·.1 != typeKey)).map fun field => (field.1, field.2.plain.toValue)) fields =
        true := by
      intro same
      rw [← same_names _ same] at taken
      simp at taken
    exact ⟨iff_of_false (fun same => lost same.2) (fun free => free.1 taken), fun free => absurd taken free.1⟩
  · rw [Fields.others_all taken, same_fields (fun content => content.plain.toValue), tagged taken]
    refine ⟨and_congr (iff_of_true rfl taken) (forall₂_congr fun field inside => (each field inside).1), ?_⟩
    rintro ⟨_, portable⟩
    have same : ∀ field ∈ fields, (field.1, field.2.plain.toValue) = field := by
      intro field inside
      rw [(each field inside).2 (portable field inside)]
    rw [List.map_congr_left same, List.map_id']

/-- A value survives the way to a plain document and back exactly if it holds no handle, no infinity or NaN, and no field with
the name that types have there. It then comes back as it was, down to the sign of a zero. -/
theorem plain_survival_exact (value : Value) (ordered : value.Ordered) :
    (value.plain.toValue.same value = true ↔ ∀ part, Within part value → ¬ Foreign part) ∧
    ((∀ part, Within part value → ¬ Foreign part) → value.plain.toValue = value) := by
  change value.Returns
  induction value using deep_induction with
  | null | bool flag | int number | string text => exact scalar_returns rfl
  | float number => exact float_returns number
  | array items ih => exact array_returns items fun item inside => ih item inside ((ordered_items items).mp ordered item inside)
  | object typeId fields ih =>
    exact object_returns typeId ordered.1 fun field inside =>
      ih field inside ((ordered_fields fields).mp ordered.2 field inside)
  | handle target =>
    have foreign : ¬ (handle target).Portable := fun portable => portable _ .self (.handle target)
    exact ⟨iff_of_false Bool.false_ne_true foreign, fun portable => absurd portable foreign⟩

def sampleHit : Value :=
  .object (some "Hit") [("__handle__", .string "none"), ("spots", .array [.float (Float.ofBits 0x8000000000000000), .int 12])]

def sampleCrowd : Value := .array [sampleHit, .array [.handle ⟨Guid.zero, "Player"⟩]]

/-- A field that only looks like a handle comes back, and a negative zero too. A handle does not, however deep it lies. -/
theorem hit_survives :
    sampleHit.plain.toValue = sampleHit ∧ sampleHit.plain.toValue.same sampleHit = true ∧
    ¬ sampleCrowd.plain.toValue.same sampleCrowd = true := by
  have free : typeKey ∉ ["__handle__", "spots"] := by decide
  have finite : (Float.ofBits 0x8000000000000000).isFinite = true := by decide +kernel
  have text := scalar_portable (.string "none") rfl
  have number := scalar_portable (.int 12) rfl
  have portable : sampleHit.Portable := by
    refine (portable_object _ _).mpr ⟨free, ?_⟩
    simp [portable_array, portable_float, text, number, finite]
  obtain ⟨back, exactly⟩ := plain_survival_exact sampleHit (by decide)
  refine ⟨exactly portable, back.mpr portable, ?_⟩
  intro same
  have clean := (plain_survival_exact sampleCrowd (by decide)).1.mp same
  have inside : Within (.handle ⟨Guid.zero, "Player"⟩) sampleCrowd :=
    .item (.array [.handle ⟨Guid.zero, "Player"⟩]) _ (by simp) (.item _ _ (by simp) .self)
  exact clean _ inside (.handle _)

end Value

end Patchbay
