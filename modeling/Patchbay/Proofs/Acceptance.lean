import Patchbay.NativeType

set_option autoImplicit false

namespace Patchbay

theorem every_item_found {α β : Type} (read : α → Option β) (items : List α) :
    (items.mapM read).isSome = true ↔ ∀ item ∈ items, (read item).isSome = true := by
  induction items with
  | nil => simp
  | cons item rest ih =>
    rw [List.mapM_cons, List.forall_mem_cons, ← ih]
    cases read item with
    | none => simp
    | some => cases rest.mapM read <;> simp

namespace PinType

def isConcrete : PinType → Bool
  | .any => false
  | .array element => element.isConcrete
  | _ => true

def Accepts (type : PinType) (value : Value) : Prop := (type.cast? value).isSome = true

theorem accepts_array (element : PinType) (value : Value) :
    (array element).Accepts value ↔ ∃ items, value = .array items ∧ ∀ item ∈ items, element.Accepts item := by
  have found := every_item_found element.cast?
  cases value with
  | array =>
    simp only [Accepts, cast?, Option.isSome_map, found, Value.array.injEq, exists_eq_left']
  | _ => simp [Accepts, cast?]

theorem accepts_object (typeId : String) (value : Value) :
    (object typeId).Accepts value ↔ ∃ actual fields, value = .object actual fields ∧ (typeId = "" ∨ actual = some typeId) := by
  cases value with
  | object actual =>
    by_cases taken : typeId = "" ∨ actual = some typeId
    · simp [Accepts, cast?, taken]
    · simp [Accepts, cast?, taken]
  | _ => simp [Accepts, cast?]

theorem accepts_handle (typeId : String) (value : Value) :
    (handle typeId).Accepts value ↔ ∃ target, value = .handle target ∧ (typeId = "" ∨ target.typeId = typeId) := by
  cases value with
  | handle target =>
    by_cases taken : typeId = "" ∨ target.typeId = typeId
    · simp [Accepts, cast?, taken]
    · simp [Accepts, cast?, taken]
  | _ => simp [Accepts, cast?]

theorem assignable_self (type : PinType) : type.assignable type = true := by
  unfold assignable
  rw [beq_self_eq_true, Bool.true_or]

theorem assignable_array (target source : PinType) :
    (array target).assignable (array source) = target.assignable source := by
  rw [assignable.eq_def (array target)]
  dsimp only
  by_cases same : target = source
  · rw [same, beq_self_eq_true, Bool.true_or, assignable_self]
  · rw [beq_eq_false_iff_ne.mpr fun alike => same (array.inj alike), Bool.false_or]

theorem assignable_object (target source : String) :
    (object target).assignable (object source) = true ↔ target = "" ∨ source = target := by
  simp only [assignable, Bool.or_eq_true, beq_iff_eq, object.injEq]
  rw [or_comm, eq_comm (a := target) (b := source)]

theorem assignable_handle (target source : String) :
    (handle target).assignable (handle source) = true ↔ target = "" ∨ source = target := by
  simp only [assignable, Bool.or_eq_true, beq_iff_eq, handle.injEq]
  rw [or_comm, eq_comm (a := target) (b := source)]

/-- The ways in which an input takes what an output of another type gives, unless `any` is among what it gives. -/
inductive Takes : PinType → PinType → Prop where
  | same (type : PinType) : Takes type type
  | any (source : PinType) : Takes any source
  | widening : Takes float int
  | array (target source : PinType) (element : Takes target source) : Takes (array target) (array source)
  | object (typeId : String) : Takes (object "") (object typeId)
  | handle (typeId : String) : Takes (handle "") (handle typeId)

variable {target source : PinType}

theorem takes_of_assignable (concrete : source.isConcrete = true)
    (fits : target.assignable source = true) : target.Takes source := by
  fun_induction assignable target source with
  | case1 target source ih =>
    rw [Bool.or_eq_true, beq_iff_eq] at fits
    obtain rfl | fits := fits
    · exact .same target
    · split at fits
      · exact .any source
      · cases concrete
      · exact .widening
      · next element other => exact .array element other (ih concrete fits)
      · next typeId other =>
          rw [beq_iff_eq] at fits
          rw [fits]
          exact .object other
      · next typeId other =>
          rw [beq_iff_eq] at fits
          rw [fits]
          exact .handle other
      · cases fits

theorem accepts_of_takes (takes : target.Takes source) (value : Value)
    (accepts : source.Accepts value) : target.Accepts value := by
  induction takes generalizing value with
  | same type => exact accepts
  | any => rfl
  | widening =>
    cases value with
    | int => rfl
    | float => rfl
    | _ => cases accepts
  | array target source _ ih =>
    obtain ⟨items, rfl, each⟩ := (accepts_array source value).mp accepts
    exact (accepts_array target _).mpr ⟨items, rfl, fun item inside => ih item (each item inside)⟩
  | object typeId =>
    obtain ⟨actual, fields, rfl, _⟩ := (accepts_object typeId value).mp accepts
    exact (accepts_object "" _).mpr ⟨actual, fields, rfl, .inl rfl⟩
  | handle typeId =>
    obtain ⟨handle, rfl, _⟩ := (accepts_handle typeId value).mp accepts
    exact (accepts_handle "" _).mpr ⟨handle, rfl, .inl rfl⟩

/-- A value that tells its type from all types that do not take it. The number is no whole one, and the array is not empty. -/
def sample : PinType → Value
  | .any => .null
  | .bool => .bool false
  | .int => .int 0
  | .float => .float (Float.ofBits 0x3fe0000000000000)
  | .string => .string ""
  | .array element => .array [element.sample]
  | .object typeId => .object (some typeId) []
  | .handle typeId => .handle ⟨⟨0⟩, typeId⟩

theorem sample_distinguishes {source : PinType} (target : PinType) (concrete : source.isConcrete = true) :
    target.Accepts source.sample ↔ target.assignable source = true := by
  induction source generalizing target with
  | any => cases concrete
  | bool => cases target <;> simp [Accepts, sample, cast?, assignable]
  | int => cases target <;> simp [Accepts, sample, cast?, assignable]
  | float =>
    have fraction : (int.cast? float.sample).isSome = false := by decide +kernel
    cases target with
    | int => simp [Accepts, fraction, assignable]
    | _ => simp [Accepts, sample, cast?, assignable]
  | string => cases target <;> simp [Accepts, sample, cast?, assignable]
  | array element ih =>
    cases target with
    | array other =>
      rw [assignable_array, ← ih other concrete, sample, accepts_array]
      simp
    | _ => simp [Accepts, sample, cast?, assignable]
  | object =>
    cases target with
    | object =>
      rw [assignable_object, sample, accepts_object]
      simp
    | _ => simp [Accepts, sample, cast?, assignable]
  | handle =>
    cases target with
    | handle =>
      rw [assignable_handle, sample, accepts_handle]
      simp
    | _ => simp [Accepts, sample, cast?, assignable]

theorem assignable_iff_accepts (target : PinType) {source : PinType} (concrete : source.isConcrete = true) :
    target.assignable source = true ↔ ∀ value, source.Accepts value → target.Accepts value := by
  constructor
  · intro fits
    exact accepts_of_takes (takes_of_assignable concrete fits)
  · intro included
    have own : source.Accepts source.sample := (sample_distinguishes source concrete).mpr source.assignable_self
    exact (sample_distinguishes target concrete).mp (included source.sample own)

/-- A connection is allowed exactly if no value that the output can give is refused at run time. So types without `any` can be
chained: what takes a type takes all that this type takes. -/
theorem assignability_is_inclusion (target source : PinType) (concrete : source.isConcrete = true) :
    (target.assignable source = true ↔
      ∀ value, (source.cast? value).isSome = true → (target.cast? value).isSome = true) ∧
    source.assignable source = true ∧
    ∀ other, other.isConcrete = true → source.assignable other = true → target.assignable source = true →
      target.assignable other = true := by
  refine ⟨assignable_iff_accepts target concrete, source.assignable_self, ?_⟩
  intro other plain inner outer
  rw [assignable_iff_accepts target plain]
  intro value accepts
  have between := (assignable_iff_accepts source plain).mp inner value accepts
  exact (assignable_iff_accepts target concrete).mp outer value between

/-- Numbers in nested arrays widen in one direction only, and go on to where any item is taken. -/
theorem nested_numbers_widen :
    (∀ value, ((array (array int)).cast? value).isSome = true → ((array (array float)).cast? value).isSome = true) ∧
    (¬ ∀ value, ((array (array float)).cast? value).isSome = true → ((array (array int)).cast? value).isSome = true) ∧
    (array any).assignable (array (array int)) = true := by
  obtain ⟨widens, _, _⟩ := assignability_is_inclusion (array (array float)) (array (array int)) rfl
  obtain ⟨narrows, _, _⟩ := assignability_is_inclusion (array (array int)) (array (array float)) rfl
  obtain ⟨_, _, chained⟩ := assignability_is_inclusion (array any) (array (array float)) rfl
  have refused : (array (array int)).assignable (array (array float)) ≠ true := by decide
  refine ⟨widens.mp (by decide), fun included => refused (narrows.mpr included), ?_⟩
  exact chained (array (array int)) rfl (by decide) (by decide)

end PinType

namespace NativeType

/-- All native types but the numbers of 32 bits, and lists of those, have the values of a type of pins. -/
def isWide : NativeType → Bool
  | .int32 | .single => false
  | .list element => element.isWide
  | _ => true

variable {α : Type}

variable (type : NativeType)

theorem expect_written (given : Value) (found : Option α) (write : α → Value) :
    (type.expect given found).toOption.map write = found.map write := by
  cases found <;> rfl

theorem read_items (read : Value → Except ReadError α) (write : α → Value) (cast : Value → Option Value)
    (agrees : ∀ value, (read value).toOption.map write = cast value) (items : List Value) :
    (items.mapM read).toOption.map (List.map write) = items.mapM cast := by
  induction items with
  | nil => rfl
  | cons item rest ih =>
    rw [List.mapM_cons, List.mapM_cons, ← agrees item, ← ih]
    cases read item with
    | error => rfl
    | ok => cases rest.mapM read <;> rfl

theorem read_casts (wide : type.isWide = true) (value : Value) :
    (type.read value).toOption.map type.write = type.pinType.cast? value := by
  induction type generalizing value with
  | bool =>
    refine (expect_written bool value value.bool? Value.bool).trans ?_
    cases value <;> rfl
  | int =>
    refine (expect_written int value value.int? Value.int).trans ?_
    cases value <;> rfl
  | int32 => cases wide
  | float =>
    refine (expect_written float value value.float? Value.float).trans ?_
    cases value <;> rfl
  | single => cases wide
  | string =>
    refine (expect_written string value value.string? Value.string).trans ?_
    cases value <;> rfl
  | handle =>
    refine (expect_written handle value value.handle? Value.handle).trans ?_
    cases value with
    | handle => exact (if_pos (.inl rfl)).symm
    | _ => rfl
  | value => rfl
  | list element ih =>
    cases value with
    | array items =>
      have each := read_items element.read element.write element.pinType.cast? (ih wide) items
      rw [pinType, PinType.cast?, ← each, Option.map_map]
      rfl
    | _ => rfl

theorem written_items (read : Value → Except ReadError α) (write : α → Value)
    (agrees : ∀ x, read (write x) = .ok x) (xs : List α) : (xs.map write).mapM read = .ok xs := by
  induction xs with
  | nil => rfl
  | cons x rest ih =>
    rw [List.map_cons, List.mapM_cons, agrees x, ih]
    rfl

theorem read_written (wide : type.isWide = true) (x : type.Carrier) : type.read (type.write x) = .ok x := by
  induction type with
  | int32 => cases wide
  | single => cases wide
  | list element ih => exact written_items element.read element.write (ih wide) x
  | _ => rfl

/-- An argument is read exactly if its pin accepts the value, as the value that the pin makes of it, and what a function hands
back is read as it was. -/
theorem reading_agrees_with_casting (type : NativeType) (wide : type.isWide = true) :
    (∀ value, ((∃ x, type.read value = .ok x) ↔ (type.pinType.cast? value).isSome = true) ∧
      ∀ x, type.read value = .ok x → type.pinType.cast? value = some (type.write x)) ∧
    ∀ x, type.read (type.write x) = .ok x := by
  refine ⟨fun value => ?_, type.read_written wide⟩
  have agrees := type.read_casts wide value
  cases outcome : type.read value with
  | error =>
    rw [outcome] at agrees
    rw [← agrees]
    refine ⟨⟨?_, ?_⟩, ?_⟩
    · rintro ⟨x, found⟩
      cases found
    · intro found
      cases found
    · intro x found
      cases found
  | ok read =>
    rw [outcome] at agrees
    rw [← agrees]
    refine ⟨⟨fun _ => rfl, fun _ => ⟨read, rfl⟩⟩, fun x same => ?_⟩
    cases same
    rfl

/-- A list of lists of numbers takes integers among them, but no truth value. -/
theorem nested_lists_read :
    let type := list (list float)
    let given (item : Value) : Value := .array [.array [.float (Float.ofBits 0x3fe0000000000000)], .array [item, .int 4]]
    (∃ x, type.read (given (.int 3)) = .ok x ∧ type.pinType.cast? (given (.int 3)) = some (type.write x) ∧
      type.read (type.write x) = .ok x) ∧
    ¬ ∃ x, type.read (given (.bool true)) = .ok x := by
  intro type given
  obtain ⟨reads, back⟩ := reading_agrees_with_casting type rfl
  obtain ⟨readable, casts⟩ := reads (given (.int 3))
  obtain ⟨x, read⟩ := readable.mpr rfl
  refine ⟨⟨x, read, casts x read, back x⟩, fun found => ?_⟩
  have accepted := (reads (given (.bool true))).1.mp found
  cases accepted

end NativeType

end Patchbay
