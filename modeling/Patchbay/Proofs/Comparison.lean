import Patchbay.Library
import Patchbay.Proofs.Doubles
import Patchbay.Proofs.Entries

set_option autoImplicit false

namespace Patchbay

variable {σ : Type}

namespace Catalog

theorem find_registered (natives : List (Native σ)) (key : String) (catalog : Catalog σ) :
    (catalog.registerAll natives).find? key = (natives.reverse.find? (·.info.key == key)).or (catalog.find? key) := by
  induction natives generalizing catalog with
  | nil => rfl
  | cons native rest ih =>
    have registered : (catalog.register native).find? key = if native.info.key = key then some native else catalog.find? key :=
      Fields.find_insert key native.info.key native catalog.natives
    rw [List.reverse_cons, List.find?_append, Option.or_assoc]
    change ((catalog.register native).registerAll rest).find? key = _
    rw [ih, registered, List.find?_singleton]
    by_cases named : native.info.key = key
    · rw [if_pos named, if_pos (beq_iff_eq.mpr named)]
      rfl
    · rw [if_neg named, if_neg (mt beq_iff_eq.mp named)]
      rfl

def Lists (catalog : Catalog σ) (key : String) (arity : Nat) (call : List Value → Except InvokeError (List Value)) : Prop :=
  ∃ native, catalog.find? key = some native ∧ native.info.inputs.length = arity ∧
    ∀ arguments state, native.call arguments state = (call arguments, state)

theorem listed_answer {catalog : Catalog σ} {key : String} {arguments : List Value} (state : σ)
    (call : List Value → Except InvokeError (List Value)) (listed : catalog.Lists key arguments.length call) :
    catalog.invoke key arguments state = ((call arguments).mapError (.nativeCall key), state) := by
  obtain ⟨native, found, counted, calls⟩ := listed
  unfold invoke
  simp only [found, counted, ne_eq, not_true_eq_false, if_false, calls]
  cases call arguments with
  | ok => rfl
  | error => rfl

theorem listed_invoked {catalog : Catalog σ} {key : String} {arguments outputs : List Value} (state : σ)
    (call : List Value → Except InvokeError (List Value)) (listed : catalog.Lists key arguments.length call)
    (called : call arguments = .ok outputs) : catalog.invoke key arguments state = (.ok outputs, state) := by
  rw [listed_answer state call listed, called]
  rfl

end Catalog

theorem Native.arguments_read {a b : NativeType} {left right : Value} {x : a.Carrier} {y : b.Carrier}
    (first : a.read left = .ok x) (second : b.read right = .ok y) :
    argument a 0 [left, right] = .ok x ∧ argument b 1 [left, right] = .ok y := by
  constructor
  · simp only [argument, List.getElem?_cons_zero, first]
  · simp only [argument, List.getElem?_cons_succ, List.getElem?_cons_zero, second]

theorem Native.binary_called (a b r : NativeType) (f : a.Carrier → b.Carrier → r.Carrier) (left right : Value) (x : a.Carrier)
    (y : b.Carrier) (first : a.read left = .ok x) (second : b.read right = .ok y) :
    Native.binary a b r f [left, right] = .ok [r.write (f x y)] := by
  obtain ⟨one, two⟩ := arguments_read first second
  unfold Native.binary
  rw [one, two]
  rfl

theorem NativeType.values_read (items : List Value) : (NativeType.list .value).read (.array items) = .ok items := by
  have each : items.mapM (NativeType.read .value) = .ok items := by
    induction items with
    | nil => rfl
    | cons item rest ih =>
      rw [List.mapM_cons, ih]
      rfl
  exact each

namespace Library

open Double

variable (log : LogLevel → String → σ → σ) (state : σ)

theorem equal_invoked (a b : Value) :
    (catalog log).invoke "math/equal" [a, b] state = (.ok [.bool (equal a b)], state) := by
  have listed : (catalog log).Lists "math/equal" 2 (Native.binary .value .value .bool equal) := by
    rw [Catalog.Lists, catalog, Catalog.find_registered]
    exact ⟨_, rfl, rfl, fun _ _ => rfl⟩
  exact Catalog.listed_invoked state _ listed (Native.binary_called .value .value .bool equal a b a b rfl rfl)

theorem contains_invoked (items : List Value) (item : Value) :
    (catalog log).invoke "array/contains" [.array items, item] state = (.ok [.bool (items.any (equal · item))], state) := by
  have listed : (catalog log).Lists "array/contains" 2
      (Native.binary (.list .value) .value .bool fun (items : List Value) (item : Value) => items.any (equal · item)) := by
    rw [Catalog.Lists, catalog, Catalog.find_registered]
    exact ⟨_, rfl, rfl, fun _ _ => rfl⟩
  exact Catalog.listed_invoked state _ listed
    (Native.binary_called (.list .value) .value .bool _ _ item items item (NativeType.values_read items) rfl)

theorem int_equal (a b : Int64) : equal (.int a) (.int b) = decide (nearestInt a.toInt = nearestInt b.toInt) :=
  whole_same (int_whole a) (int_whole b)

/-- Integers are compared by what they become in double precision. Two that differ are told apart unless both have more than
53 bits and lie within one unit in the last place of the larger. -/
theorem integers_compare_rounded (a b : Int64) (items : List Int64) :
    (catalog log).invoke "math/equal" [.int a, .int b] state =
      (.ok [.bool (decide (nearestInt a.toInt = nearestInt b.toInt))], state) ∧
    (catalog log).invoke "array/contains" [.array (items.map .int), .int b] state =
      (.ok [.bool (decide (∃ item ∈ items, nearestInt item.toInt = nearestInt b.toInt))], state) ∧
    (nearestInt a.toInt = nearestInt b.toInt → a ≠ b → 2 ^ 53 ≤ a.toInt.natAbs ∧ 2 ^ 53 ≤ b.toInt.natAbs ∧
      (a.toInt - b.toInt).natAbs ≤ 2 ^ ((max a.toInt.natAbs b.toInt.natAbs).log2 - 52)) := by
  refine ⟨?_, ?_, ?_⟩
  · rw [equal_invoked, int_equal]
  · have each : (items.map Value.int).any (equal · (.int b)) =
        decide (∃ item ∈ items, nearestInt item.toInt = nearestInt b.toInt) := by
      rw [Bool.eq_iff_iff, List.any_map, List.any_eq_true, decide_eq_true_iff]
      simp only [Function.comp_apply, int_equal, decide_eq_true_iff]
    rw [contains_invoked, each]
  · intro same differ
    exact merged_close same (fun agree => differ (Int64.toInt_inj.mp agree))

/-- Integers that are 767 apart, on both sides of a power of two. -/
theorem distant_integers_merge :
    nearestInt (2 ^ 62 + 511) = 2 ^ 62 ∧ nearestInt (2 ^ 62 - 256) = 2 ^ 62 ∧
    (catalog fun _ _ (state : Unit) => state).invoke "math/equal" [.int 4611686018427388415, .int 4611686018427387648] () =
      (.ok [.bool true], ()) ∧
    (catalog fun _ _ (state : Unit) => state).invoke "array/contains"
        [.array [.int 0, .int 4611686018427388415], .int 4611686018427387648] () = (.ok [.bool true], ()) ∧
    (4611686018427388415 - 4611686018427387648 : Int).natAbs ≤ 2 ^ 10 := by
  obtain ⟨equals, contains, close⟩ := integers_compare_rounded (fun _ _ (state : Unit) => state) () 4611686018427388415
    4611686018427387648 [0, 4611686018427388415]
  have merged : nearestInt (Int64.toInt 4611686018427388415) = nearestInt (Int64.toInt 4611686018427387648) := by decide +kernel
  refine ⟨by decide +kernel, by decide +kernel, ?_, ?_, (close merged (by decide)).2.2⟩
  · rw [decide_eq_true merged] at equals
    exact equals
  · rw [decide_eq_true ⟨_, List.mem_cons_of_mem _ (List.mem_singleton_self _), merged⟩] at contains
    exact contains

/-- The first whole number that is rounded is 2 ^ 53 + 1. -/
theorem whole_neighbours_compare_equal :
    (¬∀ a b : Int64, (catalog fun _ _ (state : Unit) => state).invoke "math/equal" [.int a, .int b] () =
      (.ok [.bool (decide (a = b))], ())) ∧
    ¬∀ (items : List Int64) (b : Int64), (catalog fun _ _ (state : Unit) => state).invoke "array/contains"
      [.array (items.map .int), .int b] () = (.ok [.bool (decide (b ∈ items))], ()) := by
  have merged : equal (.int 9007199254740992) (.int 9007199254740993) = true := by
    rw [int_equal]
    decide +kernel
  constructor
  · intro exact
    have same := exact 9007199254740992 9007199254740993
    rw [equal_invoked, merged] at same
    cases same
  · intro exact
    have same := exact [9007199254740992] 9007199254740993
    rw [contains_invoked, List.map_singleton, List.any_cons, merged] at same
    cases same

end Library

end Patchbay
