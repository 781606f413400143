import Mathlib.Algebra.Group.Nat.Defs
import Mathlib.Data.List.Nodup
import Patchbay.Document.Record
import Patchbay.Document.Tagged

set_option autoImplicit false

namespace Patchbay

namespace Guid

theorem hex_value_digit {n : Nat} (small : n < 16) : hexValue? (hexDigit n) = some n := by
  revert n
  decide

theorem hex_digits_length (count n : Nat) : (hexDigits count n).length = count := by
  induction count generalizing n with
  | zero => rfl
  | succ count ih => rw [hexDigits, List.length_append, ih, List.length_singleton]

theorem of_hex_append (cs : List Char) (n digit : Nat) (read : ofHex? cs = some n) (small : digit < 16) :
    ofHex? (cs ++ [hexDigit digit]) = some (16 * n + digit) := by
  unfold ofHex? at read ⊢
  rw [List.foldlM_append, read]
  simp [hex_value_digit small]

theorem of_hex_text (count n : Nat) (fits : n < 16 ^ count) : ofHex? (hexDigits count n) = some n := by
  induction count generalizing n with
  | zero =>
    obtain rfl : n = 0 := by simpa using fits
    rfl
  | succ count ih =>
    have quotient : n / 16 < 16 ^ count := by
      rw [Nat.pow_succ, Nat.mul_comm] at fits
      exact Nat.div_lt_of_lt_mul fits
    rw [hexDigits, of_hex_append _ (n / 16) (n % 16) (ih (n / 16) quotient) (Nat.mod_lt n (by decide)), Nat.div_add_mod]

theorem of_hyphenated_groups (a b c d e : List Char) (ofA : a.length = 8) (ofB : b.length = 4) (ofC : c.length = 4)
    (ofD : d.length = 4) (ofE : e.length = 12) :
    ofHyphenated? (a ++ '-' :: (b ++ '-' :: (c ++ '-' :: (d ++ '-' :: e)))) = ofDigits? (a ++ b ++ c ++ d ++ e) := by
  have all : (a ++ '-' :: (b ++ '-' :: (c ++ '-' :: (d ++ '-' :: e)))).length = 36 := by simp [ofA, ofB, ofC, ofD, ofE]
  have past (cs : List Char) (n : Nat) (short : cs.length ≤ n) : cs.drop n = [] := List.drop_eq_nil_of_le short
  unfold ofHyphenated?
  rw [if_pos]
  · simp [List.drop_append, past a, past b, past c, past d, ofA, ofB, ofC, ofD]
  · refine ⟨all, ?_⟩
    simp [List.getElem?_append, ofA, ofB, ofC, ofD, ofE]

theorem parse_text (guid : Guid) : parse? guid.text = some guid := by
  have length := hex_digits_length 32 guid.bits.toNat
  have value := of_hex_text 32 guid.bits.toNat (Nat.lt_of_lt_of_eq guid.bits.isLt (by decide))
  unfold text
  generalize hexDigits 32 guid.bits.toNat = cs at length value
  have groups : (String.intercalate "-" ([cs.take 8, (cs.drop 8).take 4, (cs.drop 12).take 4, (cs.drop 16).take 4,
      cs.drop 20].map String.ofList)).toList = cs.take 8 ++ '-' :: ((cs.drop 8).take 4 ++ '-' :: ((cs.drop 12).take 4 ++
      '-' :: ((cs.drop 16).take 4 ++ '-' :: cs.drop 20))) := by
    simp [String.intercalate_cons_cons, String.intercalate_singleton]
  have whole : cs.take 8 ++ (cs.drop 8).take 4 ++ (cs.drop 12).take 4 ++ (cs.drop 16).take 4 ++ cs.drop 20 = cs := by
    have step (n : Nat) : (cs.drop n).take 4 ++ cs.drop (n + 4) = cs.drop n := by
      rw [← List.drop_drop, List.take_append_drop]
    rw [List.append_assoc, List.append_assoc, List.append_assoc, step 16, step 12, step 8, List.take_append_drop]
  have total : (String.intercalate "-" ([cs.take 8, (cs.drop 8).take 4, (cs.drop 12).take 4, (cs.drop 16).take 4,
      cs.drop 20].map String.ofList)).toList.length = 36 := by simp [length]
  simp only [parse?, total]
  rw [groups, of_hyphenated_groups _ _ _ _ _ (by simp [length]) (by simp [length]) (by simp [length]) (by simp [length])
    (by simp [length]), whole, ofDigits?, if_pos length, value]
  simp

end Guid

def Fits (n : Nat) : Prop := n < 2 ^ 64

instance (n : Nat) : Decidable (Fits n) := inferInstanceAs (Decidable (n < 2 ^ 64))

/-- How the numbers of a document come back from its text. -/
structure Echo where
  double : Float → Document
  single : Float32 → Document

/-- A finite number comes back as a number near to it, and one that is not finite as null. -/
structure Echo.Faithful (echo : Echo) (near : Float → Float) (nearSingle : Float32 → Float32) : Prop where
  double : ∀ x, x.isFinite = true → (echo.double x).float? = some (near x)
  single : ∀ x, x.isFinite = true → (echo.single x).single? = some (nearSingle x)
  lostDouble : ∀ x, x.isFinite = false → echo.double x = .null
  lostSingle : ∀ x, x.isFinite = false → echo.single x = .null

def Echo.plain : Echo := ⟨fun x => if x.isFinite then .float x else .null, fun x => if x.isFinite then .single x else .null⟩

theorem Echo.plain_faithful : Echo.plain.Faithful id id where
  double x finite := by simp [plain, finite, Document.float?]
  single x finite := by simp [plain, finite, Document.single?]
  lostDouble x lost := by simp [plain, lost]
  lostSingle x lost := by simp [plain, lost]

namespace Document

mutual

def echo (numbers : Echo) : Document → Document
  | .float value => numbers.double value
  | .single value => numbers.single value
  | .array items => .array (echoItems numbers items)
  | .object entries => .object (echoEntries numbers entries)
  | leaf => leaf

def echoItems (numbers : Echo) : List Document → List Document
  | [] => []
  | item :: rest => item.echo numbers :: echoItems numbers rest

def echoEntries (numbers : Echo) : List (String × Document) → List (String × Document)
  | [] => []
  | (name, item) :: rest => (name, item.echo numbers) :: echoEntries numbers rest

end

variable (numbers : Echo)

theorem echo_items (items : List Document) : echoItems numbers items = items.map (·.echo numbers) := by
  induction items with
  | nil => rfl
  | cons item rest ih => rw [echoItems, List.map_cons, ih]

variable {document : Document}

theorem sound_of_float {x : Float} (reads : document.float? = some x) : document.sound = true := by
  cases document with
  | float | int | single => rfl
  | _ => cases reads

theorem sound_of_single {x : Float32} (reads : document.single? = some x) : document.sound = true := by
  cases document with
  | float | int | single => rfl
  | _ => cases reads

section

variable {numbers} {near : Float → Float} {nearSingle : Float32 → Float32}

theorem double_sound (faithful : numbers.Faithful near nearSingle) (x : Float) : (numbers.double x).sound = true := by
  cases finite : x.isFinite with
  | true => exact sound_of_float (faithful.double x finite)
  | false =>
    rw [faithful.lostDouble x finite]
    rfl

theorem single_sound (faithful : numbers.Faithful near nearSingle) (x : Float32) : (numbers.single x).sound = true := by
  cases finite : x.isFinite with
  | true => exact sound_of_single (faithful.single x finite)
  | false =>
    rw [faithful.lostSingle x finite]
    rfl

mutual

theorem echo_sound (faithful : numbers.Faithful near nearSingle) :
    ∀ document : Document, document.sound = true → (document.echo numbers).sound = true
  | .null, _ | .bool _, _ | .int _, _ | .string _, _ => rfl
  | .float x, _ => double_sound faithful x
  | .single x, _ => single_sound faithful x
  | .array items, sound => echo_items_sound faithful items sound
  | .object entries, sound => echo_entries_sound faithful entries sound
  | .invalid, sound => sound

theorem echo_items_sound (faithful : numbers.Faithful near nearSingle) :
    ∀ items : List Document, soundItems items = true → soundItems (echoItems numbers items) = true
  | [], _ => rfl
  | item :: rest, sound => by
      obtain ⟨first, others⟩ := Bool.and_eq_true_iff.mp sound
      exact Bool.and_eq_true_iff.mpr ⟨echo_sound faithful item first, echo_items_sound faithful rest others⟩

theorem echo_entries_sound (faithful : numbers.Faithful near nearSingle) :
    ∀ entries : List (String × Document), soundEntries entries = true → soundEntries (echoEntries numbers entries) = true
  | [], _ => rfl
  | (_, item) :: rest, sound => by
      obtain ⟨first, others⟩ := Bool.and_eq_true_iff.mp sound
      exact Bool.and_eq_true_iff.mpr ⟨echo_sound faithful item first, echo_entries_sound faithful rest others⟩

end

end

theorem record_of_known (names : List String) (entries : List (String × Document)) (distinct : (entries.map (·.1)).Nodup)
    (known : ∀ name ∈ entries.map (·.1), name ∈ names) : record? names (.object entries) = some ⟨false, entries⟩ := by
  have once : ∀ name, (entriesNamed name entries).length ≤ 1 := by
    intro name
    have count := List.nodup_iff_count_le_one.mp distinct name
    rw [List.count, List.countP_map, List.countP_eq_length_filter] at count
    rw [entriesNamed, List.length_map]
    exact count
  have all : entries.filter (fun entry => names.contains entry.1) = entries :=
    List.filter_eq_self.mpr fun entry inside => by simpa using known entry.1 (List.mem_map_of_mem inside)
  rw [record?, if_pos (List.all_eq_true.mpr fun name _ => by simpa using once name), all]

theorem tagged_written (medium : Medium) (key name : String) (names : List String) (fields : List (String × Document))
    (apart : key ∉ fields.map (·.1)) (sound : soundEntries fields = true) :
    tagged? medium key names (.object ((key, .string name) :: fields)) = some (name, .object fields) := by
  have other (entry : String × Document) (inside : entry ∈ fields) : entry.1 ≠ key := by
    rintro rfl
    exact apart (List.mem_map_of_mem inside)
  have none : fields.filter (fun entry => entry.1 == key) = [] :=
    List.filter_eq_nil_iff.mpr fun entry inside => by simp [other entry inside]
  have all : fields.filter (fun entry => entry.1 != key) = fields :=
    List.filter_eq_self.mpr fun entry inside => by simp [other entry inside]
  simp only [tagged?, entriesNamed, List.filter_cons, beq_self_eq_true, if_true, none, List.map_cons, List.map_nil,
    bne_self_eq_false, Bool.false_eq_true, if_false, all, sound]
  rfl

variable {α β : Type} {result : Option α} {value : α}

theorem bind_found (found : result = some value) (next : α → Option β) :
    (result >>= next) = next value := by
  rw [found]
  rfl

theorem bind_guarded {keep : Bool} (found : result = if keep then some value else none) (next : α → Option β) :
    (result >>= next) = if keep then next value else none := by
  rw [found]
  cases keep <;> rfl

theorem guard_and (first second : Bool) (result : Option α) :
    (if first then if second then result else none else none) = if first && second then result else none := by
  cases first <;> rfl

theorem guid_written (guid : Guid) : (Document.ofGuid guid).guid? = some guid := guid.parse_text

theorem nat_written {n : Nat} (fits : Fits n) : (Document.ofNat n).nat? = some n := by
  have inside : Number.fitsUnsigned 64 (n : Int) = true := by
    have small : n < 2 ^ 64 := fits
    have bound : twoTo 64 = 2 ^ 64 := by decide
    simp only [Number.fitsUnsigned, bound, Bool.and_eq_true, decide_eq_true_eq]
    omega
  simp only [ofNat, nat?, inside, if_true, Int.toNat_natCast]

theorem int64_fits (value : Int64) : Number.fitsSigned 64 value.toInt = true := by
  have bound : twoTo (64 - 1) = 2 ^ 63 := by decide
  simp only [Number.fitsSigned, bound, Bool.and_eq_true, decide_eq_true_eq]
  have low := value.le_toInt
  have high := value.toInt_lt
  omega

theorem int_written (value : Int64) : (Document.int value.toInt).int64? = some value := by
  simp only [int64?, int64_fits, if_true, Int64.ofInt_toInt]

theorem map_guarded {γ : Type} (read : β → Option γ) (view : α → β) (keep : α → Bool) (back : α → γ) (items : List α)
    (each : ∀ item ∈ items, read (view item) = if keep item then some (back item) else none) :
    (items.map view).mapM read = if items.all keep then some (items.map back) else none := by
  induction items with
  | nil => rfl
  | cons item rest ih =>
    obtain ⟨first, others⟩ := List.forall_mem_cons.mp each
    rw [List.map_cons, List.mapM_cons, bind_guarded first, bind_guarded (ih others), guard_and]
    rfl

variable (read : Document → Option α)

theorem list_echo (write : α → Document) (keep : α → Bool) (back : α → α)
    (items : List α)
    (each : ∀ item ∈ items, read ((write item).echo numbers) = if keep item then some (back item) else none) :
    list? read ((ofList write items).echo numbers) = if items.all keep then some (items.map back) else none := by
  rw [ofList, echo, echo_items, List.map_map]
  exact map_guarded read _ keep back items each

theorem list_back (write : α → Document)
    (each : ∀ item, read ((write item).echo numbers) = some item) (items : List α) :
    list? read ((ofList write items).echo numbers) = some items := by
  have all := list_echo numbers read write (fun _ => true) id items fun item _ => each item
  simpa using all

/-- A document that is read as a value, unless numbers were lost. -/
structure Comes {α : Type} (read : Document → Option α) (keep : Bool) (value : α) (document : Document) : Prop where
  sound : document.sound = true
  read : read (document.echo numbers) = if keep then some value else none

theorem written_list (write : α → Option Document) (keep : α → Bool) (back : α → α)
    (items : List α)
    (each : ∀ item ∈ items, ∃ document, write item = some document ∧ Comes numbers read (keep item) (back item) document) :
    ∃ documents, items.mapM write = some documents ∧
      Comes numbers (list? read) (items.all keep) (items.map back) (.array documents) := by
  induction items with
  | nil => exact ⟨[], rfl, rfl, rfl⟩
  | cons item rest ih =>
    obtain ⟨first, others⟩ := List.forall_mem_cons.mp each
    obtain ⟨document, written, comes⟩ := first
    obtain ⟨documents, later, more⟩ := ih others
    refine ⟨document :: documents, ?_, Bool.and_eq_true_iff.mpr ⟨comes.sound, more.sound⟩, ?_⟩
    · rw [List.mapM_cons, bind_found written, bind_found later]
      rfl
    · have one := comes.read
      have all : (echoItems numbers documents).mapM read = if rest.all keep then some (rest.map back) else none := more.read
      have opened : list? read ((Document.array (document :: documents)).echo numbers) =
          (document.echo numbers :: echoItems numbers documents).mapM read := rfl
      rw [opened, List.mapM_cons, bind_guarded one, bind_guarded all, guard_and]
      rfl

end Document

namespace Record

variable {α : Type}

variable {document : Document}

variable (record : Record) (name : String)

theorem required_found (found : record.find? name = some document)
    (read : Document → Option α) : record.required name read = read document := by
  rw [required, found]
  rfl

theorem default_found (found : record.find? name = some document)
    (default : α) (read : Document → Option α) : record.withDefault name default read = read document := by
  rw [withDefault, found]

theorem default_missing (missing : record.find? name = none) (default : α)
    (read : Document → Option α) : record.withDefault name default read = some default := by
  rw [withDefault, missing]

theorem optional_found (found : record.find? name = some document)
    (present : document ≠ .null) (read : Document → Option α) : record.optional name read = (read document).map some := by
  rw [optional, default_found record name found]
  cases document with
  | null => exact absurd rfl present
  | _ => rfl

end Record

end Patchbay
