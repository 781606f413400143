import Patchbay.Document.Printer
import Patchbay.Document.Reader
import Patchbay.Proofs.Echo

set_option autoImplicit false

namespace Patchbay

def Spells (c : Char) (part : Document.StringPart) : Prop :=
  part = .char c ∨ part = .unit c.toNat ∧ c.toNat < 32

namespace Document

theorem scan_escaped (c : Char) (parts : List StringPart) (tail : List Char) :
    ∃ part, Spells c part ∧ scanString parts (escape c ++ tail) = scanString (part :: parts) tail := by
  by_cases short : c ∈ ['"', '\\', '\x08', '\x0c', '\n', '\r', '\t']
  · refine ⟨.char c, .inl rfl, ?_⟩
    simp only [List.mem_cons, List.not_mem_nil, or_false] at short
    obtain rfl | rfl | rfl | rfl | rfl | rfl | rfl := short <;> rfl
  · simp only [List.mem_cons, List.not_mem_nil, or_false, not_or] at short
    by_cases control : c.toNat < 32
    · refine ⟨.unit c.toNat, .inr ⟨rfl, control⟩, ?_⟩
      have read := Guid.of_hex_text 4 c.toNat (Nat.lt_trans control (by decide))
      simp only [escape, short, control, if_false, if_true, Guid.hexDigits, List.nil_append, List.cons_append] at read ⊢
      rw [scanString, read]
    · refine ⟨.char c, .inl rfl, ?_⟩
      simp only [escape, short, control, if_false, List.singleton_append]
      rw [scanString, if_neg (not_or.mpr ⟨control, short.2.1⟩)]
      all_goals simp [short]

theorem join_spelled {c : Char} {part : StringPart} (spells : Spells c part) (cs : List Char) (parts : List StringPart) :
    joinParts cs (part :: parts) = joinParts (c :: cs) parts := by
  obtain rfl | ⟨rfl, control⟩ := spells
  · rw [joinParts]
  · have low : ¬ (0xdc00 ≤ c.toNat ∧ c.toNat < 0xe000) := by omega
    have high : ¬ (0xd800 ≤ c.toNat ∧ c.toNat < 0xdc00) := by omega
    have alone : ¬ (0xd800 ≤ c.toNat ∧ c.toNat < 0xe000) := by omega
    cases parts with
    | nil => simp only [joinParts, if_neg alone, Char.ofNat_toNat]
    | cons next rest =>
      cases next with
      | char d => simp only [joinParts, if_neg alone, Char.ofNat_toNat]
      | unit code => rw [joinParts, if_neg low, if_neg high, Char.ofNat_toNat]

theorem scan_quoted (s rest : List Char) (parts : List StringPart) :
    ∃ scanned, scanString parts (s.flatMap escape ++ '"' :: rest) = some (scanned, rest) ∧
      ∀ cs, joinParts cs scanned = joinParts (s ++ cs) parts := by
  induction s generalizing parts with
  | nil => exact ⟨parts, rfl, fun _ => rfl⟩
  | cons c s ih =>
    obtain ⟨part, spells, first⟩ := scan_escaped c parts (s.flatMap escape ++ '"' :: rest)
    obtain ⟨scanned, others, joined⟩ := ih (part :: parts)
    refine ⟨scanned, ?_, fun cs => ?_⟩
    · rw [List.flatMap_cons, List.append_assoc, first, others]
    · rw [joined, join_spelled spells]
      rfl

theorem read_quoted (s : String) (rest : List Char) :
    readString (s.toList.flatMap escape ++ '"' :: rest) = some (some s, rest) := by
  obtain ⟨scanned, found, joined⟩ := scan_quoted s.toList rest []
  have whole : joinParts [] scanned = some s.toList := by rw [joined, List.append_nil, joinParts]
  simp only [readString, found, Option.map_some, whole, String.ofList_toList]

end Document

def isNumeric (c : Char) : Bool := isDigit c || ['-', '+', '.', 'e', 'E'].contains c

/-- The second text is what is left of the first when numeric characters are taken off. -/
def Sheds (cs rest : List Char) : Prop := ∃ used, cs = used ++ rest ∧ ∀ c ∈ used, isNumeric c = true

namespace Sheds

theorem refl (cs : List Char) : Sheds cs cs := ⟨[], rfl, by simp⟩

theorem trans {a b c : List Char} (first : Sheds a b) (second : Sheds b c) : Sheds a c := by
  obtain ⟨front, rfl, numeric⟩ := first
  obtain ⟨back, rfl, others⟩ := second
  refine ⟨front ++ back, by rw [List.append_assoc], fun d member => ?_⟩
  exact (List.mem_append.mp member).elim (numeric d) (others d)

theorem cons (c : Char) (rest : List Char) (numeric : isNumeric c = true) : Sheds (c :: rest) rest :=
  ⟨[c], rfl, by simpa using numeric⟩

theorem digits (cs : List Char) : Sheds cs (cs.dropWhile isDigit) := by
  refine ⟨cs.takeWhile isDigit, (List.takeWhile_append_dropWhile).symm, fun c member => ?_⟩
  rw [isNumeric, List.all_eq_true.mp List.all_takeWhile c member, Bool.true_or]

end Sheds

namespace Numeral

variable {cs rest : List Char} {numeral : Numeral}

theorem scan_fraction_sheds {fraction : Option (List Char)}
    (scanned : scanFraction cs = some (fraction, rest)) : Sheds cs rest := by
  unfold scanFraction at scanned
  split at scanned
  · next tail =>
      dsimp only at scanned
      split at scanned <;> cases scanned
      exact (Sheds.cons '.' tail (by decide)).trans (.digits tail)
  · cases scanned
    exact .refl _

theorem scan_sign_sheds (cs : List Char) : Sheds cs (scanSign cs).2 := by
  unfold scanSign
  split
  · exact .cons '-' _ (by decide)
  · exact .cons '+' _ (by decide)
  · exact .refl cs

theorem scan_exponent_sheds {exponent : Option (Bool × List Char)}
    (scanned : scanExponent cs = some (exponent, rest)) : Sheds cs rest := by
  unfold scanExponent at scanned
  split at scanned
  · next c tail =>
      split at scanned
      · next marks =>
          dsimp only at scanned
          split at scanned <;> cases scanned
          have numeric : isNumeric c = true := by
            obtain rfl | rfl := marks <;> decide
          exact (Sheds.cons c tail numeric).trans ((scan_sign_sheds tail).trans (.digits _))
      · cases scanned
        exact .refl _
  · cases scanned
    exact .refl _

theorem scan_unsigned_sheds {negative : Bool}
    (scanned : scanUnsigned negative cs = some (numeral, rest)) : Sheds cs rest := by
  unfold scanUnsigned at scanned
  dsimp only at scanned
  split at scanned
  · cases scanned
  · simp only [bind, Option.bind_eq_some_iff, pure, Option.some.injEq, Prod.mk.injEq] at scanned
    obtain ⟨⟨fraction, middle⟩, first, ⟨exponent, last⟩, second, _, rfl⟩ := scanned
    exact (Sheds.digits cs).trans ((scan_fraction_sheds first).trans (scan_exponent_sheds second))

theorem scan_sheds (scanned : scan cs = some (numeral, rest)) :
    Sheds cs rest := by
  unfold scan at scanned
  split at scanned
  · next tail => exact (Sheds.cons '-' tail (by decide)).trans (scan_unsigned_sheds scanned)
  · exact scan_unsigned_sheds scanned

end Numeral

/-- A text that ends where a number in front of it ends as well. -/
def Closes (rest : List Char) : Prop := ∀ c ∈ rest.head?, isNumeric c = false

/-- A text that does not go on as a document does after a value: a number broke off in front of it. -/
def Stuck (rest : List Char) : Prop := ∃ c ∈ rest.head?, isNumeric c = true

theorem sheds_text {text rest left : List Char} (numeric : ∀ c ∈ text, isNumeric c = true) (closes : Closes rest)
    (sheds : Sheds (text ++ rest) left) : left = rest ∨ Stuck left := by
  obtain ⟨used, split, taken⟩ := sheds
  rcases List.append_eq_append_iff.mp split with ⟨more, same, front⟩ | ⟨more, same, back⟩
  · -- The scan went into the rest, whose first character no number has.
    cases more with
    | nil => exact .inl (by simpa using front.symm)
    | cons c more =>
      have open' := closes c (by simp [front])
      have used' := taken c (by simp [same])
      rw [open'] at used'
      cases used'
  · cases more with
    | nil => exact .inl (by simpa using back)
    | cons c more => exact .inr ⟨c, by simp [back], numeric c (by simp [same])⟩

theorem to_digits_digits (n : Nat) : ∀ c ∈ Nat.toDigits 10 n, isDigit c = true := by
  intro c member
  have digit := Nat.isDigit_of_mem_toDigits (by decide) (by decide) member
  simp only [Char.isDigit, Bool.and_eq_true, decide_eq_true_eq] at digit
  simp only [isDigit, Bool.and_eq_true, decide_eq_true_eq]
  exact digit

theorem to_digits_numeric (n : Nat) : ∀ c ∈ Nat.toDigits 10 n, isNumeric c = true := by
  intro c member
  rw [isNumeric, to_digits_digits n c member, Bool.true_or]

structure NumberText (text : List Char) : Prop where
  filled : text ≠ []
  numeric : ∀ c ∈ text, isNumeric c = true

theorem to_digits_text (n : Nat) : NumberText (Nat.toDigits 10 n) :=
  ⟨List.ne_nil_of_length_pos Nat.length_toDigits_pos, to_digits_numeric n⟩

namespace NumberText

theorem cons {text : List Char} (c : Char) (numeric : isNumeric c = true) (rest : ∀ c ∈ text, isNumeric c = true) :
    NumberText (c :: text) :=
  ⟨List.cons_ne_nil c text, List.forall_mem_cons.mpr ⟨numeric, rest⟩⟩

theorem append {a b : List Char} (first : NumberText a) (second : ∀ c ∈ b, isNumeric c = true) : NumberText (a ++ b) :=
  ⟨List.append_ne_nil_of_left_ne_nil first.filled b, List.forall_mem_append.mpr ⟨first.numeric, second⟩⟩

theorem zeros {count : Int} : ∀ c ∈ Decimal.zeros count, isNumeric c = true := by
  intro c member
  rw [(List.mem_replicate.mp member).2]
  decide

theorem positional (decimal : Decimal) : NumberText decimal.positional := by
  have digits : NumberText decimal.digitChars := to_digits_text decimal.digits
  unfold Decimal.positional
  dsimp only
  split
  · exact digits.append zeros
  · split
    · refine ⟨by simp, List.forall_mem_append.mpr ⟨?_, List.forall_mem_cons.mpr ⟨by decide, ?_⟩⟩⟩
      · exact fun c member => digits.numeric c (List.mem_of_mem_take member)
      · exact fun c member => digits.numeric c (List.mem_of_mem_drop member)
    · refine .cons '0' (by decide) (List.forall_mem_cons.mpr ⟨by decide, ?_⟩)
      exact List.forall_mem_append.mpr ⟨zeros, digits.numeric⟩

theorem power (exponent : Int) : NumberText (Decimal.powerText exponent) := by
  unfold Decimal.powerText
  split
  · exact .cons '-' (by decide) (to_digits_numeric _)
  · exact .cons '+' (by decide) (to_digits_numeric _)

theorem scientific (decimal : Decimal) : NumberText decimal.scientific := by
  have digits : NumberText decimal.digitChars := to_digits_text decimal.digits
  have last := (power (decimal.point - 1)).numeric
  unfold Decimal.scientific
  dsimp only
  split
  · next none => exact absurd none digits.filled
  · next digit single =>
      rw [single] at digits
      exact .cons digit (digits.numeric digit (by simp)) (List.forall_mem_cons.mpr ⟨by decide, last⟩)
  · next digit rest _ split =>
      rw [split] at digits
      obtain ⟨head, tail⟩ := List.forall_mem_cons.mp digits.numeric
      refine .cons digit head (List.forall_mem_cons.mpr ⟨by decide, ?_⟩)
      exact List.forall_mem_append.mpr ⟨tail, List.forall_mem_cons.mpr ⟨by decide, last⟩⟩

theorem point_zero : ∀ c ∈ ['.', '0'], isNumeric c = true :=
  List.forall_mem_cons.mpr ⟨by decide, List.forall_mem_cons.mpr ⟨by decide, by simp⟩⟩

theorem decimal (style : DocumentStyle) (decimal : Decimal) : NumberText (style.decimalText decimal) := by
  unfold DocumentStyle.decimalText
  split
  · refine (positional decimal).append fun c member => ?_
    split at member
    · exact point_zero c member
    · cases member
  · exact scientific decimal

theorem float {style : DocumentStyle} {format : Format} {decoded : Decoded} {text : String}
    (written : style.text? format decoded = some text) : NumberText text.toList := by
  unfold DocumentStyle.text? at written
  split at written
  · next negative significand exponent =>
      cases written
      rw [String.toList_ofList]
      have body : NumberText (if significand = 0 then "0.0".toList
          else style.decimalText (format.shortest .even significand exponent)) := by
        split
        · exact .cons '0' (by decide) point_zero
        · exact decimal style _
      cases negative
      · exact body
      · exact .cons '-' (by decide) body.numeric
  · cases written

theorem int (n : Int) : NumberText (toString n).toList := by
  cases n with
  | ofNat m =>
    have text : (toString (Int.ofNat m)).toList = Nat.toDigits 10 m := by
      rw [show toString (Int.ofNat m) = toString m from rfl, Nat.toString_eq_ofList_toDigits, String.toList_ofList]
    rw [text]
    exact to_digits_text m
  | negSucc m =>
    have text : (toString (Int.negSucc m)).toList = '-' :: Nat.toDigits 10 (m + 1) := by
      rw [show toString (Int.negSucc m) = "-" ++ toString (m + 1) from rfl, String.toList_append,
        Nat.toString_eq_ofList_toDigits]
      exact congrArg (['-'] ++ ·) String.toList_ofList
    rw [text]
    exact .cons '-' (by decide) (to_digits_numeric _)

end NumberText

namespace Document

theorem skip_space_of_not (c : Char) (rest : List Char) (visible : isSpace c = false) :
    skipSpace (c :: rest) = c :: rest := List.dropWhile_cons_of_neg (by simp [visible])

theorem numeric_visible {c : Char} (numeric : isNumeric c = true) : isSpace c = false := by
  simp only [isNumeric, isDigit, Bool.or_eq_true, Bool.and_eq_true, decide_eq_true_eq, List.contains_cons,
    beq_iff_eq, List.contains_nil, Bool.false_eq_true, or_false] at numeric
  simp only [isSpace, Bool.or_eq_false_iff, beq_eq_false_iff_ne]
  refine ⟨⟨⟨?_, ?_⟩, ?_⟩, ?_⟩ <;> rintro rfl <;> revert numeric <;> decide

variable {rest left : List Char} {numeral : Numeral}

theorem read_number (number : Numeral → Document) {text : List Char} (isText : NumberText text)
    (closes : Closes rest) {fuel level : Nat} {document : Document}
    (read : readValue number fuel level (text ++ rest) = some (document, left)) :
    (∃ numeral, Numeral.scan (text ++ rest) = some (numeral, left) ∧ document = number numeral) ∧
      (left = rest ∨ Stuck left) := by
  cases text with
  | nil => exact absurd rfl isText.filled
  | cons c tail =>
    cases fuel with
    | zero => simp [readValue] at read
    | succ fuel =>
      have numeric := isText.numeric c (by simp)
      have scans : (Numeral.scan (c :: tail ++ rest)).map (fun scanned => (number scanned.1, scanned.2)) =
          some (document, left) := by
        rw [List.cons_append] at read ⊢
        rw [readValue, skip_space_of_not c _ (numeric_visible numeric)] at read
        split at read
        case h_7 => exact read
        all_goals
          next same =>
            obtain ⟨rfl, _⟩ := List.cons.inj same
            exact absurd numeric (by decide)
      obtain ⟨⟨numeral, _⟩, scanned, same⟩ := Option.map_eq_some_iff.mp scans
      cases same
      exact ⟨⟨numeral, scanned, rfl⟩, sheds_text isText.numeric closes (Numeral.scan_sheds scanned)⟩

theorem scan_closed (closes : Closes rest) :
    rest.takeWhile isDigit = [] ∧ rest.dropWhile isDigit = rest ∧ Numeral.scanFraction rest = some (none, rest) ∧
      Numeral.scanExponent rest = some (none, rest) := by
  cases rest with
  | nil => exact ⟨rfl, rfl, rfl, rfl⟩
  | cons c rest =>
    have other := closes c rfl
    simp only [isNumeric, Bool.or_eq_false_iff, List.contains_cons, beq_eq_false_iff_ne, List.contains_nil, and_true] at other
    obtain ⟨digit, _, _, point, small, large⟩ := other
    refine ⟨by simp [digit], by simp [digit], ?_, ?_⟩
    · rw [Numeral.scanFraction]
      rintro _ same
      exact point (List.cons.inj same).1
    · rw [Numeral.scanExponent, if_neg (not_or.mpr ⟨small, large⟩)]

theorem scan_digits {n : Nat} (closes : Closes rest)
    (scanned : Numeral.scan (Nat.toDigits 10 n ++ rest) = some (numeral, left)) :
    numeral = ⟨false, Nat.toDigits 10 n, none, none⟩ := by
  have digits := to_digits_digits n
  obtain ⟨taken, dropped, fraction, exponent⟩ := scan_closed closes
  unfold Numeral.scan at scanned
  split at scanned
  · next tail same =>
      cases front : Nat.toDigits 10 n with
      | nil => exact absurd front (to_digits_text n).filled
      | cons =>
        rw [front] at same digits
        obtain ⟨rfl, _⟩ := List.cons.inj same
        exact absurd (digits '-' (by simp)) (by decide)
  · unfold Numeral.scanUnsigned at scanned
    rw [List.takeWhile_append_of_pos digits, List.dropWhile_append_of_pos digits, taken, dropped, List.append_nil,
      fraction] at scanned
    dsimp only at scanned
    split at scanned
    · cases scanned
    · simp only [bind, Option.bind_some, exponent, pure, Option.some.injEq, Prod.mk.injEq] at scanned
      exact scanned.1.symm

theorem digits_value (n : Nat) : digitsValue (Nat.toDigits 10 n) = n := by
  have same : digitsValue (Nat.toDigits 10 n) = Nat.ofDigitChars 10 (Nat.toDigits 10 n) 0 := rfl
  rw [same, Nat.ofDigitChars_ten_toDigits]

theorem to_int_count (n : Nat) : (Numeral.mk false (Nat.toDigits 10 n) none none).toInt? =
    if Number.fitsUnsigned 64 (n : Int) = true then some (n : Int) else none := by
  rw [Numeral.toInt?, if_neg (by simp), if_neg Bool.false_ne_true, digits_value]

theorem of_numeral_int {n : Int} {fits : Bool} (whole : numeral.toInt? = if fits = true then some n else none) :
    ofNumeral numeral = .int n ∨ ∀ m, ofNumeral numeral ≠ .int m := by
  unfold ofNumeral
  rw [whole]
  cases fits with
  | true => exact .inl rfl
  | false =>
    right
    intro m
    cases numeral.toFloat? <;> simp

/-- Parts of a document that may come back as anything: numbers with a point or a sign. -/
def isRough : Document → Bool
  | .float _ | .single _ | .invalid => true
  | .int n => n < 0
  | _ => false

mutual

/-- What a document may come back as when its text is read. All but numbers come back as they were,
if they come back at all; a count may come back as something that is no whole number. -/
inductive Rereads : Document → Document → Prop where
  | null : Rereads .null .null
  | bool (value : Bool) : Rereads (.bool value) (.bool value)
  | string (value : String) : Rereads (.string value) (.string value)
  | count (n : Nat) : Rereads (.int n) (.int n)
  | large (n : Nat) (read : Document) (other : ∀ m, read ≠ .int m) : Rereads (.int n) read
  | rough (written read : Document) (rough : written.isRough = true) : Rereads written read
  | lost (written : Document) : Rereads written .invalid
  | array (items others : List Document) (each : ItemsReread items others) : Rereads (.array items) (.array others)
  | object (entries others : List (String × Document)) (each : EntriesReread entries others) :
      Rereads (.object entries) (.object others)

inductive ItemsReread : List Document → List Document → Prop where
  | nil : ItemsReread [] []
  | cons (item other : Document) (items others : List Document) (first : Rereads item other)
      (rest : ItemsReread items others) : ItemsReread (item :: items) (other :: others)

inductive EntriesReread : List (String × Document) → List (String × Document) → Prop where
  | nil : EntriesReread [] []
  | cons (name : String) (item other : Document) (entries others : List (String × Document)) (first : Rereads item other)
      (rest : EntriesReread entries others) : EntriesReread ((name, item) :: entries) ((name, other) :: others)

end

/-- What reading the text of a document leads to: the document, or a number that broke off. -/
def Arrived (written read : Document) (rest left : List Char) : Prop := left = rest ∧ Rereads written read ∨ Stuck left

variable {rest left : List Char} {fuel level : Nat} {document : Document}

theorem read_rough {text : List Char} (isText : NumberText text) (closes : Closes rest) {written : Document}
    (rough : written.isRough = true) (read : readValue ofNumeral fuel level (text ++ rest) = some (document, left)) :
    Arrived written document rest left :=
  (read_number ofNumeral isText closes read).2.imp (fun same => ⟨same, .rough written document rough⟩) id

theorem int_text (n : Nat) : (toString (n : Int)).toList = Nat.toDigits 10 n := by
  rw [show toString (n : Int) = toString n from rfl, Nat.toString_eq_ofList_toDigits, String.toList_ofList]

theorem read_int {n : Int} (closes : Closes rest)
    (read : readValue ofNumeral fuel level ((toString n).toList ++ rest) = some (document, left)) :
    Arrived (.int n) document rest left := by
  cases n with
  | negSucc m => exact read_rough (.int _) closes (by simp [isRough, Int.negSucc_lt_zero]) read
  | ofNat m =>
    obtain ⟨⟨numeral, scanned, rfl⟩, ends⟩ := read_number ofNumeral (.int _) closes read
    refine ends.imp (fun same => ⟨same, ?_⟩) id
    have text : (toString (Int.ofNat m)).toList = Nat.toDigits 10 m := int_text m
    rw [text] at scanned
    rw [scan_digits closes scanned]
    obtain same | other := of_numeral_int (to_int_count m)
    · rw [same]
      exact .count m
    · exact .large m _ other

theorem quote_text (s : String) : (quote s).toList = '"' :: (s.toList.flatMap escape ++ ['"']) := by
  rw [quote, String.toList_ofList]
  rfl

theorem stuck_not (c : Char) (rest left : List Char) (other : isNumeric c = false) (stuck : Stuck left) :
    skipSpace left ≠ c :: rest := by
  obtain ⟨d, front, numeric⟩ := stuck
  cases left with
  | nil => cases front
  | cons e left =>
    obtain rfl : e = d := by simpa using front
    rw [skip_space_of_not e left (numeric_visible numeric)]
    rintro same
    obtain ⟨rfl, _⟩ := List.cons.inj same
    rw [other] at numeric
    cases numeric

theorem closes_cons (c : Char) (rest : List Char) (other : isNumeric c = false) : Closes (c :: rest) := by
  intro d front
  obtain rfl : c = d := by simpa using front
  exact other

theorem expect_char_front (c : Char) (rest : List Char) (visible : isSpace c = false) :
    expectChar c (c :: rest) = some rest := by
  rw [expectChar, skip_space_of_not c rest visible]
  exact if_pos rfl

theorem entry_front (name : String) (rest : List Char) :
    (expectChar '"' ('"' :: (name.toList.flatMap escape ++ '"' :: rest))).bind readString = some (some name, rest) := by
  rw [expect_char_front '"' _ (by decide), Option.bind_some, read_quoted]

section

variable {number : Numeral → Document}

theorem skip_blank (blank cs : List Char) (all : ∀ c ∈ blank, isSpace c = true) : skipSpace (blank ++ cs) = skipSpace cs :=
  List.dropWhile_append_of_pos all

theorem read_blank (blank cs : List Char) (all : ∀ c ∈ blank, isSpace c = true) (fuel level : Nat) :
    readValue number fuel level (blank ++ cs) = readValue number fuel level cs := by
  cases fuel with
  | zero => rw [readValue, readValue]
  | succ fuel => rw [readValue, readValue, skip_blank blank cs all]

/-- Texts with commas after them, and a gap after each comma. -/
def joined (gap : String) (texts : List String) : List Char := (String.intercalate ("," ++ gap) texts).toList

theorem joined_single (gap text : String) : joined gap [text] = text.toList := by
  rw [joined, String.intercalate_singleton]

theorem joined_cons (gap text next : String) (texts : List String) :
    joined gap (text :: next :: texts) = text.toList ++ ',' :: (gap.toList ++ joined gap (next :: texts)) := by
  rw [joined, String.intercalate_cons_cons, String.toList_append, String.toList_append, String.toList_append,
    List.append_assoc, List.append_assoc]
  rfl

/-- What stands between brackets: nothing, or parts with gaps around them. -/
def enclosed (gap : Nat → String) (level : Nat) (texts : List String) : List Char :=
  if texts.isEmpty then [] else (gap (level + 1)).toList ++ (joined (gap (level + 1)) texts ++ (gap level).toList)

/-- A way to print documents. The gap depends on how far the text is indented, and both it and what follows the colon after a
name are blank. -/
structure Layout where
  print : Nat → Document → String
  gap : Nat → String
  separator : String
  blank : ∀ level, ∀ c ∈ (gap level).toList, isSpace c = true
  separates : ∃ after, separator.toList = ':' :: after ∧ ∀ c ∈ after, isSpace c = true
  array : ∀ level items, (print level (.array items)).toList =
    '[' :: (enclosed gap level (items.map (print (level + 1))) ++ [']'])
  object : ∀ level entries, (print level (.object entries)).toList =
    '\x7b' :: (enclosed gap level (entries.map fun entry => quote entry.1 ++ separator ++ print (level + 1) entry.2) ++ ['\x7d'])
  leaf : ∀ level document, print level document = document.leafText ∨ (∃ items, document = .array items) ∨
    ∃ entries, document = .object entries

theorem line_break_blank (level : Nat) : ∀ c ∈ (lineBreak level).toList, isSpace c = true := by
  have text : (lineBreak level).toList = '\n' :: List.replicate (2 * level) ' ' := by simp [lineBreak]
  rw [text]
  refine List.forall_mem_cons.mpr ⟨rfl, fun c inside => ?_⟩
  rw [List.eq_of_mem_replicate inside]
  rfl

theorem block_text (opening closing : String) (level : Nat) (texts : List String) :
    (block opening closing level texts).toList = opening.toList ++ (enclosed lineBreak level texts ++ closing.toList) := by
  unfold block enclosed joined
  split
  · rw [String.toList_append, List.nil_append]
  · simp only [String.toList_append, List.append_assoc]

theorem pretty_items (level : Nat) (items : List Document) : prettyItems level items = items.map (prettyAt level) := by
  induction items with
  | nil => rfl
  | cons item rest ih => rw [prettyItems, List.map_cons, ih]

theorem pretty_entries (level : Nat) (entries : List (String × Document)) :
    prettyEntries level entries = entries.map fun entry => quote entry.1 ++ ": " ++ entry.2.prettyAt level := by
  induction entries with
  | nil => rfl
  | cons entry rest ih => rw [prettyEntries, List.map_cons, ih]

def Layout.indented : Layout where
  print := prettyAt
  gap := lineBreak
  separator := ": "
  blank := line_break_blank
  separates := ⟨[' '], rfl, by simp [isSpace]⟩
  array level items := by
    rw [prettyAt, block_text, pretty_items]
    rfl
  object level entries := by
    rw [prettyAt, block_text, pretty_entries]
    rfl
  leaf level document := by
    cases document with
    | array items => exact .inr (.inl ⟨items, rfl⟩)
    | object entries => exact .inr (.inr ⟨entries, rfl⟩)
    | _ => exact .inl rfl

theorem compact_items (items : List Document) : compactItems items = items.map compact := by
  induction items with
  | nil => rfl
  | cons item rest ih => rw [compactItems, List.map_cons, ih]

theorem compact_entries (entries : List (String × Document)) :
    compactEntries entries = entries.map fun entry => quote entry.1 ++ ":" ++ entry.2.compact := by
  induction entries with
  | nil => rfl
  | cons entry rest ih => rw [compactEntries, List.map_cons, ih]

theorem enclosed_dense (level : Nat) (texts : List String) :
    enclosed (fun _ => "") level texts = (String.intercalate "," texts).toList := by
  cases texts with
  | nil => rfl
  | cons => exact List.append_nil _

def Layout.dense : Layout where
  print _ := compact
  gap _ := ""
  separator := ":"
  blank _ _ inside := absurd inside List.not_mem_nil
  separates := ⟨[], rfl, fun _ inside => absurd inside List.not_mem_nil⟩
  array level items := by
    rw [enclosed_dense, ← compact_items, compact, String.toList_append, String.toList_append]
    rfl
  object level entries := by
    rw [enclosed_dense, ← compact_entries, compact, String.toList_append, String.toList_append]
    rfl
  leaf level document := by
    cases document with
    | array items => exact .inr (.inl ⟨items, rfl⟩)
    | object entries => exact .inr (.inr ⟨entries, rfl⟩)
    | _ => exact .inl rfl

theorem items_blank (blank cs : List Char) (all : ∀ c ∈ blank, isSpace c = true) (before : List Document) (fuel level : Nat) :
    readItems number fuel level before (blank ++ cs) = readItems number fuel level before cs := by
  cases fuel with
  | zero => rw [readItems, readItems]
  | succ fuel => rw [readItems, readItems, read_blank blank cs all]

theorem entries_blank (blank cs : List Char) (all : ∀ c ∈ blank, isSpace c = true)
    (before : Option (List (String × Document))) (fuel level : Nat) :
    readEntries number fuel level before (blank ++ cs) = readEntries number fuel level before cs := by
  cases fuel with
  | zero => rw [readEntries, readEntries]
  | succ fuel => rw [readEntries, readEntries, expectChar, expectChar, skip_blank blank cs all]

theorem gap_closes (layout : Layout) (level : Nat) (c : Char) (rest : List Char) (other : isNumeric c = false) :
    Closes ((layout.gap level).toList ++ c :: rest) := by
  have blank := layout.blank level
  cases text : (layout.gap level).toList with
  | nil => exact closes_cons c rest other
  | cons d gap =>
    rw [text] at blank
    refine closes_cons d _ (Bool.eq_false_iff.mpr fun numeric => ?_)
    exact Bool.false_ne_true ((numeric_visible numeric).symm.trans (blank d List.mem_cons_self))

end

theorem entry_text (name : String) {separator : String} (text : String) {after : List Char}
    (separates : separator.toList = ':' :: after) : (quote name ++ separator ++ text).toList =
      '"' :: (name.toList.flatMap escape ++ '"' :: ':' :: (after ++ text.toList)) := by
  rw [String.toList_append, String.toList_append, quote_text, separates]
  simp

/-! One part of a list and what it goes on with: the end of the list, or a comma. A number that broke off stands before neither. -/

section Parts

variable {number : Numeral → Document} {fuel level : Nat} {item : Document} {cs rest : List Char}

theorem items_goes {before : List Document} {result : List Document × List Char}
    (read : readItems number (fuel + 1) level before cs = some result) :
    ∃ item left, readValue number fuel level cs = some (item, left) ∧ ¬ Stuck left := by
  rw [readItems] at read
  split at read
  · cases read
  · next item left value =>
      refine ⟨item, left, value, fun stuck => ?_⟩
      split at read
      · next front => exact stuck_not _ _ _ (by decide) stuck front
      · next front => exact stuck_not _ _ _ (by decide) stuck front
      · cases read

theorem items_end (layout : Layout) (outer : Nat) (before : List Document)
    (value : readValue number fuel level cs = some (item, (layout.gap outer).toList ++ ']' :: rest)) :
    readItems number (fuel + 1) level before cs = some (before.reverse ++ [item], rest) := by
  rw [readItems, value]
  dsimp only
  rw [skip_blank _ _ (layout.blank outer), skip_space_of_not ']' rest (by decide), List.reverse_cons]
  rfl

theorem items_more (layout : Layout) (indent : Nat) (before : List Document)
    (value : readValue number fuel level cs = some (item, ',' :: ((layout.gap indent).toList ++ rest))) :
    readItems number (fuel + 1) level before cs = readItems number fuel level (item :: before) rest := by
  rw [readItems, value]
  dsimp only
  rw [skip_space_of_not ',' _ (by decide)]
  exact items_blank _ _ (layout.blank indent) _ fuel level

variable (layout : Layout) {name text : String}

theorem entry_opens (name text : String) (fuel level : Nat) :
    ∃ inner, (expectChar '"' ((quote name ++ layout.separator ++ text).toList ++ cs)).bind readString = some (some name, inner) ∧
      (expectChar ':' inner).bind (readValue number fuel level) = readValue number fuel level (text.toList ++ cs) := by
  obtain ⟨blank, separates, blanks⟩ := layout.separates
  refine ⟨':' :: (blank ++ (text.toList ++ cs)), ?_, ?_⟩
  · rw [entry_text name text separates]
    simp only [List.cons_append, List.append_assoc]
    exact entry_front name _
  · rw [expect_char_front ':' _ (by decide), Option.bind_some, read_blank blank _ blanks]

theorem entries_goes {before : Option (List (String × Document))} {result : Option (List (String × Document)) × List Char}
    (read : readEntries number (fuel + 1) level before ((quote name ++ layout.separator ++ text).toList ++ cs) = some result) :
    ∃ item left, readValue number fuel level (text.toList ++ cs) = some (item, left) ∧ ¬ Stuck left := by
  obtain ⟨inner, front, opened⟩ := entry_opens layout name text fuel level
  rw [readEntries, front] at read
  dsimp only at read
  rw [opened] at read
  split at read
  · cases read
  · next item left value =>
      refine ⟨item, left, value, fun stuck => ?_⟩
      split at read
      · next front => exact stuck_not _ _ _ (by decide) stuck front
      · next front => exact stuck_not _ _ _ (by decide) stuck front
      · cases read

theorem entries_end (outer : Nat) (before : List (String × Document))
    (value : readValue number fuel level (text.toList ++ cs) = some (item, (layout.gap outer).toList ++ '\x7d' :: rest)) :
    readEntries number (fuel + 1) level (some before) ((quote name ++ layout.separator ++ text).toList ++ cs) =
      some (some (before.reverse ++ [(name, item)]), rest) := by
  obtain ⟨inner, front, opened⟩ := entry_opens layout name text fuel level
  rw [readEntries, front]
  dsimp only
  rw [opened, value]
  dsimp only
  rw [skip_blank _ _ (layout.blank outer), skip_space_of_not '\x7d' rest (by decide)]
  simp

theorem entries_more (indent : Nat) (before : List (String × Document))
    (value : readValue number fuel level (text.toList ++ cs) = some (item, ',' :: ((layout.gap indent).toList ++ rest))) :
    readEntries number (fuel + 1) level (some before) ((quote name ++ layout.separator ++ text).toList ++ cs) =
      readEntries number fuel level (some ((name, item) :: before)) rest := by
  obtain ⟨inner, front, opened⟩ := entry_opens layout name text fuel level
  rw [readEntries, front]
  dsimp only
  rw [opened, value]
  dsimp only
  rw [skip_space_of_not ',' _ (by decide)]
  exact entries_blank _ _ (layout.blank indent) _ fuel level

end Parts

def Opens (text : List Char) : Prop := ∃ c tail, text = c :: tail ∧ isSpace c = false ∧ c ≠ ']'

variable {text rest left : List Char} {level : Nat} {written : Document}

theorem opens_append (rest : List Char) (opens : Opens text) : Opens (text ++ rest) := by
  obtain ⟨c, tail, rfl, visible, other⟩ := opens
  exact ⟨c, tail ++ rest, rfl, visible, other⟩

theorem number_opens (isText : NumberText text) : Opens text := by
  cases text with
  | nil => exact absurd rfl isText.filled
  | cons c tail =>
    have numeric := isText.numeric c (by simp)
    refine ⟨c, tail, rfl, numeric_visible numeric, ?_⟩
    rintro rfl
    exact absurd numeric (by decide)

theorem float_text (style : DocumentStyle) (format : Format) (decoded : Decoded) :
    NumberText ((style.text? format decoded).getD "null").toList ∨ (style.text? format decoded).getD "null" = "null" := by
  cases written : style.text? format decoded with
  | none => exact .inr rfl
  | some text => exact .inl (.float written)

theorem float_opens (style : DocumentStyle) (format : Format) (decoded : Decoded) :
    Opens ((style.text? format decoded).getD "null").toList := by
  obtain isText | null := float_text style format decoded
  · exact number_opens isText
  · rw [null]
    exact ⟨'n', _, rfl, by decide, by decide⟩

theorem leaf_opens (document : Document) : Opens document.leafText.toList := by
  have null : Opens "null".toList := ⟨'n', _, rfl, by decide, by decide⟩
  cases document with
  | null | invalid | array | object => exact null
  | bool value => cases value <;> exact ⟨_, _, rfl, by decide, by decide⟩
  | int n => exact number_opens (.int n)
  | float => exact float_opens _ _ _
  | single => exact float_opens _ _ _
  | string value => exact ⟨_, _, quote_text value, by decide, by decide⟩

theorem Layout.opens (layout : Layout) (indent : Nat) (document : Document) : Opens (layout.print indent document).toList := by
  obtain leaf | ⟨items, rfl⟩ | ⟨entries, rfl⟩ := layout.leaf indent document
  · rw [leaf]
    exact leaf_opens document
  · exact ⟨_, _, layout.array indent items, by decide, by decide⟩
  · exact ⟨_, _, layout.object indent entries, by decide, by decide⟩

theorem joined_front (gap text : String) (texts : List String) (rest : List Char) :
    ∃ tail, joined gap (text :: texts) ++ rest = text.toList ++ tail := by
  cases texts with
  | nil => exact ⟨rest, by rw [joined_single]⟩
  | cons => exact ⟨_, by rw [joined_cons, List.append_assoc]⟩

theorem enclosed_cons (gap : Nat → String) (level : Nat) (text : String) (texts : List String) :
    enclosed gap level (text :: texts) =
      (gap (level + 1)).toList ++ (joined (gap (level + 1)) (text :: texts) ++ (gap level).toList) := rfl

/-- A text that reading turns into one document, whatever the fuel. -/
theorem read_fixed {document : Document} {fuel : Nat} (fixed : Document)
    (computed : ∀ fuel, readValue ofNumeral (fuel + 1) level (text ++ rest) = some (fixed, rest))
    (read : readValue ofNumeral fuel level (text ++ rest) = some (document, left)) : document = fixed ∧ left = rest := by
  cases fuel with
  | zero => simp [readValue] at read
  | succ fuel =>
    rw [computed fuel] at read
    cases read
    exact ⟨rfl, rfl⟩

theorem read_null {number : Numeral → Document} (rest : List Char) (fuel level : Nat) :
    readValue number (fuel + 1) level ("null".toList ++ rest) = some (.null, rest) := by
  rw [readValue]
  rfl

/-- A text of a document, wherever it stands, is read as something that the document may come back as. -/
def ReadsBack (written : Document) (text : List Char) : Prop :=
  ∀ rest left fuel level document, Closes rest →
    readValue ofNumeral fuel level (text ++ rest) = some (document, left) → Arrived written document rest left

theorem items_back {layout : Layout} {indent outer : Nat} {items : List Document} (filled : items ≠ [])
    (each : ∀ item ∈ items, ReadsBack item (layout.print indent item).toList) (before : List Document)
    {out : List Document} (fuel : Nat)
    (read : readItems ofNumeral fuel level before
      (joined (layout.gap indent) (items.map (layout.print indent)) ++ ((layout.gap outer).toList ++ ']' :: rest)) =
        some (out, left)) :
    left = rest ∧ ∃ others, ItemsReread items others ∧ out = before.reverse ++ others := by
  induction items generalizing before fuel with
  | nil => exact absurd rfl filled
  | cons item items ih =>
    obtain ⟨first, later⟩ := List.forall_mem_cons.mp each
    cases fuel with
    | zero => simp [readItems] at read
    | succ fuel =>
      obtain ⟨other, after, value, goes⟩ := items_goes read
      cases items with
      | nil =>
        rw [List.map_cons, List.map_nil, joined_single] at value read
        obtain ⟨rfl, same⟩ :=
          (first _ after fuel level other (gap_closes layout outer ']' rest (by decide)) value).resolve_right goes
        rw [items_end layout outer before value] at read
        cases read
        exact ⟨rfl, [other], .cons item other [] [] same .nil, rfl⟩
      | cons =>
        rw [List.map_cons, List.map_cons, joined_cons, List.append_assoc, List.cons_append, List.append_assoc] at value read
        obtain ⟨rfl, same⟩ := (first _ after fuel level other (closes_cons ',' _ (by decide)) value).resolve_right goes
        rw [items_more layout indent before value] at read
        obtain ⟨rfl, others, rereads, rfl⟩ := ih (List.cons_ne_nil _ _) later (other :: before) fuel read
        exact ⟨rfl, other :: others, .cons item other _ others same rereads, by simp⟩

theorem entries_back (layout : Layout) (indent outer : Nat) {entries : List (String × Document)} (filled : entries ≠ [])
    (each : ∀ entry ∈ entries, ReadsBack entry.2 (layout.print indent entry.2).toList) (before : List (String × Document))
    (out : Option (List (String × Document))) (rest left : List Char) (fuel level : Nat)
    (read : readEntries ofNumeral fuel level (some before)
      (joined (layout.gap indent) (entries.map fun entry => quote entry.1 ++ layout.separator ++ layout.print indent entry.2) ++
        ((layout.gap outer).toList ++ '\x7d' :: rest)) = some (out, left)) :
    left = rest ∧ ∃ others, EntriesReread entries others ∧ out = some (before.reverse ++ others) := by
  induction entries generalizing before fuel with
  | nil => exact absurd rfl filled
  | cons entry entries ih =>
    obtain ⟨name, item⟩ := entry
    obtain ⟨first, later⟩ := List.forall_mem_cons.mp each
    cases fuel with
    | zero => simp [readEntries] at read
    | succ fuel =>
      cases entries with
      | nil =>
        rw [List.map_cons, List.map_nil, joined_single] at read
        obtain ⟨other, after, value, goes⟩ := entries_goes layout read
        obtain ⟨rfl, same⟩ :=
          (first _ after fuel level other (gap_closes layout outer '\x7d' rest (by decide)) value).resolve_right goes
        rw [entries_end layout outer before value] at read
        cases read
        exact ⟨rfl, [(name, other)], .cons name item other [] [] same .nil, rfl⟩
      | cons =>
        rw [List.map_cons, List.map_cons, joined_cons, List.append_assoc, List.cons_append, List.append_assoc] at read
        obtain ⟨other, after, value, goes⟩ := entries_goes layout read
        obtain ⟨rfl, same⟩ := (first _ after fuel level other (closes_cons ',' _ (by decide)) value).resolve_right goes
        rw [entries_more layout indent before value] at read
        obtain ⟨rfl, others, rereads, rfl⟩ := ih (List.cons_ne_nil _ _) later ((name, other) :: before) fuel read
        exact ⟨rfl, (name, other) :: others, .cons name item other _ others same rereads, by simp⟩

theorem array_back (layout : Layout) (indent : Nat) (items : List Document)
    (each : ∀ item ∈ items, ReadsBack item (layout.print (indent + 1) item).toList) :
    ReadsBack (.array items) (layout.print indent (.array items)).toList := by
  intro rest left fuel level document _ read
  rw [layout.array, List.cons_append, List.append_assoc, List.singleton_append] at read
  cases fuel with
  | zero => simp [readValue] at read
  | succ fuel =>
    rw [readValue, skip_space_of_not '[' _ (by decide)] at read
    obtain ⟨⟨others, _⟩, found, same⟩ := Option.map_eq_some_iff.mp read
    have rereads : left = rest ∧ ItemsReread items others := by
      cases items with
      | nil =>
        have inner : enclosed layout.gap indent (List.map (layout.print (indent + 1)) []) = [] := rfl
        rw [inner, List.nil_append, skip_space_of_not ']' _ (by decide)] at found
        cases found
        cases same
        exact ⟨rfl, .nil⟩
      | cons item items =>
        obtain ⟨tail, front⟩ := joined_front (layout.gap (indent + 1)) (layout.print (indent + 1) item)
          (items.map (layout.print (indent + 1))) ((layout.gap indent).toList ++ ']' :: rest)
        obtain ⟨c, _, text, visible, other⟩ := opens_append tail (layout.opens (indent + 1) item)
        rw [List.map_cons, enclosed_cons, List.append_assoc, List.append_assoc, skip_blank _ _ (layout.blank _), front, text,
          skip_space_of_not c _ visible] at found
        split at found
        · next closed => exact absurd (List.cons.inj closed).1 other
        · rw [← text, ← front] at found
          obtain ⟨rfl, others, rereads, rfl⟩ := items_back (List.cons_ne_nil _ _) each [] fuel found
          cases same
          exact ⟨rfl, rereads⟩
    obtain ⟨rfl, rereads⟩ := rereads
    refine .inl ⟨rfl, ?_⟩
    have shape := congrArg Prod.fst same
    dsimp only at shape
    rw [← shape]
    split
    · exact .array items others rereads
    · exact .lost _

theorem object_back (layout : Layout) (indent : Nat) (entries : List (String × Document))
    (each : ∀ entry ∈ entries, ReadsBack entry.2 (layout.print (indent + 1) entry.2).toList) :
    ReadsBack (.object entries) (layout.print indent (.object entries)).toList := by
  intro rest left fuel level document _ read
  rw [layout.object, List.cons_append, List.append_assoc, List.singleton_append] at read
  cases fuel with
  | zero => simp [readValue] at read
  | succ fuel =>
    rw [readValue, skip_space_of_not '\x7b' _ (by decide)] at read
    obtain ⟨⟨out, after⟩, found, same⟩ := Option.map_eq_some_iff.mp read
    have rereads : after = rest ∧ ∃ others, EntriesReread entries others ∧ out = some others := by
      cases entries with
      | nil =>
        rw [List.map_nil, show enclosed layout.gap indent [] = [] from rfl, List.nil_append,
          skip_space_of_not '\x7d' _ (by decide)] at found
        cases found
        exact ⟨rfl, [], .nil, rfl⟩
      | cons entry entries =>
        obtain ⟨blank, separates, _⟩ := layout.separates
        obtain ⟨tail, front⟩ := joined_front (layout.gap (indent + 1))
          (quote entry.1 ++ layout.separator ++ layout.print (indent + 1) entry.2)
          (entries.map fun entry => quote entry.1 ++ layout.separator ++ layout.print (indent + 1) entry.2)
          ((layout.gap indent).toList ++ '\x7d' :: rest)
        have text := front
        rw [entry_text _ _ separates, List.cons_append] at text
        rw [List.map_cons, enclosed_cons, List.append_assoc, List.append_assoc, skip_blank _ _ (layout.blank _), text,
          skip_space_of_not '"' _ (by decide)] at found
        exact entries_back layout (indent + 1) indent (List.cons_ne_nil _ _) each [] out rest after fuel
          (level + 1) (by rw [List.map_cons, text]; exact found)
    obtain ⟨rfl, others, rereads, rfl⟩ := rereads
    obtain ⟨shape, rfl⟩ := Prod.mk.inj same
    refine .inl ⟨rfl, ?_⟩
    rw [← shape]
    split
    · exact .object entries others rereads
    · exact .lost _

theorem float_back (rough : written.isRough = true) (style : DocumentStyle) (format : Format)
    (decoded : Decoded) : ReadsBack written ((style.text? format decoded).getD "null").toList := by
  intro rest left fuel level document closes read
  obtain isText | null := float_text style format decoded
  · exact read_rough isText closes rough read
  · rw [null] at read
    obtain ⟨rfl, rfl⟩ := read_fixed .null (read_null rest · level) read
    exact .inl ⟨rfl, .rough written .null rough⟩

theorem string_back (value : String) : ReadsBack (.string value) (Document.string value).leafText.toList := by
  intro rest left fuel level document _ read
  have computed (fuel : Nat) : readValue ofNumeral (fuel + 1) level ((Document.string value).leafText.toList ++ rest) =
      some (.string value, rest) := by
    rw [leafText, quote_text, List.cons_append, List.append_assoc, List.singleton_append, readValue,
      skip_space_of_not '"' _ (by decide)]
    simp only [read_quoted, Option.map_some, Option.getD_some]
  obtain ⟨rfl, rfl⟩ := read_fixed (.string value) computed read
  exact .inl ⟨rfl, .string value⟩

theorem leaf_back (document : Document) (noItems : ∀ items, document ≠ .array items)
    (noEntries : ∀ entries, document ≠ .object entries) : ReadsBack document document.leafText.toList := by
  cases document with
  | null =>
    intro rest left fuel level document _ read
    obtain ⟨rfl, rfl⟩ := read_fixed .null (read_null rest · level) read
    exact .inl ⟨rfl, .null⟩
  | invalid =>
    intro rest left fuel level document _ read
    obtain ⟨rfl, rfl⟩ := read_fixed .null (read_null rest · level) read
    exact .inl ⟨rfl, .rough _ _ rfl⟩
  | bool value =>
    intro rest left fuel level document _ read
    have computed (fuel : Nat) : readValue ofNumeral (fuel + 1) level ((Document.bool value).leafText.toList ++ rest) =
        some (.bool value, rest) := by
      cases value <;> (rw [readValue]; rfl)
    obtain ⟨rfl, rfl⟩ := read_fixed (.bool value) computed read
    exact .inl ⟨rfl, .bool value⟩
  | int n => exact fun rest left fuel level document closes read => read_int closes read
  | float value => exact float_back rfl .double .double (Number.decodeDouble value)
  | single value => exact float_back rfl .single .single (Number.decodeSingle value)
  | string value => exact string_back value
  | array items => exact absurd rfl (noItems items)
  | object entries => exact absurd rfl (noEntries entries)

theorem Layout.reads_back (layout : Layout) (indent : Nat) (written : Document) :
    ReadsBack written (layout.print indent written).toList := by
  match written with
  | .array items => exact array_back layout indent items fun item _ => layout.reads_back (indent + 1) item
  | .object entries => exact object_back layout indent entries fun entry _ => layout.reads_back (indent + 1) entry.2
  | .null | .bool _ | .int _ | .float _ | .single _ | .string _ | .invalid =>
    obtain leaf | ⟨_, other⟩ | ⟨_, other⟩ := layout.leaf indent _
    · rw [leaf]
      refine leaf_back _ (fun _ other => ?_) fun _ other => ?_ <;> cases other
    · cases other
    · cases other
termination_by sizeOf written
decreasing_by
  · next member =>
      have smaller := List.sizeOf_lt_of_mem member
      simp only [Document.array.sizeOf_spec]
      omega
  · next member =>
      have smaller := List.sizeOf_lt_of_mem member
      have part : sizeOf entry = 1 + sizeOf entry.1 + sizeOf entry.2 := by cases entry; rfl
      simp only [Document.object.sizeOf_spec]
      omega

theorem Layout.parse_back (layout : Layout) {read : Document} (parsed : parse? (layout.print 0 written) = some read) :
    Rereads written read := by
  unfold parse? parseWith? at parsed
  dsimp only at parsed
  split at parsed
  · next document left found =>
      split at parsed
      · next finished =>
          cases parsed
          rw [← List.append_nil (layout.print 0 written).toList] at found
          obtain ⟨_, rereads⟩ | ⟨c, front, numeric⟩ :=
            layout.reads_back 0 written [] left _ 0 read (by intro c front; cases front) found
          · exact rereads
          · -- What is left begins with a part of a number, so it is not blank.
            cases left with
            | nil => cases front
            | cons d left =>
              obtain rfl : d = c := by simpa using front
              rw [skip_space_of_not d left (numeric_visible numeric)] at finished
              cases finished
      · cases parsed
  · cases parsed

end Document

end Patchbay
