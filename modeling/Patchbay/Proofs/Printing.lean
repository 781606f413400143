import Patchbay.Proofs.Echo
import Patchbay.Proofs.Reread

set_option autoImplicit false

namespace Patchbay

theorem digits_closed (cs : List Char) {rest : List Char} (closes : Closes rest) :
    (cs ++ rest).takeWhile isDigit = cs.takeWhile isDigit ∧ (cs ++ rest).dropWhile isDigit = cs.dropWhile isDigit ++ rest := by
  induction cs with
  | nil =>
    obtain ⟨taken, dropped, _⟩ := Document.scan_closed closes
    exact ⟨taken, dropped⟩
  | cons c cs ih =>
    cases digit : isDigit c with
    | true => simp [digit, ih.1, ih.2]
    | false => simp [digit]

namespace Numeral

variable {cs rest left : List Char} {numeral : Numeral}

theorem scan_fraction_append (closes : Closes rest) {fraction : Option (List Char)}
    (scanned : scanFraction cs = some (fraction, left)) : scanFraction (cs ++ rest) = some (fraction, left ++ rest) := by
  unfold scanFraction at scanned
  split at scanned
  · next cs =>
      obtain ⟨taken, dropped⟩ := digits_closed cs closes
      rw [List.cons_append, scanFraction, taken, dropped]
      dsimp only at scanned ⊢
      split at scanned
      · cases scanned
      · next filled =>
          cases scanned
          rw [if_neg filled]
  · next other =>
      cases scanned
      cases cs with
      | nil => exact (Document.scan_closed closes).2.2.1
      | cons c cs =>
        rw [List.cons_append, scanFraction]
        rintro _ same
        cases same
        exact other _ rfl

theorem scan_sign_append (c : Char) (cs rest : List Char) :
    scanSign (c :: cs ++ rest) = ((scanSign (c :: cs)).1, (scanSign (c :: cs)).2 ++ rest) := by
  rw [List.cons_append]
  unfold scanSign
  split
  · next same =>
      cases same
      rfl
  · next same =>
      cases same
      rfl
  · next minus plus =>
      split
      · next same =>
          cases same
          exact absurd rfl (minus _)
      · next same =>
          cases same
          exact absurd rfl (plus _)
      · rfl

theorem scan_exponent_append (closes : Closes rest) {exponent : Option (Bool × List Char)}
    (scanned : scanExponent cs = some (exponent, left)) : scanExponent (cs ++ rest) = some (exponent, left ++ rest) := by
  cases cs with
  | nil =>
    cases scanned
    exact (Document.scan_closed closes).2.2.2
  | cons c cs =>
    rw [List.cons_append]
    rw [scanExponent] at scanned ⊢
    split at scanned
    · next marked =>
        rw [if_pos marked]
        cases cs with
        | nil => cases scanned
        | cons d cs =>
          rw [scan_sign_append]
          obtain ⟨taken, dropped⟩ := digits_closed (scanSign (d :: cs)).2 closes
          dsimp only at scanned ⊢
          rw [taken, dropped]
          split at scanned
          · cases scanned
          · next filled =>
              cases scanned
              rw [if_neg filled]
    · next plain =>
        cases scanned
        rw [if_neg plain]
        rfl

theorem scan_unsigned_append {negative : Bool} (closes : Closes rest)
    (scanned : scanUnsigned negative cs = some (numeral, left)) :
    scanUnsigned negative (cs ++ rest) = some (numeral, left ++ rest) := by
  obtain ⟨taken, dropped⟩ := digits_closed cs closes
  unfold scanUnsigned at scanned ⊢
  rw [taken, dropped]
  dsimp only at scanned ⊢
  split at scanned
  · cases scanned
  · next whole =>
      obtain ⟨⟨fraction, after⟩, first, scanned⟩ := Option.bind_eq_some_iff.mp scanned
      obtain ⟨⟨exponent, _⟩, second, same⟩ := Option.bind_eq_some_iff.mp scanned
      cases same
      rw [if_neg whole, scan_fraction_append closes first]
      dsimp only [bind, Option.bind]
      rw [scan_exponent_append closes second]
      rfl

/-- A numeral that makes up a whole text is scanned wherever the text stands. -/
theorem scan_append (closes : Closes rest)
    (scanned : scan cs = some (numeral, left)) : scan (cs ++ rest) = some (numeral, left ++ rest) := by
  unfold scan at scanned
  split at scanned
  · next cs => exact scan_unsigned_append closes scanned
  · next other =>
      have front : scan (cs ++ rest) = scanUnsigned false (cs ++ rest) := by
        cases cs with
        | nil => cases scanned
        | cons c cs =>
          rw [List.cons_append, scan]
          rintro _ same
          cases same
          exact other _ rfl
      rw [front]
      exact scan_unsigned_append closes scanned

end Numeral

/-- What a text is read as that is a numeral from its first to its last character. -/
def spelled? (number : Numeral → Document) (text : String) : Option Document :=
  match Numeral.scan text.toList with
  | some (numeral, []) => some (number numeral)
  | _ => none

/-- Which readings of the text of a number count. -/
structure Tolerance where
  double : Float → Document → Bool
  single : Float32 → Document → Bool

def Tolerance.exact : Tolerance := ⟨fun x read => read.float? = some x, fun x read => read.single? = some x⟩

def Tolerance.near : Tolerance := ⟨fun _ read => read.float?.isSome, fun _ read => read.single?.isSome⟩

/-- Finite numbers come back as their texts are read, where that counts. -/
def Echo.spelled (number : Numeral → Document) (tolerance : Tolerance) : Echo where
  double x :=
    if x.isFinite then
      ((spelled? number (Document.float x).leafText).filter (tolerance.double x)).getD (.float x)
    else .null
  single x :=
    if x.isFinite then
      ((spelled? number (Document.single x).leafText).filter (tolerance.single x)).getD (.single x)
    else .null

theorem Echo.spelled_faithful (number : Numeral → Document) : (Echo.spelled number .exact).Faithful id id where
  double x finite := by
    simp only [spelled, finite, if_true]
    cases exact : (spelled? number (Document.float x).leafText).filter (Tolerance.exact.double x) with
    | none => rfl
    | some read => exact of_decide_eq_true (Option.filter_eq_some_iff.mp exact).2
  single x finite := by
    simp only [spelled, finite, if_true]
    cases exact : (spelled? number (Document.single x).leafText).filter (Tolerance.exact.single x) with
    | none => rfl
    | some read => exact of_decide_eq_true (Option.filter_eq_some_iff.mp exact).2
  lostDouble x lost := by simp [spelled, lost]
  lostSingle x lost := by simp [spelled, lost]

def reread (number : Numeral → Document) (x : Float) : Float :=
  ((spelled? number (Document.float x).leafText).bind Document.float?).getD x

def rereadSingle (number : Numeral → Document) (x : Float32) : Float32 :=
  ((spelled? number (Document.single x).leafText).bind Document.single?).getD x

theorem filter_read {α : Type} (read : Document → Option α) (spelled : Option Document) (other : Document) (x : α)
    (same : read other = some x) :
    read ((spelled.filter fun found => (read found).isSome).getD other) = some ((spelled.bind read).getD x) := by
  cases spelled with
  | none => exact same
  | some found => cases value : read found <;> simp [Option.filter_some, value, same]

theorem Echo.spelled_near (number : Numeral → Document) :
    (Echo.spelled number .near).Faithful (reread number) (rereadSingle number) where
  double x finite := by
    simp only [spelled, finite, if_true]
    exact filter_read Document.float? _ (.float x) x rfl
  single x finite := by
    simp only [spelled, finite, if_true]
    exact filter_read Document.single? _ (.single x) x rfl
  lostDouble x lost := by simp [spelled, lost]
  lostSingle x lost := by simp [spelled, lost]

namespace Document

mutual

/-- Every number of the document is read from its text, whole ones as they were and the others as is tolerated. -/
def legible (number : Numeral → Document) (tolerance : Tolerance) : Document → Bool
  | .int n =>
    match spelled? number (Document.int n).leafText with
    | some (.int read) => read = n
    | _ => false
  | .float x =>
    if x.isFinite then (spelled? number (Document.float x).leafText).any (tolerance.double x)
    else (Document.float x).leafText = "null"
  | .single x =>
    if x.isFinite then (spelled? number (Document.single x).leafText).any (tolerance.single x)
    else (Document.single x).leafText = "null"
  | .array items => legibleItems number tolerance items
  | .object entries => legibleEntries number tolerance entries
  | .invalid => false
  | _ => true

def legibleItems (number : Numeral → Document) (tolerance : Tolerance) : List Document → Bool
  | [] => true
  | item :: rest => item.legible number tolerance && legibleItems number tolerance rest

def legibleEntries (number : Numeral → Document) (tolerance : Tolerance) : List (String × Document) → Bool
  | [] => true
  | (_, item) :: rest => item.legible number tolerance && legibleEntries number tolerance rest

end

variable {number : Numeral → Document} {tolerance : Tolerance}

variable {document : Document} {items : List Document} {entries : List (String × Document)} {cs after : List Char}
  {fuel level : Nat}

theorem read_spelled {text : String} (isText : NumberText text.toList)
    (spelled : spelled? number text = some document) (fuel level : Nat) {rest : List Char} (closes : Closes rest) :
    readValue number (fuel + 1) level (text.toList ++ rest) = some (document, rest) := by
  unfold spelled? at spelled
  split at spelled
  · next numeral scanned =>
      cases spelled
      have scans := Numeral.scan_append closes scanned
      cases front : text.toList with
      | nil => exact absurd front isText.filled
      | cons c tail =>
        have numeric := isText.numeric c (by simp [front])
        rw [front, List.cons_append] at scans
        rw [List.cons_append, readValue, skip_space_of_not c _ (numeric_visible numeric)]
        split
        case h_7 =>
          rw [scans]
          rfl
        all_goals
          next same =>
            obtain ⟨rfl, _⟩ := List.cons.inj same
            exact absurd numeric (by decide)
  · cases spelled

/-- The text of a document, wherever it stands, is read as the document. -/
def Reads (number : Numeral → Document) (tolerance : Tolerance) (document : Document) (text : List Char) (level : Nat) : Prop :=
  ∀ fuel rest, text.length < fuel → Closes rest →
    readValue number fuel level (text ++ rest) = some (document.echo (.spelled number tolerance), rest)

theorem reads_leaf (document : Document) (text : List Char) (level : Nat)
    (read : ∀ fuel rest, Closes rest →
      readValue number (fuel + 1) level (text ++ rest) = some (document.echo (.spelled number tolerance), rest)) :
    Reads number tolerance document text level := by
  intro fuel rest enough closes
  cases fuel with
  | zero => omega
  | succ fuel => exact read fuel rest closes

theorem float_reads {finite : Bool} (counts : Document → Bool) (other : Document)
    (style : DocumentStyle) (format : Format) (decoded : Decoded)
    (written : document.leafText = (style.text? format decoded).getD "null")
    (echoed : document.echo (.spelled number tolerance) =
      if finite then ((spelled? number document.leafText).filter counts).getD other else .null)
    (legible : (if finite then (spelled? number document.leafText).any counts else decide (document.leafText = "null")) = true)
    (level : Nat) : Reads number tolerance document document.leafText.toList level := by
  refine reads_leaf document _ level fun fuel rest closes => ?_
  rw [echoed]
  cases finite with
  | false =>
    have null : document.leafText = "null" := of_decide_eq_true legible
    rw [null]
    exact read_null rest fuel level
  | true =>
    obtain ⟨read, spelled, counted⟩ : ∃ read, spelled? number document.leafText = some read ∧ counts read = true := by
      simpa [Option.any_eq_true] using legible
    have isText : NumberText document.leafText.toList := by
      rw [written] at spelled ⊢
      obtain isText | null := float_text style format decoded
      · exact isText
      · rw [null] at spelled
        cases spelled
    rw [read_spelled isText spelled fuel level closes, if_pos rfl, spelled, Option.filter_some, if_pos counted]
    rfl

theorem int_reads {n : Int} (legible : (Document.int n).legible number tolerance = true) (level : Nat) :
    Reads number tolerance (.int n) (Document.int n).leafText.toList level := by
  refine reads_leaf _ _ level fun fuel rest closes => ?_
  unfold Document.legible at legible
  split at legible
  · next read spelled =>
      obtain rfl : read = n := of_decide_eq_true legible
      exact read_spelled (.int read) spelled fuel level closes
  · cases legible

theorem bool_reads (value : Bool) (level : Nat) :
    Reads number tolerance (.bool value) (Document.bool value).leafText.toList level := by
  refine reads_leaf _ _ level fun fuel rest _ => ?_
  cases value <;> (rw [readValue]; rfl)

theorem string_reads (value : String) (level : Nat) :
    Reads number tolerance (.string value) (Document.string value).leafText.toList level := by
  refine reads_leaf _ _ level fun fuel rest _ => ?_
  rw [leafText, quote_text, List.cons_append, List.append_assoc, List.singleton_append, readValue,
    skip_space_of_not '"' _ (by decide)]
  simp only [read_quoted, Option.map_some, Option.getD_some]
  rfl

theorem items_read (layout : Layout) (indent outer level : Nat) (filled : items ≠ [])
    (each : ∀ item ∈ items, Reads number tolerance item (layout.print indent item).toList level) (before : List Document)
    (fuel : Nat) (enough : (joined (layout.gap indent) (items.map (layout.print indent))).length + 1 < fuel)
    (rest : List Char) :
    readItems number fuel level before
      (joined (layout.gap indent) (items.map (layout.print indent)) ++ ((layout.gap outer).toList ++ ']' :: rest)) =
      some (before.reverse ++ echoItems (.spelled number tolerance) items, rest) := by
  induction items generalizing before fuel with
  | nil => exact absurd rfl filled
  | cons item items ih =>
    obtain ⟨first, later⟩ := List.forall_mem_cons.mp each
    cases fuel with
    | zero => omega
    | succ fuel =>
      cases items with
      | nil =>
        rw [List.map_cons, List.map_nil, joined_single] at enough ⊢
        exact items_end layout outer before (first fuel _ (by omega) (gap_closes layout outer ']' rest (by decide)))
      | cons =>
        have again := ih (List.cons_ne_nil _ _) later (item.echo (.spelled number tolerance) :: before) fuel
        rw [List.map_cons, List.map_cons, joined_cons, List.length_append, List.length_cons, List.length_append] at enough
        rw [List.map_cons, List.map_cons, joined_cons, List.append_assoc, List.cons_append, List.append_assoc,
          items_more layout indent before (first fuel _ (by omega) (closes_cons ',' _ (by decide)))]
        refine (again (by rw [List.map_cons]; omega)).trans ?_
        simp [echoItems]

theorem entries_read (layout : Layout) (indent outer level : Nat) (filled : entries ≠ [])
    (each : ∀ entry ∈ entries, Reads number tolerance entry.2 (layout.print indent entry.2).toList level)
    (before : List (String × Document)) (fuel : Nat)
    (enough : (joined (layout.gap indent)
      (entries.map fun entry => quote entry.1 ++ layout.separator ++ layout.print indent entry.2)).length + 1 < fuel)
    (rest : List Char) :
    readEntries number fuel level (some before)
      (joined (layout.gap indent) (entries.map fun entry => quote entry.1 ++ layout.separator ++ layout.print indent entry.2) ++
        ((layout.gap outer).toList ++ '\x7d' :: rest)) =
      some (some (before.reverse ++ echoEntries (.spelled number tolerance) entries), rest) := by
  induction entries generalizing before fuel with
  | nil => exact absurd rfl filled
  | cons entry entries ih =>
    obtain ⟨first, later⟩ := List.forall_mem_cons.mp each
    have longer : (layout.print indent entry.2).toList.length ≤
        (quote entry.1 ++ layout.separator ++ layout.print indent entry.2).toList.length := by
      rw [String.toList_append, List.length_append]
      exact Nat.le_add_left _ _
    cases fuel with
    | zero => omega
    | succ fuel =>
      cases entries with
      | nil =>
        rw [List.map_cons, List.map_nil, joined_single] at enough ⊢
        exact entries_end layout outer before (first fuel _ (by omega) (gap_closes layout outer '\x7d' rest (by decide)))
      | cons =>
        have again := ih (List.cons_ne_nil _ _) later ((entry.1, entry.2.echo (.spelled number tolerance)) :: before) fuel
        rw [List.map_cons, List.map_cons, joined_cons, List.length_append, List.length_cons, List.length_append] at enough
        rw [List.map_cons, List.map_cons, joined_cons, List.append_assoc, List.cons_append, List.append_assoc,
          entries_more layout indent before (first fuel _ (by omega) (closes_cons ',' _ (by decide)))]
        refine (again (by rw [List.map_cons]; omega)).trans ?_
        simp [echoEntries]

theorem read_array (blank : List Char) (room : level < maxNesting) (all : ∀ c ∈ blank, isSpace c = true)
    (opens : Opens cs) (found : readItems number fuel (level + 1) [] cs = some (items, after)) :
    readValue number (fuel + 1) level ('[' :: (blank ++ cs)) = some (.array items, after) := by
  obtain ⟨c, tail, rfl, visible, other⟩ := opens
  rw [readValue, skip_space_of_not '[' _ (by decide)]
  refine Option.map_eq_some_iff.mpr ⟨(items, after), ?_, ?_⟩
  · rw [skip_blank blank _ all, skip_space_of_not c tail visible]
    split
    · next closed => exact absurd (List.cons.inj closed).1 other
    · exact found
  · dsimp only
    rw [if_pos room]

theorem read_object (blank : List Char) (room : level < maxNesting) (all : ∀ c ∈ blank, isSpace c = true)
    (found : readEntries number fuel (level + 1) (some []) ('"' :: cs) = some (some entries, after)) :
    readValue number (fuel + 1) level ('\x7b' :: (blank ++ '"' :: cs)) = some (.object entries, after) := by
  rw [readValue, skip_space_of_not '\x7b' _ (by decide)]
  refine Option.map_eq_some_iff.mpr ⟨(some entries, after), ?_, ?_⟩
  · rw [skip_blank blank _ all, skip_space_of_not '"' _ (by decide)]
    exact found
  · dsimp only
    rw [if_pos room]

theorem array_reads (layout : Layout) (indent level : Nat) (items : List Document) (room : level < maxNesting)
    (each : ∀ item ∈ items, Reads number tolerance item (layout.print (indent + 1) item).toList (level + 1)) :
    Reads number tolerance (.array items) (layout.print indent (.array items)).toList level := by
  intro fuel rest enough _
  rw [layout.array, List.length_cons, List.length_append, List.length_singleton] at enough
  rw [layout.array, List.cons_append, List.append_assoc, List.singleton_append]
  cases fuel with
  | zero => omega
  | succ fuel =>
    cases items with
    | nil =>
      have inner : enclosed layout.gap indent (List.map (layout.print (indent + 1)) []) = [] := rfl
      rw [inner, List.nil_append, readValue]
      simp [skip_space_of_not, isSpace, room, echo, echoItems]
    | cons item items =>
      have read := items_read layout (indent + 1) indent (level + 1) (List.cons_ne_nil _ _) each [] fuel
      rw [List.map_cons] at enough read ⊢
      rw [enclosed_cons, List.length_append, List.length_append] at enough
      rw [enclosed_cons, List.append_assoc, List.append_assoc]
      obtain ⟨tail, front⟩ := joined_front (layout.gap (indent + 1)) (layout.print (indent + 1) item)
        (items.map (layout.print (indent + 1))) ((layout.gap indent).toList ++ ']' :: rest)
      refine read_array _ room (layout.blank _) ?_ (read (by omega) rest)
      rw [front]
      exact opens_append _ (layout.opens (indent + 1) item)

theorem object_reads (layout : Layout) (indent level : Nat) (entries : List (String × Document)) (room : level < maxNesting)
    (each : ∀ entry ∈ entries, Reads number tolerance entry.2 (layout.print (indent + 1) entry.2).toList (level + 1)) :
    Reads number tolerance (.object entries) (layout.print indent (.object entries)).toList level := by
  intro fuel rest enough _
  rw [layout.object, List.length_cons, List.length_append, List.length_singleton] at enough
  rw [layout.object, List.cons_append, List.append_assoc, List.singleton_append]
  cases fuel with
  | zero => omega
  | succ fuel =>
    cases entries with
    | nil =>
      rw [List.map_nil, show enclosed layout.gap indent [] = [] from rfl, List.nil_append, readValue]
      simp [skip_space_of_not, isSpace, room, echo, echoEntries]
    | cons entry entries =>
      have read := entries_read layout (indent + 1) indent (level + 1) (List.cons_ne_nil _ _) each [] fuel
      obtain ⟨blank, separates, _⟩ := layout.separates
      rw [List.map_cons] at enough read ⊢
      rw [enclosed_cons, List.length_append, List.length_append] at enough
      rw [enclosed_cons, List.append_assoc, List.append_assoc]
      obtain ⟨tail, front⟩ := joined_front (layout.gap (indent + 1))
        (quote entry.1 ++ layout.separator ++ layout.print (indent + 1) entry.2)
        (entries.map fun entry => quote entry.1 ++ layout.separator ++ layout.print (indent + 1) entry.2)
        ((layout.gap indent).toList ++ '\x7d' :: rest)
      have found := read (by omega) rest
      rw [front, entry_text _ _ separates, List.cons_append] at found ⊢
      exact read_object _ room (layout.blank _) found

theorem legible_items (items : List Document) (legible : legibleItems number tolerance items = true) :
    ∀ item ∈ items, item.legible number tolerance = true := by
  induction items with
  | nil => exact fun _ inside => absurd inside List.not_mem_nil
  | cons item items ih =>
    obtain ⟨first, others⟩ := Bool.and_eq_true_iff.mp legible
    exact List.forall_mem_cons.mpr ⟨first, ih others⟩

theorem legible_entries (entries : List (String × Document)) (legible : legibleEntries number tolerance entries = true) :
    ∀ entry ∈ entries, entry.2.legible number tolerance = true := by
  induction entries with
  | nil => exact fun _ inside => absurd inside List.not_mem_nil
  | cons entry entries ih =>
    obtain ⟨first, others⟩ := Bool.and_eq_true_iff.mp legible
    exact List.forall_mem_cons.mpr ⟨first, ih others⟩

theorem depth_items (items : List Document) : ∀ item ∈ items, item.depth ≤ depthItems items := by
  induction items with
  | nil => exact fun _ inside => absurd inside List.not_mem_nil
  | cons item items ih =>
    refine List.forall_mem_cons.mpr ⟨Nat.le_max_left _ _, fun other inside => ?_⟩
    exact Nat.le_trans (ih other inside) (Nat.le_max_right _ _)

theorem depth_entries (entries : List (String × Document)) : ∀ entry ∈ entries, entry.2.depth ≤ depthEntries entries := by
  induction entries with
  | nil => exact fun _ inside => absurd inside List.not_mem_nil
  | cons entry entries ih =>
    refine List.forall_mem_cons.mpr ⟨Nat.le_max_left _ _, fun other inside => ?_⟩
    exact Nat.le_trans (ih other inside) (Nat.le_max_right _ _)

theorem leaf_reads (document : Document) (level : Nat) (legible : document.legible number tolerance = true)
    (noItems : ∀ items, document ≠ .array items) (noEntries : ∀ entries, document ≠ .object entries) :
    Reads number tolerance document document.leafText.toList level := by
  cases document with
  | null => exact reads_leaf _ _ level fun fuel rest _ => read_null rest fuel level
  | bool value => exact bool_reads value level
  | int n => exact int_reads legible level
  | float x =>
    exact float_reads (tolerance.double x) (.float x) .double .double (Number.decodeDouble x) rfl rfl legible level
  | single x =>
    exact float_reads (tolerance.single x) (.single x) .single .single (Number.decodeSingle x) rfl rfl legible level
  | string value => exact string_reads value level
  | array items => exact absurd rfl (noItems items)
  | object entries => exact absurd rfl (noEntries entries)
  | invalid => cases legible

theorem Layout.reads (layout : Layout) (document : Document) (indent level : Nat)
    (legible : document.legible number tolerance = true) (shallow : level + document.depth ≤ maxNesting) :
    Reads number tolerance document (layout.print indent document).toList level := by
  match document with
  | .array items =>
    rw [depth] at shallow
    refine array_reads layout indent level items (by omega) fun item inside => ?_
    have lower := depth_items items item inside
    exact layout.reads item (indent + 1) (level + 1) (legible_items items legible item inside) (by omega)
  | .object entries =>
    rw [depth] at shallow
    refine object_reads layout indent level entries (by omega) fun entry inside => ?_
    have lower := depth_entries entries entry inside
    exact layout.reads entry.2 (indent + 1) (level + 1) (legible_entries entries legible entry inside) (by omega)
  | .null | .bool _ | .int _ | .float _ | .single _ | .string _ | .invalid =>
    obtain leaf | ⟨_, other⟩ | ⟨_, other⟩ := layout.leaf indent _
    · rw [leaf]
      exact leaf_reads _ level legible nofun nofun
    · cases other
    · cases other
termination_by sizeOf document
decreasing_by
  · have smaller := List.sizeOf_lt_of_mem inside
    simp only [Document.array.sizeOf_spec]
    omega
  · have smaller := List.sizeOf_lt_of_mem inside
    have part : sizeOf entry = 1 + sizeOf entry.1 + sizeOf entry.2 := by cases entry; rfl
    simp only [Document.object.sizeOf_spec]
    omega

theorem Layout.parse_printed (layout : Layout) (legible : document.legible number tolerance = true)
    (shallow : document.depth ≤ maxNesting) :
    parseWith? number (layout.print 0 document) = some (document.echo (.spelled number tolerance)) := by
  have reads := layout.reads document 0 0 legible (by omega) ((layout.print 0 document).toList.length + 1) []
    (Nat.lt_succ_self _) fun _ front => by cases front
  rw [List.append_nil] at reads
  unfold parseWith?
  dsimp only
  rw [reads]
  rfl

end Document

end Patchbay
