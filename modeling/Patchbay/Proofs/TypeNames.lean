import Mathlib.Data.List.Basic
import Patchbay.PinType

set_option autoImplicit false

namespace Patchbay

namespace Text

structure Bare (text : List Char) : Prop where
  first : ∀ c ∈ text.head?, isBlank c = false
  last : ∀ c ∈ text.getLast?, isBlank c = false

variable (text : List Char)

theorem drop_blanks_kept (first : ∀ c ∈ text.head?, isBlank c = false) :
    text.dropWhile isBlank = text := by
  cases text with
  | nil => rfl
  | cons c rest => rw [List.dropWhile_cons_of_neg (by simp [first c rfl])]

theorem drop_blanks_first {text : List Char} : ∀ c ∈ (text.dropWhile isBlank).head?, isBlank c = false := by
  intro c first
  have found := List.head?_dropWhile_not isBlank text
  rw [first] at found
  simpa using found

theorem drop_blanks_last {text : List Char} {c : Char} (last : c ∈ (text.dropWhile isBlank).getLast?) :
    c ∈ text.getLast? := by
  -- What is dropped at the front changes nothing at the back, unless all is dropped.
  have whole := List.takeWhile_append_dropWhile (p := isBlank) (l := text)
  rw [← whole]
  exact List.mem_getLast?_append_of_mem_getLast? last

theorem trim_bare (bare : Bare text) : trim text = text := by
  have back : ∀ c ∈ text.reverse.head?, isBlank c = false := by
    rw [List.head?_reverse]
    exact bare.last
  rw [trim, drop_blanks_kept text bare.first, drop_blanks_kept text.reverse back, List.reverse_reverse]

theorem bare_trim : Bare (trim text) := by
  constructor
  · intro c first
    rw [trim, List.head?_reverse] at first
    have inside := drop_blanks_last first
    rw [List.getLast?_reverse] at inside
    exact drop_blanks_first c inside
  · intro c last
    rw [trim, List.getLast?_reverse] at last
    exact drop_blanks_first c last

theorem trim_iff_bare : trim text = text ↔ Bare text := by
  constructor
  · intro same
    rw [← same]
    exact bare_trim text
  · exact trim_bare text

theorem bare_append {front back : List Char} (opened : front ≠ []) (closed : back ≠ [])
    (first : ∀ c ∈ front.head?, isBlank c = false) (last : ∀ c ∈ back.getLast?, isBlank c = false) :
    Bare (front ++ back) := by
  constructor
  · rw [List.head?_append_of_ne_nil front opened]
    exact first
  · rw [List.getLast?_append_of_ne_nil front closed]
    exact last

theorem after_append (pattern rest : List Char) : after? pattern (pattern ++ rest) = some rest := by
  induction pattern with
  | nil => rfl
  | cons c pattern ih => rw [List.cons_append, after?, if_pos rfl, ih]

end Text

namespace PinType

/-- No type name inside the type has white space at its ends. -/
def Trimmed : PinType → Prop
  | .array element => element.Trimmed
  | .object typeId | .handle typeId => Text.trim typeId.toList = typeId.toList
  | _ => True

theorem array_chars (element : PinType) :
    (array element).text.toList = "Array<".toList ++ (element.text.toList ++ ['>']) := by
  simp [text]

theorem element_text (inner : List Char) : elementText? ("Array<".toList ++ (inner ++ ['>'])) = some inner := by
  rw [elementText?, Text.after_append]
  simp

theorem element_text_other {c : Char} (rest : List Char) (other : 'A' ≠ c) : elementText? (c :: rest) = none := by
  have head : "Array<".toList = 'A' :: "rray<".toList := by decide
  rw [elementText?, head, Text.after?, if_neg other]

theorem of_chars_array {text : List Char} (inner : List Char) (found : elementText? (Text.trim text) = some inner) :
    ofChars text = (ofChars inner).map .array := by
  rw [ofChars]
  split
  · next other same =>
      cases same.symm.trans found
      rfl
  · next same => cases same.symm.trans found

variable {typeId : List Char}

theorem of_chars_object (bare : Text.Bare ("Object:".toList ++ typeId)) :
    ofChars ("Object:".toList ++ typeId) = .ok (.object (String.ofList (Text.trim typeId))) := by
  have plain : elementText? ("Object:".toList ++ typeId) = none := element_text_other _ (by decide)
  rw [ofChars, Text.trim_bare _ bare]
  split
  · next found => cases found.symm.trans plain
  · rw [Text.after_append]

theorem of_chars_handle (bare : Text.Bare ("Handle:".toList ++ typeId)) :
    ofChars ("Handle:".toList ++ typeId) = .ok (.handle (String.ofList (Text.trim typeId))) := by
  have plain : elementText? ("Handle:".toList ++ typeId) = none := element_text_other _ (by decide)
  have other : Text.after? "Object:".toList ("Handle:".toList ++ typeId) = none := rfl
  rw [ofChars, Text.trim_bare _ bare]
  split
  · next found => cases found.symm.trans plain
  · rw [other, Text.after_append]

theorem tagged_bare (label : List Char) {typeId : String} (opened : label ≠ [])
    (first : ∀ c ∈ label.head?, Text.isBlank c = false) (named : typeId ≠ "")
    (trimmed : Text.trim typeId.toList = typeId.toList) : Text.Bare (label ++ typeId.toList) := by
  have filled : typeId.toList ≠ [] := fun empty => named (String.toList_eq_nil_iff.mp empty)
  exact Text.bare_append opened filled first ((Text.trim_iff_bare _).mp trimmed).last

theorem text_bare (type : PinType) (trimmed : type.Trimmed) : Text.Bare type.text.toList := by
  cases type with
  | array =>
    rw [array_chars]
    exact Text.bare_append (by decide) (by simp) (by rintro c ⟨⟩; decide) (by simp; decide)
  | object typeId =>
    by_cases named : typeId = ""
    · subst named
      exact (Text.trim_iff_bare _).mp (by decide)
    · rw [text, if_neg named, String.toList_append]
      exact tagged_bare "Object:".toList (by decide) (by rintro c ⟨⟩; decide) named trimmed
  | handle typeId =>
    by_cases named : typeId = ""
    · subst named
      exact (Text.trim_iff_bare _).mp (by decide)
    · rw [text, if_neg named, String.toList_append]
      exact tagged_bare "Handle:".toList (by decide) (by rintro c ⟨⟩; decide) named trimmed
  | _ => exact (Text.trim_iff_bare _).mp (by decide)

theorem chars_parse_back (type : PinType) (trimmed : type.Trimmed) : ofChars type.text.toList = .ok type := by
  induction type with
  | array element ih =>
    have bare := (array element).text_bare trimmed
    have found : elementText? (Text.trim (array element).text.toList) = some element.text.toList := by
      rw [Text.trim_bare _ bare, array_chars, element_text]
    rw [of_chars_array _ found, ih trimmed]
    rfl
  | object typeId =>
    have bare := (object typeId).text_bare trimmed
    by_cases named : typeId = ""
    · subst named
      rw [ofChars]
      rfl
    · rw [text, if_neg named, String.toList_append] at bare ⊢
      rw [of_chars_object bare, show Text.trim typeId.toList = typeId.toList from trimmed, String.ofList_toList]
  | handle typeId =>
    have bare := (handle typeId).text_bare trimmed
    by_cases named : typeId = ""
    · subst named
      rw [ofChars]
      rfl
    · rw [text, if_neg named, String.toList_append] at bare ⊢
      rw [of_chars_handle bare, show Text.trim typeId.toList = typeId.toList from trimmed, String.ofList_toList]
  | _ =>
    rw [ofChars]
    rfl

theorem parsed_trimmed (text : List Char) (type : PinType) (parsed : ofChars text = .ok type) : type.Trimmed := by
  have trimmed (rest : List Char) :
      Text.trim (String.ofList (Text.trim rest)).toList = (String.ofList (Text.trim rest)).toList := by
    rw [String.toList_ofList, Text.trim_bare _ (Text.bare_trim rest)]
  fun_induction ofChars text generalizing type with
  | case1 text name element found ih =>
    cases inner : ofChars element with
    | error =>
      rw [inner] at parsed
      cases parsed
    | ok other =>
      rw [inner] at parsed
      cases parsed
      exact ih other inner
  | case2 text name _ rest found | case3 text name _ _ rest found =>
    cases parsed
    exact trimmed rest
  | case9 | case10 =>
    cases parsed
    exact trimmed []
  | case11 => cases parsed
  | _ =>
    cases parsed
    trivial

/-- Exactly the types whose names have no white space at their ends are read from their own text, and what the reader gives is
such a type, however it was written. -/
theorem names_parse_back :
    (∀ type : PinType, parse type.text = .ok type ↔ type.Trimmed) ∧
    ∀ (written : String) (type : PinType), parse written = .ok type → parse type.text = .ok type := by
  have reads (written : String) (type : PinType) : parse written = .ok type ↔ ofChars written.toList = .ok type := by
    rw [parse]
    cases ofChars written.toList <;> simp
  have back (type : PinType) : parse type.text = .ok type ↔ type.Trimmed := by
    rw [reads]
    exact ⟨parsed_trimmed type.text.toList type, type.chars_parse_back⟩
  refine ⟨back, ?_⟩
  intro written type parsed
  rw [back]
  exact parsed_trimmed written.toList type ((reads written type).mp parsed)

/-- Brackets and marks inside a name do not matter, nor do blanks around it. -/
theorem odd_names_parse_back :
    let odd := array (handle "Object:x>")
    odd.text = "Array<Handle:Object:x>>" ∧ parse odd.text = .ok odd ∧
    parse " Array<  Handle: Object:x> >\n" = .ok odd ∧ (array (object "Array<Any> ")).text = "Array<Object:Array<Any> >" ∧
    parse (array (object "Array<Any> ")).text ≠ .ok (array (object "Array<Any> ")) := by
  intro odd
  obtain ⟨back, again⟩ := names_parse_back
  have inner : ofChars "  Handle: Object:x> ".toList = .ok (handle "Object:x>") := by
    rw [ofChars]
    rfl
  have written : parse " Array<  Handle: Object:x> >\n" = .ok odd := by
    rw [parse, of_chars_array "  Handle: Object:x> ".toList (by decide), inner]
    rfl
  have blank : ¬ (array (object "Array<Any> ")).Trimmed := by
    rw [Trimmed, Trimmed]
    decide
  exact ⟨by decide, again _ odd written, written, by decide, fun same => blank ((back _).mp same)⟩

end PinType

end Patchbay
