set_option autoImplicit false

namespace Patchbay.Text

def contains (pattern : List Char) : List Char → Bool
  | [] => pattern.isEmpty
  | c :: rest => pattern.isPrefixOf (c :: rest) || contains pattern rest

def after? : List Char → List Char → Option (List Char)
  | [], text => some text
  | _ :: _, [] => none
  | p :: pattern, c :: text => if p = c then after? pattern text else none

theorem length_after? (pattern text rest : List Char) (found : after? pattern text = some rest) :
    pattern.length + rest.length = text.length := by
  induction pattern generalizing text with
  | nil => simp_all [after?]
  | cons p pattern ih =>
    cases text with
    | nil => simp [after?] at found
    | cons c text =>
      by_cases same : p = c
      · simp only [after?, same, if_true] at found
        have shorter := ih text found
        simp only [List.length_cons]
        omega
      · simp [after?, same] at found

/-- Pieces between the occurrences of a separator, taken from the left without overlap. `piece` holds
the characters since the last occurrence in reverse, `skip` how many characters of one remain. -/
def splitFrom (separator : List Char) : List Char → Nat → List Char → List (List Char)
  | piece, _, [] => [piece.reverse]
  | piece, skip + 1, _ :: rest => splitFrom separator piece skip rest
  | piece, 0, c :: rest =>
    if separator.isPrefixOf (c :: rest) then
      piece.reverse :: splitFrom separator [] (separator.length - 1) rest
    else splitFrom separator (c :: piece) 0 rest

def split (separator text : List Char) : List (List Char) :=
  if separator.isEmpty then [text] else splitFrom separator [] 0 text

end Patchbay.Text
