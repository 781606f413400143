import Patchbay.Document
import Patchbay.Number.Reading

set_option autoImplicit false

namespace Patchbay.Toml

def isBlank (c : Char) : Bool := c == ' ' || c == '\t'

def skipBlank (cs : List Char) : List Char := cs.dropWhile isBlank

def isControl (c : Char) : Bool := (c.toNat < 32 && c != '\t') || c.toNat == 127

def newline? : List Char → Option (List Char)
  | '\n' :: rest => some rest
  | '\r' :: '\n' :: rest => some rest
  | _ => none

def simpleEscape? : Char → Option Char
  | 'b' => some '\x08'
  | 't' => some '\t'
  | 'n' => some '\n'
  | 'f' => some '\x0c'
  | 'r' => some '\r'
  | '"' => some '"'
  | '\\' => some '\\'
  | _ => none

def codePoint? (digits : List Char) : Option Char :=
  match Guid.ofHex? digits with
  | some code => if code.isValidChar then some (Char.ofNat code) else none
  | none => none

def readEscape? : List Char → Option (Char × List Char)
  | 'u' :: rest =>
    if rest.length < 4 then none else (codePoint? (rest.take 4)).map fun c => (c, rest.drop 4)
  | 'U' :: rest =>
    if rest.length < 8 then none else (codePoint? (rest.take 8)).map fun c => (c, rest.drop 8)
  | c :: rest => (simpleEscape? c).map fun c => (c, rest)
  | [] => none

def readLine (quote : Char) (escapes : Bool) : Nat → List Char → List Char → Option (String × List Char)
  | 0, _, _ => none
  | _, _, [] => none
  | fuel + 1, taken, c :: rest =>
    if c = quote then some (String.ofList taken.reverse, rest)
    else if c = '\\' ∧ escapes then
      match readEscape? rest with
      | some (c, rest) => readLine quote escapes fuel (c :: taken) rest
      | none => none
    else if isControl c then none
    else readLine quote escapes fuel (c :: taken) rest

def atLineEnd (cs : List Char) : Bool := (newline? (skipBlank cs)).isSome

def skipLines : List Char → List Char
  | '\r' :: '\n' :: rest => skipLines rest
  | c :: rest => if isBlank c || c == '\n' then skipLines rest else c :: rest
  | [] => []

/-- A string over several lines after its opening quotes. One or two quotes stand for themselves, also
right before the closing three. A backslash at the end of a line joins it to the next text. -/
def readLines (quote : Char) (escapes : Bool) : Nat → List Char → List Char → Option (String × List Char)
  | 0, _, _ => none
  | _, _, [] => none
  | fuel + 1, taken, c :: rest =>
    if c = quote then
      let count := (rest.takeWhile (· == quote)).length + 1
      if count < 3 then readLines quote escapes fuel (c :: taken) rest
      else if count ≤ 5 then
        some (String.ofList (List.replicate (count - 3) quote ++ taken).reverse, rest.drop (count - 1))
      else none
    else if c = '\\' ∧ escapes then
      if atLineEnd rest then readLines quote escapes fuel taken (skipLines rest)
      else
        match readEscape? rest with
        | some (c, rest) => readLines quote escapes fuel (c :: taken) rest
        | none => none
    else
      match newline? (c :: rest) with
      | some rest => readLines quote escapes fuel ('\n' :: taken) rest
      | none => if isControl c then none else readLines quote escapes fuel (c :: taken) rest

def readString? : List Char → Option (String × List Char)
  | '"' :: '"' :: '"' :: rest => readLines '"' true rest.length.succ [] ((newline? rest).getD rest)
  | '\'' :: '\'' :: '\'' :: rest => readLines '\'' false rest.length.succ [] ((newline? rest).getD rest)
  | '"' :: rest => readLine '"' true rest.length.succ [] rest
  | '\'' :: rest => readLine '\'' false rest.length.succ [] rest
  | _ => none

def grouped? (isDigit : Char → Bool) : List Char → Option (List Char)
  | [] => none
  | [c] => if isDigit c then some [c] else none
  | c :: '_' :: d :: rest =>
    if isDigit c && isDigit d then (grouped? isDigit (d :: rest)).map (c :: ·) else none
  | c :: rest => if isDigit c then (grouped? isDigit rest).map (c :: ·) else none

def wholePart? (cs : List Char) : Option (List Char) :=
  match grouped? isDigit cs with
  | some ('0' :: _ :: _) => none
  | digits => digits

def isDigitOrGroup (c : Char) : Bool := isDigit c || c == '_'

def fraction? : List Char → Option (Option (List Char) × List Char)
  | '.' :: rest =>
    (grouped? isDigit (rest.takeWhile isDigitOrGroup)).map fun digits =>
      (some digits, rest.dropWhile isDigitOrGroup)
  | cs => some (none, cs)

def exponent? : List Char → Option (Option (Bool × List Char))
  | [] => some none
  | c :: rest =>
    if c = 'e' ∨ c = 'E' then
      let (negative, rest) := Numeral.scanSign rest
      (grouped? isDigit rest).map fun digits => some (negative, digits)
    else none

def float? (negative : Bool) (cs : List Char) : Option Document := do
  let whole ← wholePart? (cs.takeWhile isDigitOrGroup)
  let (fraction, rest) ← fraction? (cs.dropWhile isDigitOrGroup)
  let exponent ← exponent? rest
  let value := (⟨negative, whole, fraction, exponent⟩ : Numeral).nearest
  if value.isInf ∧ !negative then none else some (.float value)

def int? (value : Int) : Option Document :=
  if Number.fitsSigned 64 value then some (.int value) else none

def radix? (base : Nat) (cs : List Char) : Option Document :=
  let isBaseDigit (c : Char) : Bool :=
    match Guid.ofHex? [c] with
    | some digit => digit < base
    | none => false
  match grouped? isBaseDigit cs with
  | some digits =>
    let magnitude : Nat := digits.foldl (fun n c => base * n + (Guid.ofHex? [c]).getD 0) 0
    int? magnitude
  | none => none

def number? (negative : Bool) : List Char → Option Document
  | ['i', 'n', 'f'] => some (.float (Float.ofBits (if negative then 0xfff0000000000000 else 0x7ff0000000000000)))
  | ['n', 'a', 'n'] => some (.float (Float.ofBits 0x7ff8000000000000))
  | cs =>
    if cs.all isDigitOrGroup then
      match wholePart? cs with
      | some digits => int? (if negative then -(digitsValue digits : Int) else digitsValue digits)
      | none => none
    else float? negative cs

def word? : List Char → Option Document
  | ['t', 'r', 'u', 'e'] => some (.bool true)
  | ['f', 'a', 'l', 's', 'e'] => some (.bool false)
  | '0' :: 'x' :: rest => radix? 16 rest
  | '0' :: 'o' :: rest => radix? 8 rest
  | '0' :: 'b' :: rest => radix? 2 rest
  | '-' :: rest => number? true rest
  | '+' :: rest => number? false rest
  | cs => number? false cs

end Patchbay.Toml
