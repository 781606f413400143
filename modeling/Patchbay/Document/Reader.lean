import Patchbay.Document
import Patchbay.Number.Reading

set_option autoImplicit false

namespace Patchbay.Document

def maxNesting : Nat := 127

def isSpace (c : Char) : Bool := c == ' ' || c == '\n' || c == '\t' || c == '\r'

def skipSpace (cs : List Char) : List Char := cs.dropWhile isSpace

inductive StringPart where
  | char (c : Char)
  | unit (code : Nat)

def simpleEscape? : Char → Option Char
  | '"' => some '"'
  | '\\' => some '\\'
  | '/' => some '/'
  | 'b' => some '\x08'
  | 'f' => some '\x0c'
  | 'n' => some '\n'
  | 'r' => some '\r'
  | 't' => some '\t'
  | _ => none

def scanString : List StringPart → List Char → Option (List StringPart × List Char)
  | _, [] => none
  | parts, '"' :: rest => some (parts, rest)
  | parts, '\\' :: 'u' :: a :: b :: c :: d :: rest =>
    match Guid.ofHex? [a, b, c, d] with
    | some code => scanString (.unit code :: parts) rest
    | none => none
  | parts, '\\' :: c :: rest =>
    match simpleEscape? c with
    | some c => scanString (.char c :: parts) rest
    | none => none
  | parts, c :: rest => if c.toNat < 32 ∨ c = '\\' then none else scanString (.char c :: parts) rest

def joinParts : List Char → List StringPart → Option (List Char)
  | cs, [] => some cs
  | cs, .char c :: rest => joinParts (c :: cs) rest
  | cs, .unit low :: .unit high :: rest =>
    if 0xdc00 ≤ low ∧ low < 0xe000 then
      if 0xd800 ≤ high ∧ high < 0xdc00 then
        joinParts (Char.ofNat (0x10000 + (high - 0xd800) * 0x400 + (low - 0xdc00)) :: cs) rest
      else none
    else if 0xd800 ≤ low ∧ low < 0xdc00 then none
    else joinParts (Char.ofNat low :: cs) (.unit high :: rest)
  | cs, .unit code :: rest => if 0xd800 ≤ code ∧ code < 0xe000 then none else joinParts (Char.ofNat code :: cs) rest

def readString (cs : List Char) : Option (Option String × List Char) :=
  (scanString [] cs).map fun (parts, rest) => ((joinParts [] parts).map String.ofList, rest)

def ofNumeral (numeral : Numeral) : Document :=
  match numeral.toInt? with
  | some n => .int n
  | none => (numeral.toFloat?.map .float).getD .invalid

def expectChar (c : Char) (cs : List Char) : Option (List Char) :=
  match skipSpace cs with
  | d :: rest => if c = d then some rest else none
  | [] => none

mutual

/-- Read a document off the text. `number` gives its numbers, `fuel` bounds the steps by the length of
the text, and `level` counts the containers around. -/
def readValue (number : Numeral → Document) (fuel level : Nat) (cs : List Char) : Option (Document × List Char) :=
  match fuel with
  | 0 => none
  | fuel + 1 =>
    match skipSpace cs with
    | 'n' :: 'u' :: 'l' :: 'l' :: rest => some (.null, rest)
    | 't' :: 'r' :: 'u' :: 'e' :: rest => some (.bool true, rest)
    | 'f' :: 'a' :: 'l' :: 's' :: 'e' :: rest => some (.bool false, rest)
    | '"' :: rest => (readString rest).map fun (content, rest) => ((content.map .string).getD .invalid, rest)
    | '[' :: rest =>
      let items := match skipSpace rest with
        | ']' :: rest => some ([], rest)
        | rest => readItems number fuel (level + 1) [] rest
      items.map fun (items, rest) => (if level < maxNesting then .array items else .invalid, rest)
    | '\x7b' :: rest =>
      let entries := match skipSpace rest with
        | '\x7d' :: rest => some ((some [], rest) : Option (List (String × Document)) × List Char)
        | rest => readEntries number fuel (level + 1) (some []) rest
      entries.map fun (entries, rest) =>
        match entries with
        | some entries => (if level < maxNesting then .object entries else .invalid, rest)
        | none => (.invalid, rest)
    | rest => (Numeral.scan rest).map fun (numeral, rest) => (number numeral, rest)

def readItems (number : Numeral → Document) (fuel level : Nat) (items : List Document) (cs : List Char) :
    Option (List Document × List Char) :=
  match fuel with
  | 0 => none
  | fuel + 1 =>
    match readValue number fuel level cs with
    | none => none
    | some (item, rest) =>
      match skipSpace rest with
      | ']' :: rest => some ((item :: items).reverse, rest)
      | ',' :: rest => readItems number fuel level (item :: items) rest
      | _ => none

/-- Entries up to the closing brace; `none` in place of them if a name has no content. -/
def readEntries (number : Numeral → Document) (fuel level : Nat) (entries : Option (List (String × Document)))
    (cs : List Char) : Option (Option (List (String × Document)) × List Char) :=
  match fuel with
  | 0 => none
  | fuel + 1 =>
    match (expectChar '"' cs).bind readString with
    | none => none
    | some (name, rest) =>
      match (expectChar ':' rest).bind (readValue number fuel level) with
      | none => none
      | some (item, rest) =>
        let entries := entries.bind fun entries => name.map fun name => (name, item) :: entries
        match skipSpace rest with
        | '\x7d' :: rest => some (entries.map List.reverse, rest)
        | ',' :: rest => readEntries number fuel level entries rest
        | _ => none

end

def parseWith? (number : Numeral → Document) (text : String) : Option Document :=
  let cs := text.toList
  match readValue number (cs.length + 1) 0 cs with
  | some (document, rest) => if (skipSpace rest).isEmpty then some document else none
  | none => none

def parse? : String → Option Document := parseWith? ofNumeral

end Patchbay.Document
