import Patchbay.Toml.Moment
import Patchbay.Toml.Scalar
import Patchbay.Toml.Table

set_option autoImplicit false

namespace Patchbay.Toml

/-- How deep arrays and inline tables may be nested, and how many parts a key may have. -/
def maxNesting : Nat := 79

def skipComment? (cs : List Char) : Option (List Char) :=
  match cs.dropWhile (!isControl ·) with
  | [] => some []
  | rest => if (newline? rest).isSome then some rest else none

def endLine? (cs : List Char) : Option (List Char) :=
  match skipBlank cs with
  | [] => some []
  | '#' :: rest => (skipComment? rest).map fun rest => (newline? rest).getD rest
  | rest => newline? rest

def skipLayout : Nat → List Char → Option (List Char)
  | 0, _ => none
  | fuel + 1, cs =>
    match skipBlank cs with
    | '#' :: rest =>
      match skipComment? rest with
      | some rest => skipLayout fuel rest
      | none => none
    | rest =>
      match newline? rest with
      | some rest => skipLayout fuel rest
      | none => some rest

def isBareKey (c : Char) : Bool := c.isAlphanum || c == '_' || c == '-'

def readKeyPart? (cs : List Char) : Option (String × List Char) :=
  match cs with
  | '"' :: rest => readLine '"' true rest.length.succ [] rest
  | '\'' :: rest => readLine '\'' false rest.length.succ [] rest
  | _ =>
    let word := cs.takeWhile isBareKey
    if word.isEmpty then none else some (String.ofList word, cs.dropWhile isBareKey)

def readKey? : Nat → List Char → Option (List String × List Char)
  | 0, _ => none
  | fuel + 1, cs =>
    match readKeyPart? (skipBlank cs) with
    | none => none
    | some (part, rest) =>
      match skipBlank rest with
      | '.' :: rest => (readKey? fuel rest).map fun (parts, rest) => (part :: parts, rest)
      | rest => some ([part], rest)

def isWord (c : Char) : Bool := c.isAlphanum || c == '_' || c == '-' || c == '+' || c == '.' || c == ':'

/-- Give a key a value. A dotted key ends in a table that dotted keys made. -/
def assignKey (key : List String) (value : Document) (entries : Entries) : Option Entries :=
  match key.getLast? with
  | some name =>
    let change (origin : Origin) (entries : Entries) : Option Entries :=
      if key.dropLast.isEmpty ∨ origin = .dotted then entries.assign name value else none
    entries.changeAt true change .header key.dropLast
  | none => none

mutual

/-- A value. `fuel` bounds the steps by the length of the text, `level` counts the arrays and inline
tables around. -/
def readValue? (fuel level : Nat) (cs : List Char) : Option (Document × List Char) :=
  match fuel with
  | 0 => none
  | fuel + 1 =>
    match cs with
    | '[' :: rest =>
      if level < maxNesting then
        (readItems? fuel (level + 1) [] rest).map fun (items, rest) => (.array items, rest)
      else none
    | '\x7b' :: rest =>
      if level < maxNesting then
        match skipBlank rest with
        | '\x7d' :: rest => some (.object [], rest)
        | rest => (readInline? fuel (level + 1) [] rest).map fun (entries, rest) => (.object (documents entries), rest)
      else none
    | '"' :: _ | '\'' :: _ => (readString? cs).map fun (text, rest) => (.string text, rest)
    | _ =>
      match readMoment? cs with
      | some (moment, rest) => some (moment.document, rest)
      | none => (word? (cs.takeWhile isWord)).map fun value => (value, cs.dropWhile isWord)

def readItems? (fuel level : Nat) (items : List Document) (cs : List Char) : Option (List Document × List Char) :=
  match fuel with
  | 0 => none
  | fuel + 1 =>
    match skipLayout cs.length.succ cs with
    | none => none
    | some (']' :: rest) => some (items.reverse, rest)
    | some rest =>
      match readValue? fuel level rest with
      | none => none
      | some (item, rest) =>
        match skipLayout rest.length.succ rest with
        | some (',' :: rest) => readItems? fuel level (item :: items) rest
        | some (']' :: rest) => some ((item :: items).reverse, rest)
        | _ => none

def readInline? (fuel level : Nat) (entries : Entries) (cs : List Char) : Option (Entries × List Char) :=
  match fuel with
  | 0 => none
  | fuel + 1 =>
    match readKey? maxNesting cs with
    | some (key, '=' :: rest) =>
      match readValue? fuel level (skipBlank rest) with
      | none => none
      | some (value, rest) =>
        match assignKey key value entries, skipBlank rest with
        | some entries, '\x7d' :: rest => some (entries, rest)
        | some entries, ',' :: rest => readInline? fuel level entries rest
        | _, _ => none
    | _ => none

end

structure Progress where
  root : Entries
  path : List String

namespace Progress

def openTable (row : Bool) (path : List String) (progress : Progress) : Option Progress :=
  match path.getLast? with
  | none => none
  | some name =>
    let change : Entries → Option Entries := if row then Entries.beginRow name else Entries.beginTable name
    (progress.root.changeAt false (fun _ => change) .header path.dropLast).map fun root => ⟨root, path⟩

def assign (key : List String) (value : Document) (progress : Progress) : Option Progress :=
  let change (_ : Origin) : Entries → Option Entries := assignKey key value
  (progress.root.changeAt false change .header progress.path).map fun root => { progress with root := root }

end Progress

def readStatement? (cs : List Char) (progress : Progress) : Option (Progress × List Char) :=
  match cs with
  | '[' :: '[' :: rest =>
    match readKey? maxNesting rest with
    | some (path, ']' :: ']' :: rest) => (progress.openTable true path).map fun progress => (progress, rest)
    | _ => none
  | '[' :: rest =>
    match readKey? maxNesting rest with
    | some (path, ']' :: rest) => (progress.openTable false path).map fun progress => (progress, rest)
    | _ => none
  | _ =>
    match readKey? maxNesting cs with
    | some (key, '=' :: rest) =>
      match readValue? rest.length.succ 0 (skipBlank rest) with
      | some (value, rest) => (progress.assign key value).map fun progress => (progress, rest)
      | none => none
    | _ => none

def readAll? : Nat → Progress → List Char → Option Progress
  | 0, _, _ => none
  | fuel + 1, progress, cs =>
    match skipLayout cs.length.succ cs with
    | none => none
    | some [] => some progress
    | some rest =>
      match readStatement? rest progress with
      | none => none
      | some (progress, rest) =>
        match endLine? rest with
        | some rest => readAll? fuel progress rest
        | none => none

def parse? (text : String) : Option Document :=
  let cs := match text.toList with
    | '\ufeff' :: rest => rest
    | cs => cs
  (readAll? cs.length.succ ⟨[], []⟩ cs).map fun progress => .object (documents progress.root)

end Patchbay.Toml
