import Patchbay.Document

set_option autoImplicit false

namespace Patchbay.Document

def escape (c : Char) : List Char :=
  if c = '"' then ['\\', '"']
  else if c = '\\' then ['\\', '\\']
  else if c = '\x08' then ['\\', 'b']
  else if c = '\x0c' then ['\\', 'f']
  else if c = '\n' then ['\\', 'n']
  else if c = '\r' then ['\\', 'r']
  else if c = '\t' then ['\\', 't']
  else if c.toNat < 32 then '\\' :: 'u' :: Guid.hexDigits 4 c.toNat
  else [c]

def quote (s : String) : String := String.ofList ('"' :: s.toList.flatMap escape ++ ['"'])

def leafText : Document → String
  | .bool value => toString value
  | .int value => toString value
  | .float value => (DocumentStyle.double.text? .double (Number.decodeDouble value)).getD "null"
  | .single value => (DocumentStyle.single.text? .single (Number.decodeSingle value)).getD "null"
  | .string value => quote value
  | _ => "null"

mutual

def compact : Document → String
  | .array items => "[" ++ String.intercalate "," (compactItems items) ++ "]"
  | .object entries => "\x7b" ++ String.intercalate "," (compactEntries entries) ++ "\x7d"
  | leaf => leafText leaf

def compactItems : List Document → List String
  | [] => []
  | item :: rest => item.compact :: compactItems rest

def compactEntries : List (String × Document) → List String
  | [] => []
  | (name, item) :: rest => (quote name ++ ":" ++ item.compact) :: compactEntries rest

end

def lineBreak (level : Nat) : String := "\n" ++ String.ofList (List.replicate (2 * level) ' ')

def block (opening closing : String) (level : Nat) (items : List String) : String :=
  if items.isEmpty then opening ++ closing
  else
    let indent := lineBreak (level + 1)
    opening ++ indent ++ String.intercalate ("," ++ indent) items ++ lineBreak level ++ closing

mutual

def prettyAt (level : Nat) : Document → String
  | .array items => block "[" "]" level (prettyItems (level + 1) items)
  | .object entries => block "\x7b" "\x7d" level (prettyEntries (level + 1) entries)
  | leaf => leafText leaf

def prettyItems (level : Nat) : List Document → List String
  | [] => []
  | item :: rest => item.prettyAt level :: prettyItems level rest

def prettyEntries (level : Nat) : List (String × Document) → List String
  | [] => []
  | (name, item) :: rest => (quote name ++ ": " ++ item.prettyAt level) :: prettyEntries level rest

end

def pretty (document : Document) : String := document.prettyAt 0

end Patchbay.Document
