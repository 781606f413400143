import Patchbay.Fields
import Patchbay.Text.Search

set_option autoImplicit false

namespace Patchbay

/-- A file or a directory. A file without text holds bytes that are no text. A directory has its
entries in no order, each name once. -/
inductive FileTree where
  | file (text : Option String)
  | directory (entries : List (String × FileTree))

inductive FileFault where
  | notFound
  | notDirectory
  | isDirectory
  | present
  | badName
  | notText
deriving DecidableEq

def FileFault.message : FileFault → String
  | .notFound => "No such file or directory (os error 2)"
  | .notDirectory => "Not a directory (os error 20)"
  | .isDirectory => "Is a directory (os error 21)"
  | .present => "File exists (os error 17)"
  | .badName => "File name too long (os error 36)"
  | .notText => "stream did not contain valid UTF-8"

namespace Path

def isAbsolute (path : String) : Bool := path.toList.head? == some '/'

/-- Append a name to a path. A name that starts at the root stands alone. -/
def join (path name : String) : String :=
  if isAbsolute name ∨ path.isEmpty then name
  else if path.toList.getLast? = some '/' then path ++ name
  else path ++ "/" ++ name

def maxBytes : Nat := 4095

def maxNameBytes : Nat := 255

/-- Whether a path can be used at all: it is not too long, and no character of it is zero. -/
def isUsable (path : String) : Bool := path.utf8ByteSize ≤ maxBytes && !path.toList.contains '\x00'

def parts (path : String) : List String := (Text.split ['/'] path.toList).map String.ofList

/-- The place that the parts of a path lead to, on paper. -/
def placeFrom : List String → List String → List String
  | place, [] => place
  | place, part :: rest =>
    if part = "" ∨ part = "." then placeFrom place rest
    else if part = ".." then placeFrom place.dropLast rest
    else placeFrom (place ++ [part]) rest

/-- Stem and extension of a file name. A point in front of the name starts no extension. -/
def stemAndExtension (name : String) : String × Option String :=
  let backward := name.toList.reverse
  match backward.dropWhile (· != '.') with
  | [] | [_] => (name, none)
  | _ :: stem => (String.ofList stem.reverse, some (String.ofList (backward.takeWhile (· != '.')).reverse))

end Path

namespace FileTree

def empty : FileTree := .directory []

/-- What stands at a place, which is given by names from the top down. -/
def find (tree : FileTree) : List String → Except FileFault FileTree
  | [] => .ok tree
  | name :: rest =>
    match tree with
    | .file _ => .error .notDirectory
    | .directory entries =>
      match Fields.find? name entries with
      | some inner => inner.find rest
      | none => .error .notFound

/-- Set an entry of a directory, in the place of one with the same name. -/
def setEntry (name : String) (new : FileTree) : List (String × FileTree) → List (String × FileTree)
  | [] => [(name, new)]
  | (key, old) :: rest => if key = name then (key, new) :: rest else (key, old) :: setEntry name new rest

def put (new : FileTree) : List String → FileTree → FileTree
  | [], _ => new
  | name :: rest, .directory entries =>
    .directory (setEntry name (put new rest ((Fields.find? name entries).getD empty)) entries)
  | _ :: _, .file text => .file text

/-- Follow the parts of a path from a place. An empty part or one point stays there, two points go
up, and the top has itself above. -/
def locate (tree : FileTree) : List String → List String → Except FileFault (List String)
  | place, [] => .ok place
  | place, part :: rest =>
    match tree.find place with
    | .error fault => .error fault
    | .ok (.file _) => .error .notDirectory
    | .ok (.directory entries) =>
      if part = "" ∨ part = "." then tree.locate place rest
      else if part = ".." then tree.locate place.dropLast rest
      else if (Fields.find? part entries).isSome then tree.locate (place ++ [part]) rest
      else .error .notFound

def makeFrom : List String → List String → FileTree → Except FileFault FileTree
  | _, [], tree => .ok tree
  | place, part :: rest, tree =>
    if part = "" ∨ part = "." then makeFrom place rest tree
    else if part = ".." then makeFrom place.dropLast rest tree
    else
      match tree.find (place ++ [part]) with
      | .ok (.directory _) => makeFrom (place ++ [part]) rest tree
      | .ok (.file _) => .error (if rest.isEmpty then .present else .notDirectory)
      | .error .notFound =>
        if Path.maxNameBytes < part.utf8ByteSize then .error .badName
        else makeFrom (place ++ [part]) rest (put empty (place ++ [part]) tree)
      | .error fault => .error fault

end FileTree

structure Files where
  root : FileTree
  here : List String

namespace Files

def workingAt (here : List String) : Files := ⟨FileTree.put .empty here .empty, here⟩

def start (files : Files) (path : String) : List String := if Path.isAbsolute path then [] else files.here

def lookup (files : Files) (path : String) : Except FileFault FileTree :=
  if path.isEmpty then .error .notFound
  else if !Path.isUsable path then .error .badName
  else
    match files.root.locate (files.start path) (Path.parts path) with
    | .ok place => files.root.find place
    | .error fault => .error fault

def contains (files : Files) (path : String) : Bool := (files.lookup path).isOk

def read (files : Files) (path : String) : Except FileFault String :=
  match files.lookup path with
  | .error fault => .error fault
  | .ok (.directory _) => .error .isDirectory
  | .ok (.file none) => .error .notText
  | .ok (.file (some text)) => .ok text

def list (files : Files) (path : String) : Except FileFault (List String) :=
  match files.lookup path with
  | .error fault => .error fault
  | .ok (.file _) => .error .notDirectory
  | .ok (.directory entries) => .ok (entries.map (·.1))

def makeDirectory (path : String) (files : Files) : Except FileFault Files :=
  if !Path.isUsable path then .error .badName
  else
    match FileTree.makeFrom (files.start path) (Path.parts path) files.root with
    | .ok root => .ok { files with root := root }
    | .error fault => .error fault

/-- Write a file, or anything else that is no directory yet, into a directory that exists. -/
def write (path : String) (new : FileTree) (files : Files) : Except FileFault Files :=
  let parts := Path.parts path
  let name := parts.getLast?.getD ""
  if path.isEmpty then .error .notFound
  else if name = "" ∨ name = "." ∨ name = ".." then .error .isDirectory
  else if !Path.isUsable path ∨ Path.maxNameBytes < name.utf8ByteSize then .error .badName
  else
    match files.root.locate (files.start path) parts.dropLast with
    | .error fault => .error fault
    | .ok place =>
      match files.root.find (place ++ [name]) with
      | .ok (.directory _) => .error .isDirectory
      | .ok (.file _) | .error .notFound => .ok { files with root := FileTree.put new (place ++ [name]) files.root }
      | .error fault => .error fault

def add (path : String) (new : FileTree) (files : Files) : Except FileFault Files :=
  match FileTree.makeFrom (files.start path) (Path.parts path).dropLast files.root with
  | .ok root => ({ files with root := root } : Files).write path new
  | .error fault => .error fault

end Files

end Patchbay
