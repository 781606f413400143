import Patchbay.Files
import Patchbay.Project.Manifest
import Patchbay.Storage.Script
import Patchbay.Toml.Reader

set_option autoImplicit false

namespace Patchbay

inductive LoadError where
  | pathNotFound (path : String)
  | manifestNotFound (path : String)
  | unreadable (fault : FileFault)
  | malformedManifest
  | malformedScript (path : String) (cause : ScriptError)
  | duplicateScript (name : String)
  | badEntity (cause : EntityError)
deriving DecidableEq

def LoadError.message : LoadError → String
  | .pathNotFound path => "Project path does not exist: " ++ path
  | .manifestNotFound path => "Project manifest not found: " ++ path
  | .unreadable fault => "Failed to read file: " ++ fault.message
  | .malformedManifest => "Failed to parse TOML: malformed manifest"
  | .malformedScript path cause => "Failed to load script " ++ path ++ ": " ++ cause.message
  | .duplicateScript name => "Duplicate script name '" ++ name ++ "'"
  | .badEntity cause => cause.message

structure Project where
  path : String
  manifest : Manifest
  scripts : Fields Script

def Manifest.ofToml? (text : String) : Option Manifest := (Toml.parse? text).bind (Manifest.read .toml)

namespace Project

def manifestName : String := "klax.toml"

def scriptsName : String := "scripts"

def scriptExtension : String := "json"

def readFile (files : Files) (path : String) : Except LoadError String :=
  match files.read path with
  | .ok text => .ok text
  | .error fault => .error (.unreadable fault)

def loadManifest (files : Files) (path : String) : Except LoadError Manifest := do
  let manifestPath := Path.join path manifestName
  if !files.contains path then .error (.pathNotFound path)
  else if !files.contains manifestPath then .error (.manifestNotFound manifestPath)
  else
    match Manifest.ofToml? (← readFile files manifestPath) with
    | some manifest => .ok manifest
    | none => .error .malformedManifest

section

variable (read : String → Option Document)

/-- A script from a file; one without a name takes that of the file. -/
def loadScript (files : Files) (directory file : String) : Except LoadError Script := do
  let path := Path.join directory file
  match Script.loadWith read (← readFile files path) with
  | .error cause => .error (.malformedScript path cause)
  | .ok script =>
    .ok (if script.name.isEmpty then { script with name := (Path.stemAndExtension file).1 } else script)

def loadFiles (files : Files) (directory : String) : Fields Script → List String → Except LoadError (Fields Script)
  | scripts, [] => .ok scripts
  | scripts, file :: rest => do
    let script ← loadScript read files directory file
    match Fields.find? script.name scripts with
    | some _ => .error (.duplicateScript script.name)
    | none => loadFiles files directory (Fields.insert script.name script scripts) rest

def isScriptFile (file : String) : Bool := (Path.stemAndExtension file).2 == some scriptExtension

def loadScripts (files : Files) (path : String) : Except LoadError (Fields Script) :=
  let directory := Path.join path scriptsName
  if !files.contains directory then .ok []
  else
    match files.list directory with
    | .ok names => loadFiles read files directory [] ((sorted names).filter isScriptFile)
    | .error fault => .error (.unreadable fault)

/-- Load a project whose scripts `read` takes from their texts, in the order of their paths. -/
def loadWith (files : Files) (path : String) : Except LoadError Project := do
  let manifest ← loadManifest files path
  let scripts ← loadScripts read files path
  return ⟨path, manifest, scripts⟩

end

def load (files : Files) (path : String) : Except LoadError Project := loadWith Document.parse? files path

/-- Save a script under its name, in the text that `write` makes of its document. Gives the path and
the text written, and the files after it. -/
def saveScriptWith (write : Document → String) (path : String) (script : Script) (files : Files) :
    Except LoadError (String × String × Files) :=
  let directory := Path.join path scriptsName
  match files.makeDirectory directory with
  | .error fault => .error (.unreadable fault)
  | .ok files =>
    let file := Path.join directory (script.name ++ "." ++ scriptExtension)
    match (script.saveWith write).1 with
    | .error cause => .error (.malformedScript file cause)
    | .ok text =>
      match files.write file (.file (some text)) with
      | .ok files => .ok (file, text, files)
      | .error fault => .error (.unreadable fault)

def saveScript (path : String) (script : Script) (files : Files) : Except LoadError (String × String × Files) :=
  saveScriptWith Document.pretty path script files

end Project

end Patchbay
