import Patchbay.Library
import Patchbay.Project.Deployment

set_option autoImplicit false

namespace Patchbay

inductive Request where
  | run (event : String) (component : Option Guid) (arguments : String)
  | call (script function : String) (interface : Option String) (arguments : String)
  | check

structure Command where
  project : String
  logJson : Bool
  request : Request

inductive Refusal where
  | usage
  | help
deriving DecidableEq

structure CommandOption where
  name : String
  short : Option Char
  isFlag : Bool
  accepts : String → Bool

namespace CommandOption

def text (name : String) : CommandOption := ⟨name, none, false, fun _ => true⟩

def flag (name : String) : CommandOption := ⟨name, none, true, fun _ => true⟩

def shared : List CommandOption := [⟨"project", some 'p', false, (!·.isEmpty)⟩, flag "log-json"]

def ofRun : List CommandOption :=
  [text "event", ⟨"component", none, false, fun value => (Guid.parse? value).isSome⟩, text "args"]

def ofCall : List CommandOption := [text "script", text "function", text "interface", text "args"]

end CommandOption

abbrev GivenOptions := List (String × String)

namespace Command

inductive Form where
  | option (choice : Except Refusal CommandOption) (attached : Option String)
  | endOfOptions
  | word

def findLong (options : List CommandOption) (name : String) : Except Refusal CommandOption :=
  match options.find? (·.name == name) with
  | some choice => .ok choice
  | none => .error (if name = "help" then .help else .usage)

def findShort (options : List CommandOption) (name : Char) : Except Refusal CommandOption :=
  match options.find? (·.short == some name) with
  | some choice => .ok choice
  | none => .error (if name = 'h' then .help else .usage)

def form (options : List CommandOption) (argument : String) : Form :=
  match argument.toList with
  | ['-', '-'] => .endOfOptions
  | '-' :: '-' :: rest =>
    let name := String.ofList (rest.takeWhile (· != '='))
    match rest.dropWhile (· != '=') with
    | _ :: value =>
      let choice := if name = "help" then .error .usage else findLong options name
      .option choice (some (String.ofList value))
    | [] => .option (findLong options name) none
  | ['-', name] => .option (findShort options name) none
  | '-' :: name :: '=' :: value => .option (findShort options name) (some (String.ofList value))
  | '-' :: name :: value => .option (findShort options name) (some (String.ofList value))
  | _ => .word

def give (choice : CommandOption) (value : String) (given : GivenOptions) : Except Refusal GivenOptions :=
  if given.any (·.1 == choice.name) ∨ !choice.accepts value then .error .usage
  else .ok ((choice.name, value) :: given)

/-- Read options up to the first word; also that word and what follows it. The value of an option is
attached to it or stands next, where it must not look like an option. -/
def scan (options : List CommandOption) :
    GivenOptions → List String → Except Refusal (GivenOptions × Option (String × List String))
  | given, [] => .ok (given, none)
  | given, argument :: rest =>
    match form options argument with
    | .word => .ok (given, some (argument, rest))
    | .endOfOptions => if rest.isEmpty then .ok (given, none) else .error .usage
    | .option (.error refusal) _ => .error refusal
    | .option (.ok choice) attached =>
      match choice.isFlag, attached, rest with
      | true, some _, _ => .error .usage
      | true, none, rest =>
        match give choice "" given with
        | .ok given => scan options given rest
        | .error refusal => .error refusal
      | false, some value, rest =>
        match give choice value given with
        | .ok given => scan options given rest
        | .error refusal => .error refusal
      | false, none, [] => .error .usage
      | false, none, value :: rest =>
        match form options value with
        | .word =>
          match give choice value given with
          | .ok given => scan options given rest
          | .error refusal => .error refusal
        | _ => .error .usage

def value? (name : String) (given : GivenOptions) : Option String := (given.find? (·.1 == name)).map (·.2)

def requestOptions (options : List CommandOption) (arguments : List String) : Except Refusal GivenOptions :=
  match scan (options ++ CommandOption.shared) [] arguments with
  | .ok (given, none) => .ok given
  | .ok (_, some _) => .error .usage
  | .error refusal => .error refusal

def defaultProject : String := "./project"

def defaultEvent : String := "OnStart"

def defaultArguments : String := "[]"

def requestNames : List String := ["run", "call", "check", "help"]

def helpAbout : List String → Refusal
  | [] => .help
  | [name] => if requestNames.contains name then .help else .usage
  | _ => .usage

def readRequest (name : String) (arguments : List String) : Except Refusal (Request × GivenOptions) :=
  match name with
  | "run" => do
    let given ← requestOptions CommandOption.ofRun arguments
    return (.run ((value? "event" given).getD defaultEvent) ((value? "component" given).bind Guid.parse?)
      ((value? "args" given).getD defaultArguments), given)
  | "call" => do
    let given ← requestOptions CommandOption.ofCall arguments
    match value? "script" given, value? "function" given with
    | some script, some function =>
      return (.call script function (value? "interface" given) ((value? "args" given).getD defaultArguments), given)
    | _, _ => .error .usage
  | "check" => do return (.check, ← requestOptions [] arguments)
  | "help" => .error (helpAbout arguments)
  | _ => .error .usage

/-- The command that the arguments ask for. Of a shared option before and after the name of the
request the latter counts. -/
def parse (arguments : List String) : Except Refusal Command := do
  match ← scan CommandOption.shared [] arguments with
  | (_, none) => .error .usage
  | (before, some (name, rest)) =>
    let (request, after) ← readRequest name rest
    let given := after ++ before
    return ⟨(value? "project" given).getD defaultProject, (value? "log-json" given).isSome, request⟩

end Command

inductive CommandResult where
  | done (output : Option String)
  | failed (text : String) (cause : Option String)
deriving DecidableEq

def CommandResult.code : CommandResult → Nat
  | .done _ => 0
  | .failed _ _ => 1

def Refusal.code : Refusal → Nat
  | .usage => 2
  | .help => 0

namespace Command

abbrev Log := List (LogLevel × String)

def catalog : Catalog (World Log) := Library.catalog fun level text => World.modifyExtra ((level, text) :: ·)

def readArguments (text : String) : Except String (List Value) :=
  match (Document.parse? text).bind Document.any? with
  | some (.array items) => .ok (items.map Document.toValue)
  | some _ => .error ("Arguments must be a JSON array, got: " ++ text)
  | none => .error ("Invalid JSON arguments: " ++ text)

def perform (request : Request) (deployment : Deployment) (world : World Log) : CommandResult × World Log :=
  match request with
  | .run event component arguments =>
    match readArguments arguments with
    | .error text => (.failed text none, world)
    | .ok arguments =>
      match deployment.fire catalog component event arguments world with
      | (.ok (), world) => (.done none, world)
      | (.error cause, world) => (.failed cause.message none, world)
  | .call script function interface arguments =>
    match readArguments arguments with
    | .error text => (.failed text none, world)
    | .ok arguments =>
      let called := match interface with
        | some interface => deployment.callInterface catalog script interface function arguments world
        | none => deployment.call catalog script function arguments world
      match called with
      | (.ok outputs, world) => (.done (some (Document.array (outputs.map Value.plain)).compact), world)
      | (.error cause, world) => (.failed cause.message none, world)
  | .check => (.done (some (Document.ofList ScriptSummary.toDocument (deployment.summaries world)).pretty), world)

def execute (fresh : Nat → Guid) (files : Files) (command : Command) : CommandResult × Log :=
  match Project.loadManifest files command.project with
  | .error cause => (.failed ("Failed to load project from " ++ command.project) (some cause.message), [])
  | .ok _ =>
    match Project.load files command.project with
    | .error cause => (.failed cause.message none, [])
    | .ok project =>
      match Deployment.start fresh project (⟨[], [], []⟩ : World Log) with
      | (.error cause, world) => (.failed cause.message none, world.extra.reverse)
      | (.ok deployment, world) =>
        let (result, world) := perform command.request deployment world
        (result, (deployment.shutdown world).extra.reverse)

end Command

end Patchbay
