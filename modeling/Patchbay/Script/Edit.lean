import Patchbay.Script

set_option autoImplicit false

namespace Patchbay.Script

/-- Name the variables of every graph in another form. Also how many nodes had to go because their
variable or function is gone. -/
def convertReferences (form : ReferenceForm) (script : Script) : Script × Nat :=
  let convert (graph : Graph) := graph.convertReferences script.vars script.functionIds form
  (script.mapGraphs fun graph => (convert graph).1, (script.graphs.map fun graph => (convert graph).2).foldr (· + ·) 0)

def addVariable (entry : Variable) (script : Script) : Script :=
  { script with vars := script.vars ++ [entry] }

def removeVariable (guid : Guid) (script : Script) : Option (Variable × Script) :=
  match Variable.position? guid script.vars with
  | none => none
  | some index =>
    match script.vars[index]? with
    | none => none
    | some entry =>
      let rest := { script with vars := script.vars.eraseIdx index }
      some (entry, (rest.convertReferences .live).1)

def addFunction (function : Function) (script : Script) : Script :=
  { script with functions := script.functions ++ [function] }

def removeFunction (guid : Guid) (script : Script) : Option (Function × Script) :=
  match script.functionIndex? guid with
  | none => none
  | some index =>
    match script.functions[index]? with
    | none => none
    | some function =>
      let rest := { script with functions := script.functions.eraseIdx index }
      some (function, (rest.convertReferences .live).1)

def addEventGraph (graph : EventGraph) (script : Script) : Script :=
  { script with eventGraphs := script.eventGraphs ++ [graph] }

def provides (interface name : String) (script : Script) : Bool :=
  script.interfaceFunctions.any fun function => function.interface == interface && function.name == name

def includeFunction (interface : String) (script : Script) (signature : InterfaceSignature) : Script :=
  if script.provides interface signature.name then script
  else
    let function := ⟨interface, signature.name, Body.fresh signature.inputs signature.outputs⟩
    { script with interfaceFunctions := script.interfaceFunctions ++ [function] }

def includeInterface (definition : InterfaceDefinition) (script : Script) : Script × Nat :=
  let named := if script.interfaces.contains definition.name then script
    else { script with interfaces := script.interfaces ++ [definition.name] }
  let full := definition.functions.foldl (includeFunction definition.name) named
  (full, full.interfaceFunctions.length - script.interfaceFunctions.length)

def setParameters (guid : Guid) (inputs outputs : Option (List Parameter)) (script : Script) : Script :=
  match script.functionIndex? guid with
  | none => script
  | some index =>
    let change (function : Function) : Function :=
      let body := function.body
      { function with
        body := { body with inputs := inputs.getD body.inputs, outputs := outputs.getD body.outputs } }
    { script with functions := script.functions.modify index change }

/-- Give entry and return of a function its declared parameters, and every call of it as well. -/
def rebuildFunction (guid : Guid) (script : Script) : Except ScriptError (Rebuilt × Script) := do
  match script.functionIndex? guid with
  | none => .error (.functionNotFound (.byGuid guid))
  | some index =>
    match script.functions[index]? with
    | none => .error (.functionNotFound (.byGuid guid))
    | some function =>
      let (rebuilt, function) ← function.rebuild
      let changed := { script with functions := script.functions.set index function }
      .ok (rebuilt, changed.mapGraphs fun graph => (graph.syncCalls guid rebuilt.inputs rebuilt.outputs).1)

end Patchbay.Script
