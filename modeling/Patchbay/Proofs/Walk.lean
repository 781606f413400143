import Mathlib.Logic.Relation
import Patchbay.Node.Make
import Patchbay.Proofs.History

set_option autoImplicit false

namespace Patchbay

open Effect

/-- The in-pins that a node of a kind is made with. -/
def NodeKind.entrances : NodeKind → Nat
  | .forLoop | .forEach | .whileLoop => 2
  | .functionEntry | .receiveEvent _ _ => 0
  | .implicitCast _ | .getVariable _ | .getMember _ | .selfReference | .getComponent _ | .makeArray => 0
  | .callNative _ isPure => if isPure then 0 else 1
  | _ => 1

def Node.Shaped (node : Node) : Prop := node.execIn.length = node.kind.entrances

instance (node : Node) : Decidable node.Shaped := inferInstanceAs (Decidable (_ = _))

def breakPin : Nat := 1

def NodeKind.isLoop : NodeKind → Bool
  | .forLoop | .forEach | .whileLoop => true
  | _ => false

/-- The turns that a node takes, each with what it gives and the out-pin that control leaves by.
They are known from the start, or each is decided by the condition as it is read then. -/
inductive Agenda where
  | listed (turns : List Yield) (last : Yield)
  | conditional

namespace Agenda

/-- The next turn, and what is left after it. -/
def turn (inputs : List Value) : Agenda → Yield × Option Agenda
  | .listed [] last => (last, none)
  | .listed (first :: rest) last => (first, some (.listed rest last))
  | .conditional =>
    if (Node.input inputs 0).bool?.getD false then (([], some loopPin), some .conditional)
    else (([], some donePin), none)

def pins (first count : Nat) : Agenda :=
  .listed ((List.range' first (count - first)).map fun pin => ([], some pin)) ([], none)

def counting (first last : Int) : Agenda :=
  .listed ((List.range (last - first + 1).toNat).map fun (offset : Nat) =>
    ([.int (Int64.ofInt (first + offset))], some loopPin)) ([.int (-1)], some donePin)

def walking (items : List Value) (first : Nat) : Agenda :=
  .listed (((items.drop first).zipIdx first).map fun (item, position) =>
    ([item, .int (Int64.ofNat position)], some loopPin)) ([.null, .int (-1)], some donePin)

end Agenda

/-- What a node that takes turns sets out to do, by the inputs that it reads on entry. -/
def Node.agenda? (node : Node) (inputs : List Value) : Option Agenda :=
  match node.kind with
  | .sequence => some (.pins 0 node.execOut.length)
  | .forLoop =>
    some (.counting ((Node.input inputs 0).int?.getD 0).toInt ((Node.input inputs 1).int?.getD 0).toInt)
  | .forEach => some (.walking ((Node.input inputs 0).items?.getD []) 0)
  | .whileLoop => some .conditional
  | _ => none

def NodeKind.isOrdinary : NodeKind → Bool
  | .sequence | .forLoop | .forEach | .whileLoop | .functionReturn => false
  | _ => true

def Exit (nodes : List Node) (index pin : Nat) (target : ExecTarget) : Prop :=
  ∃ node exec, nodes[index]? = some node ∧ node.execOut[pin]? = some exec ∧ exec.target = some target

/-- Whether control came to the end of a branch, or a return took it away from there. -/
inductive Ending where
  | finished
  | returned

mutual

/-- The steps below a node, by recursion on the tree of execution pins: those from a node that
control enters, those behind an out-pin, and the turns of a node. -/
inductive Walk (nodes : List Node) : Nat → List Step → Ending → Prop where
  | ordinary (index : Nat) (node : Node) (inputs outputs : List Value) (next : Option Nat) (steps : List Step)
      (ending : Ending) (found : nodes[index]? = some node) (ordinary : node.kind.isOrdinary = true)
      (after : Branch nodes index next steps ending) :
      Walk nodes index (⟨index, .entered 0, inputs, outputs, next⟩ :: steps) ending
  | returned (index : Nat) (node : Node) (inputs : List Value) (found : nodes[index]? = some node)
      (kind : node.kind = .functionReturn) : Walk nodes index [⟨index, .entered 0, inputs, [], none⟩] .returned
  | turns (index : Nat) (node : Node) (inputs : List Value) (agenda : Agenda) (steps : List Step) (ending : Ending)
      (found : nodes[index]? = some node) (planned : node.agenda? inputs = some agenda)
      (turns : Turns nodes index (.entered 0) inputs agenda steps ending) : Walk nodes index steps ending

inductive Branch (nodes : List Node) : Nat → Option Nat → List Step → Ending → Prop where
  | none (index : Nat) : Branch nodes index none [] .finished
  | unconnected (index pin : Nat) (nowhere : ∀ target, ¬ Exit nodes index pin target) :
      Branch nodes index (some pin) [] .finished
  | leads (index pin : Nat) (target : ExecTarget) (steps : List Step) (ending : Ending)
      (exit : Exit nodes index pin target) (below : Walk nodes target.node steps ending) :
      Branch nodes index (some pin) steps ending

inductive Turns (nodes : List Node) : Nat → Activation → List Value → Agenda → List Step → Ending → Prop where
  | last (index : Nat) (activation : Activation) (inputs : List Value) (agenda : Agenda) (yielded : Yield)
      (steps : List Step) (ending : Ending) (turn : agenda.turn inputs = (yielded, none))
      (below : Branch nodes index yielded.2 steps ending) :
      Turns nodes index activation inputs agenda (⟨index, activation, inputs, yielded.1, yielded.2⟩ :: steps) ending
  | turn (index : Nat) (activation : Activation) (inputs : List Value) (agenda rest : Agenda) (yielded : Yield)
      (steps : List Step) (again : List Value) (others : List Step) (ending : Ending)
      (turn : agenda.turn inputs = (yielded, some rest)) (below : Branch nodes index yielded.2 steps .finished)
      (back : Turns nodes index .resumed again rest others ending) :
      Turns nodes index activation inputs agenda
        (⟨index, activation, inputs, yielded.1, yielded.2⟩ :: (steps ++ others)) ending
  | cut (index : Nat) (activation : Activation) (inputs : List Value) (agenda rest : Agenda) (yielded : Yield)
      (steps : List Step) (turn : agenda.turn inputs = (yielded, some rest))
      (below : Branch nodes index yielded.2 steps .returned) :
      Turns nodes index activation inputs agenda (⟨index, activation, inputs, yielded.1, yielded.2⟩ :: steps) .returned

end

def exits (nodes : List Node) : List (Nat × Nat × ExecTarget) :=
  nodes.zipIdx.flatMap fun (node, index) =>
    node.execOut.zipIdx.filterMap fun (exec, pin) => exec.target.map fun target => (index, pin, target)

theorem mem_exits (nodes : List Node) (index pin : Nat) (target : ExecTarget) :
    (index, pin, target) ∈ exits nodes ↔ Exit nodes index pin target := by
  simp only [exits, List.mem_flatMap, List.mem_filterMap, Option.map_eq_some_iff, Prod.exists, List.mem_zipIdx_iff_getElem?,
    Exit]
  constructor
  · rintro ⟨node, _, found, exec, _, out, _, leads, same⟩
    cases same
    exact ⟨node, exec, found, out, leads⟩
  · rintro ⟨node, exec, found, out, leads⟩
    exact ⟨node, index, found, exec, pin, out, target, leads, rfl⟩

def Leads (nodes : List Node) (a b : Nat) : Prop := ∃ pin target, Exit nodes a pin target ∧ target.node = b

abbrev Reaches (nodes : List Node) : Nat → Nat → Prop := Relation.ReflTransGen (Leads nodes)

abbrev Above (nodes : List Node) : Nat → Nat → Prop := Relation.TransGen (Leads nodes)

/-- The execution pins that can be reached from a node form a tree with that node as its root, and
no pin leads to a `Break`. -/
structure ExecTree (nodes : List Node) (start : Nat) : Prop where
  root : ∀ a, Reaches nodes start a → ¬ Leads nodes a start
  single : ∀ a b pin other target second, Reaches nodes start a → Reaches nodes start b → Exit nodes a pin target →
    Exit nodes b other second → target.node = second.node → a = b ∧ pin = other
  unbroken : ∀ a pin target node, Reaches nodes start a → Exit nodes a pin target → nodes[target.node]? = some node →
    node.kind.isLoop = true → target.pin ≠ breakPin

/-- A forest of all exits, which can be checked by going through them. -/
theorem exec_tree_of_exits (nodes : List Node) (start : Nat) (root : ∀ exit ∈ exits nodes, exit.2.2.node ≠ start)
    (single : ∀ a ∈ exits nodes, ∀ b ∈ exits nodes, a.2.2.node = b.2.2.node → a.1 = b.1 ∧ a.2.1 = b.2.1)
    (unbroken : ∀ exit ∈ exits nodes, ∀ node ∈ nodes[exit.2.2.node]?, node.kind.isLoop = true → exit.2.2.pin ≠ breakPin) :
    ExecTree nodes start where
  root := by
    rintro a _ ⟨pin, target, exit, same⟩
    exact root _ ((mem_exits nodes a pin target).mpr exit) same
  single a b pin other target second _ _ exit exit' same :=
    single _ ((mem_exits nodes a pin target).mpr exit) _ ((mem_exits nodes b other second).mpr exit') same
  unbroken a pin target node _ exit found loop :=
    unbroken _ ((mem_exits nodes a pin target).mpr exit) node found loop

theorem exec_tree_acyclic {nodes : List Node} {start : Nat} (tree : ExecTree nodes start) {index : Nat}
    (reached : Reaches nodes start index) : ¬ Above nodes index index := by
  induction reached with
  | refl =>
    intro round
    obtain ⟨before, way, last⟩ := Relation.TransGen.tail'_iff.mp round
    exact tree.root before way last
  | tail reached edge ih =>
    rename_i parent index
    intro round
    obtain ⟨before, way, last⟩ := Relation.TransGen.tail'_iff.mp round
    obtain ⟨pin, target, exit, same⟩ := edge
    obtain ⟨other, second, exit', same'⟩ := last
    have there : Reaches nodes start index := reached.tail ⟨pin, target, exit, same⟩
    obtain ⟨rfl, _⟩ := tree.single parent before pin other target second reached (there.trans way) exit exit'
      (same.trans same'.symm)
    exact ih (Relation.TransGen.head' ⟨pin, target, exit, same⟩ way)

end Patchbay
