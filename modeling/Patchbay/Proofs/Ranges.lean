import Mathlib.Data.Int.Range
import Patchbay.Proofs.Comparison
import Patchbay.Proofs.Turns

set_option autoImplicit false

namespace Patchbay

open Effect

variable {σ : Type}

def integers (first last : Int64) : List Int64 := (Int.range first.toInt (last.toInt + 1)).map Int64.ofInt

theorem integers_exact (first last : Int64) :
    (integers first last).map Int64.toInt = Int.range first.toInt (last.toInt + 1) := by
  have low := first.le_toInt
  have high := last.toInt_lt
  have kept : ∀ n ∈ Int.range first.toInt (last.toInt + 1), (Int64.toInt ∘ Int64.ofInt) n = id n := by
    intro n inside
    obtain ⟨above, below⟩ := Int.mem_range_iff.mp inside
    exact Int64.toInt_ofInt_of_le (by omega) (by omega)
  rw [integers, List.map_map, List.map_congr_left kept, List.map_id]

theorem counted (first last : Int64) :
    (List.range (last.toInt - first.toInt + 1).toNat).map (fun (offset : Nat) => Int64.ofInt (first.toInt + offset)) =
      integers first last := by
  have size : last.toInt + 1 - first.toInt = last.toInt - first.toInt + 1 := by omega
  rw [integers, Int.range, size, List.map_map]
  rfl

theorem Native.partial_called (a b r : NativeType) (f : a.Carrier → b.Carrier → Except String r.Carrier) (left right : Value)
    (x : a.Carrier) (y : b.Carrier) (first : a.read left = .ok x) (second : b.read right = .ok y) :
    Native.partialBinary a b r f [left, right] = ((f x y).map fun result => [r.write result]).mapError .failed := by
  obtain ⟨one, two⟩ := arguments_read first second
  unfold Native.partialBinary
  rw [one, two]
  cases called : f x y with
  | ok =>
    simp only [bind, Except.bind, called]
    rfl
  | error text =>
    simp only [bind, Except.bind, called]
    rfl

namespace Library

theorem saturating_sub_exact (a b : Int64) :
    (saturatingSub a b).toInt = max (-2 ^ 63) (min (2 ^ 63 - 1) (a.toInt - b.toInt)) := by
  have aLow := a.le_toInt
  have aHigh := a.toInt_lt
  have bLow := b.le_toInt
  have bHigh := b.toInt_lt
  have zero : (0 : Int64).toInt = 0 := rfl
  have largest : Int64.maxValue.toInt = 2 ^ 63 - 1 := rfl
  have smallest : Int64.minValue.toInt = -2 ^ 63 := rfl
  have wrapped : (a - b).toInt = (a.toInt - b.toInt).bmod (2 ^ 64) := Int64.toInt_sub a b
  rw [Int.bmod_def] at wrapped
  unfold saturatingSub
  simp only [Int64.lt_iff_toInt_lt, zero]
  -- What does not fit comes out on the wrong side of `a`, and what fits does not.
  split
  · split
    · rw [largest]
      omega
    · omega
  · split
    · rw [smallest]
      omega
    · omega

/-- The subtraction that stops at its bounds tells too long a range as the exact one would. -/
theorem range_limit (first last : Int64) : maxRange ≤ saturatingSub last first ↔ 2 ^ 20 ≤ last.toInt - first.toInt := by
  have limit : maxRange.toInt = 2 ^ 20 := rfl
  rw [Int64.le_iff_toInt_le, saturating_sub_exact, limit]
  omega

theorem range_allowed {first last : Int64} (short : last.toInt - first.toInt < 2 ^ 20) :
    range first last = .ok (integers first last) := by
  rw [range, if_neg (mt (range_limit first last).mp (by omega)), ← counted]
  simp only [Int64.ofInt_add, Int64.ofInt_toInt, Int64.ofInt_eq_ofNat]

/-- The bounds as a range that is refused. -/
def refusedRange (first last : Int64) : String :=
  "range " ++ toString first.toInt ++ "..=" ++ toString last.toInt ++ " is longer than " ++ toString maxRange.toInt

theorem range_refused (first last : Int64) (long : 2 ^ 20 ≤ last.toInt - first.toInt) :
    range first last = .error (refusedRange first last) :=
  if_pos ((range_limit first last).mpr long)

variable (log : LogLevel → String → σ → σ) (state : σ)

theorem range_invoked (first last : Int64) :
    (catalog log).invoke "array/range" [.int first, .int last] state =
      if last.toInt - first.toInt < 2 ^ 20 then (.ok [.array ((integers first last).map .int)], state)
      else (.error (.nativeCall "array/range" (.failed (refusedRange first last))), state) := by
  have listed : (catalog log).Lists "array/range" 2 (Native.partialBinary .int .int (.list .int) range) := by
    rw [Catalog.Lists, catalog, Catalog.find_registered]
    exact ⟨_, rfl, rfl, fun _ _ => rfl⟩
  rw [Catalog.listed_answer state _ listed,
    Native.partial_called .int .int (.list .int) range (.int first) (.int last) first last rfl rfl]
  by_cases short : last.toInt - first.toInt < 2 ^ 20
  · rw [if_pos short, range_allowed short]
    rfl
  · rw [if_neg short, range_refused first last (by omega)]
    rfl

end Library

section

variable (node : Node) (arguments : List Value)

/-- What a node does when control comes to it and then back again, by the inputs that it reads each time. -/
def visits : Activation → Progress → List (List Value) → List Effect
  | _, _, [] => []
  | activation, progress, inputs :: later =>
    match ofNode? node activation progress arguments inputs with
    | some effect => effect :: visits .resumed effect.progress later
    | none => []

variable {S : Type} (read : S → List Value) (body : Value → S → S → Prop)

/-- A loop as a whole: control comes to the node, and after each round of the body back to it, until the node is done. The
body sees the first output, and both the body and what the node reads may depend on all that is outside the node. -/
inductive Rounds : Activation → Progress → S → List Value → S → Prop where
  | done (activation : Activation) (progress : Progress) (state : S) (effect : Effect)
      (applies : ofNode? node activation progress arguments (read state) = some effect)
      (next : effect.next = some donePin) : Rounds activation progress state effect.outputs state
  | round (activation : Activation) (progress : Progress) (state middle final : S) (effect : Effect) (outputs : List Value)
      (applies : ofNode? node activation progress arguments (read state) = some effect)
      (next : effect.next = some loopPin) (once : body (Node.input effect.outputs 0) state middle)
      (back : Rounds .resumed effect.progress middle outputs final) : Rounds activation progress state outputs final

/-- The body for one value after the other. -/
def Passes : List Value → S → S → Prop
  | [], state, final => state = final
  | value :: rest, state, final => ∃ middle, body value state middle ∧ Passes rest middle final

variable {node arguments read body}

variable {turns : List Yield} {last : Yield}

theorem visits_turns (activation : Activation) (progress : Progress) (inputs : List Value) (later : List (List Value))
    (effect : Effect) (stay : PointChange) (applies : ofNode? node activation progress arguments inputs = some effect)
    (turn : TakesTurn node inputs (.listed turns last) stay effect) (enough : later.length = turns.length) :
    (visits node arguments activation progress (inputs :: later)).map (fun effect => (effect.outputs, effect.next)) =
      turns ++ [last] := by
  induction turns generalizing activation progress inputs later effect stay with
  | nil =>
    obtain rfl := List.eq_nil_of_length_eq_zero enough
    simp only [visits, applies, List.map_cons, List.map_nil, turn.yielded, Agenda.turn, List.nil_append]
  | cons first rest ih =>
    obtain ⟨again, later, rfl⟩ := List.exists_cons_of_length_eq_add_one enough
    obtain ⟨_, left⟩ := turn.more (.listed rest last) rfl
    obtain ⟨next, resumes, taken⟩ := resumed_turn again arguments left
    have others := ih .resumed effect.progress again later next .keep resumes taken (Nat.succ.inj enough)
    rw [visits, applies]
    simp only [List.map_cons, turn.yielded, Agenda.turn, others, List.cons_append]

theorem rounds_iff {activation : Activation} {progress : Progress} {state : S} (final : S) (outputs : List Value)
    {effect : Effect} (applies : ofNode? node activation progress arguments (read state) = some effect) :
    Rounds node arguments read body activation progress state outputs final ↔
      (effect.next = some donePin ∧ outputs = effect.outputs ∧ state = final) ∨
      (effect.next = some loopPin ∧ ∃ middle, body (Node.input effect.outputs 0) state middle ∧
        Rounds node arguments read body .resumed effect.progress middle outputs final) := by
  constructor
  · rintro (⟨_, _, _, other, again, next⟩ | ⟨_, _, _, middle, _, other, _, again, next, once, back⟩)
    · cases applies.symm.trans again
      exact .inl ⟨next, rfl, rfl⟩
    · cases applies.symm.trans again
      exact .inr ⟨next, middle, once, back⟩
  · rintro (⟨next, rfl, rfl⟩ | ⟨next, middle, once, back⟩)
    · exact .done activation progress state effect applies next
    · exact .round activation progress state middle final effect outputs applies next once back

theorem rounds_turns (loops : ∀ turn ∈ turns, turn.2 = some loopPin) (ends : last.2 = some donePin)
    (activation : Activation) (progress : Progress) (state final : S) (outputs : List Value) (effect : Effect)
    (stay : PointChange) (applies : ofNode? node activation progress arguments (read state) = some effect)
    (turn : TakesTurn node (read state) (.listed turns last) stay effect) :
    Rounds node arguments read body activation progress state outputs final ↔
      outputs = last.1 ∧ Passes body (turns.map fun turn => Node.input turn.1 0) state final := by
  induction turns generalizing activation progress state effect stay with
  | nil =>
    obtain ⟨given, leaves⟩ := Prod.mk.inj turn.yielded
    rw [rounds_iff final outputs applies, leaves, given]
    simp [ends, Passes, loopPin, donePin]
  | cons first rest ih =>
    obtain ⟨given, leaves⟩ := Prod.mk.inj turn.yielded
    obtain ⟨_, left⟩ := turn.more (.listed rest last) rfl
    obtain ⟨loop, loops⟩ := List.forall_mem_cons.mp loops
    have resumed (middle : S) : Rounds node arguments read body .resumed effect.progress middle outputs final ↔
        outputs = last.1 ∧ Passes body (rest.map fun turn => Node.input turn.1 0) middle final := by
      obtain ⟨next, resumes, taken⟩ := resumed_turn (read middle) arguments left
      exact ih loops .resumed effect.progress middle next .keep resumes taken
    rw [rounds_iff final outputs applies, leaves, given]
    have apart : loopPin ≠ donePin := by decide
    simp only [loop, resumed, List.map_cons, Passes, Option.some.injEq, apart, false_and, false_or, true_and]
    grind

end

theorem counting_integers (first last : Int64) : Agenda.counting first.toInt last.toInt =
    .listed ((integers first last).map fun i => ([.int i], some loopPin)) ([.int (-1)], some donePin) := by
  rw [← counted, List.map_map]
  rfl

variable {node : Node} {inputs : List Value}

theorem loop_entered (kind : node.kind = .forLoop) (arguments : List Value) (progress : Progress)
    {first last : Int64} (from_ : Node.input inputs 0 = .int first) (to_ : Node.input inputs 1 = .int last) :
    ∃ effect, ofNode? node (.entered executePin) progress arguments inputs = some effect ∧ TakesTurn node inputs
      (.listed ((integers first last).map fun i => ([.int i], some loopPin)) ([.int (-1)], some donePin)) .register effect := by
  rw [← counting_integers]
  refine entered_turn node inputs arguments _ progress ?_
  simp only [Node.agenda?, kind, from_, to_, Value.int?, Option.getD_some]

theorem each_entered (kind : node.kind = .forEach) (arguments : List Value) {items : List Value} (progress : Progress)
    (given : Node.input inputs 0 = .array items) :
    ∃ effect, ofNode? node (.entered executePin) progress arguments inputs = some effect ∧ TakesTurn node inputs
      (.listed (items.zipIdx.map fun (item, position) => ([item, .int (Int64.ofNat position)], some loopPin))
        ([.null, .int (-1)], some donePin)) .register effect := by
  refine entered_turn node inputs arguments (.walking items 0) progress ?_
  simp only [Node.agenda?, kind, given, Value.items?, Option.getD_some]

section

variable {S : Type} (arguments : List Value) (read : S → List Value) (body : Value → S → S → Prop) (progress : Progress)
  (start final : S) (outputs : List Value)

theorem loop_rounds {node : Node} (kind : node.kind = .forLoop) {first last : Int64}
    (bottom : Node.input (read start) 0 = .int first) (top : Node.input (read start) 1 = .int last) :
    Rounds node arguments read body (.entered executePin) progress start outputs final ↔
      outputs = [.int (-1)] ∧ Passes body ((integers first last).map .int) start final := by
  obtain ⟨effect, applies, turn⟩ := loop_entered kind arguments progress bottom top
  have loops : ∀ turn ∈ (integers first last).map fun i => (([.int i], some loopPin) : Yield), turn.2 = some loopPin :=
    List.forall_mem_map.mpr fun _ _ => rfl
  rw [rounds_turns loops rfl (.entered executePin) progress start final outputs effect .register applies turn, List.map_map]
  rfl

theorem each_rounds {node : Node} (kind : node.kind = .forEach) {items : List Value}
    (given : Node.input (read start) 0 = .array items) :
    Rounds node arguments read body (.entered executePin) progress start outputs final ↔
      outputs = [.null, .int (-1)] ∧ Passes body items start final := by
  obtain ⟨effect, applies, turn⟩ := each_entered kind arguments progress given
  rw [rounds_turns (List.forall_mem_map.mpr fun _ _ => rfl) rfl (.entered executePin) progress start final outputs effect
    .register applies turn, List.map_map]
  have firsts : (items.zipIdx.map Prod.fst) = items := List.zipIdx_map_fst 0 items
  change _ ∧ Passes body (items.zipIdx.map Prod.fst) start final ↔ _
  rw [firsts]

end

/-- A range is refused if it is too long, and gives the integers between its bounds otherwise. A counting loop with these
bounds gives the same integers one after the other, whatever it reads later, and runs its body as a loop over the range
does. -/
theorem range_and_loop_agree (log : LogLevel → String → σ → σ) (world : σ) (first last : Int64) :
    (integers first last).map Int64.toInt = Int.range first.toInt (last.toInt + 1) ∧
    (Library.catalog log).invoke "array/range" [.int first, .int last] world =
      (if last.toInt - first.toInt < 2 ^ 20 then (.ok [.array ((integers first last).map .int)], world)
        else (.error (.nativeCall "array/range" (.failed (Library.refusedRange first last))), world)) ∧
    (∀ (loop : Node) (arguments inputs : List Value) (later : List (List Value)) (progress : Progress),
      loop.kind = .forLoop → Node.input inputs 0 = .int first → Node.input inputs 1 = .int last →
      later.length = (integers first last).length →
      (visits loop arguments (.entered executePin) progress (inputs :: later)).map
          (fun effect => (effect.outputs, effect.next)) =
        (integers first last).map (fun i => ([.int i], some loopPin)) ++ [([.int (-1)], some donePin)]) ∧
    ∀ (S : Type) (loop : Node) (arguments : List Value) (read : S → List Value) (body : Value → S → S → Prop)
      (progress : Progress) (start final : S) (outputs : List Value), loop.kind = .forLoop →
      Node.input (read start) 0 = .int first → Node.input (read start) 1 = .int last →
      (Rounds loop arguments read body (.entered executePin) progress start outputs final ↔
        outputs = [.int (-1)] ∧ Passes body ((integers first last).map .int) start final) ∧
      ∀ (each : Node) (readEach : S → List Value) (other : Progress) (range : Value) (given : List Value),
        each.kind = .forEach → Node.input (readEach start) 0 = range →
        (Library.catalog log).invoke "array/range" [.int first, .int last] world = (.ok [range], world) →
        (Rounds each arguments readEach body (.entered executePin) other start given final ↔
          given = [.null, .int (-1)] ∧
            Rounds loop arguments read body (.entered executePin) progress start [.int (-1)] final) := by
  refine ⟨integers_exact first last, Library.range_invoked log world first last, ?_, ?_⟩
  · intro loop arguments inputs later progress kind bottom top enough
    obtain ⟨effect, applies, turn⟩ := loop_entered kind arguments progress bottom top
    exact visits_turns (.entered executePin) progress inputs later effect .register applies turn
      (by rw [enough, List.length_map])
  · intro S loop arguments read body progress start final outputs kind bottom top
    refine ⟨loop_rounds arguments read body progress start final outputs kind bottom top, ?_⟩
    intro each readEach other range given kind' input allowed
    rw [Library.range_invoked] at allowed
    split at allowed
    · obtain rfl : Value.array ((integers first last).map .int) = range := by simpa using allowed
      rw [each_rounds arguments readEach body other start final given kind' input,
        loop_rounds arguments read body progress start final _ kind bottom top, eq_self, true_and]
    · simp at allowed

/-- A loop that ends at the largest integer there is. -/
theorem loop_ends_at_largest :
    (visits Node.forLoop [] (.entered executePin) .idle [[.int (Int64.maxValue - 1), .int Int64.maxValue], [], []]).map
        (fun effect => (effect.outputs, effect.next)) =
      [([.int (Int64.maxValue - 1)], some loopPin), ([.int Int64.maxValue], some loopPin), ([.int (-1)], some donePin)] := by
  have two : integers (Int64.maxValue - 1) Int64.maxValue = [Int64.maxValue - 1, Int64.maxValue] := by decide +kernel
  obtain ⟨_, _, emits, _⟩ := range_and_loop_agree (fun _ _ (state : Unit) => state) () (Int64.maxValue - 1) Int64.maxValue
  have emitted := emits Node.forLoop [] [.int (Int64.maxValue - 1), .int Int64.maxValue] [[], []] .idle rfl rfl rfl
    (by rw [two]; rfl)
  rw [emitted, two]
  rfl

end Patchbay
