import Mathlib.Data.Set.Card
import Patchbay.Graph

set_option autoImplicit false

namespace Patchbay

variable {α β : Type}

def membersAlong (items : List α) (parts : α → Set β) : Set (Nat × β) :=
  {pair | ∃ item, items[pair.1]? = some item ∧ pair.2 ∈ parts item}

theorem members_cons (item : α) (rest : List α) (parts : α → Set β) :
    membersAlong (item :: rest) parts = Prod.mk 0 '' parts item ∪ Prod.map Nat.succ id '' membersAlong rest parts := by
  ext ⟨place, part⟩
  cases place with
  | zero => simp [membersAlong]
  | succ => simp [membersAlong]

theorem encard_members_cons (item : α) (rest : List α) (parts : α → Set β) :
    (membersAlong (item :: rest) parts).encard = (parts item).encard + (membersAlong rest parts).encard := by
  have apart : Disjoint (Prod.mk 0 '' parts item) (Prod.map Nat.succ id '' membersAlong rest parts) := by
    rw [Set.disjoint_left]
    rintro _ ⟨part, _, rfl⟩ ⟨⟨place, other⟩, _, same⟩
    cases same
  have front : Function.Injective (Prod.mk (β := β) 0) := Prod.mk_right_injective 0
  have back : Function.Injective (Prod.map Nat.succ (id : β → β)) := Nat.succ_injective.prodMap Function.injective_id
  rw [members_cons, Set.encard_union_eq apart, front.encard_image, back.encard_image]

variable (items : List α)

theorem encard_members (parts : α → Set β) (count : α → Nat)
    (each : ∀ item ∈ items, (parts item).encard = count item) :
    (membersAlong items parts).encard = ((items.map count).foldr (· + ·) 0 : Nat) := by
  induction items with
  | nil => simp [membersAlong]
  | cons item rest ih =>
    obtain ⟨first, others⟩ := List.forall_mem_cons.mp each
    rw [encard_members_cons, first, ih others, List.map_cons, List.foldr_cons, Nat.cast_add]

theorem sum_ones (holds : α → Bool) :
    (items.map fun item => if holds item then 1 else 0).foldr (· + ·) 0 = (items.filter holds).length := by
  induction items with
  | nil => rfl
  | cons item rest ih =>
    rw [List.map_cons, List.foldr_cons, ih, List.filter_cons]
    by_cases held : holds item = true
    · rw [if_pos held, if_pos held, List.length_cons, Nat.add_comm]
    · rw [if_neg held, if_neg held, Nat.zero_add]

theorem encard_places (holds : α → Bool) :
    {place : Nat | ∃ item, items[place]? = some item ∧ holds item = true}.encard = (items.filter holds).length := by
  have image : {place : Nat | ∃ item, items[place]? = some item ∧ holds item = true} =
      Prod.fst '' membersAlong items fun item => {_mark : Unit | holds item = true} := by
    ext place
    simp [membersAlong]
  have alone : Function.Injective (Prod.fst : Nat × Unit → Nat) := fun _ _ same => Prod.ext same rfl
  rw [image, alone.encard_image, ← sum_ones]
  refine encard_members items _ _ fun item _ => ?_
  by_cases marked : holds item = true
  · simp [marked]
  · simp [marked]

end Patchbay
