import Mathlib.Data.List.Count
import Mathlib.Data.List.Nodup
import Mathlib.Data.List.Perm.Basic

/-! Debts that come in and are paid at once, or are left to debtors who pay them later. -/

namespace Wanpipe.Debts

variable {Debtor Debt Kind : Type}

/-- What came in was paid or is owed, each once. -/
def Balanced (came paid : List Debt) (owed : List (Debtor × Debt)) : Prop :=
  came.Perm (paid ++ owed.map Prod.snd)

section Balanced

variable {came paid : List Debt} {owed : List (Debtor × Debt)}

theorem balanced_nil : Balanced [] [] ([] : List (Debtor × Debt)) := List.Perm.refl []

theorem Balanced.settle (balanced : Balanced came paid owed) (debt : Debt) :
    Balanced (came ++ [debt]) (paid ++ [debt]) owed := by
  have moved : (came ++ [debt]).Perm (debt :: came) := List.perm_append_singleton debt came
  refine moved.trans ((balanced.cons debt).trans ?_)
  rw [List.append_assoc, List.singleton_append]
  exact List.perm_middle.symm

theorem Balanced.owe (balanced : Balanced came paid owed) (debtor : Debtor) (debt : Debt) :
    Balanced (came ++ [debt]) paid (owed ++ [(debtor, debt)]) := by
  rw [Balanced, List.map_append, ← List.append_assoc]
  exact balanced.append_right [debt]

theorem Balanced.pay [DecidableEq Debtor] [DecidableEq Debt] (balanced : Balanced came paid owed)
    {debtor : Debtor} {debt : Debt} (due : (debtor, debt) ∈ owed) :
    Balanced came (paid ++ [debt]) (owed.erase (debtor, debt)) := by
  have out : (owed.map Prod.snd).Perm (debt :: (owed.erase (debtor, debt)).map Prod.snd) :=
    (List.perm_cons_erase due).map Prod.snd
  refine balanced.trans ((out.append_left paid).trans ?_)
  rw [List.append_assoc, List.singleton_append]

theorem Balanced.count_le [DecidableEq Debt] (balanced : Balanced came paid owed) (debt : Debt) :
    paid.count debt ≤ came.count debt := by
  rw [balanced.count_eq debt, List.count_append]
  exact Nat.le_add_right _ _

theorem Balanced.count_eq_of_nil [DecidableEq Debt] (balanced : Balanced came paid owed)
    (nothing : owed = []) (debt : Debt) : paid.count debt = came.count debt := by
  rw [balanced.count_eq debt, nothing, List.map_nil, List.append_nil]

end Balanced

/-- No debtor has two debts of one kind. -/
def OneEach (kind : Debt → Kind) (owed : List (Debtor × Debt)) : Prop :=
  (owed.map fun entry => (entry.1, kind entry.2)).Nodup

section OneEach

variable {kind : Debt → Kind} {owed : List (Debtor × Debt)}

theorem OneEach.owe (one : OneEach kind owed) {debtor : Debtor} {debt : Debt}
    (new : ∀ entry ∈ owed, entry.1 = debtor → kind entry.2 ≠ kind debt) :
    OneEach kind (owed ++ [(debtor, debt)]) := by
  rw [OneEach, List.map_append, List.map_singleton]
  refine List.Nodup.append one (List.nodup_singleton _) ?_
  intro pair earlier last
  obtain ⟨entry, member, same⟩ := List.mem_map.mp earlier
  rw [List.mem_singleton] at last
  rw [last, Prod.mk.injEq] at same
  exact new entry member same.1 same.2

variable [DecidableEq Debtor] [DecidableEq Debt]

theorem OneEach.erase (one : OneEach kind owed) (entry : Debtor × Debt) :
    OneEach kind (owed.erase entry) :=
  one.sublist (List.erase_sublist.map _)

/-- What is left of a debtor who has paid is of another kind. -/
theorem OneEach.left (one : OneEach kind owed) {debtor : Debtor} {debt : Debt}
    (due : (debtor, debt) ∈ owed) {entry : Debtor × Debt}
    (left : entry ∈ owed.erase (debtor, debt)) (same : entry.1 = debtor) :
    kind entry.2 ≠ kind debt := by
  intro alike
  have pairs : OneEach kind ((debtor, debt) :: owed.erase (debtor, debt)) := by
    have moved := (List.perm_cons_erase due).map fun entry => (entry.1, kind entry.2)
    exact moved.nodup_iff.mp one
  rw [OneEach, List.map_cons, List.nodup_cons] at pairs
  apply pairs.1
  refine List.mem_map.mpr ⟨entry, left, ?_⟩
  rw [same, alike]

end OneEach

end Wanpipe.Debts
