import Mathlib.Data.List.Basic
import Mathlib.Tactic.Common

/-! Sums of 16-bit words in one's complement, in either order of the octets. -/

namespace Wanpipe.OnesComplement

/-- The sum of the words whose first octet is the higher one. -/
def netSum : List (BitVec 8) → Nat
  | [] => 0
  | [high] => 256 * high.toNat
  | high :: low :: octets => 256 * high.toNat + low.toNat + netSum octets

/-- The sum of the words whose first octet is the lower one. -/
def hostSum : List (BitVec 8) → Nat
  | [] => 0
  | [low] => low.toNat
  | low :: high :: octets => low.toNat + 256 * high.toNat + hostSum octets

/-- Addition with the carry brought around to the other end. -/
def onesAdd (left right : Nat) : Nat :=
  if left + right < 65536 then left + right else left + right - 65535

/-- The sum of the words on the network. -/
def onesSum : List (BitVec 8) → Nat
  | [] => 0
  | [high] => 256 * high.toNat
  | high :: low :: octets => onesAdd (256 * high.toNat + low.toNat) (onesSum octets)

/-- With its checksum among them the words sum up to all ones. -/
def Verifies (octets : List (BitVec 8)) : Prop := onesSum octets = 0xFFFF

/-- The carries of a sum brought around. -/
def fold (sum : Nat) : Nat :=
  if sum < 65536 then sum else fold (sum % 65536 + sum / 65536)
termination_by sum
decreasing_by omega

theorem fold_small (sum : Nat) : fold sum < 65536 := by
  induction sum using fold.induct with
  | case1 sum small =>
      rw [fold, if_pos small]
      exact small
  | case2 sum large ih =>
      rw [fold, if_neg large]
      exact ih

theorem fold_mod (sum : Nat) : fold sum % 65535 = sum % 65535 := by
  induction sum using fold.induct with
  | case1 sum small => rw [fold, if_pos small]
  | case2 sum large ih =>
      rw [fold, if_neg large, ih]
      omega

theorem onesSum_spec (octets : List (BitVec 8)) :
    onesSum octets < 65536 ∧ onesSum octets % 65535 = netSum octets % 65535 ∧
      (onesSum octets = 0 ↔ netSum octets = 0) := by
  induction octets using netSum.induct with
  | case1 => exact ⟨by decide, rfl, Iff.rfl⟩
  | case2 high =>
      have bound := high.isLt
      exact ⟨by rw [onesSum]; omega, rfl, Iff.rfl⟩
  | case3 high low octets ih =>
      obtain ⟨small, same, zero⟩ := ih
      have first := high.isLt
      have second := low.isLt
      rw [onesSum, netSum]
      unfold onesAdd
      split <;> omega

theorem verifies_iff (octets : List (BitVec 8)) :
    Verifies octets ↔ 0 < netSum octets ∧ 65535 ∣ netSum octets := by
  obtain ⟨small, same, zero⟩ := onesSum_spec octets
  unfold Verifies
  omega

/-- The two sums are the same up to a turn of the octets. -/
theorem hostSum_turn (octets : List (BitVec 8)) :
    ∃ count, 256 * hostSum octets = netSum octets + 65535 * count := by
  induction octets using netSum.induct with
  | case1 => exact ⟨0, rfl⟩
  | case2 low => exact ⟨0, rfl⟩
  | case3 low high octets ih =>
      obtain ⟨count, turned⟩ := ih
      refine ⟨count + high.toNat, ?_⟩
      rw [hostSum, netSum]
      omega

theorem hostSum_zero (octets : List (BitVec 8)) : hostSum octets = 0 ↔ netSum octets = 0 := by
  induction octets using netSum.induct with
  | case1 => exact Iff.rfl
  | case2 low =>
      rw [hostSum, netSum]
      omega
  | case3 low high octets ih =>
      rw [hostSum, netSum]
      omega

/-- The words verify in either order. -/
theorem verifies_host (octets : List (BitVec 8)) :
    Verifies octets ↔ 0 < hostSum octets ∧ 65535 ∣ hostSum octets := by
  obtain ⟨count, turned⟩ := hostSum_turn octets
  have zero := hostSum_zero octets
  rw [verifies_iff]
  omega

theorem hostSum_append {left : List (BitVec 8)} (even : left.length % 2 = 0)
    (right : List (BitVec 8)) : hostSum (left ++ right) = hostSum left + hostSum right := by
  induction left using hostSum.induct with
  | case1 => rw [List.nil_append, hostSum, Nat.zero_add]
  | case2 low => cases even
  | case3 low high octets ih =>
      have rest : octets.length % 2 = 0 := by
        rw [List.length_cons, List.length_cons] at even
        omega
      rw [List.cons_append, List.cons_append, hostSum, hostSum, ih rest]
      omega

theorem hostSum_le (octets : List (BitVec 8)) : hostSum octets ≤ 65535 * octets.length := by
  induction octets using hostSum.induct with
  | case1 => exact Nat.zero_le _
  | case2 low =>
      have bound := low.isLt
      rw [hostSum, List.length_singleton]
      omega
  | case3 low high octets ih =>
      have first := low.isLt
      have second := high.isLt
      rw [hostSum, List.length_cons, List.length_cons]
      omega

end Wanpipe.OnesComplement
