import Mathlib.Data.List.Basic
import Mathlib.Tactic.Common

/-! Numbers of several octets, least significant octet first. -/

namespace Wanpipe.Words

def wordOctets : Nat → Nat → List (BitVec 8)
  | 0, _ => []
  | count + 1, value => BitVec.ofNat 8 value :: wordOctets count (value / 256)

def wordValue : List (BitVec 8) → Nat
  | [] => 0
  | octet :: octets => octet.toNat + 256 * wordValue octets

@[simp] theorem wordOctets_length (count value : Nat) : (wordOctets count value).length = count := by
  induction count generalizing value with
  | zero => rfl
  | succ count ih => rw [wordOctets, List.length_cons, ih]

/-- How many numbers there are of so many octets. -/
def limit : Nat → Nat
  | 0 => 1
  | count + 1 => 256 * limit count

theorem wordValue_lt (octets : List (BitVec 8)) : wordValue octets < limit octets.length := by
  induction octets with
  | nil => exact Nat.one_pos
  | cons octet octets ih =>
      have low : octet.toNat < 256 := octet.isLt
      rw [wordValue, List.length_cons, limit]
      omega

theorem wordValue_wordOctets {count value : Nat} (small : value < limit count) :
    wordValue (wordOctets count value) = value := by
  induction count generalizing value with
  | zero =>
      rw [limit, Nat.lt_one_iff] at small
      rw [small]
      rfl
  | succ count ih =>
      have rest : value / 256 < limit count := by
        rw [limit] at small
        omega
      have low : (BitVec.ofNat 8 value).toNat = value % 256 := BitVec.toNat_ofNat value 8
      rw [wordOctets, wordValue, ih rest, low]
      omega

theorem wordValue_append (left right : List (BitVec 8)) :
    wordValue (left ++ right) = wordValue left + limit left.length * wordValue right := by
  induction left with
  | nil => rw [List.nil_append, List.length_nil, wordValue, limit, Nat.zero_add, Nat.one_mul]
  | cons octet left ih =>
      rw [List.cons_append, wordValue, wordValue, ih, List.length_cons, limit, Nat.mul_add,
        Nat.add_assoc, Nat.mul_assoc]

end Wanpipe.Words
