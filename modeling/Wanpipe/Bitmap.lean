import Mathlib.Data.Finset.Card
import Mathlib.Order.Interval.Finset.Nat
import Mathlib.Tactic.Common

/-! Bit maps of a machine word: setting and clearing bits, and the block of bits that a shifted mask
stands for. -/

namespace Wanpipe.Bitmap

variable {w : Nat}

def setBit (map : BitVec w) (i : Nat) : BitVec w := map ||| BitVec.twoPow w i

def clearBit (map : BitVec w) (i : Nat) : BitVec w := map &&& ~~~BitVec.twoPow w i

/-- The lowest `n` bits, set one by one. -/
def mask (w n : Nat) : BitVec w := (List.range n).foldl setBit 0#w

@[simp] theorem getLsbD_setBit (map : BitVec w) (i j : Nat) :
    (setBit map i).getLsbD j = (map.getLsbD j || decide (j < w) && decide (j = i)) := by
  rw [setBit, BitVec.getLsbD_or, BitVec.getLsbD_twoPow, Bool.eq_iff_iff]
  simp only [Bool.or_eq_true, Bool.and_eq_true, decide_eq_true_eq]
  constructor
  · rintro (found | ⟨inside, rfl⟩)
    exacts [.inl found, .inr ⟨inside, rfl⟩]
  · rintro (found | ⟨inside, rfl⟩)
    exacts [.inl found, .inr ⟨inside, rfl⟩]

@[simp] theorem getLsbD_clearBit (map : BitVec w) (i j : Nat) :
    (clearBit map i).getLsbD j = (map.getLsbD j && !decide (j = i)) := by
  by_cases inside : j < w
  · simp [clearBit, inside]
  · simp [clearBit, BitVec.getLsbD_of_ge map j (by omega)]

theorem getLsbD_setBits (places : List Nat) (map : BitVec w) (j : Nat) :
    (places.foldl setBit map).getLsbD j =
      (map.getLsbD j || decide (j < w) && decide (j ∈ places)) := by
  induction places generalizing map with
  | nil => simp
  | cons i places hyp =>
    rw [List.foldl_cons, hyp, getLsbD_setBit, Bool.eq_iff_iff]
    simp only [Bool.or_eq_true, Bool.and_eq_true, decide_eq_true_eq, List.mem_cons]
    tauto

theorem getLsbD_clearBits (places : List Nat) (map : BitVec w) (j : Nat) :
    (places.foldl clearBit map).getLsbD j = (map.getLsbD j && !decide (j ∈ places)) := by
  induction places generalizing map with
  | nil => simp
  | cons i places hyp =>
    rw [List.foldl_cons, hyp, getLsbD_clearBit, Bool.eq_iff_iff]
    simp only [Bool.and_eq_true, Bool.not_eq_true', decide_eq_false_iff_not, List.mem_cons]
    tauto

@[simp] theorem getLsbD_mask (n j : Nat) :
    (mask w n).getLsbD j = (decide (j < w) && decide (j < n)) := by
  rw [mask, getLsbD_setBits]
  simp

/-- The block of `n` bits from `base` on, cut off at the end of the word. -/
theorem getLsbD_block (n base j : Nat) :
    (mask w n <<< base).getLsbD j =
      (decide (j < w) && decide (base ≤ j) && decide (j < base + n)) := by
  rw [BitVec.getLsbD_shiftLeft, getLsbD_mask, Bool.eq_iff_iff]
  simp only [Bool.and_eq_true, Bool.not_eq_true', decide_eq_true_eq, decide_eq_false_iff_not]
  omega

theorem and_eq_zero_iff {map other : BitVec w} :
    map &&& other = 0#w ↔ ∀ j, map.getLsbD j = true → other.getLsbD j = false := by
  constructor
  · intro none j found
    have both : (map &&& other).getLsbD j = false := by rw [none]; exact BitVec.getLsbD_zero
    rw [BitVec.getLsbD_and, found] at both
    exact both
  · intro apart
    apply BitVec.eq_of_getLsbD_eq
    intro j _
    rw [BitVec.getLsbD_and, BitVec.getLsbD_zero]
    cases found : map.getLsbD j with
    | false => rfl
    | true => rw [apart j found]; rfl

end Wanpipe.Bitmap
