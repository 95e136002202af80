import Wanpipe.Line.Octets
import Mathlib.Tactic.IntervalCases

/-! The 16-bit frame check sequence of X.25: the reflected polynomial `0x8408`, a bit or an octet
at a time. -/

namespace Wanpipe.Line

def fcsShift (crc : BitVec 16) : BitVec 16 :=
  if crc.getLsbD 0 then (crc >>> 1) ^^^ 0x8408#16 else crc >>> 1

def fcsShifts : Nat → BitVec 16 → BitVec 16
  | 0, crc => crc
  | n + 1, crc => fcsShifts n (fcsShift crc)

def fcsOctet (crc : BitVec 16) (octet : Octet) : BitVec 16 :=
  fcsShifts 8 (crc ^^^ octet.setWidth 16)

def fcs (crc : BitVec 16) (octets : List Octet) : BitVec 16 := octets.foldl fcsOctet crc

/-- The two octets sent after a frame: the complement of its FCS, low octet first. -/
def fcsOctets (frame : List Octet) : List Octet :=
  [(~~~ fcs 0xffff#16 frame).setWidth 8, ((~~~ fcs 0xffff#16 frame) >>> 8).setWidth 8]

theorem fcsOctets_length (data : List Octet) : (fcsOctets data).length = 2 := rfl

theorem fcs_append (crc : BitVec 16) (left right : List Octet) :
    fcs crc (left ++ right) = fcs (fcs crc left) right := by
  simp [fcs]

theorem fcsShift_xor (left right : BitVec 16) :
    fcsShift (left ^^^ right) = fcsShift left ^^^ fcsShift right := by
  have twice : ∀ a b p : BitVec 16, a ^^^ p ^^^ (b ^^^ p) = a ^^^ b := by
    intro a b p
    rw [BitVec.xor_assoc, ← BitVec.xor_assoc p, BitVec.xor_comm p, BitVec.xor_assoc b,
      BitVec.xor_self, BitVec.xor_zero]
  unfold fcsShift
  rw [BitVec.getLsbD_xor, BitVec.ushiftRight_xor_distrib]
  cases left.getLsbD 0 <;> cases right.getLsbD 0
  · simp
  · simp [BitVec.xor_assoc]
  · simp only [Bool.xor_false, if_true, Bool.false_eq_true, if_false]
    ac_rfl
  · simp [twice]

theorem fcsShifts_xor (n : Nat) (left right : BitVec 16) :
    fcsShifts n (left ^^^ right) = fcsShifts n left ^^^ fcsShifts n right := by
  induction n generalizing left right with
  | zero => rfl
  | succ n ih => simp only [fcsShifts, fcsShift_xor, ih]

/-- While only zeros leave the register the division merely moves it down. -/
theorem fcsShifts_clear (n : Nat) (crc : BitVec 16)
    (clear : ∀ i, i < n → crc.getLsbD i = false) : fcsShifts n crc = crc >>> n := by
  induction n generalizing crc with
  | zero => simp [fcsShifts]
  | succ n ih =>
      have low : crc.getLsbD 0 = false := clear 0 (by omega)
      have next : fcsShift crc = crc >>> 1 := by
        simp only [fcsShift, low, Bool.false_eq_true, if_false]
      rw [fcsShifts, next, ih, ← BitVec.shiftRight_add, Nat.add_comm]
      intro i hi
      rw [BitVec.getLsbD_ushiftRight]
      exact clear (1 + i) (by omega)

private theorem high_clear (crc : BitVec 16) :
    ∀ i, i < 8 → (crc &&& 0xff00#16).getLsbD i = false := by
  intro i hi
  interval_cases i <;> simp

private theorem high_shift (crc : BitVec 16) : (crc &&& 0xff00#16) >>> 8 = crc >>> 8 := by
  apply BitVec.eq_of_getLsbD_eq
  intro i hi
  rw [BitVec.getLsbD_ushiftRight, BitVec.getLsbD_ushiftRight, BitVec.getLsbD_and]
  interval_cases i <;> simp

private theorem split_octets (crc : BitVec 16) :
    crc = (crc &&& 0xff00#16) ^^^ (crc &&& 0xff#16) := by
  apply BitVec.eq_of_getLsbD_eq
  intro i hi
  rw [BitVec.getLsbD_xor, BitVec.getLsbD_and, BitVec.getLsbD_and]
  interval_cases i <;> simp

/-- The octet step as table driven code takes it. -/
theorem fcsOctet_table (crc : BitVec 16) (octet : Octet) :
    fcsOctet crc octet =
      (crc >>> 8) ^^^ fcsShifts 8 ((crc ^^^ octet.setWidth 16) &&& 0xff#16) := by
  have moved : (octet.setWidth 16) >>> 8 = 0#16 := by
    apply BitVec.eq_of_getLsbD_eq
    intro i hi
    rw [BitVec.getLsbD_ushiftRight]
    interval_cases i <;> simp
  calc
    fcsOctet crc octet =
        fcsShifts 8 (((crc ^^^ octet.setWidth 16) &&& 0xff00#16) ^^^
          ((crc ^^^ octet.setWidth 16) &&& 0xff#16)) := by
      rw [← split_octets, fcsOctet]
    _ = _ := by
      rw [fcsShifts_xor, fcsShifts_clear 8 _ (high_clear _), high_shift,
        BitVec.ushiftRight_xor_distrib, moved, BitVec.xor_zero]

private theorem complement_low (crc : BitVec 16) :
    (crc ^^^ ((~~~ crc).setWidth 8).setWidth 16) &&& 0xff#16 = 0xff#16 := by
  apply BitVec.eq_of_getLsbD_eq
  intro i hi
  interval_cases i <;> simp

private theorem complement_high (crc : BitVec 16) :
    (((crc >>> 8) ^^^ 0x0f78#16) ^^^ (((~~~ crc) >>> 8).setWidth 8).setWidth 16) &&& 0xff#16 =
      0x87#16 := by
  apply BitVec.eq_of_getLsbD_eq
  intro i hi
  interval_cases i <;> simp

private theorem residue_high (crc : BitVec 16) :
    ((crc >>> 8) ^^^ 0x0f78#16) >>> 8 = 0x0f#16 := by
  apply BitVec.eq_of_getLsbD_eq
  intro i hi
  rw [BitVec.getLsbD_ushiftRight]
  interval_cases i <;> simp

theorem fcs_complement (crc : BitVec 16) :
    fcs crc [(~~~ crc).setWidth 8, ((~~~ crc) >>> 8).setWidth 8] = 0xf0b8#16 := by
  have first : fcsOctet crc ((~~~ crc).setWidth 8) = (crc >>> 8) ^^^ 0x0f78#16 := by
    rw [fcsOctet_table, complement_low]
    congr 1
  show fcsOctet (fcsOctet crc _) _ = _
  rw [first, fcsOctet_table, complement_high, residue_high]
  decide

/-- A frame followed by its check octets leaves the residue `0xf0b8`. -/
theorem fcs_residue (frame : List Octet) :
    fcs 0xffff#16 (frame ++ fcsOctets frame) = 0xf0b8#16 := by
  rw [fcs_append, fcsOctets, fcs_complement]

end Wanpipe.Line
