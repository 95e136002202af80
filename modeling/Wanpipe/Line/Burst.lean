import Wanpipe.Line.Fcs

/-! The FCS a bit at a time, and the bursts of errors it sees. -/

namespace Wanpipe.Line

/-- One bit of the reflected division by `0x8408`. -/
def fcsBit (crc : BitVec 16) (bit : Bool) : BitVec 16 :=
  fcsShift (crc ^^^ if bit then 1#16 else 0#16)

def fcsBits (crc : BitVec 16) (bits : List Bool) : BitVec 16 := bits.foldl fcsBit crc

theorem fcsBits_append (crc : BitVec 16) (left right : List Bool) :
    fcsBits crc (left ++ right) = fcsBits (fcsBits crc left) right := by
  simp [fcsBits]

theorem fcsShift_zero (crc : BitVec 16) (clear : fcsShift crc = 0#16) : crc = 0#16 := by
  unfold fcsShift at clear
  cases low : crc.getLsbD 0 with
  | true =>
      rw [low, if_pos rfl] at clear
      have top := congrArg (fun word => word.getLsbD 15) clear
      simp at top
  | false =>
      rw [low, if_neg Bool.false_ne_true] at clear
      apply BitVec.eq_of_getLsbD_eq
      intro i hi
      cases i with
      | zero => simpa using low
      | succ i =>
          have bit := congrArg (fun word => word.getLsbD i) clear
          simpa [Nat.add_comm] using bit

theorem fcsShift_inj {left right : BitVec 16} (same : fcsShift left = fcsShift right) :
    left = right := by
  have clear : fcsShift (left ^^^ right) = 0#16 := by
    rw [fcsShift_xor, same, BitVec.xor_self]
  exact BitVec.xor_eq_zero_iff.mp (fcsShift_zero _ clear)

theorem fcsBit_inj {left right : BitVec 16} {bit : Bool}
    (same : fcsBit left bit = fcsBit right bit) : left = right :=
  BitVec.xor_left_inj _ |>.mp (fcsShift_inj same)

theorem fcsBits_inj (bits : List Bool) {left right : BitVec 16}
    (same : fcsBits left bits = fcsBits right bits) : left = right := by
  induction bits generalizing left right with
  | nil => exact same
  | cons bit bits ih => exact fcsBit_inj (ih same)

/-- Up to sixteen line bits as the word that goes into the register. -/
def wordOf (bits : List Bool) : BitVec 16 := BitVec.ofNat 16 (bitsValue bits)

theorem wordOf_getLsbD (bits : List Bool) (i : Nat) (hi : i < 16) :
    (wordOf bits).getLsbD i = bits.getD i false := by
  simp only [wordOf, BitVec.getLsbD_ofNat, bitsValue_testBit, hi, decide_true, Bool.true_and]

theorem wordOf_inj {left right : List Bool} (size : left.length = right.length)
    (short : left.length ≤ 16) (same : wordOf left = wordOf right) : left = right := by
  apply List.ext_getElem size
  intro i hl hr
  have bit := congrArg (fun word => word.getLsbD i) same
  simp only [wordOf_getLsbD _ i (by omega), List.getD_eq_getElem _ _ hl,
    List.getD_eq_getElem _ _ hr] at bit
  exact bit

theorem wordOf_cons (bit : Bool) (bits : List Bool) :
    wordOf (bit :: bits) = (if bit then 1#16 else 0#16) ^^^ (wordOf bits <<< 1) := by
  apply BitVec.eq_of_getLsbD_eq
  intro i hi
  rw [wordOf_getLsbD _ i hi, BitVec.getLsbD_xor, BitVec.getLsbD_shiftLeft]
  cases i with
  | zero => cases bit <;> simp
  | succ i =>
      have rest := wordOf_getLsbD bits i (by omega)
      cases bit <;> simp [rest, hi]

theorem fcsShift_double (word : BitVec 16) (clear : word.getLsbD 15 = false) :
    fcsShift (word <<< 1) = word := by
  have low : (word <<< 1).getLsbD 0 = false := by simp
  rw [fcsShift, low, if_neg Bool.false_ne_true]
  apply BitVec.eq_of_getLsbD_eq
  intro i hi
  rw [BitVec.getLsbD_ushiftRight, BitVec.getLsbD_shiftLeft]
  rcases Nat.lt_or_ge (1 + i) 16 with inside | last
  · simp [inside]
  · obtain rfl : i = 15 := by omega
    rw [clear]
    rfl

/-- Feeding bits one by one is shifting them through the register at once. -/
theorem fcsBits_word (bits : List Bool) (crc : BitVec 16) (short : bits.length ≤ 16) :
    fcsBits crc bits = fcsShifts bits.length (crc ^^^ wordOf bits) := by
  induction bits generalizing crc with
  | nil =>
      have zero : wordOf [] = 0#16 := by decide
      simp [fcsBits, fcsShifts, zero]
  | cons bit bits ih =>
      rw [List.length_cons] at short
      have clear : (wordOf bits).getLsbD 15 = false := by
        rw [wordOf_getLsbD _ _ (by decide), List.getD_eq_default _ _ (by omega)]
      calc
        fcsBits crc (bit :: bits) =
            fcsShifts bits.length (fcsBit crc bit ^^^ wordOf bits) := ih _ (by omega)
        _ = fcsShifts bits.length
            (fcsShift (crc ^^^ (if bit then 1#16 else 0#16)) ^^^ fcsShift (wordOf bits <<< 1)) := by
          rw [fcsShift_double _ clear, fcsBit]
        _ = fcsShifts (bit :: bits).length (crc ^^^ wordOf (bit :: bits)) := by
          rw [← fcsShift_xor, wordOf_cons, BitVec.xor_assoc, List.length_cons, fcsShifts]

theorem fcsShifts_inj (n : Nat) {left right : BitVec 16}
    (same : fcsShifts n left = fcsShifts n right) : left = right := by
  induction n generalizing left right with
  | zero => exact same
  | succ n ih => exact fcsShift_inj (ih same)

theorem fcs_lineBits (octets : List Octet) (crc : BitVec 16) :
    fcs crc octets = fcsBits crc (lineBits octets) := by
  induction octets generalizing crc with
  | nil => rfl
  | cons octet octets ih =>
      have word : wordOf (octetBits octet) = octet.setWidth 16 := by
        apply BitVec.eq_of_getLsbD_eq
        intro i hi
        rw [wordOf_getLsbD _ i hi, BitVec.getLsbD_setWidth]
        rcases Nat.lt_or_ge i 8 with inside | past
        · simp [octetBits, List.getD_eq_getElem?_getD, hi, inside]
        · rw [List.getD_eq_default _ _ (by rw [octetBits_length]; exact past)]
          simp [BitVec.getLsbD_of_ge octet i past]
      have first : fcsOctet crc octet = fcsBits crc (octetBits octet) := by
        rw [fcsBits_word _ _ (by rw [octetBits_length]; decide), octetBits_length, word, fcsOctet]
      calc
        fcs crc (octet :: octets) = fcs (fcsOctet crc octet) octets := rfl
        _ = fcsBits (fcsBits crc (octetBits octet)) (lineBits octets) := by rw [ih, first]
        _ = fcsBits crc (lineBits (octet :: octets)) := by rw [← fcsBits_append, ← lineBits_cons]

/-- The two lines differ in one window of sixteen bits only. -/
def WithinBurst (start : Nat) (left right : List Bool) : Prop :=
  ∀ i : Nat, left[i]? ≠ right[i]? → start ≤ i ∧ i < start + 16

/-- A burst of up to sixteen wrong bits changes the FCS. -/
theorem fcsBits_burst {left right : List Bool} {start : Nat} (crc : BitVec 16)
    (size : left.length = right.length) (burst : WithinBurst start left right)
    (differ : left ≠ right) : fcsBits crc left ≠ fcsBits crc right := by
  have outside (i : Nat) (out : i < start ∨ start + 16 ≤ i) : left[i]? = right[i]? := by
    by_contra other
    have inside := burst i other
    omega
  have before : left.take start = right.take start := by
    apply List.ext_getElem?
    intro i
    rw [List.getElem?_take, List.getElem?_take]
    split
    · rename_i early
      exact outside i (Or.inl early)
    · rfl
  have after : (left.drop start).drop 16 = (right.drop start).drop 16 := by
    apply List.ext_getElem?
    intro i
    rw [List.drop_drop, List.drop_drop, List.getElem?_drop, List.getElem?_drop]
    exact outside _ (Or.inr (by omega))
  intro same
  apply differ
  have split (bits : List Bool) :
      bits.take start ++ ((bits.drop start).take 16 ++ (bits.drop start).drop 16) = bits := by
    rw [List.take_append_drop, List.take_append_drop]
  rw [← split left, ← split right, before, after]
  rw [← split left, ← split right, before, after] at same
  simp only [fcsBits_append] at same
  have middle := fcsBits_inj _ same
  generalize fcsBits crc (right.take start) = crc at middle
  have sizes : ((left.drop start).take 16).length = ((right.drop start).take 16).length := by
    simp [size]
  have short : ((left.drop start).take 16).length ≤ 16 := by
    rw [List.length_take]
    exact Nat.min_le_left _ _
  rw [fcsBits_word _ _ short, fcsBits_word _ _ (by omega), sizes] at middle
  have words := (BitVec.xor_right_inj _).mp (fcsShifts_inj _ middle)
  rw [wordOf_inj sizes short words]

end Wanpipe.Line
