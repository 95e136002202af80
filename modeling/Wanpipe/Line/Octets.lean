import Mathlib.Data.List.GetD
import Mathlib.Tactic.Common

/-! Octets as lists of line bits, least significant bit first. -/

namespace Wanpipe.Line

abbrev Octet := BitVec 8

def bitsValue : List Bool → Nat
  | [] => 0
  | bit :: bits => bit.toNat + 2 * bitsValue bits

/-- The octet whose bit `i` is the `i`-th line bit, with zeros where the line ends. -/
def octetOf (bits : List Bool) : Octet := BitVec.ofNat 8 (bitsValue bits)

def octetBits (octet : Octet) : List Bool := (List.range 8).map octet.getLsbD

def lineBits (octets : List Octet) : List Bool := octets.flatMap octetBits

theorem bitsValue_testBit (bits : List Bool) (i : Nat) :
    (bitsValue bits).testBit i = bits.getD i false := by
  induction bits generalizing i with
  | nil => simp [bitsValue]
  | cons bit bits ih =>
      cases i with
      | zero => cases bit <;> simp [bitsValue, Nat.testBit_zero]
      | succ i =>
          have half : (bit.toNat + 2 * bitsValue bits) / 2 = bitsValue bits := by
            cases bit
            · simp
            · simp only [Bool.toNat_true]
              omega
          simp only [bitsValue, Nat.testBit_succ, half, ih, List.getD_cons_succ]

theorem octetOf_getLsbD (bits : List Bool) (i : Nat) (hi : i < 8) :
    (octetOf bits).getLsbD i = bits.getD i false := by
  simp only [octetOf, BitVec.getLsbD_ofNat, bitsValue_testBit, hi, decide_true, Bool.true_and]

@[simp] theorem octetBits_length (octet : Octet) : (octetBits octet).length = 8 := by
  simp [octetBits]

@[simp] theorem octetOf_octetBits (octet : Octet) : octetOf (octetBits octet) = octet := by
  apply BitVec.eq_of_getLsbD_eq
  intro i hi
  rw [octetOf_getLsbD _ i hi]
  simp [octetBits, List.getD_eq_getElem?_getD, hi]

theorem octetBits_octetOf (bits : List Bool) (full : bits.length = 8) :
    octetBits (octetOf bits) = bits := by
  apply List.ext_getElem
  · simp [full]
  · intro i hi hb
    simp only [octetBits, List.getElem_map, List.getElem_range]
    rw [octetOf_getLsbD _ i (by omega), List.getD_eq_getElem _ _ hb]

/-- Reading back fewer than eight bits. -/
theorem octetBits_octetOf_take (bits : List Bool) (n : Nat) (carried : n ≤ bits.length)
    (fits : bits.length ≤ 8) : (octetBits (octetOf bits)).take n = bits.take n := by
  apply List.ext_getElem
  · rw [List.length_take, List.length_take, octetBits_length]
    omega
  · intro i hi hb
    rw [List.length_take] at hb
    simp only [octetBits, List.getElem_take, List.getElem_map, List.getElem_range]
    rw [octetOf_getLsbD _ i (by omega), List.getD_eq_getElem _ _ (by omega)]

theorem octetOf_inj (left right : List Bool) (hl : left.length = 8) (hr : right.length = 8)
    (same : octetOf left = octetOf right) : left = right := by
  rw [← octetBits_octetOf left hl, ← octetBits_octetOf right hr, same]

theorem octetOf_take (bits : List Bool) : octetOf (bits.take 8) = octetOf bits := by
  apply BitVec.eq_of_getLsbD_eq
  intro i hi
  rw [octetOf_getLsbD _ i hi, octetOf_getLsbD _ i hi]
  simp [List.getD_eq_getElem?_getD, hi]

/-- Setting the next free bit of a partly built octet. -/
theorem octetOf_append_bit (bits : List Bool) (bit : Bool) (room : bits.length < 8) :
    octetOf bits ||| (if bit then 1#8 <<< bits.length else 0#8) = octetOf (bits ++ [bit]) := by
  apply BitVec.eq_of_getLsbD_eq
  intro i hi
  rw [BitVec.getLsbD_or, octetOf_getLsbD _ i hi, octetOf_getLsbD _ i hi]
  simp only [List.getD_eq_getElem?_getD]
  rcases Nat.lt_trichotomy i bits.length with low | rfl | high
  · have near : ¬ bits.length ≤ i := by omega
    cases bit <;> simp [List.getElem?_append_left low, low]
  · cases bit <;> simp [room]
  · have past : bits.length ≤ i := by omega
    have gap : i - bits.length ≠ 0 := by omega
    have beyond : (bits ++ [bit]).length ≤ i := by simp; omega
    rw [List.getElem?_eq_none past, List.getElem?_eq_none beyond]
    cases bit
    · simp
    · simp only [if_true, BitVec.getLsbD_shiftLeft, BitVec.getLsbD_one, gap, decide_false,
        Bool.and_false, Option.getD_none, Bool.or_self]

@[simp] theorem lineBits_length (octets : List Octet) :
    (lineBits octets).length = 8 * octets.length := by
  induction octets with
  | nil => rfl
  | cons octet octets ih =>
      rw [lineBits, List.flatMap_cons, List.length_append, octetBits_length, ← lineBits, ih,
        List.length_cons, Nat.mul_succ, Nat.add_comm]

theorem lineBits_append (left right : List Octet) :
    lineBits (left ++ right) = lineBits left ++ lineBits right := by
  simp [lineBits]

theorem lineBits_cons (octet : Octet) (octets : List Octet) :
    lineBits (octet :: octets) = octetBits octet ++ lineBits octets := rfl

theorem lineBits_take (n : Nat) (octets : List Octet) :
    lineBits (octets.take n) = (lineBits octets).take (8 * n) := by
  induction octets generalizing n with
  | nil => simp [lineBits]
  | cons octet octets ih =>
      cases n with
      | zero => rfl
      | succ n =>
          have first : 8 * (n + 1) = (octetBits octet).length + 8 * n := by
            rw [octetBits_length]
            omega
          rw [List.take_succ_cons, lineBits_cons, lineBits_cons, ih, first, List.take_length_add_append]

theorem lineBits_octetOf (bits : List Bool) (full : bits.length = 8) :
    lineBits [octetOf bits] = bits := by
  simp [lineBits, octetBits_octetOf bits full]

theorem lineBits_inj {left right : List Octet} (same : lineBits left = lineBits right) :
    left = right := by
  induction left generalizing right with
  | nil =>
      have empty := congrArg List.length same
      rw [lineBits_length, lineBits_length, List.length_nil] at empty
      exact (List.eq_nil_of_length_eq_zero (by omega)).symm
  | cons octet left ih =>
      cases right with
      | nil =>
          have empty := congrArg List.length same
          simp at empty
      | cons other right =>
          rw [lineBits, lineBits, List.flatMap_cons, List.flatMap_cons] at same
          obtain ⟨head, tail⟩ := List.append_inj same (by simp)
          rw [ih tail, ← octetOf_octetBits octet, head, octetOf_octetBits]

/-- `n` octets that carry `width` line bits each and end in the bits of `mark`. -/
def unitOctets (width : Nat) (mark : List Bool) (n : Nat) (bits : List Bool) : List Octet :=
  (List.range n).map fun j => octetOf ((bits.drop (width * j)).take width ++ mark)

/-- The line bits read back from the low `width` bits of every octet. -/
def unitBits (width : Nat) (octets : List Octet) : List Bool :=
  octets.flatMap fun octet => (octetBits octet).take width

@[simp] theorem unitOctets_length (width : Nat) (mark : List Bool) (n : Nat) (bits : List Bool) :
    (unitOctets width mark n bits).length = n := by
  simp [unitOctets]

theorem unitOctets_succ (width : Nat) (mark : List Bool) (n : Nat) (bits : List Bool) :
    unitOctets width mark (n + 1) bits =
      octetOf (bits.take width ++ mark) :: unitOctets width mark n (bits.drop width) := by
  simp only [unitOctets, List.range_succ_eq_map, List.map_cons, List.map_map, Nat.mul_zero,
    List.drop_zero]
  congr 1
  apply List.map_congr_left
  intro j _
  simp [List.drop_drop, Nat.mul_succ, Nat.add_comm]

theorem unitOctets_add (width : Nat) (mark : List Bool) (m n : Nat) (bits : List Bool) :
    unitOctets width mark (m + n) bits =
      unitOctets width mark m bits ++ unitOctets width mark n (bits.drop (width * m)) := by
  induction m generalizing bits with
  | zero => simp [unitOctets]
  | succ m ih =>
      rw [show m + 1 + n = m + n + 1 by omega, unitOctets_succ, unitOctets_succ, ih]
      simp [List.drop_drop, Nat.mul_succ, Nat.add_comm]

theorem unitOctets_append (width : Nat) (mark : List Bool) (n : Nat) (bits more : List Bool)
    (enough : width * n ≤ bits.length) :
    unitOctets width mark n (bits ++ more) = unitOctets width mark n bits := by
  apply List.map_congr_left
  intro j hj
  have inside : width * (j + 1) ≤ width * n :=
    Nat.mul_le_mul_left width (Nat.succ_le_of_lt (List.mem_range.mp hj))
  rw [Nat.mul_succ] at inside
  rw [List.drop_append_of_le_length (by omega), List.take_append_of_le_length]
  rw [List.length_drop]
  omega

theorem unitOctets_lineBits (n : Nat) (octets : List Octet) (enough : n ≤ octets.length) :
    unitOctets 8 [] n (lineBits octets) = octets.take n := by
  induction octets generalizing n with
  | nil =>
      obtain rfl : n = 0 := Nat.eq_zero_of_le_zero enough
      rfl
  | cons octet octets ih =>
      cases n with
      | zero => rfl
      | succ n =>
          rw [unitOctets_succ, lineBits_cons, List.append_nil, List.take_left' (octetBits_length octet),
            List.drop_left' (octetBits_length octet), octetOf_octetBits,
            ih n (Nat.le_of_succ_le_succ enough), List.take_succ_cons]

theorem unitBits_append (width : Nat) (left right : List Octet) :
    unitBits width (left ++ right) = unitBits width left ++ unitBits width right := by
  simp [unitBits]

@[simp] theorem unitBits_eight (octets : List Octet) : unitBits 8 octets = lineBits octets := by
  have whole : ∀ octet : Octet, (octetBits octet).take 8 = octetBits octet := fun octet =>
    List.take_of_length_le (by simp)
  simp [unitBits, lineBits, whole]

theorem unitBits_unitOctets (width : Nat) (mark : List Bool) (n : Nat) (bits : List Bool)
    (fits : width + mark.length ≤ 8) (enough : width * n ≤ bits.length) :
    unitBits width (unitOctets width mark n bits) = bits.take (width * n) := by
  induction n generalizing bits with
  | zero => simp [unitBits, unitOctets]
  | succ n ih =>
      rw [Nat.mul_succ] at enough
      have rest := ih (bits.drop width) (by rw [List.length_drop]; omega)
      have full : (bits.take width).length = width := by
        rw [List.length_take]
        omega
      have head : (octetBits (octetOf (bits.take width ++ mark))).take width = bits.take width := by
        rw [octetBits_octetOf_take _ width (by rw [List.length_append]; omega)
          (by rw [List.length_append]; omega), List.take_left' full]
      rw [unitOctets_succ, unitBits, List.flatMap_cons, head, ← unitBits, rest, Nat.mul_succ,
        Nat.add_comm (width * n), List.take_add]

end Wanpipe.Line
