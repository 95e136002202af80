import Wanpipe.Line.Octets
import Mathlib.Logic.Function.Basic

/-! Octet arrays that are filled bit by bit, `width` bits to an octet. -/

namespace Wanpipe.Line

/-- ORs one bit into an octet of the array. -/
def orBit (buf : Nat → Octet) (index pos : Nat) (bit : Bool) : Nat → Octet :=
  Function.update buf index (buf index ||| if bit then 1#8 <<< pos else 0#8)

theorem orBit_false (buf : Nat → Octet) (index pos : Nat) : orBit buf index pos false = buf := by
  simp [orBit]

/-- The array holds `bits`: `len` full octets and `pos` bits of the octet that is being built. -/
structure Filled (width : Nat) (buf : Nat → Octet) (len pos : Nat) (bits : List Bool) : Prop where
  narrow : width ≤ 8
  low : pos < width
  size : bits.length = width * len + pos
  done : ∀ j < len, buf j = octetOf ((bits.drop (width * j)).take width)
  building : buf len = octetOf (bits.drop (width * len))

theorem filled_start (width : Nat) (buf : Nat → Octet) (narrow : width ≤ 8) (some_ : 0 < width)
    (clear : buf 0 = 0) : Filled width buf 0 0 [] := by
  refine ⟨narrow, some_, rfl, ?_, ?_⟩
  · intro j hj
    exact absurd hj (Nat.not_lt_zero j)
  · rw [clear, List.drop_nil]
    rfl

namespace Filled

variable {width len pos : Nat} {buf : Nat → Octet} {bits : List Bool}

theorem len_eq (held : Filled width buf len pos bits) : len = bits.length / width := by
  have small := held.low
  rw [held.size, Nat.mul_add_div (by omega), Nat.div_eq_of_lt small, Nat.add_zero]

theorem pos_eq (held : Filled width buf len pos bits) : pos = bits.length % width := by
  rw [held.size, Nat.mul_add_mod, Nat.mod_eq_of_lt held.low]

/-- The octet being built, with one more bit. -/
private theorem built (held : Filled width buf len pos bits) (bit : Bool) :
    orBit buf len pos bit len = octetOf (bits.drop (width * len) ++ [bit]) := by
  have tail : (bits.drop (width * len)).length = pos := by
    rw [List.length_drop, held.size]
    omega
  have low := held.low
  have narrow := held.narrow
  rw [orBit, Function.update_self, held.building, ← octetOf_append_bit _ _ (by omega), tail]

private theorem before (held : Filled width buf len pos bits) (bit : Bool) (j : Nat)
    (early : j < len) :
    orBit buf len pos bit j = octetOf (((bits ++ [bit]).drop (width * j)).take width) := by
  have size := held.size
  have inside : width * (j + 1) ≤ width * len := Nat.mul_le_mul_left _ early
  rw [Nat.mul_succ] at inside
  rw [orBit, Function.update_of_ne (Nat.ne_of_lt early), held.done j early,
    List.drop_append_of_le_length (by omega), List.take_append_of_le_length]
  rw [List.length_drop]
  omega

theorem within (held : Filled width buf len pos bits) (bit : Bool) (open_ : pos + 1 < width) :
    Filled width (orBit buf len pos bit) len (pos + 1) (bits ++ [bit]) := by
  have size := held.size
  refine ⟨held.narrow, open_, ?_, fun j early => held.before bit j early, ?_⟩
  · rw [List.length_append, List.length_singleton]
    omega
  · rw [List.drop_append_of_le_length (by omega)]
    exact held.built bit

theorem close (held : Filled width buf len pos bits) (bit : Bool) (full : pos + 1 = width) :
    Filled width (Function.update (orBit buf len pos bit) (len + 1) 0) (len + 1) 0
      (bits ++ [bit]) := by
  have size := held.size
  have whole : (bits ++ [bit]).length = width * (len + 1) := by
    rw [List.length_append, List.length_singleton, Nat.mul_succ]
    omega
  refine ⟨held.narrow, by omega, whole, ?_, ?_⟩
  · intro j hj
    rw [Function.update_of_ne (Nat.ne_of_lt hj)]
    rcases Nat.lt_or_ge j len with early | last
    · exact held.before bit j early
    · obtain rfl : j = len := by omega
      have tail : (bits.drop (width * j) ++ [bit]).length = width := by
        rw [List.length_append, List.length_drop, List.length_singleton]
        omega
      rw [held.built bit, List.drop_append_of_le_length (by omega),
        List.take_of_length_le (Nat.le_of_eq tail)]
  · rw [Function.update_self, ← whole, List.drop_length]
    rfl

theorem octets (held : Filled width buf len pos bits) :
    (List.range len).map buf = unitOctets width [] len bits := by
  apply List.map_congr_left
  intro j hj
  rw [held.done j (List.mem_range.mp hj), List.append_nil]

/-- Stepping back into the last full octet, of which only `keep` bits are set. -/
theorem reopen {keep : Nat} (held : Filled width buf (len + 1) 0 bits) (short : keep < width)
    (clear : octetOf ((bits.drop (width * len)).take width) =
      octetOf ((bits.drop (width * len)).take keep)) :
    Filled width buf len keep (bits.take (width * len + keep)) := by
  have size := held.size
  rw [Nat.mul_succ] at size
  refine ⟨held.narrow, short, ?_, ?_, ?_⟩
  · rw [List.length_take]
    omega
  · intro j early
    have inside : width * (j + 1) ≤ width * len := Nat.mul_le_mul_left _ early
    rw [Nat.mul_succ] at inside
    rw [held.done j (by omega), List.drop_take, List.take_take, Nat.min_eq_left (by omega)]
  · rw [held.done len (Nat.lt_succ_self len), clear, List.drop_take, Nat.add_sub_cancel_left]

/-- The octet that the last bit completes joins the full ones. -/
theorem close_octets (held : Filled width buf len pos bits) (bit : Bool)
    (full : pos + 1 = width) :
    unitOctets width [] (len + 1) (bits ++ [bit]) =
      unitOctets width [] len bits ++ [orBit buf len pos bit len] := by
  have size := held.size
  have tail : (bits.drop (width * len) ++ [bit]).length = width := by
    rw [List.length_append, List.length_drop, List.length_singleton]
    omega
  rw [unitOctets_add, unitOctets_append _ _ _ _ _ (by omega), held.built bit,
    List.drop_append_of_le_length (by omega), unitOctets_succ, List.append_nil,
    List.take_of_length_le (Nat.le_of_eq tail)]
  rfl

end Filled

end Wanpipe.Line
