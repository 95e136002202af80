import Wanpipe.Line.Octets

/-! Zero insertion and flags on a line of bits. -/

namespace Wanpipe.Line

def flag : List Bool := [false, true, true, true, true, true, true, false]

/-- Inserts a zero after every fifth consecutive one; `ones` ones have just been sent. -/
def stuff : Nat → List Bool → List Bool
  | _, [] => []
  | _, false :: bits => false :: stuff 0 bits
  | ones, true :: bits =>
      if ones + 1 = 5 then true :: false :: stuff 0 bits else true :: stuff (ones + 1) bits

/-- The count of consecutive ones the encoder is left with after `bits`. -/
def stuffOnes : Nat → List Bool → Nat
  | ones, [] => ones
  | _, false :: bits => stuffOnes 0 bits
  | ones, true :: bits => if ones + 1 = 5 then stuffOnes 0 bits else stuffOnes (ones + 1) bits

/-- The number of ones a line starts with. -/
def leadOnes : List Bool → Nat
  | true :: bits => leadOnes bits + 1
  | _ => 0

theorem stuff_append (ones : Nat) (left right : List Bool) :
    stuff ones (left ++ right) = stuff ones left ++ stuff (stuffOnes ones left) right := by
  induction left generalizing ones with
  | nil => rfl
  | cons bit left ih =>
      cases bit
      · simp [stuff, stuffOnes, ih]
      · by_cases fifth : ones + 1 = 5 <;> simp [stuff, stuffOnes, fifth, ih]

theorem stuffOnes_append (ones : Nat) (left right : List Bool) :
    stuffOnes ones (left ++ right) = stuffOnes (stuffOnes ones left) right := by
  induction left generalizing ones with
  | nil => rfl
  | cons bit left ih =>
      cases bit
      · simp [stuffOnes, ih]
      · by_cases fifth : ones + 1 = 5 <;> simp [stuffOnes, fifth, ih]

theorem stuffOnes_lt (ones : Nat) (bits : List Bool) (few : ones < 5) :
    stuffOnes ones bits < 5 := by
  induction bits generalizing ones with
  | nil => exact few
  | cons bit bits ih =>
      cases bit
      · exact ih 0 (by omega)
      · by_cases fifth : ones + 1 = 5
        · simpa [stuffOnes, fifth] using ih 0 (by omega)
        · simpa [stuffOnes, fifth] using ih (ones + 1) (by omega)

theorem stuff_length_le (ones : Nat) (bits : List Bool) :
    bits.length ≤ (stuff ones bits).length := by
  induction bits generalizing ones with
  | nil => simp [stuff]
  | cons bit bits ih =>
      cases bit
      · simpa [stuff] using ih 0
      · by_cases fifth : ones + 1 = 5
        · have := ih 0
          simp [stuff, fifth]
          omega
        · simpa [stuff, fifth] using ih (ones + 1)

/-- A stuffed line never shows six ones before its closing flag. -/
theorem leadOnes_stuff_flag (ones : Nat) (bits after : List Bool) (few : ones < 5) :
    leadOnes (stuff ones bits ++ flag ++ after) + ones ≤ 5 := by
  induction bits generalizing ones with
  | nil =>
      simp [stuff, flag, leadOnes]
      omega
  | cons bit bits ih =>
      cases bit
      · simp [stuff, leadOnes]
        omega
      · by_cases fifth : ones + 1 = 5
        · simp [stuff, fifth, leadOnes]
          omega
        · have next := ih (ones + 1) (by omega)
          simp only [stuff, fifth, if_false, List.cons_append, leadOnes]
          omega

end Wanpipe.Line
