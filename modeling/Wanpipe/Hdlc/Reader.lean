import Wanpipe.Line.Fcs
import Wanpipe.Line.Stuffing
import Mathlib.Tactic.IntervalCases

/-! What a decoder is for: the frames on a line of bits. -/

namespace Wanpipe.Hdlc

open Line

def wholeOctets (bits : List Bool) : List Octet := unitOctets 8 [] (bits.length / 8) bits

/-- The octets end in their own check octets. -/
def GoodFcs (octets : List Octet) : Prop :=
  octets.drop (octets.length - 2) = fcsOctets (octets.take (octets.length - 2))

instance (octets : List Octet) : Decidable (GoodFcs octets) :=
  inferInstanceAs (Decidable (_ = _))

/-- The ones since the last zero, modulo 256, the destuffed bits since the last flag (none where
no flag is known), the frames and the counts of what was dropped. -/
structure Reader where
  ones : Nat
  got : Option (List Bool)
  frames : List (List Octet)
  crc : Nat
  abort : Nat
  frameOverflow : Nat
  deriving DecidableEq, Repr

namespace Reader

def start : Reader := ⟨0, none, [], 0, 0, 0⟩

def put (reader : Reader) (bit : Bool) : Reader :=
  { reader with got := reader.got.map (· ++ [bit]) }

/-- A flag ends the stretch of these octets; after a bad one the next flag has to open anew. -/
def judge (reader : Reader) (octets : List Octet) : Reader :=
  if octets = [] then { reader with got := some [] }
  else if octets.length < 3 then { reader with got := some [], abort := reader.abort + 1 }
  else if GoodFcs octets then { reader with got := some [], frames := reader.frames ++ [octets] }
  else { reader with got := none, crc := reader.crc + 1 }

def mark (reader : Reader) : Reader :=
  match reader.got with
  | none => { reader with got := some [] }
  | some bits => reader.judge (wholeOctets bits)

def bit (reader : Reader) (bit : Bool) : Reader :=
  if bit then { reader.put true with ones := (reader.ones + 1) % 256 }
  else
    { (if reader.ones = 5 then reader
        else if reader.ones = 6 then reader.mark
        else reader.put false) with ones := 0 }

def line (reader : Reader) (bits : List Bool) : Reader := bits.foldl bit reader

/-- The octets collected so far. -/
def collected (reader : Reader) : Nat := (reader.got.getD []).length / 8

/-- The end of a decode call: a stretch of `limit` octets is given up. -/
def close (limit : Nat) (reader : Reader) : Reader :=
  if limit ≤ reader.collected then
    { reader with ones := 0, got := none, frameOverflow := reader.frameOverflow + 1 }
  else reader

def call (limit : Nat) (reader : Reader) (bits : List Bool) : Reader :=
  close limit (reader.line bits)

@[simp] theorem line_nil (reader : Reader) : reader.line [] = reader := rfl

@[simp] theorem line_cons (reader : Reader) (bit : Bool) (bits : List Bool) :
    reader.line (bit :: bits) = (reader.bit bit).line bits := rfl

theorem line_append (reader : Reader) (left right : List Bool) :
    reader.line (left ++ right) = (reader.line left).line right := by
  simp [line]

/-- While the bits are read, never more than `bound` octets are collected. -/
def Within (bound : Nat) : Reader → List Bool → Prop
  | _, [] => True
  | reader, bit :: bits =>
      (reader.bit bit).collected ≤ bound ∧ Within bound (reader.bit bit) bits

instance Within.decidable (bound : Nat) :
    (reader : Reader) → (bits : List Bool) → Decidable (Within bound reader bits)
  | _, [] => isTrue trivial
  | reader, bit :: bits =>
      have : Decidable (Within bound (reader.bit bit) bits) := Within.decidable bound _ bits
      inferInstanceAs (Decidable (_ ∧ _))

theorem Within.append {bound : Nat} {reader : Reader} {left right : List Bool}
    (first : Within bound reader left) (second : Within bound (reader.line left) right) :
    Within bound reader (left ++ right) := by
  induction left generalizing reader with
  | nil => exact second
  | cons bit left ih => exact ⟨first.1, ih first.2 second⟩

theorem Within.left {bound : Nat} {reader : Reader} {left right : List Bool}
    (whole : Within bound reader (left ++ right)) : Within bound reader left := by
  induction left generalizing reader with
  | nil => trivial
  | cons bit left ih => exact ⟨whole.1, ih whole.2⟩

theorem Within.right {bound : Nat} {reader : Reader} {left right : List Bool}
    (whole : Within bound reader (left ++ right)) : Within bound (reader.line left) right := by
  induction left generalizing reader with
  | nil => exact whole
  | cons bit left ih => exact ih whole.2

theorem Within.last {bound : Nat} {reader : Reader} {bits : List Bool}
    (start : reader.collected ≤ bound) (whole : Within bound reader bits) :
    (reader.line bits).collected ≤ bound := by
  induction bits generalizing reader with
  | nil => exact start
  | cons bit bits ih => exact ih whole.1 whole.2

theorem Within.mono {low high : Nat} {reader : Reader} {bits : List Bool} (more : low ≤ high)
    (whole : Within low reader bits) : Within high reader bits := by
  induction bits generalizing reader with
  | nil => trivial
  | cons bit bits ih => exact ⟨Nat.le_trans whole.1 more, ih whole.2⟩

theorem judge_got (reader : Reader) (octets : List Octet) :
    (reader.judge octets).got.getD [] = [] := by
  unfold judge
  split
  · rfl
  · split
    · rfl
    · split <;> rfl

theorem bit_grows (reader : Reader) (bit : Bool) :
    ((reader.bit bit).got.getD []).length ≤ (reader.got.getD []).length + 1 := by
  have placed : ∀ b, ((reader.put b).got.getD []).length ≤ (reader.got.getD []).length + 1 := by
    intro b
    cases got : reader.got <;> simp [put, got]
  have marked : (reader.mark.got.getD []).length ≤ (reader.got.getD []).length + 1 := by
    unfold mark
    split
    · exact Nat.zero_le _
    · rw [judge_got]
      exact Nat.zero_le _
  cases bit with
  | true => exact placed true
  | false =>
      simp only [Reader.bit, Bool.false_eq_true, if_false]
      split
      · exact Nat.le_succ _
      · split
        · exact marked
        · exact placed false

theorem Within.of_length {bound : Nat} {reader : Reader} {bits : List Bool}
    (short : (reader.got.getD []).length + bits.length < 8 * (bound + 1)) :
    Within bound reader bits := by
  induction bits generalizing reader with
  | nil => trivial
  | cons bit bits ih =>
      have grows := bit_grows reader bit
      rw [List.length_cons] at short
      refine ⟨?_, ih (by omega)⟩
      rw [collected]
      omega

/-- Several decode calls, none of which gives up. -/
theorem calls_line {limit : Nat} (calls : List (List Bool)) (reader : Reader)
    (start : reader.collected < limit) (short : Within (limit - 1) reader calls.flatten) :
    calls.foldl (call limit) reader = reader.line calls.flatten := by
  induction calls generalizing reader with
  | nil => rfl
  | cons bits calls ih =>
      rw [List.flatten_cons] at short
      have low : (reader.line bits).collected < limit := by
        have := Within.last (by omega) short.left
        omega
      have kept : reader.call limit bits = reader.line bits := if_neg (Nat.not_le.mpr low)
      rw [List.foldl_cons, kept, List.flatten_cons, line_append, ih _ low short.right]

/-- The same reader with frames read earlier. -/
def behind (earlier : List (List Octet)) (reader : Reader) : Reader :=
  { reader with frames := earlier ++ reader.frames }

theorem judge_behind (earlier : List (List Octet)) (reader : Reader) (octets : List Octet) :
    (reader.behind earlier).judge octets = (reader.judge octets).behind earlier := by
  unfold judge
  split
  · rfl
  · split
    · rfl
    · split
      · simp [behind]
      · rfl

theorem mark_behind (earlier : List (List Octet)) (reader : Reader) :
    (reader.behind earlier).mark = reader.mark.behind earlier := by
  have same : (reader.behind earlier).got = reader.got := rfl
  cases got : reader.got with
  | none =>
      simp only [mark, same, got]
      rfl
  | some bits =>
      simp only [mark, same, got]
      exact judge_behind earlier reader (wholeOctets bits)

theorem bit_behind (earlier : List (List Octet)) (reader : Reader) (next : Bool) :
    (reader.behind earlier).bit next = (reader.bit next).behind earlier := by
  have same : (reader.behind earlier).ones = reader.ones := rfl
  cases next with
  | true => rfl
  | false =>
      simp only [bit, same, Bool.false_eq_true, if_false, mark_behind]
      split
      · rfl
      · split <;> rfl

theorem line_behind (earlier : List (List Octet)) (bits : List Bool) (reader : Reader) :
    (reader.behind earlier).line bits = (reader.line bits).behind earlier := by
  induction bits generalizing reader with
  | nil => rfl
  | cons next bits ih => rw [line_cons, bit_behind, ih, line_cons]

section Frames

variable (frames : List (List Octet)) (crc abort overflow : Nat)

/-- Stuffed bits are read back as they were, from the same count of ones. -/
theorem line_stuff (bits : List Bool) (ones : Nat) (got : List Bool) (few : ones < 5) :
    line ⟨ones, some got, frames, crc, abort, overflow⟩ (stuff ones bits) =
      ⟨stuffOnes ones bits, some (got ++ bits), frames, crc, abort, overflow⟩ := by
  induction bits generalizing ones got with
  | nil => rw [List.append_nil]; rfl
  | cons next bits ih =>
      have joined : got ++ next :: bits = got ++ [next] ++ bits := by simp
      have small : (ones + 1) % 256 = ones + 1 := Nat.mod_eq_of_lt (by omega)
      cases next with
      | false =>
          have kept : ones ≠ 5 := by omega
          have plain : ones ≠ 6 := by omega
          rw [joined, stuffOnes, ← ih 0 (got ++ [false]) (by decide), stuff, line_cons]
          simp [bit, kept, plain, put]
      | true =>
          by_cases fifth : ones + 1 = 5
          · rw [joined, stuffOnes, if_pos fifth, ← ih 0 (got ++ [true]) (by decide), stuff,
              if_pos fifth, line_cons, line_cons]
            simp [bit, fifth, put]
          · rw [joined, stuffOnes, if_neg fifth, ← ih (ones + 1) (got ++ [true]) (by omega), stuff,
              if_neg fifth, line_cons]
            simp [bit, small, put]

/-- A flag behind stuffed bits. -/
theorem line_flag {ones : Nat} (got : List Bool) (kept : ones ≠ 5) (plain : ones ≠ 6) :
    line ⟨ones, some got, frames, crc, abort, overflow⟩ flag =
      { judge ⟨6, some (got ++ flag.take 7), frames, crc, abort, overflow⟩
          (wholeOctets (got ++ flag.take 7)) with ones := 0 } := by
  simp [flag, bit, kept, plain, put, mark]

/-- Less than a flag says nothing. -/
theorem line_flag_part (ones : Nat) (got : List Bool) (few : ones < 5) {j : Nat} (part : j < 8) :
    (line ⟨ones, some got, frames, crc, abort, overflow⟩ (flag.take j)).frames = frames := by
  have kept : ones ≠ 5 := by omega
  have plain : ones ≠ 6 := by omega
  interval_cases j <;> simp [flag, bit, kept, plain, put]

theorem line_first_flag :
    line ⟨0, none, frames, crc, abort, overflow⟩ flag =
      ⟨0, some [], frames, crc, abort, overflow⟩ := rfl

theorem line_next_flag :
    line ⟨0, some [], frames, crc, abort, overflow⟩ flag =
      ⟨0, some [], frames, crc, abort, overflow⟩ := rfl

end Frames

end Reader

theorem wholeOctets_lineBits (octets : List Octet) (part : List Bool) (few : part.length < 8) :
    wholeOctets (lineBits octets ++ part) = octets := by
  have size : (lineBits octets ++ part).length / 8 = octets.length := by
    rw [List.length_append, lineBits_length]
    omega
  rw [wholeOctets, size, unitOctets_append _ _ _ _ _ (by rw [lineBits_length]),
    unitOctets_lineBits _ _ (Nat.le_refl _), List.take_length]

theorem goodFcs_frame (data : List Octet) : GoodFcs (data ++ fcsOctets data) := by
  have size : (data ++ fcsOctets data).length - 2 = data.length := by
    rw [List.length_append, fcsOctets_length, Nat.add_sub_cancel]
  rw [GoodFcs, size, List.drop_left, List.take_left]

end Wanpipe.Hdlc
