import Mathlib.Data.List.Basic
import Mathlib.Tactic.Common

/-! A stream that is taken in block by block, in pieces of any length. -/

namespace Wanpipe.Blocks

variable {State α : Type} (compress : State → List α → State) (size : Nat)

/-- So many blocks are taken in. -/
def blocks : Nat → State → List α → State
  | 0, state, _ => state
  | count + 1, state, data => blocks count (compress state (data.take size)) (data.drop size)

/-- All the whole blocks are taken in. -/
def absorbed (state : State) (data : List α) : State :=
  blocks compress size (data.length / size) state data

/-- What stands behind the whole blocks. -/
def rest (data : List α) : List α := data.drop (size * (data.length / size))

variable {compress size}

theorem blocks_add (first second : Nat) (state : State) (data : List α) :
    blocks compress size (first + second) state data =
      blocks compress size second (blocks compress size first state data)
        (data.drop (size * first)) := by
  induction first generalizing state data with
  | zero => rw [Nat.zero_add, Nat.mul_zero, List.drop_zero, blocks]
  | succ first ih =>
      rw [Nat.succ_add, blocks, blocks, ih, List.drop_drop, Nat.mul_succ, Nat.add_comm size]

/-- Only the blocks that are taken in matter. -/
theorem blocks_append (count : Nat) (state : State) (data more : List α)
    (enough : size * count ≤ data.length) :
    blocks compress size count state (data ++ more) = blocks compress size count state data := by
  induction count generalizing state data with
  | zero => rfl
  | succ count ih =>
      rw [Nat.mul_succ] at enough
      have whole : size ≤ data.length := by omega
      rw [blocks, blocks, List.take_append_of_le_length whole, List.drop_append_of_le_length whole]
      apply ih
      rw [List.length_drop]
      omega

theorem rest_length (data : List α) : (rest size data).length = data.length % size := by
  rw [rest, List.length_drop, Nat.mod_def]

theorem whole_le (data : List α) : size * (data.length / size) ≤ data.length :=
  Nat.mul_div_le data.length size

theorem drop_whole (data more : List α) :
    (data ++ more).drop (size * (data.length / size)) = rest size data ++ more :=
  List.drop_append_of_le_length (whole_le data)

theorem count_append (data more : List α) (some : 0 < size) :
    (data ++ more).length / size =
      data.length / size + (rest size data ++ more).length / size := by
  have split : (data ++ more).length =
      (rest size data ++ more).length + size * (data.length / size) := by
    have parts := Nat.div_add_mod data.length size
    rw [List.length_append, List.length_append, rest_length]
    omega
  rw [split, Nat.add_mul_div_left _ _ some, Nat.add_comm]

theorem rest_append (data more : List α) (some : 0 < size) :
    rest size (data ++ more) = rest size (rest size data ++ more) := by
  rw [rest, count_append data more some, Nat.mul_add, ← List.drop_drop, drop_whole]
  rfl

/-- The blocks of two pieces are those of the first one, and those of what it leaves with the
second. -/
theorem absorbed_append (state : State) (data more : List α) (some : 0 < size) :
    absorbed compress size state (data ++ more) =
      absorbed compress size (absorbed compress size state data) (rest size data ++ more) := by
  rw [absorbed, count_append data more some, blocks_add, drop_whole,
    blocks_append _ _ _ _ (whole_le data)]
  rfl

/-- Less than a block is kept. -/
theorem absorbed_short (state : State) {data : List α} (short : data.length < size) :
    absorbed compress size state data = state := by
  rw [absorbed, Nat.div_eq_of_lt short, blocks]

theorem rest_short {data : List α} (short : data.length < size) : rest size data = data := by
  rw [rest, Nat.div_eq_of_lt short, Nat.mul_zero, List.drop_zero]

/-- A block is taken in first. -/
theorem absorbed_block (state : State) {block : List α} (more : List α) (whole : block.length = size)
    (some : 0 < size) :
    absorbed compress size state (block ++ more) =
      absorbed compress size (compress state block) more := by
  have count : (block ++ more).length / size = more.length / size + 1 := by
    rw [List.length_append, whole, Nat.add_comm, Nat.add_div_right _ some]
  rw [absorbed, count, blocks, ← whole, List.take_left, List.drop_left, absorbed]

theorem absorbed_one (state : State) {block : List α} (whole : block.length = size)
    (some : 0 < size) : absorbed compress size state block = compress state block := by
  have blocks := @absorbed_block _ _ compress _ state block [] whole some
  have none : ([] : List α).length < size := some
  rwa [List.append_nil, absorbed_short _ none] at blocks

theorem rest_block {block : List α} (more : List α) (whole : block.length = size) (some : 0 < size) :
    rest size (block ++ more) = rest size more := by
  have count : (block ++ more).length / size = more.length / size + 1 := by
    rw [List.length_append, whole, Nat.add_comm, Nat.add_div_right _ some]
  rw [rest, count, Nat.mul_succ, Nat.add_comm, ← List.drop_drop, ← whole, List.drop_left, rest]

end Wanpipe.Blocks
