import Mathlib.Data.List.GetD
import Mathlib.Data.List.Range
import Wanpipe.Circle

/-! A memory of places, with parts of it that are read and written, in a line or around a circle. -/

namespace Wanpipe.Store

open Wanpipe.Circle

variable {Item : Type}

/-- The items from a place on. -/
def load (mem : Nat → Item) (start len : Nat) : List Item :=
  (List.range len).map fun k => mem (start + k)

/-- The items are put down from a place on. -/
def store (mem : Nat → Item) (start : Nat) (items : List Item) (i : Nat) : Item :=
  if start ≤ i then items.getD (i - start) (mem i) else mem i

theorem load_length (mem : Nat → Item) (start len : Nat) : (load mem start len).length = len := by
  rw [load, List.length_map, List.length_range]

theorem load_zero (mem : Nat → Item) (start : Nat) : load mem start 0 = [] := rfl

theorem load_get {mem : Nat → Item} {start len k : Nat} (inside : k < len) :
    (load mem start len)[k]? = some (mem (start + k)) := by
  rw [load, List.getElem?_map, List.getElem?_range inside]
  rfl

theorem load_getD {mem : Nat → Item} {start len k : Nat} (inside : k < len) (other : Item) :
    (load mem start len).getD k other = mem (start + k) := by
  rw [List.getD_eq_getElem?_getD, load_get inside]
  rfl

theorem load_append (mem : Nat → Item) (start left right : Nat) :
    load mem start (left + right) = load mem start left ++ load mem (start + left) right := by
  rw [load, List.range_add, List.map_append, List.map_map]
  congr 1
  apply List.map_congr_left
  intro k _
  rw [Function.comp_apply, Nat.add_assoc]

theorem load_congr {mem other : Nat → Item} {start len : Nat}
    (same : ∀ i, start ≤ i → i < start + len → other i = mem i) :
    load other start len = load mem start len := by
  apply List.map_congr_left
  intro k inside
  have less := List.mem_range.mp inside
  exact same (start + k) (by omega) (by omega)

theorem store_inside {mem : Nat → Item} {start i : Nat} {items : List Item} (above : start ≤ i)
    (inside : i < start + items.length) (other : Item) :
    store mem start items i = items.getD (i - start) other := by
  have less : i - start < items.length := by omega
  rw [store, if_pos above, List.getD_eq_getElem _ _ less, List.getD_eq_getElem _ _ less]

theorem store_outside {mem : Nat → Item} {start i : Nat} {items : List Item}
    (apart : i < start ∨ start + items.length ≤ i) : store mem start items i = mem i := by
  unfold store
  split
  · rw [List.getD_eq_default _ _ (by omega)]
  · rfl

theorem load_store (mem : Nat → Item) (start : Nat) (items : List Item) :
    load (store mem start items) start items.length = items := by
  apply List.ext_getElem
  · exact load_length _ _ _
  · intro k _ inside
    rw [← Option.some_inj, ← List.getElem?_eq_getElem, ← List.getElem?_eq_getElem, load_get inside,
      store_inside (Nat.le_add_right start k) (by omega) (mem 0), Nat.add_sub_cancel_left,
      List.getD_eq_getElem _ _ inside, List.getElem?_eq_getElem inside]

theorem load_store_apart {mem : Nat → Item} {start place len : Nat} {items : List Item}
    (apart : place + len ≤ start ∨ start + items.length ≤ place) :
    load (store mem start items) place len = load mem place len :=
  load_congr fun _ _ _ => store_outside (by omega)

/-- Items that are put down behind those that are read. -/
theorem load_store_append (mem : Nat → Item) (start len : Nat) (items : List Item) :
    load (store mem (start + len) items) start (len + items.length) = load mem start len ++ items := by
  rw [load_append, load_store, load_store_apart (Or.inl (Nat.le_refl _))]

section Around

variable {size head : Nat}

/-- The items from the head on, around the circle. -/
def around (mem : Nat → Item) (size head len : Nat) : List Item :=
  (List.range len).map fun k => mem (place size head k)

theorem around_length (mem : Nat → Item) (size head len : Nat) :
    (around mem size head len).length = len := by
  rw [around, List.length_map, List.length_range]

/-- Up to the end of the circle it is a part of the memory. -/
theorem around_load {len : Nat} (mem : Nat → Item) (inside : head + len ≤ size) :
    around mem size head len = load mem head len := by
  apply List.map_congr_left
  intro k within
  have less := List.mem_range.mp within
  rw [place, if_pos (by omega)]

theorem around_append (mem : Nat → Item) (inside : head < size) {left right : Nat}
    (fits : left + right ≤ size) :
    around mem size head (left + right) =
      around mem size head left ++ around mem size (place size head left) right := by
  rw [around, List.range_add, List.map_append, List.map_map]
  congr 1
  apply List.map_congr_left
  intro k within
  have bound := List.mem_range.mp within
  rw [Function.comp_apply]
  congr 1
  unfold place
  split <;> split <;> split <;> omega

/-- Across the end of the circle it is two parts of the memory. -/
theorem around_split (mem : Nat → Item) {len : Nat} (inside : head < size)
    (crosses : size ≤ head + len) (fits : len ≤ size) :
    around mem size head len =
      load mem head (size - head) ++ load mem 0 (len - (size - head)) := by
  obtain ⟨rest, rfl⟩ : ∃ rest, len = size - head + rest := ⟨len - (size - head), by omega⟩
  rw [around, List.range_add, List.map_append, List.map_map, Nat.add_sub_cancel_left]
  congr 1
  · exact around_load mem (by omega)
  · apply List.map_congr_left
    intro k within
    have bound := List.mem_range.mp within
    rw [Function.comp_apply, place, if_neg (by omega)]
    congr 1
    omega

theorem around_drop (mem : Nat → Item) (inside : head < size) {len count : Nat} (fits : len ≤ size)
    (few : count ≤ len) :
    around mem size (place size head count) (len - count) =
      (around mem size head len).drop count := by
  obtain ⟨rest, rfl⟩ : ∃ rest, len = count + rest := ⟨len - count, by omega⟩
  rw [around_append mem inside fits, Nat.add_sub_cancel_left,
    List.drop_left' (around_length mem size head count)]

/-- Items have been put on the circle from a place on, the rest is as it was. -/
def Put (mem next : Nat → Item) (size start : Nat) (items : List Item) : Prop :=
  ∀ i < size, next i = items.getD (offset size start i) (mem i)

/-- Items that are put behind those on the circle are read behind them. -/
theorem Put.around {mem next : Nat → Item} {items : List Item} {len : Nat} (inside : head < size)
    (put : Put mem next size (place size head len) items) (room : len + items.length ≤ size)
    (less : len < size) :
    Store.around next size head (len + items.length) = Store.around mem size head len ++ items := by
  have start := place_lt inside less
  rw [around_append next inside room]
  congr 1
  · apply List.map_congr_left
    intro k within
    have bound := List.mem_range.mp within
    have far : items.length ≤ offset size (place size head len) (place size head k) := by
      unfold offset place
      split <;> split <;> split <;> omega
    rw [put _ (place_lt inside (by omega)), List.getD_eq_default _ _ far]
  · apply List.ext_getElem
    · exact around_length _ _ _ _
    · intro k _ within
      have bound : k < size := by omega
      have held := put _ (place_lt start bound)
      rw [offset_place start bound, List.getD_eq_getElem _ _ within] at held
      simp only [Store.around, List.getElem_map, List.getElem_range]
      exact held

end Around

end Wanpipe.Store
