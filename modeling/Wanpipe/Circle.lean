import Mathlib.Data.List.Nodup
import Mathlib.Data.List.Range
import Mathlib.Logic.Function.Basic
import Mathlib.Tactic.Common

/-! A queue in the slots of a circle: what it holds stands from its head on, and every other slot
is empty. -/

namespace Wanpipe.Circle

variable {Item : Type} {size head : Nat}

def place (size head k : Nat) : Nat := if head + k < size then head + k else head + k - size

def offset (size head i : Nat) : Nat := if head ≤ i then i - head else i + size - head

def advance (size i : Nat) : Nat := if i + 1 < size then i + 1 else 0

theorem place_lt {k : Nat} (inside : head < size) (bound : k < size) : place size head k < size := by
  unfold place
  split <;> omega

theorem offset_lt {i : Nat} (inside : head < size) (bound : i < size) :
    offset size head i < size := by
  unfold offset
  split <;> omega

theorem offset_place {k : Nat} (inside : head < size) (bound : k < size) :
    offset size head (place size head k) = k := by
  unfold offset place
  split <;> split <;> omega

theorem place_offset {i : Nat} (inside : head < size) (bound : i < size) :
    place size head (offset size head i) = i := by
  unfold offset place
  split <;> split <;> omega

theorem place_zero (inside : head < size) : place size head 0 = head := by
  unfold place
  split <;> omega

theorem place_size (size head : Nat) : place size head size = head := by
  unfold place
  split <;> omega

theorem advance_lt {i : Nat} (bound : i < size) : advance size i < size := by
  unfold advance
  split <;> omega

theorem advance_place {k : Nat} (inside : head < size) (bound : k < size) :
    advance size (place size head k) = place size head (k + 1) := by
  unfold advance place
  split <;> split <;> split <;> omega

theorem place_advance {k : Nat} (inside : head < size) (bound : k < size) :
    place size (advance size head) k = place size head (k + 1) := by
  unfold advance place
  split <;> split <;> split <;> omega

/-- The head moves on: every other slot comes one step nearer. -/
theorem offset_advance {i : Nat} (inside : head < size) (bound : i < size) (other : i ≠ head) :
    offset size (advance size head) i + 1 = offset size head i := by
  unfold advance offset
  split <;> split <;> split <;> omega

theorem offset_advance_head (inside : head < size) :
    offset size (advance size head) head + 1 = size := by
  unfold advance offset
  split <;> split <;> omega

theorem offset_self (size head : Nat) : offset size head head = 0 := by
  unfold offset
  split <;> omega

/-- The slots hold the items from the head on, and nothing else. -/
def Holds (size : Nat) (slot : Nat → Option Item) (head : Nat) (items : List Item) : Prop :=
  ∀ i < size, slot i = items[offset size head i]?

namespace Holds

variable {slot : Nat → Option Item} {items : List Item}

theorem at_place {k : Nat} (holds : Holds size slot head items) (inside : head < size)
    (bound : k < size) : slot (place size head k) = items[k]? := by
  rw [holds _ (place_lt inside bound), offset_place inside bound]

theorem at_head (holds : Holds size slot head items) (inside : head < size) :
    slot head = items.head? := by
  rw [holds head inside, offset_self, List.head?_eq_getElem?]

theorem empty (size head : Nat) : Holds size (fun _ => none) head ([] : List Item) :=
  fun _ _ => List.getElem?_nil.symm

theorem used (holds : Holds size slot head items) {i : Nat} (bound : i < size) :
    (slot i).isSome = true ↔ offset size head i < items.length := by
  rw [holds i bound]
  simp

/-- The slot behind the last item is the head's when the circle is full, and empty otherwise. -/
theorem at_tail (holds : Holds size slot head items) (inside : head < size)
    (fits : items.length ≤ size) :
    (slot (place size head items.length)).isSome = true ↔ items.length = size := by
  rcases Nat.lt_or_eq_of_le fits with room | full
  · rw [holds.at_place inside room, List.getElem?_length]
    constructor
    · intro impossible
      contradiction
    · omega
  · rw [full, place_size, holds.used inside, offset_self]
    omega

theorem push {item : Item} (holds : Holds size slot head items) (inside : head < size)
    (room : items.length < size) :
    Holds size (Function.update slot (place size head items.length) (some item)) head
      (items ++ [item]) := by
  intro i bound
  by_cases here : i = place size head items.length
  · rw [here, Function.update_self, offset_place inside room, List.getElem?_concat_length]
  · have apart : offset size head i ≠ items.length := by
      intro same
      apply here
      rw [← same, place_offset inside bound]
    rw [Function.update_of_ne here, holds i bound, List.getElem?_append]
    split
    · rfl
    · rw [List.getElem?_eq_none (by omega), List.getElem?_eq_none]
      rw [List.length_singleton]
      omega

theorem pop {item : Item} (holds : Holds size slot head (item :: items)) (inside : head < size)
    (fits : items.length < size) :
    Holds size (Function.update slot head none) (advance size head) items := by
  intro i bound
  by_cases here : i = head
  · have last := offset_advance_head inside
    rw [here, Function.update_self, List.getElem?_eq_none]
    omega
  · rw [Function.update_of_ne here, holds i bound, ← offset_advance inside bound here,
      List.getElem?_cons_succ]

end Holds

theorem range_perm (inside : head < size) :
    ((List.range size).map (place size head)).Perm (List.range size) := by
  have injective : ∀ k ∈ List.range size, ∀ l ∈ List.range size,
      place size head k = place size head l → k = l := by
    intro k first l second same
    rw [← offset_place inside (List.mem_range.mp first), same,
      offset_place inside (List.mem_range.mp second)]
  rw [List.perm_ext_iff_of_nodup (List.Nodup.map_on injective List.nodup_range) List.nodup_range]
  intro i
  rw [List.mem_map, List.mem_range]
  constructor
  · rintro ⟨k, member, rfl⟩
    exact place_lt inside (List.mem_range.mp member)
  · intro bound
    exact ⟨offset size head i, List.mem_range.mpr (offset_lt inside bound),
      place_offset inside bound⟩

theorem filterMap_getElem? (items : List Item) {size : Nat} (fits : items.length ≤ size) :
    (List.range size).filterMap (fun k => items[k]?) = items := by
  induction items generalizing size with
  | nil => simp
  | cons item items ih =>
      obtain ⟨less, rfl⟩ : ∃ less, size = less + 1 := by
        rw [List.length_cons] at fits
        exact ⟨size - 1, by omega⟩
      rw [List.length_cons] at fits
      have rest := ih (Nat.le_of_succ_le_succ fits)
      rw [List.range_succ_eq_map, List.filterMap_cons, List.filterMap_map]
      exact congrArg (item :: ·) rest

/-- The slots in the order of their indices hold the items in another order. -/
theorem Holds.perm {slot : Nat → Option Item} {items : List Item}
    (holds : Holds size slot head items) (inside : head < size) (fits : items.length ≤ size) :
    ((List.range size).filterMap slot).Perm items := by
  have turned := (range_perm inside).filterMap slot
  have same : ((List.range size).map (place size head)).filterMap slot = items := by
    refine Eq.trans ?_ (filterMap_getElem? items fits)
    rw [List.filterMap_map]
    apply List.filterMap_congr
    intro k member
    rw [Function.comp_apply, holds.at_place inside (List.mem_range.mp member)]
  rw [same] at turned
  exact turned.symm

/-- Counting over the slots counts the items. -/
theorem Holds.countP {slot : Nat → Option Item} {items : List Item}
    (holds : Holds size slot head items) (inside : head < size) (fits : items.length ≤ size)
    (test : Item → Bool) :
    (List.range size).countP (fun i => (slot i).any test) = items.countP test := by
  rw [← (holds.perm inside fits).countP_eq, List.countP_filterMap]
  apply List.countP_congr
  intro i _
  cases slot i <;> rfl

/-- What the slots hold, in the order from the head on. -/
def lined (size : Nat) (slot : Nat → Option Item) (head : Nat) : List Item :=
  (List.range size).filterMap fun k => slot (place size head k)

theorem lined_pop {slot : Nat → Option Item} {item : Item} (inside : head < size)
    (here : slot head = some item) :
    lined size slot head =
      item :: lined size (Function.update slot head none) (advance size head) := by
  obtain ⟨less, rfl⟩ : ∃ less, size = less + 1 := ⟨size - 1, by omega⟩
  have last : place (less + 1) (advance (less + 1) head) less = head := by
    rw [place_advance inside (Nat.lt_succ_self less), place_size]
  have rest : ∀ k ∈ List.range less,
      slot (place (less + 1) head (k + 1)) =
        Function.update slot head none (place (less + 1) (advance (less + 1) head) k) := by
    intro k member
    have bound : k < less := List.mem_range.mp member
    rw [place_advance inside (by omega), Function.update_of_ne]
    intro same
    have offsets := offset_place inside (by omega : k + 1 < less + 1)
    rw [same, offset_self] at offsets
    omega
  unfold lined
  rw [List.range_succ_eq_map, List.filterMap_cons, place_zero inside, here, List.filterMap_map,
    ← List.range_succ_eq_map, List.range_succ, List.filterMap_append, List.filterMap_cons, last,
    Function.update_self]
  dsimp only
  rw [List.filterMap_nil, List.append_nil]
  exact congrArg _ (List.filterMap_congr rest)

/-- One slot, and what stands in front of it and behind it. -/
theorem lined_split (slot : Nat → Option Item) {k : Nat} (inside : head < size) (bound : k < size) :
    ∃ front back, (∀ value, lined size (Function.update slot (place size head k) value) head =
        front ++ value.toList ++ back) ∧
      ((∀ later < size, k < later → slot (place size head later) = none) → back = []) := by
  have apart : ∀ j < size, j ≠ k → place size head j ≠ place size head k := by
    intro j small other same
    have offsets := congrArg (offset size head) same
    rw [offset_place inside small, offset_place inside bound] at offsets
    exact other offsets
  have whole : List.range size = List.range k ++ k :: (List.range (size - (k + 1))).map (k + 1 + ·) := by
    have parts : size = k + 1 + (size - (k + 1)) := by omega
    rw [← List.singleton_append, ← List.append_assoc, ← List.range_succ, ← List.range_add, ← parts]
  refine ⟨(List.range k).filterMap fun j => slot (place size head j),
    ((List.range (size - (k + 1))).map (k + 1 + ·)).filterMap fun j => slot (place size head j), ?_, ?_⟩
  · intro value
    have front : (List.range k).filterMap (fun j =>
        Function.update slot (place size head k) value (place size head j)) =
          (List.range k).filterMap fun j => slot (place size head j) := by
      apply List.filterMap_congr
      intro j member
      have small : j < k := List.mem_range.mp member
      exact Function.update_of_ne (apart j (by omega) (by omega)) _ _
    have back : ((List.range (size - (k + 1))).map (k + 1 + ·)).filterMap (fun j =>
        Function.update slot (place size head k) value (place size head j)) =
          ((List.range (size - (k + 1))).map (k + 1 + ·)).filterMap
            fun j => slot (place size head j) := by
      apply List.filterMap_congr
      intro j member
      obtain ⟨m, small, rfl⟩ := List.mem_map.mp member
      rw [List.mem_range] at small
      exact Function.update_of_ne (apart _ (by omega) (by omega)) _ _
    rw [lined, whole, List.filterMap_append, List.filterMap_cons, front, back, Function.update_self]
    cases value <;> simp
  · intro behind
    rw [List.filterMap_eq_nil_iff]
    intro j member
    obtain ⟨m, small, rfl⟩ := List.mem_map.mp member
    rw [List.mem_range] at small
    exact behind _ (by omega) (by omega)

/-- What is put behind all the others comes last. -/
theorem lined_push {slot : Nat → Option Item} (item : Item) {k : Nat} (inside : head < size)
    (bound : k < size)
    (behind : ∀ later < size, k ≤ later → slot (place size head later) = none) :
    lined size (Function.update slot (place size head k) (some item)) head =
      lined size slot head ++ [item] := by
  obtain ⟨front, back, split, last⟩ := lined_split slot inside bound
  have before := split (slot (place size head k))
  rw [Function.update_eq_self, behind k bound (Nat.le_refl k)] at before
  rw [before, split, last fun later small above => behind later small (Nat.le_of_lt above)]
  simp

/-- One of the slots is emptied. -/
theorem lined_clear {slot : Nat → Option Item} {i : Nat} (inside : head < size) (bound : i < size) :
    ∃ front back, lined size slot head = front ++ (slot i).toList ++ back ∧
      lined size (Function.update slot i none) head = front ++ back := by
  obtain ⟨front, back, split, -⟩ := lined_split slot inside (offset_lt inside bound)
  rw [place_offset inside bound] at split
  have before := split (slot i)
  rw [Function.update_eq_self] at before
  refine ⟨front, back, before, ?_⟩
  rw [split]
  simp

theorem lined_empty {slot : Nat → Option Item} (empty : ∀ i < size, slot i = none)
    (inside : head < size) : lined size slot head = [] := by
  rw [lined, List.filterMap_eq_nil_iff]
  intro k member
  exact empty _ (place_lt inside (List.mem_range.mp member))

end Wanpipe.Circle
