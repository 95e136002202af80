import Mathlib.Data.List.Basic
import Mathlib.Data.List.Nodup
import Mathlib.Tactic.Common

/-! One round through a list that starts at any of its entries and goes on at the head after the
last one. -/

namespace Wanpipe.RoundRobin

variable {Id : Type} [DecidableEq Id]

def after (ids : List Id) (id : Id) : List Id := (ids.dropWhile (· ≠ id)).tail

def before (ids : List Id) (id : Id) : List Id := ids.takeWhile (· ≠ id)

/-- The entry that follows, or the first one behind the last. -/
def nextIn (ids : List Id) (id : Id) : Option Id := (after ids id).head?.or ids.head?

/-- The whole round that starts at `start`. -/
def turn (ids : List Id) (start : Id) : List Id := start :: (after ids start ++ before ids start)

/-- What is left of the round from `start` once it has come to `id`. -/
def todo (ids : List Id) (start id : Id) : List Id := after (turn ids start) id

theorem after_split {left : List Id} {id : Id} (right : List Id) (fresh : id ∉ left) :
    after (left ++ id :: right) id = right := by
  induction left with
  | nil => simp [after]
  | cons first left ih =>
      rw [List.mem_cons, not_or] at fresh
      have apart : first ≠ id := fun same => fresh.1 same.symm
      have rest := ih fresh.2
      simpa [after, apart] using rest

theorem before_split {left : List Id} {id : Id} (right : List Id) (fresh : id ∉ left) :
    before (left ++ id :: right) id = left := by
  induction left with
  | nil => simp [before]
  | cons first left ih =>
      rw [List.mem_cons, not_or] at fresh
      have apart : first ≠ id := fun same => fresh.1 same.symm
      have rest := ih fresh.2
      simpa [before, apart] using rest

theorem split_after {ids : List Id} {id : Id} (member : id ∈ ids) :
    ∃ left, id ∉ left ∧ ids = left ++ id :: after ids id := by
  obtain ⟨left, right, whole, fresh⟩ := List.eq_append_cons_of_mem member
  refine ⟨left, fresh, ?_⟩
  calc
    ids = left ++ id :: right := whole
    _ = left ++ id :: after ids id := by rw [whole, after_split right fresh]

theorem after_absent {ids : List Id} {id : Id} (absent : id ∉ ids) : after ids id = [] := by
  induction ids with
  | nil => rfl
  | cons first ids ih =>
      rw [List.mem_cons, not_or] at absent
      have apart : first ≠ id := fun same => absent.1 same.symm
      have rest := ih absent.2
      simpa [after, apart] using rest

theorem after_append (left right : List Id) (id : Id) :
    after (left ++ right) id = if id ∈ left then after left id ++ right else after right id := by
  by_cases member : id ∈ left
  · obtain ⟨front, fresh, whole⟩ := split_after member
    rw [if_pos member]
    calc
      after (left ++ right) id = after (front ++ id :: (after left id ++ right)) id := by
        nth_rewrite 1 [whole]
        rw [List.append_assoc, List.cons_append]
      _ = after left id ++ right := after_split _ fresh
  · rw [if_neg member]
    induction left with
    | nil => rfl
    | cons first left ih =>
        rw [List.mem_cons, not_or] at member
        have apart : first ≠ id := fun same => member.1 same.symm
        have rest := ih member.2
        simpa [after, apart] using rest

theorem after_next {ids rest : List Id} {id next : Id} (nodup : ids.Nodup)
    (found : after ids id = next :: rest) : after ids next = rest := by
  have member : id ∈ ids := by
    by_contra absent
    rw [after_absent absent] at found
    contradiction
  obtain ⟨left, _, whole⟩ := split_after member
  have longer : ids = (left ++ [id]) ++ next :: rest := by
    rw [List.append_assoc, List.singleton_append, ← found]
    exact whole
  rw [longer] at nodup ⊢
  apply after_split
  intro twice
  exact (List.nodup_append.mp nodup).2.2 next twice next List.mem_cons_self rfl

theorem after_sublist (ids : List Id) (id : Id) : (after ids id).Sublist ids :=
  (List.tail_sublist _).trans (List.dropWhile_sublist _)

theorem after_filter (ids : List Id) {id gone : Id} (apart : gone ≠ id) :
    after (ids.filter (· ≠ gone)) id = (after ids id).filter (· ≠ gone) := by
  by_cases member : id ∈ ids
  · obtain ⟨left, fresh, whole⟩ := split_after member
    have kept : decide (id ≠ gone) = true := decide_eq_true fun same => apart same.symm
    nth_rewrite 1 [whole]
    rw [List.filter_append, List.filter_cons, if_pos kept]
    apply after_split
    intro inside
    exact fresh (List.mem_of_mem_filter inside)
  · have absent : id ∉ ids.filter (· ≠ gone) := fun inside => member (List.mem_of_mem_filter inside)
    rw [after_absent member, after_absent absent, List.filter_nil]

theorem erase_filter {ids : List Id} (gone : Id) (nodup : ids.Nodup) :
    ids.erase gone = ids.filter (· ≠ gone) := by
  rw [nodup.erase_eq_filter gone]
  apply List.filter_congr
  intro id _
  by_cases same : id = gone <;> simp [same]

theorem before_filter (ids : List Id) {id gone : Id} (apart : gone ≠ id) :
    before (ids.filter (· ≠ gone)) id = (before ids id).filter (· ≠ gone) := by
  induction ids with
  | nil => rfl
  | cons first ids ih =>
      rw [before] at ih
      by_cases here : first = id
      · have kept : id ≠ gone := fun same => apart same.symm
        simp [before, here, kept]
      · by_cases leaves : first = gone
        · simpa [before, leaves, apart] using ih
        · simpa [before, leaves, here] using ih

/-- Where a round starts: it first takes what is behind the start. -/
theorem turn_split {ids : List Id} {start : Id} (member : start ∈ ids) :
    ∃ left right, ids = left ++ start :: right ∧ start ∉ left ∧
      turn ids start = (start :: right) ++ left := by
  obtain ⟨left, right, whole, fresh⟩ := List.eq_append_cons_of_mem member
  refine ⟨left, right, whole, fresh, ?_⟩
  rw [turn, whole, after_split right fresh, before_split right fresh, List.cons_append]

theorem turn_perm {ids : List Id} {start : Id} (member : start ∈ ids) :
    (turn ids start).Perm ids := by
  obtain ⟨left, right, whole, _, round⟩ := turn_split member
  rw [round, whole]
  exact List.perm_append_comm

theorem todo_start (ids : List Id) (start : Id) :
    todo ids start start = after ids start ++ before ids start := by
  have fresh : start ∉ ([] : List Id) := List.not_mem_nil
  exact after_split _ fresh

/-- Every entry but the first one is still to come when the round starts. -/
theorem mem_todo_start {ids : List Id} {start id : Id} (member : start ∈ ids) :
    id ∈ start :: todo ids start start ↔ id ∈ ids := by
  rw [todo_start]
  exact (turn_perm member).mem_iff

theorem todo_next {ids rest : List Id} {start id next : Id} (nodup : ids.Nodup)
    (member : start ∈ ids) (found : todo ids start id = next :: rest) :
    todo ids start next = rest :=
  after_next ((turn_perm member).nodup_iff.mpr nodup) found

/-- The round does not come back to its start. -/
theorem start_not_todo {ids : List Id} {start : Id} (id : Id) (nodup : ids.Nodup)
    (member : start ∈ ids) : start ∉ todo ids start id := by
  have apart := (turn_perm member).nodup_iff.mpr nodup
  rw [turn, List.nodup_cons] at apart
  intro back
  by_cases here : id = start
  · rw [here, todo_start] at back
    exact apart.1 back
  · have single : id ∉ [start] := fun same => here (List.mem_singleton.mp same)
    have rest : todo ids start id = after (after ids start ++ before ids start) id := by
      calc
        todo ids start id = after ([start] ++ (after ids start ++ before ids start)) id := rfl
        _ = after (after ids start ++ before ids start) id := by rw [after_append, if_neg single]
    rw [rest] at back
    exact apart.1 ((after_sublist _ _).subset back)

theorem todo_subset {ids : List Id} {start id other : Id} (member : start ∈ ids)
    (coming : other ∈ todo ids start id) : other ∈ ids :=
  (turn_perm member).mem_iff.mp ((after_sublist _ _).subset coming)

theorem todo_length {ids : List Id} {start : Id} (id : Id) (member : start ∈ ids) :
    (todo ids start id).length < ids.length := by
  by_cases inside : id ∈ turn ids start
  · obtain ⟨left, _, whole⟩ := split_after inside
    have size := congrArg List.length whole
    rw [(turn_perm member).length_eq, List.length_append, List.length_cons] at size
    rw [todo]
    omega
  · rw [todo, after_absent inside]
    exact List.length_pos_of_mem member

/-- The walk through the list takes the entries of the round in their order. -/
theorem nextIn_todo {ids : List Id} {start id : Id} (nodup : ids.Nodup) (member : start ∈ ids)
    (inside : id ∈ ids) : nextIn ids id = some ((todo ids start id).headD start) := by
  obtain ⟨left, right, whole, fresh, round⟩ := turn_split member
  by_cases behind : id ∈ start :: right
  · have early : id ∉ left := by
      intro twice
      rw [whole] at nodup
      exact (List.nodup_append.mp nodup).2.2 id twice id behind rfl
    have rest : after ids id = after (start :: right) id := by
      rw [whole, after_append, if_neg early]
    have coming : todo ids start id = after (start :: right) id ++ left := by
      rw [todo, round, after_append, if_pos behind]
    rw [nextIn, rest, coming, whole]
    cases after (start :: right) id with
    | cons next later => rfl
    | nil =>
        cases left with
        | nil => rfl
        | cons first left => rfl
  · have early : id ∈ left := by
      rw [whole, List.mem_append] at inside
      exact inside.resolve_right behind
    have rest : after ids id = after left id ++ start :: right := by
      rw [whole, after_append, if_pos early]
    have coming : todo ids start id = after left id := by
      rw [todo, round, after_append, if_neg behind]
    rw [nextIn, rest, coming]
    cases after left id with
    | cons next later => rfl
    | nil => rfl

/-- An entry put at the head comes once more at most, and nothing is left out for it. -/
theorem todo_insert {ids : List Id} {start id new : Id} (member : start ∈ ids)
    (fresh : new ∉ ids) (inside : id ∈ ids) :
    (todo ids start id).Sublist (todo (new :: ids) start id) ∧
      (todo (new :: ids) start id).length ≤ (todo ids start id).length + 1 := by
  obtain ⟨left, right, whole, early, round⟩ := turn_split member
  have other : start ∉ new :: left := by
    intro same
    rcases List.mem_cons.mp same with head | tail
    · exact fresh (head ▸ member)
    · exact early tail
  have regroup : new :: ids = (new :: left) ++ start :: right := by
    rw [whole, List.cons_append]
  have longer : turn (new :: ids) start = (start :: right) ++ new :: left := by
    rw [turn, regroup, after_split right other, before_split right other, List.cons_append]
  rw [todo, todo, round, longer, after_append, after_append]
  by_cases behind : id ∈ start :: right
  · rw [if_pos behind, if_pos behind]
    constructor
    · exact (List.Sublist.refl _).append (List.sublist_cons_self new left)
    · simp only [List.length_append, List.length_cons]
      omega
  · rw [if_neg behind, if_neg behind]
    have apart : id ∉ [new] := by
      intro same
      exact fresh (List.mem_singleton.mp same ▸ inside)
    have same : after (new :: left) id = after left id := by
      calc
        after (new :: left) id = after ([new] ++ left) id := rfl
        _ = after left id := by rw [after_append, if_neg apart]
    rw [same]
    exact ⟨List.Sublist.refl _, Nat.le_succ _⟩

theorem todo_filter {ids : List Id} {start id gone : Id} (apart : gone ≠ start)
    (other : gone ≠ id) :
    todo (ids.filter (· ≠ gone)) start id = (todo ids start id).filter (· ≠ gone) := by
  have kept : decide (start ≠ gone) = true := decide_eq_true fun same => apart same.symm
  have round : turn (ids.filter (· ≠ gone)) start = (turn ids start).filter (· ≠ gone) := by
    rw [turn, turn, List.filter_cons, if_pos kept, List.filter_append, after_filter ids apart,
      before_filter ids apart]
  rw [todo, round, after_filter _ other, todo]

end Wanpipe.RoundRobin
