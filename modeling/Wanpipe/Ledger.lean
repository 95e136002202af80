import Mathlib.Data.List.Perm.Basic
import Mathlib.Data.List.Sublists

/-! The history of a queue: what it took at its end, what left it from its head, and what was
thrown away with all it held. -/

namespace Wanpipe

inductive Mark (Item : Type)
  | took (item : Item)
  | sent (item : Item)
  | purged (items : List Item)
  deriving DecidableEq, Repr

variable {Item Key : Type}

namespace Mark

@[simp] def taken : Mark Item → Option Item
  | took item => some item
  | sent _ => none
  | purged _ => none

@[simp] def handed : Mark Item → Option Item
  | took _ => none
  | sent item => some item
  | purged _ => none

@[simp] def thrown : Mark Item → List Item
  | took _ => []
  | sent _ => []
  | purged items => items

@[simp] def isPurge : Mark Item → Bool
  | took _ => false
  | sent _ => false
  | purged _ => true

end Mark

/-- A queue that starts empty holds `queue` after these marks. -/
inductive Tally : List (Mark Item) → List Item → Prop
  | empty : Tally [] []
  | took {marks : List (Mark Item)} {queue : List Item} (tally : Tally marks queue)
      (item : Item) : Tally (marks ++ [.took item]) (queue ++ [item])
  | sent {marks : List (Mark Item)} {queue : List Item} {item : Item}
      (tally : Tally marks (item :: queue)) : Tally (marks ++ [.sent item]) queue
  | purged {marks : List (Mark Item)} {queue : List Item} (tally : Tally marks queue) :
      Tally (marks ++ [.purged queue]) []

namespace Tally

variable {marks : List (Mark Item)} {queue : List Item}

/-- What was handed on and what still waits is in the order in which it was taken. -/
theorem order (tally : Tally marks queue) :
    (marks.filterMap Mark.handed ++ queue).Sublist (marks.filterMap Mark.taken) := by
  induction tally with
  | empty => exact List.Sublist.refl []
  | took _ item ih =>
      have more := ih.append (List.Sublist.refl [item])
      simpa [List.append_assoc, List.filterMap_cons] using more
  | sent _ ih => simpa [List.filterMap_cons] using ih
  | @purged marks queue _ ih =>
      have less := (List.sublist_append_left (marks.filterMap Mark.handed) queue).trans ih
      simpa [List.filterMap_cons] using less

/-- Everything taken was handed on, waits or was thrown away, once. -/
theorem conserved (tally : Tally marks queue) :
    (marks.filterMap Mark.handed ++ (queue ++ marks.flatMap Mark.thrown)).Perm
      (marks.filterMap Mark.taken) := by
  classical
  rw [List.perm_iff_count]
  intro other
  induction tally with
  | empty => rfl
  | took _ _ ih | sent _ ih | purged _ ih =>
      simp only [List.filterMap_append, List.filterMap_cons, List.filterMap_nil, Mark.handed,
        Mark.taken, Mark.thrown, List.flatMap_append, List.flatMap_cons, List.flatMap_nil,
        List.append_nil, List.count_append, List.count_cons, List.count_nil] at ih ⊢
      omega

end Tally

section Keyed

variable [DecidableEq Key]

/-- The marks of one of the queues. -/
def entriesOf (history : List (Key × Mark Item)) (key : Key) : List (Mark Item) :=
  history.filterMap fun entry => if entry.1 = key then some entry.2 else none

theorem entriesOf_mark (history : List (Key × Mark Item)) (key : Key) (mark : Mark Item) :
    entriesOf (history ++ [(key, mark)]) key = entriesOf history key ++ [mark] := by
  simp [entriesOf]

theorem entriesOf_other (history : List (Key × Mark Item)) {key other : Key} (mark : Mark Item)
    (different : other ≠ key) :
    entriesOf (history ++ [(key, mark)]) other = entriesOf history other := by
  have apart : ¬key = other := fun same => different same.symm
  simp [entriesOf, apart]

def Tallied (history : List (Key × Mark Item)) (queues : Key → List Item) : Prop :=
  ∀ key, Tally (entriesOf history key) (queues key)

namespace Tallied

variable {history : List (Key × Mark Item)} {queues next : Key → List Item} {key : Key}

theorem start {queues : Key → List Item} (empty : ∀ key, queues key = []) :
    Tallied [] queues := by
  intro key
  rw [empty key]
  exact .empty

theorem mark {mark : Mark Item} (balanced : Tallied history queues)
    (here : Tally (entriesOf history key ++ [mark]) (next key))
    (others : ∀ other, other ≠ key → next other = queues other) :
    Tallied (history ++ [(key, mark)]) next := by
  intro other
  by_cases same : other = key
  · rw [same, entriesOf_mark]
    exact here
  · rw [entriesOf_other history mark same, others other same]
    exact balanced other

theorem take {item : Item} (balanced : Tallied history queues) (key : Key)
    (here : next key = queues key ++ [item])
    (others : ∀ other, other ≠ key → next other = queues other) :
    Tallied (history ++ [(key, .took item)]) next := by
  refine balanced.mark ?_ others
  rw [here]
  exact (balanced key).took item

theorem send {item : Item} (balanced : Tallied history queues) (key : Key)
    (here : queues key = item :: next key)
    (others : ∀ other, other ≠ key → next other = queues other) :
    Tallied (history ++ [(key, .sent item)]) next := by
  refine balanced.mark ?_ others
  have tally := balanced key
  rw [here] at tally
  exact tally.sent

theorem purge (balanced : Tallied history queues) (key : Key) (here : next key = [])
    (others : ∀ other, other ≠ key → next other = queues other) :
    Tallied (history ++ [(key, .purged (queues key))]) next := by
  refine balanced.mark ?_ others
  rw [here]
  exact (balanced key).purged

end Tallied

end Keyed

end Wanpipe
