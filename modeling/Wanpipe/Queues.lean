import Mathlib.Data.List.Perm.Basic

/-! Buffers that go between two queues, the free ones and those in use. -/

namespace Wanpipe

structure Queues (Item : Type) where
  free : List Item
  busy : List Item

namespace Queues

variable {Item : Type}

/-- The first free ones come into use, behind the others. -/
def take (queues : Queues Item) (count : Nat) : Queues Item where
  free := queues.free.drop count
  busy := queues.busy ++ queues.free.take count

/-- The first that came into use are free again. -/
def give (queues : Queues Item) (count : Nat) : Queues Item where
  free := queues.free ++ queues.busy.take count
  busy := queues.busy.drop count

/-- The first that came into use are on neither queue. -/
def lose (queues : Queues Item) (count : Nat) : Queues Item where
  free := queues.free
  busy := queues.busy.drop count

/-- Each of them is on one of the queues, once. -/
def Whole (all : List Item) (queues : Queues Item) : Prop := (queues.free ++ queues.busy).Perm all

variable {all : List Item} {queues : Queues Item}

theorem Whole.take (whole : Whole all queues) (count : Nat) : Whole all (queues.take count) := by
  have moved : (queues.free.drop count ++ (queues.busy ++ queues.free.take count)).Perm
      (queues.free ++ queues.busy) := by
    rw [← List.append_assoc]
    apply List.perm_append_comm.trans
    rw [← List.append_assoc, List.take_append_drop]
  exact moved.trans whole

theorem Whole.give (whole : Whole all queues) (count : Nat) : Whole all (queues.give count) := by
  have moved : (queues.free ++ queues.busy.take count ++ queues.busy.drop count).Perm
      (queues.free ++ queues.busy) := by
    rw [List.append_assoc, List.take_append_drop]
  exact moved.trans whole

/-- What is lost is missing. -/
theorem Whole.not_lose (whole : Whole all queues) (some : queues.busy ≠ []) :
    ¬ Whole all (queues.lose 1) := by
  intro missing
  have before := whole.length_eq
  have after := missing.length_eq
  have many := List.length_pos_iff.mpr some
  rw [List.length_append] at before after
  change queues.free.length + (queues.busy.drop 1).length = all.length at after
  rw [List.length_drop] at after
  omega

end Queues

end Wanpipe
