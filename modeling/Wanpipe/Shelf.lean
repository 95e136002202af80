import Mathlib.Data.List.Perm.Basic
import Mathlib.Data.List.Sublists

/-! The owner of frames that are sent once in order, or sent again while nothing else waits. Every
frame it took is in one place until it is freed. -/

namespace Wanpipe

inductive Entry (Frame : Type)
  | took (frame : Frame) (again : Option Frame)
  | sent (frame : Frame)
  | repeated (frame : Frame)
  | idle
  deriving DecidableEq, Repr

structure Shelf (Frame : Type) where
  waiting : List Frame
  again : List Frame
  discarded : List Frame
  freed : List Frame
  entries : List (Entry Frame)
  deriving DecidableEq, Repr

namespace Entry

variable {Frame : Type}

/-- The frames taken with an entry. -/
@[simp] def frames : Entry Frame → List Frame
  | took frame again => frame :: again.toList
  | sent _ => []
  | repeated _ => []
  | idle => []

@[simp] def once : Entry Frame → Option Frame
  | took frame _ => some frame
  | sent _ => none
  | repeated _ => none
  | idle => none

@[simp] def send : Entry Frame → Option Frame
  | took _ _ => none
  | sent frame => some frame
  | repeated _ => none
  | idle => none

@[simp] def renewal : Entry Frame → Option Frame
  | took _ again => again
  | sent _ => none
  | repeated _ => none
  | idle => none

end Entry

namespace Shelf

variable {Frame Other : Type}

def empty : Shelf Frame := ⟨[], [], [], [], []⟩

def take (shelf : Shelf Frame) (frame : Frame) (again : Option Frame) : Shelf Frame :=
  { shelf with
    waiting := shelf.waiting ++ [frame]
    again := shelf.again ++ again.toList
    entries := shelf.entries ++ [.took frame again] }

/-- The next frame that waits goes out; else the newest one to repeat, with the older ones
discarded; else nothing. -/
def send (shelf : Shelf Frame) : Shelf Frame :=
  match shelf.waiting with
  | frame :: waiting =>
      { shelf with
        waiting := waiting
        discarded := shelf.discarded ++ [frame]
        entries := shelf.entries ++ [.sent frame] }
  | [] =>
      match shelf.again.getLast? with
      | some frame =>
          { shelf with
            again := [frame]
            discarded := shelf.discarded ++ shelf.again.dropLast
            entries := shelf.entries ++ [.repeated frame] }
      | none => { shelf with entries := shelf.entries ++ [.idle] }

def free (shelf : Shelf Frame) (n : Nat) : Shelf Frame :=
  { shelf with
    discarded := shelf.discarded.drop n
    freed := shelf.freed ++ shelf.discarded.take n }

/-- Every place a frame can be in. -/
def places (shelf : Shelf Frame) : List Frame :=
  shelf.waiting ++ (shelf.again ++ (shelf.discarded ++ shelf.freed))

/-- Every repeat is of the newest frame to repeat, and nothing waits then. -/
def Orderly (entries : List (Entry Frame)) : Prop :=
  ∀ before frame after, entries = before ++ Entry.repeated frame :: after →
    (before.filterMap Entry.renewal).getLast? = some frame ∧
      before.filterMap Entry.once = before.filterMap Entry.send

structure Kept (shelf : Shelf Frame) : Prop where
  places : shelf.places.Perm (shelf.entries.flatMap Entry.frames)
  once : shelf.entries.filterMap Entry.once =
    shelf.entries.filterMap Entry.send ++ shelf.waiting
  newest : shelf.again.getLast? = (shelf.entries.filterMap Entry.renewal).getLast?
  orderly : Orderly shelf.entries

theorem kept_empty : Kept (empty : Shelf Frame) := by
  refine ⟨List.Perm.refl _, rfl, rfl, ?_⟩
  intro before frame after split
  have size := congrArg List.length split
  simp [empty] at size

/-- One more entry: only a repeat has something to show. -/
theorem Orderly.append {entries : List (Entry Frame)} {entry : Entry Frame}
    (orderly : Orderly entries)
    (last : ∀ frame, entry = .repeated frame →
      (entries.filterMap Entry.renewal).getLast? = some frame ∧
        entries.filterMap Entry.once = entries.filterMap Entry.send) :
    Orderly (entries ++ [entry]) := by
  intro before frame after split
  rcases List.eq_nil_or_concat after with rfl | ⟨rest, final, rfl⟩
  · have ends := List.append_inj' split rfl
    rw [← ends.1]
    exact last frame (List.singleton_inj.mp ends.2)
  · have regroup : before ++ Entry.repeated frame :: (rest ++ [final]) =
        (before ++ Entry.repeated frame :: rest) ++ [final] := by simp
    rw [List.concat_eq_append, regroup] at split
    exact orderly before frame rest (List.append_inj' split rfl).1

theorem take_kept {shelf : Shelf Frame} (kept : Kept shelf) (frame : Frame)
    (again : Option Frame) : Kept (shelf.take frame again) := by
  refine ⟨?_, ?_, ?_, ?_⟩
  · have grown : (shelf.take frame again).places.Perm
        (shelf.places ++ (frame :: again.toList)) := by
      classical
      rw [List.perm_iff_count]
      intro other
      simp only [take, places, List.count_append, List.count_cons, List.count_nil]
      omega
    simp only [take, List.flatMap_append, List.flatMap_singleton, Entry.frames]
    exact grown.trans (kept.places.append_right _)
  · have before := kept.once
    simp only [take, List.filterMap_append, before]
    simp
  · simp only [take, List.filterMap_append]
    cases again with
    | none => simpa using kept.newest
    | some frame => simp
  · exact kept.orderly.append (by simp)

theorem send_kept {shelf : Shelf Frame} (kept : Kept shelf) : Kept shelf.send := by
  have once := kept.once
  unfold send
  split
  · rename_i frame waiting queue
    refine ⟨?_, ?_, ?_, kept.orderly.append (by simp)⟩
    · have moved := kept.places
      simp only [places, queue, List.flatMap_append, List.flatMap_singleton, Entry.frames,
        List.append_nil] at moved ⊢
      refine List.Perm.trans ?_ moved
      classical
      rw [List.perm_iff_count]
      intro other
      simp only [List.count_append, List.count_cons, List.count_nil]
      omega
    · simp only [List.filterMap_append, once, queue]
      simp
    · simpa using kept.newest
  · rename_i queue
    have all : shelf.entries.filterMap Entry.once = shelf.entries.filterMap Entry.send := by
      rw [once, queue, List.append_nil]
    split
    · rename_i frame last
      have whole : shelf.again.dropLast ++ [frame] = shelf.again := by
        have some_ : shelf.again ≠ [] := by
          intro none_
          simp [none_] at last
        rw [List.getLast?_eq_some_getLast some_, Option.some.injEq] at last
        rw [← last, List.dropLast_append_getLast]
      refine ⟨?_, ?_, ?_, ?_⟩
      · have moved := kept.places
        simp only [places, queue, List.flatMap_append, List.flatMap_singleton, Entry.frames,
          List.append_nil, List.nil_append] at moved ⊢
        refine List.Perm.trans ?_ moved
        classical
        rw [List.perm_iff_count]
        intro other
        have count := congrArg (List.count other) whole
        simp only [List.count_append] at count ⊢
        omega
      · simp only [List.filterMap_append, once, queue]
        simp [List.filterMap_cons]
      · have newest := kept.newest
        rw [last] at newest
        simpa using newest
      · refine kept.orderly.append ?_
        intro other same
        rw [Entry.repeated.injEq] at same
        rw [← same, ← kept.newest]
        exact ⟨last, all⟩
    · refine ⟨?_, ?_, ?_, kept.orderly.append (by simp)⟩
      · simpa [places] using kept.places
      · simpa [List.filterMap_cons] using once
      · simpa using kept.newest

theorem free_kept {shelf : Shelf Frame} (kept : Kept shelf) (n : Nat) : Kept (shelf.free n) := by
  refine ⟨?_, kept.once, kept.newest, kept.orderly⟩
  refine List.Perm.trans ?_ kept.places
  classical
  rw [List.perm_iff_count]
  intro other
  have count := congrArg (List.count other) (List.take_append_drop n shelf.discarded)
  simp only [free, places, List.count_append] at count ⊢
  omega

end Shelf

end Wanpipe
