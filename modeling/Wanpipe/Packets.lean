import Mathlib.Data.List.Basic
import Mathlib.Tactic.Common

/-! A stream of chunks cut into packets of as many chunks each. A chunk that is lost takes the
packet that was being filled with it. -/

namespace Wanpipe

/-- A chunk as it arrives. -/
structure Arrival (Item : Type) where
  data : List Item
  lost : Bool

/-- A packet and the chunks that are missing before it. -/
structure Packet (Item : Type) where
  gap : List (Arrival Item)
  body : List (Arrival Item)

variable {Item : Type}

def bytes (arrivals : List (Arrival Item)) : List Item := arrivals.flatMap Arrival.data

def Packet.payload (packet : Packet Item) : List Item := bytes packet.body

/-- Chunks are missing only where one was lost. -/
def Excused (gap : List (Arrival Item)) : Prop := gap = [] ∨ ∃ arrival ∈ gap, arrival.lost = true

/-- What was heard is cut into packets of `count` chunks, with `part` at its end. -/
structure Cut (count : Nat) (heard : List (Arrival Item)) (packets : List (Packet Item))
    (gap part : List (Arrival Item)) : Prop where
  heard : heard = packets.flatMap (fun packet => packet.gap ++ packet.body) ++ (gap ++ part)
  gaps : ∀ packet ∈ packets, Excused packet.gap
  gap : Excused gap
  whole : ∀ packet ∈ packets, packet.body.length = count
  part : part.length < count

namespace Cut

variable {count : Nat} {heard gap part : List (Arrival Item)} {packets : List (Packet Item)}

theorem start (some : 0 < count) : Cut count ([] : List (Arrival Item)) [] [] [] where
  heard := rfl
  gaps := by simp
  gap := .inl rfl
  whole := by simp
  part := some

theorem keep (cut : Cut count heard packets gap part) (arrival : Arrival Item)
    (more : part.length + 1 < count) :
    Cut count (heard ++ [arrival]) packets gap (part ++ [arrival]) where
  heard := by rw [cut.heard, List.append_assoc, List.append_assoc]
  gaps := cut.gaps
  gap := cut.gap
  whole := cut.whole
  part := by rwa [List.length_append, List.length_singleton]

theorem close (cut : Cut count heard packets gap part) (arrival : Arrival Item)
    (last : part.length + 1 = count) :
    Cut count (heard ++ [arrival]) (packets ++ [⟨gap, part ++ [arrival]⟩]) [] [] where
  heard := by simp [cut.heard]
  gaps := by
    intro packet member
    rcases List.mem_append.mp member with old | new
    · exact cut.gaps packet old
    · rw [List.mem_singleton.mp new]
      exact cut.gap
  gap := .inl rfl
  whole := by
    intro packet member
    rcases List.mem_append.mp member with old | new
    · exact cut.whole packet old
    · rw [List.mem_singleton.mp new, List.length_append, List.length_singleton, last]
  part := by
    rw [List.length_nil]
    omega

theorem lose (cut : Cut count heard packets gap part) {arrival : Arrival Item}
    (lost : arrival.lost = true) :
    Cut count (heard ++ [arrival]) packets (gap ++ part ++ [arrival]) [] where
  heard := by simp [cut.heard]
  gaps := cut.gaps
  gap := .inr ⟨arrival, by simp, lost⟩
  whole := cut.whole
  part := Nat.lt_of_le_of_lt (Nat.zero_le part.length) cut.part

end Cut

theorem bytes_append (left right : List (Arrival Item)) :
    bytes (left ++ right) = bytes left ++ bytes right :=
  List.flatMap_append

theorem bytes_length {arrivals : List (Arrival Item)} {len : Nat}
    (even : ∀ arrival ∈ arrivals, arrival.data.length = len) :
    (bytes arrivals).length = arrivals.length * len := by
  induction arrivals with
  | nil => simp [bytes]
  | cons arrival arrivals ih =>
      have first := even arrival List.mem_cons_self
      have rest := ih fun later member => even later (List.mem_cons_of_mem arrival member)
      rw [bytes] at rest
      simp only [bytes, List.flatMap_cons, List.length_append, List.length_cons, first, rest]
      rw [Nat.add_mul, Nat.one_mul, Nat.add_comm]

end Wanpipe
