import Mathlib.Data.List.Basic
import Mathlib.Tactic.Common

/-! A bounded queue of messages: what is offered while there is room is read once and in order,
unless the queue is flushed first, and what finds no room is counted. -/

namespace Wanpipe

structure Mailbox (Message : Type) where
  free : Nat
  pending : List Message
  /-- What found room, in order, less what a flush threw away unread. -/
  kept : List Message
  read : List Message
  lost : Nat

namespace Mailbox

variable {Message : Type}

def fresh (free : Nat) (pending : List Message) (lost : Nat) : Mailbox Message :=
  { free := free, pending := pending, kept := pending, read := [], lost := lost }

def push (box : Mailbox Message) (message : Message) : Mailbox Message :=
  { box with
    free := box.free - 1
    pending := box.pending ++ [message]
    kept := box.kept ++ [message] }

def lose (box : Mailbox Message) : Mailbox Message := { box with lost := box.lost + 1 }

def offer (box : Mailbox Message) (message : Message) : Mailbox Message :=
  if box.free = 0 then box.lose else box.push message

def take (box : Mailbox Message) : Mailbox Message :=
  match box.pending with
  | [] => box
  | message :: messages =>
      { box with free := box.free + 1, pending := messages, read := box.read ++ [message] }

def flush (box : Mailbox Message) : Mailbox Message :=
  { box with
    free := box.free + box.pending.length
    pending := []
    kept := box.kept.take (box.kept.length - box.pending.length) }

def size (box : Mailbox Message) : Nat := box.free + box.pending.length

/-- Every message that was kept has been read, once and in order, or waits. -/
def InOrder (box : Mailbox Message) : Prop := box.kept = box.read ++ box.pending

theorem fresh_inOrder (free : Nat) (pending : List Message) (lost : Nat) :
    (fresh free pending lost).InOrder := rfl

theorem offer_inOrder {box : Mailbox Message} (inOrder : box.InOrder) (message : Message) :
    (box.offer message).InOrder := by
  rw [offer]
  split
  · exact inOrder
  · rw [InOrder, push, inOrder, List.append_assoc]

theorem offer_size (box : Mailbox Message) (message : Message) :
    (box.offer message).size = box.size := by
  rw [offer]
  split
  · rfl
  · simp only [size, push, List.length_append, List.length_singleton]
    omega

theorem take_inOrder {box : Mailbox Message} (inOrder : box.InOrder) : box.take.InOrder := by
  rw [take]
  split
  · exact inOrder
  · next message messages waiting =>
      rw [InOrder] at inOrder
      simp [InOrder, inOrder, waiting]

theorem take_size (box : Mailbox Message) : box.take.size = box.size := by
  rw [take]
  split
  · rfl
  · next message messages waiting =>
      simp only [size, waiting, List.length_cons]
      omega

theorem flush_inOrder {box : Mailbox Message} (inOrder : box.InOrder) : box.flush.InOrder := by
  rw [InOrder] at inOrder
  simp [InOrder, flush, inOrder]

theorem flush_size (box : Mailbox Message) : box.flush.size = box.size := by
  simp [size, flush]

/-- What every operation keeps. -/
structure Sound (buffers : Nat) (box : Mailbox Message) : Prop where
  inOrder : box.InOrder
  size : box.size = buffers

variable {buffers : Nat} {box : Mailbox Message}

theorem fresh_sound (free : Nat) (pending : List Message) (lost : Nat) :
    (fresh free pending lost).Sound (free + pending.length) := ⟨rfl, rfl⟩

theorem Sound.offer (sound : box.Sound buffers) (message : Message) :
    (box.offer message).Sound buffers :=
  ⟨offer_inOrder sound.inOrder message, (offer_size box message).trans sound.size⟩

theorem Sound.take (sound : box.Sound buffers) : box.take.Sound buffers :=
  ⟨take_inOrder sound.inOrder, (take_size box).trans sound.size⟩

theorem Sound.flush (sound : box.Sound buffers) : box.flush.Sound buffers :=
  ⟨flush_inOrder sound.inOrder, (flush_size box).trans sound.size⟩

end Mailbox

end Wanpipe
