import Wanpipe.Utils.DebugWrite

/-! The loop of a read of the debug log walks over whole messages. -/

namespace Wanpipe.Utils.DebugLog

open Line Store Words

/-- The loop walks over these messages and copies them behind what is in the buffer. -/
structure Copies (reader next : Reader) (messages : List Message) : Prop where
  nextOffset : next.nextOffset = reader.nextOffset + (octets messages).length
  offset : next.offset = reader.offset + (octets messages).length
  num : next.num = reader.num + messages.length
  refused : next.refused = reader.refused
  buffer : load next.buffer 0 next.offset = load reader.buffer 0 reader.offset ++ octets messages

variable {log : Log} {reader next last : Reader} {message : Message} {waiting left right : List Message}

theorem Copies.append (first : Copies reader next left) (second : Copies next last right) :
    Copies reader last (left ++ right) where
  nextOffset := by
    rw [second.nextOffset, first.nextOffset, octets_append, List.length_append, Nat.add_assoc]
  offset := by rw [second.offset, first.offset, octets_append, List.length_append, Nat.add_assoc]
  num := by rw [second.num, first.num, List.length_append, Nat.add_assoc]
  refused := second.refused.trans first.refused
  buffer := by rw [second.buffer, first.buffer, octets_append, List.append_assoc]

/-- A message of the memory at the place of the reader. -/
structure Stands (log : Log) (reader : Reader) (message : Message) : Prop where
  short : message.text.length ≤ memorySize
  whole : load log.memory reader.nextOffset message.octets.length = message.octets
  inside : reader.nextOffset + message.octets.length ≤ memorySize
  small : reader.offset + message.octets.length ≤ memorySize

theorem Stands.hdr (stands : Stands log reader message) :
    load log.memory reader.nextOffset hdrSize = hdrOctets message ∧
      load log.memory (reader.nextOffset + hdrSize) message.text.length = message.text := by
  have parts := stands.whole
  rw [message.octets_length, load_append, Message.octets] at parts
  exact List.append_inj parts (by rw [load_length, hdrOctets_length])

theorem Stands.peekHdr (stands : Stands log reader message) :
    peekHdr log reader =
      { reader with buffer := store reader.buffer reader.offset (hdrOctets message) } := by
  have inside : ¬ memorySize < reader.nextOffset + hdrSize := by
    have all := stands.inside
    rw [message.octets_length] at all
    omega
  rw [DebugLog.peekHdr, peek, if_neg inside, stands.hdr.1]

theorem Stands.dbgLen (stands : Stands log reader message) :
    dbgLen (DebugLog.peekHdr log reader) = msgLen message.text := by
  have parts := load_store reader.buffer reader.offset (hdrOctets message)
  have len : (msgLen message.text).toNat < limit 4 := (msgLen message.text).isLt
  rw [hdrOctets_length] at parts
  change load _ _ (4 + 12) = _ at parts
  rw [load_append, hdrOctets] at parts
  have four := (List.append_inj parts (by rw [load_length, wordOctets_length])).1
  rw [stands.peekHdr]
  change BitVec.ofNat 32 (wordValue (load (store reader.buffer reader.offset (hdrOctets message))
    reader.offset 4)) = _
  rw [hdrOctets, four, wordValue_wordOctets len, BitVec.ofNat_toNat, BitVec.setWidth_eq]

theorem Stands.sum (stands : Stands log reader message) {base : Nat}
    (small : base + message.octets.length ≤ memorySize) :
    ulong (base + hdrSize + (DebugLog.dbgLen (DebugLog.peekHdr log reader)).toInt) =
      base + message.octets.length := by
  rw [message.octets_length] at small ⊢
  rw [stands.dbgLen, msgLen_toInt stands.short, ← Int.natCast_add, ← Int.natCast_add,
    ulong_small (by omega), Nat.add_assoc]

theorem Stands.fits (stands : Stands log reader message) (maxLen : Nat) :
    fits (DebugLog.peekHdr log reader) maxLen =
      decide (reader.offset + message.octets.length < maxLen) := by
  have place : (DebugLog.peekHdr log reader).offset = reader.offset := by rw [stands.peekHdr]
  rw [DebugLog.fits, place, stands.sum stands.small]

theorem Stands.takeMessage (stands : Stands log reader message) :
    Copies reader (takeMessage log (DebugLog.peekHdr log reader)) [message] := by
  have all := stands.inside
  have some := stands.sum stands.inside
  have room := stands.sum stands.small
  rw [message.octets_length] at all
  have text : (msgLen message.text).toNat = message.text.length := msgLen_toNat stands.short
  have inside : ¬ memorySize < reader.nextOffset + hdrSize + message.text.length := by omega
  have len := stands.dbgLen
  rw [stands.peekHdr] at len some room ⊢
  have taken : DebugLog.takeMessage log
      { reader with buffer := store reader.buffer reader.offset (hdrOctets message) } =
      ⟨reader.nextOffset + message.octets.length, reader.offset + message.octets.length,
        store (store reader.buffer reader.offset (hdrOctets message)) (reader.offset + hdrSize)
          message.text, reader.num + 1, reader.refused⟩ := by
    unfold DebugLog.takeMessage
    dsimp only
    rw [some, room, len, text, peek, if_neg inside, stands.hdr.2]
  have one : octets [message] = message.octets := by
    rw [octets_cons, octets_nil, List.append_nil]
  have hdr := load_store_append reader.buffer 0 reader.offset (hdrOctets message)
  have both := load_store_append (store reader.buffer reader.offset (hdrOctets message)) 0
    (reader.offset + hdrSize) message.text
  rw [hdrOctets_length] at hdr
  rw [Nat.zero_add] at hdr both
  rw [taken]
  refine ⟨?_, ?_, rfl, rfl, ?_⟩
  · rw [one]
  · rw [one]
  · dsimp only
    rw [one, message.octets_length, ← Nat.add_assoc, both, hdr, List.append_assoc,
      Message.octets]

theorem Copies.peekHdr (reader : Reader) (message : Message) (stands : Stands log reader message) :
    Copies reader (peekHdr log reader) [] := by
  rw [stands.peekHdr]
  refine ⟨rfl, rfl, rfl, rfl, ?_⟩
  dsimp only
  rw [load_store_apart (Or.inl (by omega)), octets_nil, List.append_nil]

/-- How many of the messages are below the limit. -/
def fitting (maxLen : Nat) : Nat → List Message → Nat
  | _, [] => 0
  | offset, message :: messages =>
      if offset + message.octets.length < maxLen then
        fitting maxLen (offset + message.octets.length) messages + 1
      else 0

/-- A header is read to outside of the buffer, behind the messages that fit. -/
def Overruns (maxLen offset : Nat) (waiting : List Message) : Prop :=
  fitting maxLen offset waiting < waiting.length ∧
    maxLen < offset + (octets (waiting.take (fitting maxLen offset waiting))).length + hdrSize

theorem fitting_le (maxLen offset : Nat) (waiting : List Message) :
    fitting maxLen offset waiting ≤ waiting.length := by
  induction waiting generalizing offset with
  | nil => exact Nat.le_refl _
  | cons message waiting ih =>
      rw [fitting, List.length_cons]
      split
      · exact Nat.succ_le_succ (ih _)
      · exact Nat.zero_le _

/-- What fits is below the limit. -/
theorem fitting_below {maxLen offset : Nat} {waiting : List Message}
    (some : 0 < fitting maxLen offset waiting) :
    offset + (octets (waiting.take (fitting maxLen offset waiting))).length < maxLen := by
  induction waiting generalizing offset with
  | nil => exact absurd some (Nat.lt_irrefl 0)
  | cons message waiting ih =>
      by_cases fit : offset + message.octets.length < maxLen
      · rw [fitting, if_pos fit, List.take_succ_cons, octets_cons, List.length_append,
          ← Nat.add_assoc]
        rcases Nat.eq_zero_or_pos (fitting maxLen (offset + message.octets.length) waiting) with
          none | more
        · rw [none, List.take_zero, octets_nil, List.length_nil, Nat.add_zero]
          exact fit
        · exact ih more
      · rw [fitting, if_neg fit] at some
        exact absurd some (Nat.lt_irrefl 0)

theorem fitting_all {maxLen offset : Nat} {waiting : List Message}
    (all : offset + (octets waiting).length < maxLen) :
    fitting maxLen offset waiting = waiting.length := by
  induction waiting generalizing offset with
  | nil => rfl
  | cons message waiting ih =>
      rw [octets_cons, List.length_append, ← Nat.add_assoc] at all
      rw [fitting, if_pos (by omega), ih all, List.length_cons]

/-- The messages stand one behind another in the memory, from the place of the reader to the end of
what is stored. -/
structure Ahead (log : Log) (totalLen : Nat) (reader : Reader) (waiting : List Message) : Prop where
  short : ∀ message ∈ waiting, Short message
  whole : load log.memory reader.nextOffset (octets waiting).length = octets waiting
  ends : reader.nextOffset + (octets waiting).length = infoSize + totalLen
  inside : infoSize + totalLen ≤ memorySize
  small : reader.offset + (octets waiting).length ≤ memorySize

variable {totalLen maxLen : Nat}

theorem Ahead.stands (ahead : Ahead log totalLen reader (message :: waiting)) :
    Stands log reader message := by
  obtain ⟨short, whole, ends, inside, small⟩ := ahead
  rw [octets_cons, List.length_append] at whole ends small
  rw [load_append] at whole
  exact ⟨(short message List.mem_cons_self).2, (List.append_inj whole (load_length _ _ _)).1,
    by omega, by omega⟩

theorem Ahead.copied (ahead : Ahead log totalLen reader (message :: waiting))
    (copies : Copies reader next [message]) : Ahead log totalLen next waiting := by
  obtain ⟨short, whole, ends, inside, small⟩ := ahead
  have place := copies.nextOffset
  have room := copies.offset
  rw [octets_cons, octets_nil, List.append_nil] at place room
  rw [octets_cons, List.length_append] at whole ends small
  rw [load_append] at whole
  refine ⟨fun later member => short later (List.mem_cons_of_mem message member), ?_, by omega,
    inside, by omega⟩
  rw [place]
  exact (List.append_inj whole (load_length _ _ _)).2

/-- The end of what is stored is told from the next message. -/
theorem Ahead.ended (ahead : Ahead log totalLen reader waiting) :
    totalLen ≤ reader.nextOffset ↔ waiting = [] := by
  have ends := ahead.ends
  constructor
  · intro beyond
    by_contra some
    obtain ⟨message, rest, rfl⟩ := List.exists_cons_of_ne_nil some
    have text := List.length_pos_iff.mpr (ahead.short message List.mem_cons_self).1
    rw [octets_cons, List.length_append, message.octets_length] at ends
    unfold infoSize hdrSize at ends
    omega
  · rintro rfl
    rw [octets_nil, List.length_nil] at ends
    omega

/-- The loop takes the messages that fit, unless the next header overruns the buffer. -/
theorem Ahead.readLoop {rounds : Nat} (ahead : Ahead log totalLen reader waiting)
    (some : waiting ≠ []) (enough : maxLen < rounds + reader.offset) :
    (Overruns maxLen reader.offset waiting → readLoop log totalLen maxLen rounds reader = none) ∧
      (¬ Overruns maxLen reader.offset waiting →
        ∃ next, readLoop log totalLen maxLen rounds reader = .some next ∧
          Copies reader next (waiting.take (fitting maxLen reader.offset waiting))) := by
  induction waiting generalizing reader rounds with
  | nil => exact absurd rfl some
  | cons message waiting ih =>
      have stands := ahead.stands
      have size := message.octets_length
      by_cases fit : reader.offset + message.octets.length < maxLen
      · obtain ⟨rounds, rfl⟩ : ∃ less, rounds = less + 1 := ⟨rounds - 1, by omega⟩
        have copies := stands.takeMessage
        have later := ahead.copied copies
        have place := copies.offset
        rw [octets_cons, octets_nil, List.append_nil] at place
        have header : ¬ maxLen < reader.offset + hdrSize := by omega
        have fits : fits (DebugLog.peekHdr log reader) maxLen = true := by
          rw [stands.fits, decide_eq_true fit]
        have count : fitting maxLen reader.offset (message :: waiting) =
            fitting maxLen (takeMessage log (DebugLog.peekHdr log reader)).offset waiting + 1 := by
          rw [fitting, if_pos fit, place]
        have beyond : Overruns maxLen reader.offset (message :: waiting) ↔
            Overruns maxLen (takeMessage log (DebugLog.peekHdr log reader)).offset waiting := by
          unfold Overruns
          rw [count, List.take_succ_cons, octets_cons, List.length_append, List.length_cons,
            Nat.add_lt_add_iff_right, ← Nat.add_assoc, ← place]
        rw [beyond, count, List.take_succ_cons, DebugLog.readLoop, if_neg header, if_pos fits]
        by_cases last : waiting = []
        · have ends := later.ended.mpr last
          rw [if_pos ends, last]
          refine ⟨fun overruns => absurd overruns.1 (Nat.not_lt_zero _), fun _ => ⟨_, rfl, ?_⟩⟩
          rw [List.take_nil]
          exact copies
        · rw [if_neg (mt later.ended.mp last)]
          have header : 0 < hdrSize := Nat.succ_pos 15
          have left : maxLen < rounds + (takeMessage log (DebugLog.peekHdr log reader)).offset := by
            omega
          obtain ⟨overruns, goes⟩ := ih later last left
          refine ⟨overruns, fun fine => ?_⟩
          obtain ⟨next, ran, rest⟩ := goes fine
          exact ⟨next, ran, copies.append rest⟩
      · have count : fitting maxLen reader.offset (message :: waiting) = 0 := if_neg fit
        have beyond : Overruns maxLen reader.offset (message :: waiting) ↔
            maxLen < reader.offset + hdrSize := by
          unfold Overruns
          rw [count, List.take_zero, octets_nil, List.length_nil, Nat.add_zero]
          exact ⟨fun both => both.2, fun header => ⟨Nat.succ_pos _, header⟩⟩
        rw [beyond, count, List.take_zero]
        cases rounds with
        | zero =>
            refine ⟨fun _ => rfl, fun fine => absurd ?_ fine⟩
            omega
        | succ rounds =>
            refine ⟨fun header => if_pos header, fun fine => ?_⟩
            have fits : ¬ fits (DebugLog.peekHdr log reader) maxLen = true := by
              rw [stands.fits, decide_eq_true_iff]
              exact fit
            rw [DebugLog.readLoop, if_neg fine, if_neg fits]
            exact ⟨_, rfl, Copies.peekHdr reader message stands⟩

end Wanpipe.Utils.DebugLog
