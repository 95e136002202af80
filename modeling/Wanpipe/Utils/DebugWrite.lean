import Mathlib.Data.List.Basic
import Mathlib.Tactic.Common
import Wanpipe.Utils.DebugLog

/-! What the memory of the debug log holds: a write that is accepted puts its message behind those that
are waiting. -/

namespace Wanpipe.Utils.DebugLog

open Line Store Words

def octets (messages : List Message) : List Octet := messages.flatMap Message.octets

section Sizes

theorem ulong_small {value : Nat} (small : value ≤ 3 * memorySize) : ulong value = value := by
  unfold ulong
  unfold memorySize at small
  omega

theorem hdrOctets_length (message : Message) : (hdrOctets message).length = hdrSize := by
  rw [hdrOctets, List.length_append, wordOctets_length, message.stamp.property]
  rfl

theorem Message.octets_length (message : Message) :
    message.octets.length = hdrSize + message.text.length := by
  rw [Message.octets, List.length_append, hdrOctets_length]

theorem infoOctets_length (info : Info) : (infoOctets info).length = infoSize := by
  rw [infoOctets, List.length_append, wordOctets_length, wordOctets_length]
  rfl

theorem octets_nil : octets [] = [] := rfl

theorem octets_cons (message : Message) (messages : List Message) :
    octets (message :: messages) = message.octets ++ octets messages := List.flatMap_cons

theorem octets_append (left right : List Message) :
    octets (left ++ right) = octets left ++ octets right := List.flatMap_append

theorem octets_some {messages : List Message} (some : messages ≠ []) :
    hdrSize ≤ (octets messages).length := by
  obtain ⟨message, rest, rfl⟩ := List.exists_cons_of_ne_nil some
  rw [octets_cons, List.length_append, message.octets_length]
  omega

/-- The lengths that the memory can hold. -/
def Short (message : Message) : Prop :=
  message.text ≠ [] ∧ message.text.length ≤ memorySize

theorem msgLen_toNat {text : List Octet} (short : text.length ≤ memorySize) :
    (msgLen text).toNat = text.length := by
  unfold memorySize at short
  rw [msgLen, BitVec.toNat_ofNat]
  omega

theorem msgLen_toInt {text : List Octet} (short : text.length ≤ memorySize) :
    (msgLen text).toInt = text.length := by
  have value := msgLen_toNat short
  unfold memorySize at short
  rw [BitVec.toInt_eq_toNat_of_lt (by omega), value]

end Sizes

section Records

/-- An info record reads back. -/
theorem infoOf_infoOctets {totalLen : Nat} (small : totalLen ≤ 3 * memorySize) :
    infoOf (infoOctets ⟨routerMagic, totalLen⟩) = ⟨routerMagic, totalLen⟩ := by
  have magic : routerMagic < limit 8 := by decide
  have total : totalLen < limit 8 := by
    have some : 3 * memorySize < limit 8 := by decide
    omega
  unfold infoOf infoOctets
  rw [List.take_left' (wordOctets_length 8 _), List.drop_left' (wordOctets_length 8 _),
    wordValue_wordOctets magic, wordValue_wordOctets total]

variable {log : Log} {addr : Nat} {octs : List Octet}

theorem poke_inside (inside : addr + octs.length ≤ memorySize) :
    poke log addr octs = { log with memory := store log.memory addr octs } :=
  if_neg (Nat.not_lt.mpr inside)

theorem poke_outside (outside : memorySize < addr + octs.length) :
    poke log addr octs = { log with refused := true } := if_pos outside

theorem poke_refused : (poke log addr octs).refused = false ↔
    log.refused = false ∧ addr + octs.length ≤ memorySize := by
  rcases Nat.lt_or_ge memorySize (addr + octs.length) with outside | inside
  · rw [poke_outside outside]
    simp only [Bool.true_eq_false, false_iff, not_and]
    omega
  · rw [poke_inside inside]
    exact ⟨fun kept => ⟨kept, inside⟩, fun kept => kept.1⟩

theorem poke_totalLen : (poke log addr octs).totalLen = log.totalLen := by
  unfold poke
  split <;> rfl

theorem infoOctets_inside (info : Info) : 0 + (infoOctets info).length ≤ memorySize := by
  rw [infoOctets_length]
  decide

theorem info_poke {totalLen : Nat} (small : totalLen ≤ 3 * memorySize) :
    info (poke log 0 (infoOctets ⟨routerMagic, totalLen⟩)) = ⟨routerMagic, totalLen⟩ := by
  rw [poke_inside (infoOctets_inside _)]
  have back := load_store log.memory 0 (infoOctets ⟨routerMagic, totalLen⟩)
  rw [infoOctets_length] at back
  change infoOf (load (store log.memory 0 (infoOctets ⟨routerMagic, totalLen⟩)) 0 infoSize) = _
  rw [back, infoOf_infoOctets small]

end Records

section Stored

/-- Nothing is stored. -/
def Bare (log : Log) : Prop :=
  log.totalLen = 0 ∧ ((info log).magic ≠ routerMagic ∨ (info log).totalLen = 0)

/-- Behind the info record stand octets that are `gone`, they have been read, and then the messages
that are waiting. -/
structure Filled (log : Log) (gone : List Octet) (waiting : List Message) : Prop where
  record : info log = ⟨routerMagic, log.totalLen⟩
  stored : load log.memory infoSize log.totalLen = gone ++ octets waiting
  current : log.currentOffset = infoSize + gone.length
  inside : infoSize + log.totalLen ≤ memorySize
  some : waiting ≠ []

def Held (log : Log) (waiting : List Message) : Prop :=
  Bare log ∧ waiting = [] ∨ ∃ gone, Filled log gone waiting

variable {log : Log} {gone : List Octet} {waiting : List Message}

theorem Filled.total (filled : Filled log gone waiting) :
    log.totalLen = gone.length + (octets waiting).length := by
  have same := congrArg List.length filled.stored
  rwa [load_length, List.length_append] at same

theorem Filled.not_empty (filled : Filled log gone waiting) : empty log = false := by
  have many := octets_some filled.some
  have total := filled.total
  unfold hdrSize at many
  unfold empty
  rw [filled.record]
  simp only [ne_eq, not_true_eq_false, decide_false, Bool.false_or, decide_eq_false_iff_not]
  omega

theorem Bare.empty (bare : Bare log) : empty log = true := by
  unfold DebugLog.empty
  rw [bare.1]
  simp

theorem Bare.storedLen (bare : Bare log) : storedLen log = 0 := if_pos bare.empty

theorem Filled.storedLen (filled : Filled log gone waiting) :
    storedLen log = log.totalLen := by
  unfold DebugLog.storedLen
  rw [filled.not_empty, filled.record]
  rfl

theorem Filled.begun (filled : Filled log gone waiting) : begun log = log := by
  unfold DebugLog.begun
  rw [filled.not_empty]
  rfl

theorem Bare.begun (bare : Bare log) : begun log = emptied log := if_pos bare.empty

theorem emptied_bare (log : Log) : Bare (emptied log) := by
  refine ⟨rfl, Or.inr ?_⟩
  have record : info (poke log 0 (infoOctets ⟨routerMagic, 0⟩)) = ⟨routerMagic, 0⟩ :=
    info_poke (Nat.zero_le _)
  change (info (poke log 0 (infoOctets ⟨routerMagic, 0⟩))).totalLen = 0
  rw [record]

theorem cleared_bare (log : Log) : Bare (cleared log) := emptied_bare log

end Stored

section Writes

variable {log : Log} {message : Message}

theorem pokeHdr_eq (room : infoSize + log.totalLen + hdrSize ≤ memorySize) :
    pokeHdr log message = { log with
      memory := store log.memory (log.totalLen + infoSize) (hdrOctets message)
      totalLen := log.totalLen + hdrSize } := by
  have inside : log.totalLen + infoSize + (hdrOctets message).length ≤ memorySize := by
    rw [hdrOctets_length]
    omega
  rw [pokeHdr, poke_inside inside]

theorem pokeText_eq {text : List Octet} (short : text.length ≤ memorySize)
    (room : infoSize + log.totalLen + text.length ≤ memorySize) :
    pokeText log text = { log with
      memory := store log.memory (log.totalLen + infoSize) text
      totalLen := log.totalLen + text.length
      totalNum := log.totalNum + 1 } := by
  have all : text.take (msgLen text).toNat = text := by
    rw [msgLen_toNat short, List.take_length]
  have sum : ulong (log.totalLen + (msgLen text).toInt) = log.totalLen + text.length := by
    rw [msgLen_toInt short, ← Int.natCast_add, ulong_small (by omega)]
  have inside : log.totalLen + infoSize + text.length ≤ memorySize := by omega
  rw [pokeText, all, sum, poke_inside inside]

/-- The memory behind an accepted write. -/
def written (log : Log) (message : Message) : Nat → Octet :=
  store
    (store (store log.memory (log.totalLen + infoSize) (hdrOctets message))
      (log.totalLen + hdrSize + infoSize) message.text)
    0 (infoOctets ⟨routerMagic, log.totalLen + hdrSize + message.text.length⟩)

theorem pokes_eq (short : message.text.length ≤ memorySize)
    (room : infoSize + log.totalLen + hdrSize + message.text.length ≤ memorySize) :
    pokeInfo (pokeText (pokeHdr log message) message.text) = { log with
      memory := written log message
      totalLen := log.totalLen + hdrSize + message.text.length
      totalNum := log.totalNum + 1 } := by
  have first : infoSize + log.totalLen + hdrSize ≤ memorySize := by omega
  rw [pokeHdr_eq first, pokeText_eq short (by dsimp only; omega), pokeInfo,
    poke_inside (infoOctets_inside _)]
  rfl

theorem load_written :
    load (written log message) infoSize (log.totalLen + hdrSize + message.text.length) =
      load log.memory infoSize log.totalLen ++ message.octets := by
  have behind : 0 + (infoOctets ⟨routerMagic, log.totalLen + hdrSize + message.text.length⟩).length ≤
      infoSize := by rw [infoOctets_length, Nat.zero_add]
  have hdr := load_store_append log.memory infoSize log.totalLen (hdrOctets message)
  have text := load_store_append
    (store log.memory (infoSize + log.totalLen) (hdrOctets message)) infoSize
    (log.totalLen + hdrSize) message.text
  rw [hdrOctets_length] at hdr
  rw [written, load_store_apart (Or.inr behind), Nat.add_comm (log.totalLen + hdrSize) infoSize,
    Nat.add_comm log.totalLen infoSize, text, hdr, List.append_assoc, Message.octets]

theorem accepts_some (accepted : accepts log message.text = true) : message.text ≠ [] := by
  intro none
  unfold accepts tries at accepted
  rw [none] at accepted
  simp [msgLen] at accepted

theorem wanDebugWrite_accepted (accepted : accepts log message.text = true) :
    wanDebugWrite log message =
      pokeInfo (pokeText (pokeHdr (begun log) message) message.text) := by
  rw [accepts, Bool.and_eq_true, Bool.not_eq_true'] at accepted
  rw [wanDebugWrite, if_pos accepted.1, accepted.2]
  rfl

variable {waiting : List Message}

theorem Held.full (held : Held log waiting) : Held { begun log with full := true } waiting := by
  rcases held with ⟨bare, none⟩ | ⟨gone, filled⟩
  · rw [bare.begun]
    exact Or.inl ⟨emptied_bare log, none⟩
  · rw [filled.begun]
    exact Or.inr ⟨gone, filled.record, filled.stored, filled.current, filled.inside, filled.some⟩

theorem Held.rejected (held : Held log waiting) (rejected : accepts log message.text = false) :
    Held (wanDebugWrite log message) waiting := by
  unfold wanDebugWrite
  split
  · rename_i tried
    rw [accepts, tried, Bool.true_and, Bool.not_eq_false'] at rejected
    rw [if_pos rejected]
    exact held.full
  · exact held

theorem emptied_refused (log : Log) : (emptied log).refused = log.refused := by
  unfold emptied
  rw [poke_inside (infoOctets_inside _)]

theorem begun_refused (log : Log) : (begun log).refused = log.refused := by
  unfold begun
  split
  · exact emptied_refused log
  · rfl

theorem rejected_refused (rejected : accepts log message.text = false) :
    (wanDebugWrite log message).refused = log.refused := by
  unfold wanDebugWrite
  split
  · rename_i tried
    rw [accepts, tried, Bool.true_and, Bool.not_eq_false'] at rejected
    rw [if_pos rejected]
    dsimp only
    exact begun_refused log
  · rfl

/-- Before an accepted write, with the info record made when there was none. -/
theorem Held.opened (held : Held log waiting) : ∃ gone,
    (begun log).totalLen = storedLen log ∧ infoSize + storedLen log ≤ memorySize ∧
      (begun log).currentOffset = infoSize + gone.length ∧
      load (begun log).memory infoSize (begun log).totalLen = gone ++ octets waiting := by
  rcases held with ⟨bare, none⟩ | ⟨gone, filled⟩
  · refine ⟨[], ?_, ?_, ?_, ?_⟩
    · rw [bare.begun, bare.storedLen]
      rfl
    · rw [bare.storedLen]
      decide
    · rw [bare.begun]
      rfl
    · rw [bare.begun, none]
      exact load_zero _ _
  · rw [filled.begun, filled.storedLen]
    exact ⟨gone, rfl, filled.inside, filled.current, filled.stored⟩

/-- The room that an accepted message needs. -/
def Room (log : Log) (message : Message) : Prop :=
  infoSize + storedLen log + hdrSize + message.text.length ≤ memorySize

theorem Held.accepted (held : Held log waiting) (accepted : accepts log message.text = true)
    (room : Room log message) :
    ∃ gone, Filled (wanDebugWrite log message) gone (waiting ++ [message]) := by
  obtain ⟨gone, total, inside, current, stored⟩ := held.opened
  have short : message.text.length ≤ memorySize := by
    unfold Room at room
    omega
  have fits : infoSize + (begun log).totalLen + hdrSize + message.text.length ≤ memorySize := by
    rw [total]
    exact room
  have record : infoOf (load (written (begun log) message) 0 infoSize) =
      ⟨routerMagic, (begun log).totalLen + hdrSize + message.text.length⟩ := by
    have back := load_store
      (store (store (begun log).memory ((begun log).totalLen + infoSize) (hdrOctets message))
        ((begun log).totalLen + hdrSize + infoSize) message.text)
      0 (infoOctets ⟨routerMagic, (begun log).totalLen + hdrSize + message.text.length⟩)
    rw [infoOctets_length] at back
    rw [written, back, infoOf_infoOctets (by omega)]
  have all : load (written (begun log) message) infoSize
      ((begun log).totalLen + hdrSize + message.text.length) =
        gone ++ octets (waiting ++ [message]) := by
    rw [load_written, stored, octets_append, List.append_assoc, octets_cons, octets_nil,
      List.append_nil]
  rw [wanDebugWrite_accepted accepted, pokes_eq short fits]
  refine ⟨gone, ?_, ?_, ?_, ?_, List.concat_ne_nil message waiting⟩
  · unfold info
    dsimp only
    exact record
  · dsimp only
    exact all
  · dsimp only
    exact current
  · dsimp only
    omega

theorem accepted_refused (held : Held log waiting) (accepted : accepts log message.text = true)
    (room : Room log message) : (wanDebugWrite log message).refused = log.refused := by
  obtain ⟨gone, total, inside, current, stored⟩ := held.opened
  have short : message.text.length ≤ memorySize := by
    unfold Room at room
    omega
  rw [wanDebugWrite_accepted accepted,
    pokes_eq short (by rw [total]; exact room)]
  dsimp only
  exact begun_refused log

/-- The message stands complete at the end of what is stored. -/
def Complete (log : Log) (message : Message) : Prop :=
  message.octets <:+ load log.memory infoSize log.totalLen

theorem Filled.complete {gone : List Octet} (filled : Filled log gone (waiting ++ [message])) :
    Complete log message := by
  refine ⟨gone ++ octets waiting, ?_⟩
  rw [filled.stored, octets_append, List.append_assoc, octets_cons, octets_nil, List.append_nil]

/-- Without the room an access is outside, or the message is not stored as a whole. -/
theorem Held.room (held : Held log waiting) (accepted : accepts log message.text = true)
    (kept : (wanDebugWrite log message).refused = false)
    (complete : Complete (wanDebugWrite log message) message) : Room log message := by
  obtain ⟨gone, total, inside, -, -⟩ := held.opened
  rw [wanDebugWrite_accepted accepted] at kept complete
  have text := (poke_refused.mp kept).1
  have within := (poke_refused.mp text).2
  have hdrTotal : (pokeHdr (begun log) message).totalLen = storedLen log + hdrSize := by
    rw [← total]
    rfl
  have count : (msgLen message.text).toNat ≤ message.text.length := by
    rw [msgLen, BitVec.toNat_ofNat]
    exact Nat.mod_le _ _
  rw [List.length_take, Nat.min_eq_left count, hdrTotal] at within
  have size : (pokeInfo (pokeText (pokeHdr (begun log) message) message.text)).totalLen =
      storedLen log + hdrSize + (msgLen message.text).toNat := by
    have positive : (msgLen message.text).toInt = (msgLen message.text).toNat := by
      unfold memorySize at within
      rw [BitVec.toInt_eq_toNat_of_lt (by omega)]
    rw [pokeInfo, poke_totalLen]
    change ulong ((pokeHdr (begun log) message).totalLen + (msgLen message.text).toInt) = _
    rw [hdrTotal, positive, ← Int.natCast_add, ulong_small (by omega)]
  have fewer := complete.length_le
  rw [load_length, size, message.octets_length] at fewer
  have long : message.text.length ≤ memorySize := by omega
  rw [msgLen_toNat long] at within
  unfold Room
  omega

end Writes

end Wanpipe.Utils.DebugLog
