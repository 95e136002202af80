import Wanpipe.Usb.Framing

/-! Blocks decoded as they were encoded. -/

namespace Wanpipe.Usb

open Line

def hear (rx : Rx) (readchunk : Fin 2 → Nat → Octet) : Rx :=
  { rx with card := { rx.card with readchunk := readchunk } }

def addPair (rx : Rx) (pair : Octet) : Rx :=
  { rx with rxCmd := Function.update rx.rxCmd rx.rxCmdLen (rx.rxCmd rx.rxCmdLen ||| pair) }

/-- What four octets of a block do: one octet of the command channel, one of each voice. -/
def quad (buf : Buf) (rx : Rx) (ind : Nat) : Rx :=
  hear (addPair (if ind = 0 then rx else cmdOctetDone rx) (ctrlOctet buf ind))
    fun modNo => Function.update (rx.card.readchunk modNo) ind (voiceOctet buf modNo ind)

theorem sdlaUsbRxcmdDecode_readchunk (card : Card) (readchunk : Fin 2 → Nat → Octet)
    (rxCmd : List Octet) :
    sdlaUsbRxcmdDecode { card with readchunk := readchunk } rxCmd =
      { sdlaUsbRxcmdDecode card rxCmd with readchunk := readchunk } := by
  simp only [sdlaUsbRxcmdDecode]
  generalize cmdTypeDecode (rxCmd.getD 0 0) = ctrl
  by_cases answer : ctrl = cmdTypeWriteCpu ∨ ctrl = cmdTypeReadCpu ∨ ctrl = cmdTypeWriteFxo ∨
      ctrl = cmdTypeReadFxo
  · simp only [if_pos answer]
  · by_cases event : ctrl = cmdTypeEvent
    · simp only [if_neg answer, if_pos event]
    · simp only [if_neg answer, if_neg event]

theorem dropCmd_hear (rx : Rx) (readchunk : Fin 2 → Nat → Octet) :
    dropCmd (hear rx readchunk) = hear (dropCmd rx) readchunk := by
  by_cases empty : rx.card.rxCmdFreeList = 0
  · simp only [dropCmd, hear, empty, if_true]
  · simp only [dropCmd, hear, empty, if_false]

theorem deliverCmd_hear (rx : Rx) (readchunk : Fin 2 → Nat → Octet) :
    deliverCmd (hear rx readchunk) = { deliverCmd rx with readchunk := readchunk } := by
  by_cases long : 3 ≤ rx.rxCmdLen
  · simp only [deliverCmd, hear, long, if_true]
    exact sdlaUsbRxcmdDecode_readchunk rx.card readchunk (cmdOctets rx)
  · simp only [deliverCmd, hear, long, if_false]

theorem endCmd_hear (rx : Rx) (readchunk : Fin 2 → Nat → Octet) :
    endCmd (hear rx readchunk) = hear (endCmd rx) readchunk := by
  simp only [endCmd, dropCmd_hear, deliverCmd_hear]
  rfl

def clearOctet (rx : Rx) : Rx := { rx with rxCmd := Function.update rx.rxCmd rx.rxCmdLen 0#8 }

theorem cmdOctetDone_next {rx : Rx} (other : rx.rxCmd rx.rxCmdLen ≠ wpUsbCtrlIdlePattern) :
    cmdOctetDone rx = { rx with rxCmdLen := rx.rxCmdLen + 1 } := by
  rw [cmdOctetDone, if_neg other]

theorem cmdOctetDone_idle {rx : Rx} (idle : rx.rxCmd rx.rxCmdLen = wpUsbCtrlIdlePattern)
    (empty : rx.rxCmdLen = 0) : cmdOctetDone rx = clearOctet rx := by
  simp only [cmdOctetDone, clearOctet, if_pos idle, if_pos empty]

theorem cmdOctetDone_end {rx : Rx} (idle : rx.rxCmd rx.rxCmdLen = wpUsbCtrlIdlePattern)
    (some_ : rx.rxCmdLen ≠ 0) : cmdOctetDone rx = endCmd (clearOctet rx) := by
  simp only [cmdOctetDone, clearOctet, if_pos idle, if_neg some_]

theorem cmdOctetDone_hear (rx : Rx) (readchunk : Fin 2 → Nat → Octet) :
    cmdOctetDone (hear rx readchunk) = hear (cmdOctetDone rx) readchunk := by
  have cell : (hear rx readchunk).rxCmd (hear rx readchunk).rxCmdLen = rx.rxCmd rx.rxCmdLen := rfl
  have len : (hear rx readchunk).rxCmdLen = rx.rxCmdLen := rfl
  by_cases idle : rx.rxCmd rx.rxCmdLen = wpUsbCtrlIdlePattern
  · by_cases empty : rx.rxCmdLen = 0
    · rw [cmdOctetDone_idle idle empty, cmdOctetDone_idle (cell.trans idle) (len.trans empty)]
      rfl
    · rw [cmdOctetDone_end idle empty, cmdOctetDone_end (cell.trans idle) (len ▸ empty)]
      exact endCmd_hear (clearOctet rx) readchunk
  · rw [cmdOctetDone_next idle, cmdOctetDone_next (cell ▸ idle)]
    rfl

/-! ### Four octets -/

theorem rxdataOctet_framed {buf : Buf} (framed : Framed buf) {x : Nat} (inside : x < maxUsbRxLen)
    (rx : Rx) : rxdataOctet buf rx x = (rxdataField rx x (octetAt buf x), true) := by
  have frame : ¬ (x % 2 = 0 ∧ x % 4 / 2 = 0 ∧ x / 4 % wpUsbChunksize = 0 ∧
      octetAt buf x &&& 0x20#8 = 0#8) := by
    rintro ⟨even, low, first, missing⟩
    have zero : x = 0 := by
      simp only [maxUsbRxLen, wpUsbRxtxChunksize, wpUsbChunksize] at inside first
      omega
    rw [zero, framed.startFr] at missing
    contradiction
  have begun : ¬ (x % 4 = 0 ∧ octetAt buf x &&& 0x10#8 = 0#8) := by
    rintro ⟨whole, missing⟩
    have quarter : x = 4 * (x / 4) := by omega
    have small : x / 4 < wpUsbRxtxChunksize := by
      simp only [maxUsbRxLen] at inside
      omega
    rw [quarter, framed.start (x / 4) small] at missing
    contradiction
  simp only [rxdataOctet, if_neg frame, if_neg begun]

theorem rxdataField_first (rx : Rx) (ind : Nat) (octet : Octet) :
    rxdataField rx (4 * ind) octet =
      addPair
        (if ind = 0 then hear rx (putNibble rx.card 0 ind false (octet &&& 0x0F#8)).readchunk
          else cmdOctetDone (hear rx (putNibble rx.card 0 ind false (octet &&& 0x0F#8)).readchunk))
        (octet &&& 0xC0#8) := by
  have quarter : 4 * ind / 4 = ind := by omega
  have whole : 4 * ind % 4 = 0 := by omega
  have even : 4 * ind % 2 = 0 := by omega
  simp only [rxdataField, quarter, whole, even]
  by_cases zero : ind = 0
  · simp [zero, addPair, hear, putNibble]
  · simp [zero, addPair, hear, putNibble]

theorem rxdataField_later (rx : Rx) (ind : Nat) (octet : Octet) {k : Nat} (later : k ≠ 0)
    (small : k < 4) :
    rxdataField rx (4 * ind + k) octet =
      addPair
        (hear rx (putNibble rx.card ⟨k % 2, Nat.mod_lt k Nat.two_pos⟩ ind (k / 2 ≠ 0)
          (octet &&& 0x0F#8)).readchunk)
        ((octet &&& 0xC0#8) >>> (k * 2)) := by
  have quarter : (4 * ind + k) / 4 = ind := by omega
  have whole : (4 * ind + k) % 4 = k := by omega
  have even : (4 * ind + k) % 2 = k % 2 := by omega
  have inner : ¬ (ind ≠ 0 ∧ k * 2 = 0) := by omega
  simp only [rxdataField, quarter, whole, even, if_neg inner]
  rfl

theorem addPair_addPair (rx : Rx) (first second : Octet) :
    addPair (addPair rx first) second = addPair rx (first ||| second) := by
  simp [addPair, BitVec.or_assoc]

theorem shift_zero : ∀ octet : Octet, octet >>> 0 = octet := by
  decide +kernel

/-- The four nibbles of two voice octets, in the order of the block. -/
theorem putNibble_four (card : Card) (buf : Buf) (ind : Nat) :
    let low := putNibble card 0 ind false (octetAt buf (4 * ind) &&& 0x0F#8)
    let lows := putNibble low 1 ind false (octetAt buf (4 * ind + 1) &&& 0x0F#8)
    let high := putNibble lows 0 ind true (octetAt buf (4 * ind + 2) &&& 0x0F#8)
    (putNibble high 1 ind true (octetAt buf (4 * ind + 3) &&& 0x0F#8)).readchunk =
      fun modNo => Function.update (card.readchunk modNo) ind (voiceOctet buf modNo ind) := by
  intro low lows high
  funext modNo
  have side : modNo = 0 ∨ modNo = 1 := by omega
  rcases side with rfl | rfl
  · simp [low, lows, high, putNibble, voiceOctet]
  · simp [low, lows, high, putNibble, voiceOctet]

theorem hear_hear (rx : Rx) (first second : Fin 2 → Nat → Octet) :
    hear (hear rx first) second = hear rx second := rfl

theorem hear_addPair (rx : Rx) (pair : Octet) (readchunk : Fin 2 → Nat → Octet) :
    hear (addPair rx pair) readchunk = addPair (hear rx readchunk) pair := rfl

theorem rxdataField_four (buf : Buf) (rx : Rx) (ind : Nat) :
    rxdataField
        (rxdataField
          (rxdataField (rxdataField rx (4 * ind) (octetAt buf (4 * ind))) (4 * ind + 1)
            (octetAt buf (4 * ind + 1)))
          (4 * ind + 2) (octetAt buf (4 * ind + 2)))
        (4 * ind + 3) (octetAt buf (4 * ind + 3)) =
      quad buf rx ind := by
  have first : rxdataField rx (4 * ind) (octetAt buf (4 * ind)) =
      addPair
        (hear (if ind = 0 then rx else cmdOctetDone rx)
          (putNibble rx.card 0 ind false (octetAt buf (4 * ind) &&& 0x0F#8)).readchunk)
        (octetAt buf (4 * ind) &&& 0xC0#8) := by
    rw [rxdataField_first]
    by_cases zero : ind = 0
    · rw [if_pos zero, if_pos zero]
    · rw [if_neg zero, if_neg zero, cmdOctetDone_hear]
  rw [rxdataField_later _ _ _ (by decide : 3 ≠ 0) (by decide),
    rxdataField_later _ _ _ (by decide : 2 ≠ 0) (by decide),
    rxdataField_later _ _ _ (by decide : 1 ≠ 0) (by decide), first]
  simp only [hear_addPair, hear_hear, addPair_addPair]
  rw [quad, ctrlOctet, ← putNibble_four rx.card buf ind, hear_addPair]
  rfl

theorem rxdataLoop_quad {buf : Buf} (framed : Framed buf) {ind : Nat}
    (inside : ind < wpUsbRxtxChunksize) (rx : Rx) (n : Nat) :
    rxdataLoop buf rx (4 * ind) (n + 4) = rxdataLoop buf (quad buf rx ind) (4 * (ind + 1)) n := by
  have room : 4 * ind + 3 < maxUsbRxLen := by
    simp only [maxUsbRxLen]
    omega
  have next : 4 * ind + 1 + 1 + 1 + 1 = 4 * (ind + 1) := by omega
  rw [← rxdataField_four]
  simp only [rxdataLoop, rxdataOctet_framed framed (show 4 * ind < maxUsbRxLen by omega),
    rxdataOctet_framed framed (show 4 * ind + 1 < maxUsbRxLen by omega),
    rxdataOctet_framed framed (show 4 * ind + 1 + 1 < maxUsbRxLen by omega),
    rxdataOctet_framed framed (show 4 * ind + 1 + 1 + 1 < maxUsbRxLen by omega), next]

/-- The block in groups of four octets. -/
def quads (buf : Buf) (rx : Rx) (n : Nat) : Rx := (List.range n).foldl (quad buf) rx

theorem quads_succ (buf : Buf) (rx : Rx) (n : Nat) :
    quads buf rx (n + 1) = quad buf (quads buf rx n) n := by
  rw [quads, List.range_succ, List.foldl_append]
  rfl

theorem rxdataLoop_quads {buf : Buf} (framed : Framed buf) (rx : Rx) (n : Nat)
    (few : n ≤ wpUsbRxtxChunksize) :
    rxdataLoop buf rx 0 maxUsbRxLen =
      rxdataLoop buf (quads buf rx n) (4 * n) (4 * (wpUsbRxtxChunksize - n)) := by
  induction n with
  | zero => rfl
  | succ n ih =>
      have left : 4 * (wpUsbRxtxChunksize - n) = 4 * (wpUsbRxtxChunksize - (n + 1)) + 4 := by omega
      rw [ih (by omega), left, rxdataLoop_quad framed few, quads_succ]

theorem sdlaUsbRxdataDecode_quads {buf : Buf} (framed : Framed buf) (card : Card) :
    sdlaUsbRxdataDecode card buf =
      (quads buf ⟨card, fun _ => 0#8, 0⟩ wpUsbRxtxChunksize).card := by
  rw [sdlaUsbRxdataDecode, rxdataLoop_quads framed _ wpUsbRxtxChunksize (Nat.le_refl _),
    Nat.sub_self]
  rfl

/-! ### Voice -/

theorem quad_readchunk (buf : Buf) (rx : Rx) (ind : Nat) (modNo : Fin 2) :
    (quad buf rx ind).card.readchunk modNo =
      Function.update (rx.card.readchunk modNo) ind (voiceOctet buf modNo ind) := rfl

theorem quads_readchunk (buf : Buf) (rx : Rx) (n : Nat) (modNo : Fin 2) :
    ∀ x < n, (quads buf rx n).card.readchunk modNo x = voiceOctet buf modNo x := by
  induction n with
  | zero =>
      intro x inside
      exact absurd inside (Nat.not_lt_zero x)
  | succ n ih =>
      intro x inside
      rw [quads_succ, quad_readchunk]
      by_cases last : x = n
      · rw [last, Function.update_self]
      · rw [Function.update_of_ne last]
        exact ih x (by omega)

/-! ### Commands -/

/-- `rx_cmd` holds these octets of a command, then the octet being filled, and is clear behind. -/
structure Collecting (rx : Rx) (octets : List Octet) (last : Octet) : Prop where
  len : rx.rxCmdLen = octets.length
  held : ∀ i, rx.rxCmd i = if i = octets.length then last else octets.getD i 0#8

/-- No command was handed on and no buffer taken. -/
def SameCmds (before after : Card) : Prop :=
  after.rxCmds = before.rxCmds ∧ after.rxCmdFreeList = before.rxCmdFreeList

theorem Collecting.cell {rx : Rx} {octets : List Octet} {last : Octet}
    (collecting : Collecting rx octets last) : rx.rxCmd rx.rxCmdLen = last := by
  rw [collecting.held, if_pos collecting.len]

theorem Collecting.cmdOctets {rx : Rx} {octets : List Octet} {last : Octet}
    (collecting : Collecting rx octets last) : cmdOctets rx = octets := by
  apply List.ext_getElem
  · simp [Usb.cmdOctets, collecting.len]
  · intro i here there
    simp [Usb.cmdOctets, collecting.held, Nat.ne_of_lt there, there]

/-- The next octet of the channel, `rx_cmd[rx_cmd_len]` being clear. -/
theorem quad_collecting {buf : Buf} {rx : Rx} {ind : Nat} (later : ind ≠ 0)
    {octets : List Octet} (collecting : Collecting (cmdOctetDone rx) octets 0#8) :
    Collecting (quad buf rx ind) octets (ctrlOctet buf ind) := by
  have cell := collecting.cell
  constructor
  · simp only [quad, if_neg later, hear, addPair, collecting.len]
  · intro i
    simp only [quad, if_neg later, hear, addPair, cell, BitVec.zero_or]
    rw [collecting.len]
    by_cases here : i = octets.length
    · rw [here, Function.update_self, if_pos rfl]
    · rw [Function.update_of_ne here, collecting.held, if_neg here, if_neg here]

theorem quad_cmds (buf : Buf) (rx : Rx) {ind : Nat} (later : ind ≠ 0) :
    SameCmds (cmdOctetDone rx).card (quad buf rx ind).card := by
  simp only [quad, if_neg later]
  exact ⟨rfl, rfl⟩

theorem Collecting.clearOctet {rx : Rx} {octets : List Octet} {last : Octet}
    (collecting : Collecting rx octets last) : Collecting (clearOctet rx) octets 0#8 := by
  constructor
  · exact collecting.len
  · intro i
    simp only [Usb.clearOctet, collecting.len]
    by_cases here : i = octets.length
    · rw [here, Function.update_self, if_pos rfl]
    · rw [Function.update_of_ne here, collecting.held, if_neg here, if_neg here]

theorem Collecting.next (buf : Buf) {rx : Rx} {ind : Nat} {octets : List Octet} {last : Octet}
    (collecting : Collecting rx octets last) (later : ind ≠ 0)
    (other : last ≠ wpUsbCtrlIdlePattern) :
    Collecting (quad buf rx ind) (octets ++ [last]) (ctrlOctet buf ind) ∧
      SameCmds rx.card (quad buf rx ind).card := by
  have moved : cmdOctetDone rx = { rx with rxCmdLen := rx.rxCmdLen + 1 } := by
    apply cmdOctetDone_next
    rwa [collecting.cell]
  have cmds := quad_cmds buf rx later
  rw [moved] at cmds
  refine ⟨quad_collecting later ?_, cmds⟩
  rw [moved]
  constructor
  · rw [collecting.len, List.length_append, List.length_singleton]
  · intro i
    rw [collecting.held, List.length_append, List.length_singleton]
    rcases Nat.lt_trichotomy i octets.length with before | rfl | behind
    · rw [if_neg (by omega), if_neg (by omega), List.getD_append _ _ _ _ before]
    · rw [if_pos rfl, if_neg (by omega), List.getD_append_right _ _ _ _ (Nat.le_refl _),
        Nat.sub_self, List.getD_cons_zero]
    · rw [if_neg (by omega), List.getD_eq_default _ _ (by omega)]
      split_ifs
      · rfl
      · rw [List.getD_eq_default]
        rw [List.length_append, List.length_singleton]
        omega

theorem Collecting.idle (buf : Buf) {rx : Rx} {ind : Nat}
    (collecting : Collecting rx [] wpUsbCtrlIdlePattern) (later : ind ≠ 0) :
    Collecting (quad buf rx ind) [] (ctrlOctet buf ind) ∧
      SameCmds rx.card (quad buf rx ind).card := by
  have moved : cmdOctetDone rx = Usb.clearOctet rx :=
    cmdOctetDone_idle collecting.cell collecting.len
  have cmds := quad_cmds buf rx later
  rw [moved] at cmds
  refine ⟨quad_collecting later ?_, cmds⟩
  rw [moved]
  exact collecting.clearOctet

theorem endCmd_collecting {rx : Rx} {octets : List Octet} (collecting : Collecting rx octets 0#8)
    (room : rx.card.rxCmdFreeList ≠ 0) :
    endCmd rx =
      { card := deliverCmd rx
        rxCmd := fun i => if i < rx.rxCmdLen then 0#8 else rx.rxCmd i
        rxCmdLen := 0 } ∧
      Collecting (endCmd rx) [] 0#8 := by
  have kept : dropCmd rx = rx := by rw [dropCmd, if_neg room]
  have ended : endCmd rx =
      { card := deliverCmd rx
        rxCmd := fun i => if i < rx.rxCmdLen then 0#8 else rx.rxCmd i
        rxCmdLen := 0 } := by
    simp only [endCmd, kept]
  refine ⟨ended, ?_⟩
  rw [ended]
  constructor
  · rfl
  · intro i
    simp only [collecting.held, collecting.len, List.getD_nil, ite_self]
    split_ifs with inside here
    · rfl
    · rfl
    · rw [List.getD_eq_default _ _ (by omega)]

/-- A command octet list that is too short is dropped at its end. -/
theorem Collecting.short (buf : Buf) {rx : Rx} {ind : Nat} {octets : List Octet}
    (collecting : Collecting rx octets wpUsbCtrlIdlePattern) (later : ind ≠ 0)
    (some_ : octets ≠ []) (few : octets.length < 3) (room : rx.card.rxCmdFreeList ≠ 0) :
    Collecting (quad buf rx ind) [] (ctrlOctet buf ind) ∧
      SameCmds rx.card (quad buf rx ind).card := by
  have len : rx.rxCmdLen ≠ 0 := by
    rw [collecting.len]
    exact fun empty => some_ (List.eq_nil_of_length_eq_zero empty)
  have moved := cmdOctetDone_end collecting.cell len
  rcases endCmd_collecting collecting.clearOctet room with ⟨ended, again⟩
  have cmds := quad_cmds buf rx later
  have short : ¬ 3 ≤ (Usb.clearOctet rx).rxCmdLen := by
    rw [collecting.clearOctet.len]
    omega
  rw [moved, ended, deliverCmd, if_neg short] at cmds
  refine ⟨quad_collecting later ?_, cmds⟩
  rw [moved]
  exact again

theorem sdlaUsbRxcmdDecode_rxCmds (card : Card) (rxCmd : List Octet) :
    (sdlaUsbRxcmdDecode card rxCmd).rxCmds = card.rxCmds ++ [rxCmd] := by
  simp only [sdlaUsbRxcmdDecode]
  split_ifs with answer event low
  · rfl
  · rfl
  · rfl
  · rfl

/-- A command is handed on at its end. -/
theorem Collecting.cmd (buf : Buf) {rx : Rx} {ind : Nat} {octets : List Octet}
    (collecting : Collecting rx octets wpUsbCtrlIdlePattern) (later : ind ≠ 0)
    (long : 3 ≤ octets.length) (room : rx.card.rxCmdFreeList ≠ 0) :
    Collecting (quad buf rx ind) [] (ctrlOctet buf ind) ∧
      (quad buf rx ind).card.rxCmds = rx.card.rxCmds ++ [octets] := by
  have len : rx.rxCmdLen ≠ 0 := by
    rw [collecting.len]
    omega
  have moved := cmdOctetDone_end collecting.cell len
  rcases endCmd_collecting collecting.clearOctet room with ⟨ended, again⟩
  have cmds := quad_cmds buf rx later
  have long' : 3 ≤ (Usb.clearOctet rx).rxCmdLen := by
    rw [collecting.clearOctet.len]
    exact long
  rw [moved, ended, deliverCmd, if_pos long', collecting.clearOctet.cmdOctets] at cmds
  refine ⟨quad_collecting later ?_, ?_⟩
  · rw [moved]
    exact again
  · rw [cmds.1, sdlaUsbRxcmdDecode_rxCmds]
    rfl

/-- With no buffer for it no command is handed on. -/
theorem endCmd_full {rx : Rx} (full : rx.card.rxCmdFreeList = 0) :
    SameCmds rx.card (endCmd rx).card := by
  have few : ¬ 3 ≤ (dropCmd rx).rxCmdLen := by
    rw [dropCmd, if_pos full]
    exact Nat.not_succ_le_zero 2
  simp only [endCmd, deliverCmd, if_neg few]
  rw [dropCmd, if_pos full]
  exact ⟨rfl, rfl⟩

theorem cmdOctetDone_full {rx : Rx} (full : rx.card.rxCmdFreeList = 0) :
    SameCmds rx.card (cmdOctetDone rx).card := by
  by_cases idle : rx.rxCmd rx.rxCmdLen = wpUsbCtrlIdlePattern
  · by_cases empty : rx.rxCmdLen = 0
    · rw [cmdOctetDone_idle idle empty]
      exact ⟨rfl, rfl⟩
    · have cleared : (clearOctet rx).card.rxCmdFreeList = 0 := full
      rw [cmdOctetDone_end idle empty]
      exact endCmd_full cleared
  · rw [cmdOctetDone_next idle]
    exact ⟨rfl, rfl⟩

theorem quads_full (buf : Buf) {rx : Rx} (full : rx.card.rxCmdFreeList = 0) (n : Nat) :
    SameCmds rx.card (quads buf rx n).card := by
  induction n with
  | zero => exact ⟨rfl, rfl⟩
  | succ n ih =>
      rw [quads_succ]
      by_cases first : n = 0
      · subst first
        exact ⟨rfl, rfl⟩
      · have done := cmdOctetDone_full (ih.2.trans full)
        have moved := quad_cmds buf (quads buf rx n) first
        exact ⟨moved.1.trans (done.1.trans ih.1), moved.2.trans (done.2.trans ih.2)⟩

theorem quads_idle {buf : Buf} {rx : Rx} {n : Nat} (some_ : n ≠ 0)
    (collecting : Collecting (quads buf rx n) [] wpUsbCtrlIdlePattern) (m : Nat)
    (idle : ∀ ind, n ≤ ind → ind < n + m → ctrlOctet buf ind = wpUsbCtrlIdlePattern) :
    Collecting (quads buf rx (n + m)) [] wpUsbCtrlIdlePattern ∧
      SameCmds (quads buf rx n).card (quads buf rx (n + m)).card := by
  induction m with
  | zero => exact ⟨collecting, rfl, rfl⟩
  | succ m ih =>
      rcases ih (fun ind from_ below => idle ind from_ (by omega)) with ⟨before, same⟩
      rcases before.idle buf (show n + m ≠ 0 by omega) with ⟨after, kept⟩
      rw [idle (n + m) (by omega) (by omega)] at after
      rw [← Nat.add_assoc, quads_succ]
      exact ⟨after, kept.1.trans same.1, kept.2.trans same.2⟩

/-- The first groups of a block are read, no command of it having ended. -/
structure Reading (buf : Buf) (card : Card) (n : Nat) (octets : List Octet) (last : Octet) :
    Prop where
  collecting : Collecting (quads buf ⟨card, fun _ => 0#8, 0⟩ n) octets last
  same : SameCmds card (quads buf ⟨card, fun _ => 0#8, 0⟩ n).card

theorem SameCmds.trans {first second third : Card} (left : SameCmds first second)
    (right : SameCmds second third) : SameCmds first third :=
  ⟨right.1.trans left.1, right.2.trans left.2⟩

theorem reading_first (buf : Buf) (card : Card) : Reading buf card 1 [] (ctrlOctet buf 0) := by
  constructor
  · rw [quads_succ]
    constructor
    · rfl
    · intro i
      simp only [quads, quad, hear, addPair, if_true, List.range_zero, List.foldl_nil,
        BitVec.zero_or, List.length_nil, List.getD_nil]
      by_cases zero : i = 0
      · rw [zero, Function.update_self, if_pos rfl]
      · rw [Function.update_of_ne zero, if_neg zero]
  · rw [quads_succ]
    exact ⟨rfl, rfl⟩

section

variable {buf : Buf} {card : Card} {n : Nat} {octets : List Octet} {last : Octet}

theorem Reading.next (reading : Reading buf card n octets last) (later : n ≠ 0)
    (other : last ≠ wpUsbCtrlIdlePattern) :
    Reading buf card (n + 1) (octets ++ [last]) (ctrlOctet buf n) := by
  rcases reading.collecting.next buf later other with ⟨collecting, same⟩
  constructor
  · rwa [quads_succ]
  · rw [quads_succ]
    exact reading.same.trans same

theorem Reading.idle (reading : Reading buf card n [] wpUsbCtrlIdlePattern) (later : n ≠ 0) :
    Reading buf card (n + 1) [] (ctrlOctet buf n) := by
  rcases reading.collecting.idle buf later with ⟨collecting, same⟩
  constructor
  · rwa [quads_succ]
  · rw [quads_succ]
    exact reading.same.trans same

theorem Reading.short (reading : Reading buf card n octets wpUsbCtrlIdlePattern) (later : n ≠ 0)
    (some_ : octets ≠ []) (few : octets.length < 3) (room : card.rxCmdFreeList ≠ 0) :
    Reading buf card (n + 1) [] (ctrlOctet buf n) := by
  have left : (quads buf ⟨card, fun _ => 0#8, 0⟩ n).card.rxCmdFreeList ≠ 0 := by
    rwa [reading.same.2]
  rcases reading.collecting.short buf later some_ few left with ⟨collecting, same⟩
  constructor
  · rwa [quads_succ]
  · rw [quads_succ]
    exact reading.same.trans same

theorem Reading.cmd (reading : Reading buf card n octets wpUsbCtrlIdlePattern) (later : n ≠ 0)
    (long : 3 ≤ octets.length) (room : card.rxCmdFreeList ≠ 0) :
    Collecting (quads buf ⟨card, fun _ => 0#8, 0⟩ (n + 1)) [] (ctrlOctet buf n) ∧
      (quads buf ⟨card, fun _ => 0#8, 0⟩ (n + 1)).card.rxCmds = card.rxCmds ++ [octets] := by
  have left : (quads buf ⟨card, fun _ => 0#8, 0⟩ n).card.rxCmdFreeList ≠ 0 := by
    rwa [reading.same.2]
  rcases reading.collecting.cmd buf later long left with ⟨collecting, cmds⟩
  rw [quads_succ]
  refine ⟨collecting, ?_⟩
  rw [cmds, reading.same.1]

end

/-- What a command of the transmit list comes to: a write whose two octets are not the idle
pattern, if there is a buffer for it. -/
def answered (cmd : List Octet) (free : Nat) : List (List Octet) :=
  match cmd with
  | [_, off, data] =>
      if off ≠ wpUsbCtrlIdlePattern ∧ data ≠ wpUsbCtrlIdlePattern ∧ free ≠ 0 then [cmd] else []
  | _ => []

section

variable {buf : Buf} {chunk : Fin 2 → Nat → Octet} {card : Card}

/-- Nothing but idle octets from here on. -/
theorem reading_rest {cmd : List Octet} (carries : Carries buf chunk cmd) {n : Nat}
    (some_ : n ≠ 0) (few : n ≤ wpUsbRxtxChunksize) (past : cmd.length < n)
    (collecting : Collecting (quads buf ⟨card, fun _ => 0#8, 0⟩ n) [] wpUsbCtrlIdlePattern) :
    (sdlaUsbRxdataDecode card buf).rxCmds =
      (quads buf ⟨card, fun _ => 0#8, 0⟩ n).card.rxCmds := by
  have idle : ∀ ind, n ≤ ind → ind < n + (wpUsbRxtxChunksize - n) →
      ctrlOctet buf ind = wpUsbCtrlIdlePattern := by
    intro ind from_ below
    rw [carries.ctrl ind (by omega), List.getD_eq_default]
    rw [List.length_cons]
    omega
  have rest := (quads_idle some_ collecting (wpUsbRxtxChunksize - n) idle).2
  rw [Nat.add_sub_cancel' few] at rest
  rw [sdlaUsbRxdataDecode_quads carries.framed]
  exact rest.1

theorem decoded_idle (carries : Carries buf chunk []) :
    (sdlaUsbRxdataDecode card buf).rxCmds = card.rxCmds := by
  have first := reading_first buf card
  rw [carries.ctrl 0 (by decide)] at first
  rw [reading_rest carries (by decide) (by decide) (by decide) first.collecting]
  exact first.same.1

/-- A read command has two octets only and is dropped. -/
theorem decoded_read {start off : Octet} (carries : Carries buf chunk [start, off])
    (busy : start ≠ wpUsbCtrlIdlePattern) (room : card.rxCmdFreeList ≠ 0) :
    (sdlaUsbRxdataDecode card buf).rxCmds = card.rxCmds := by
  have first := reading_first buf card
  rw [carries.ctrl 0 (by decide)] at first
  have second := first.idle (by decide)
  rw [carries.ctrl 1 (by decide)] at second
  have third := second.next (by decide) busy
  rw [carries.ctrl 2 (by decide)] at third
  by_cases idle : off = wpUsbCtrlIdlePattern
  · subst idle
    have fourth := third.short (by decide) (by simp) (by simp) room
    rw [carries.ctrl 3 (by decide)] at fourth
    rw [reading_rest carries (by decide) (by decide) (by simp) fourth.collecting]
    exact fourth.same.1
  · have fourth := third.next (by decide) idle
    rw [carries.ctrl 3 (by decide)] at fourth
    have fifth := fourth.short (by decide) (by simp) (by simp) room
    rw [carries.ctrl 4 (by decide)] at fifth
    rw [reading_rest carries (by decide) (by decide) (by simp) fifth.collecting]
    exact fifth.same.1

theorem decoded_write {start off data : Octet} (carries : Carries buf chunk [start, off, data])
    (busy : start ≠ wpUsbCtrlIdlePattern) (room : card.rxCmdFreeList ≠ 0) :
    (sdlaUsbRxdataDecode card buf).rxCmds =
      card.rxCmds ++ answered [start, off, data] card.rxCmdFreeList := by
  have first := reading_first buf card
  rw [carries.ctrl 0 (by decide)] at first
  have second := first.idle (by decide)
  rw [carries.ctrl 1 (by decide)] at second
  have third := second.next (by decide) busy
  rw [carries.ctrl 2 (by decide)] at third
  by_cases idle : off = wpUsbCtrlIdlePattern
  · have none_ : answered [start, off, data] card.rxCmdFreeList = [] :=
      if_neg (fun all => all.1 idle)
    subst idle
    have fourth := third.short (by decide) (by simp) (by simp) room
    rw [carries.ctrl 3 (by decide)] at fourth
    rw [none_, List.append_nil]
    by_cases silent : data = wpUsbCtrlIdlePattern
    · subst silent
      have fifth := fourth.idle (by decide)
      rw [carries.ctrl 4 (by decide)] at fifth
      rw [reading_rest carries (by decide) (by decide) (by simp) fifth.collecting]
      exact fifth.same.1
    · have fifth := fourth.next (by decide) silent
      rw [carries.ctrl 4 (by decide)] at fifth
      have sixth := fifth.short (by decide) (by simp) (by simp) room
      rw [carries.ctrl 5 (by decide)] at sixth
      rw [reading_rest carries (by decide) (by decide) (by simp) sixth.collecting]
      exact sixth.same.1
  · have fourth := third.next (by decide) idle
    rw [carries.ctrl 3 (by decide)] at fourth
    by_cases silent : data = wpUsbCtrlIdlePattern
    · have none_ : answered [start, off, data] card.rxCmdFreeList = [] :=
        if_neg (fun all => all.2.1 silent)
      subst silent
      have fifth := fourth.short (by decide) (by simp) (by simp) room
      rw [carries.ctrl 4 (by decide)] at fifth
      rw [none_, List.append_nil,
        reading_rest carries (by decide) (by decide) (by simp) fifth.collecting]
      exact fifth.same.1
    · have whole : answered [start, off, data] card.rxCmdFreeList = [[start, off, data]] :=
        if_pos ⟨idle, silent, room⟩
      have fifth := fourth.next (by decide) silent
      rw [carries.ctrl 4 (by decide)] at fifth
      rcases fifth.cmd (by decide) (by simp) room with ⟨sixth, handed⟩
      rw [carries.ctrl 5 (by decide)] at sixth
      rw [whole, reading_rest carries (by decide) (by decide) (by simp) sixth, handed]
      rfl

theorem decoded_full {cmd : List Octet} (carries : Carries buf chunk cmd)
    (full : card.rxCmdFreeList = 0) :
    (sdlaUsbRxdataDecode card buf).rxCmds = card.rxCmds := by
  rw [sdlaUsbRxdataDecode_quads carries.framed]
  exact (quads_full buf (show (Rx.mk card (fun _ => 0#8) 0).card.rxCmdFreeList = 0 from full)
    wpUsbRxtxChunksize).1

theorem decoded_voice {cmd : List Octet} (carries : Carries buf chunk cmd) (modNo : Fin 2)
    {x : Nat} (inside : x < wpUsbRxtxChunksize) :
    (sdlaUsbRxdataDecode card buf).readchunk modNo x = chunk modNo x := by
  rw [sdlaUsbRxdataDecode_quads carries.framed, quads_readchunk _ _ _ _ x inside,
    carries.voice modNo x inside]

end

end Wanpipe.Usb
