import Wanpipe.CString
import Wanpipe.Usb.Accesses

/-! Blocks of any octets, and which of them make the decoder write outside of `regs`. -/

namespace Wanpipe.Usb

open Line CString Runs

section Text

/-- The start bits of a group of four octets are there. -/
def begun (buf : Buf) (ind : Nat) : Bool :=
  octetAt buf (4 * ind) &&& 0x10#8 ≠ 0#8 &&
    (ind % wpUsbChunksize ≠ 0 || octetAt buf (4 * ind) &&& 0x20#8 ≠ 0#8)

/-- How many groups are read, from one on: up to the first without its start bits. -/
def groupsFrom (buf : Buf) (ind : Nat) : Nat → Nat
  | 0 => ind
  | n + 1 => if begun buf ind then groupsFrom buf (ind + 1) n else ind

def groups (buf : Buf) : Nat := groupsFrom buf 0 wpUsbRxtxChunksize

/-- The octets of the command channel that come with the first groups, but the last of them. -/
def ctrlOctets (buf : Buf) (n : Nat) : List Octet := (List.range (n - 1)).map (ctrlOctet buf)

/-- The commands of a block: what stands before an idle octet, three octets at least. -/
def commands (buf : Buf) : List (List Octet) :=
  (splitFrom wpUsbCtrlIdlePattern [] (ctrlOctets buf (groups buf))).dropLast.filter
    fun cmd => 3 ≤ cmd.length

end Text

section Groups

theorem rxdataOctet_begun {buf : Buf} {ind : Nat} (starts : begun buf ind = true) (rx : Rx) {k : Nat}
    (small : k < 4) :
    rxdataOctet buf rx (4 * ind + k) =
      (rxdataField rx (4 * ind + k) (octetAt buf (4 * ind + k)), true) := by
  simp only [begun, Bool.and_eq_true, Bool.or_eq_true, decide_eq_true_eq] at starts
  obtain ⟨start, first⟩ := starts
  have frame : ¬((4 * ind + k) % 2 = 0 ∧ (4 * ind + k) % 4 / 2 = 0 ∧
      (4 * ind + k) / 4 % wpUsbChunksize = 0 ∧ octetAt buf (4 * ind + k) &&& 0x20#8 = 0#8) := by
    rintro ⟨even, low, whole, missing⟩
    have zero : k = 0 := by omega
    have quarter : (4 * ind + k) / 4 = ind := by omega
    rw [quarter] at whole
    rw [zero, Nat.add_zero] at missing
    rcases first with other | present
    · exact other whole
    · exact present missing
  have startBit : ¬((4 * ind + k) % 4 = 0 ∧ octetAt buf (4 * ind + k) &&& 0x10#8 = 0#8) := by
    rintro ⟨whole, missing⟩
    have zero : k = 0 := by omega
    rw [zero, Nat.add_zero] at missing
    exact start missing
  simp only [rxdataOctet, if_neg frame, if_neg startBit]

theorem rxdataOctet_missing {buf : Buf} {ind : Nat} (missing : ¬begun buf ind = true) (rx : Rx) :
    ¬(rxdataOctet buf rx (4 * ind)).2 = true := by
  simp only [begun, Bool.and_eq_true, Bool.or_eq_true, decide_eq_true_eq, not_and_or, not_or,
    not_not] at missing
  have quarter : 4 * ind / 4 = ind := by omega
  simp only [rxdataOctet, quarter]
  split_ifs with frame start
  · simp
  · simp
  · rcases missing with missing | ⟨whole, missing⟩
    · exact absurd ⟨by omega, missing⟩ start
    · exact absurd ⟨by omega, by omega, whole, missing⟩ frame

theorem rxdataLoop_goes {buf : Buf} {rx next : Rx} {x : Nat}
    (goes : rxdataOctet buf rx x = (next, true)) (n : Nat) :
    rxdataLoop buf rx x (n + 1) = rxdataLoop buf next (x + 1) n := by
  rw [rxdataLoop, goes]

theorem rxdataLoop_group {buf : Buf} {ind : Nat} (starts : begun buf ind = true) (rx : Rx) (n : Nat) :
    rxdataLoop buf rx (4 * ind) (n + 4) = rxdataLoop buf (quad buf rx ind) (4 * (ind + 1)) n := by
  have next : 4 * ind + 3 + 1 = 4 * (ind + 1) := by omega
  have first := rxdataOctet_begun starts rx (show 0 < 4 by decide)
  rw [Nat.add_zero] at first
  rw [← rxdataField_four, rxdataLoop_goes first,
    rxdataLoop_goes (rxdataOctet_begun starts _ (show 1 < 4 by decide)),
    rxdataLoop_goes (rxdataOctet_begun starts _ (show 2 < 4 by decide)),
    rxdataLoop_goes (rxdataOctet_begun starts _ (show 3 < 4 by decide)), next]

/-- The loop reads groups up to the first that does not start. -/
theorem rxdataLoop_groups (buf : Buf) (rx : Rx) (ind n : Nat) :
    (rxdataLoop buf (quads buf rx ind) (4 * ind) (4 * n)).card.rxCmds =
      (quads buf rx (groupsFrom buf ind n)).card.rxCmds := by
  induction n generalizing ind with
  | zero => rfl
  | succ n ih =>
      rw [groupsFrom]
      by_cases starts : begun buf ind = true
      · rw [if_pos starts, Nat.mul_succ, rxdataLoop_group starts, ← quads_succ, ih]
      · rw [if_neg starts, Nat.mul_succ,
          show 4 * n + 4 = (4 * n + 3) + 1 by omega, rxdataLoop_stops (rxdataOctet_missing starts _)]
        exact (rxdataOctet_stops (rxdataOctet_missing starts _)).1

theorem groupsFrom_le (buf : Buf) (ind n : Nat) : groupsFrom buf ind n ≤ ind + n := by
  induction n generalizing ind with
  | zero => exact Nat.le_refl _
  | succ n ih =>
      rw [groupsFrom]
      split
      · exact (ih (ind + 1)).trans (by omega)
      · omega

end Groups

section Commands

variable {buf : Buf} {card : Card} {n : Nat}

theorem ctrlOctets_next (buf : Buf) (some_ : n ≠ 0) :
    ctrlOctets buf (n + 1) = ctrlOctets buf n ++ [ctrlOctet buf (n - 1)] := by
  obtain ⟨m, rfl⟩ := Nat.exists_eq_succ_of_ne_zero some_
  rw [ctrlOctets, ctrlOctets, Nat.add_sub_cancel, Nat.succ_sub_one, List.range_succ, List.map_append]
  rfl

theorem ctrlOctets_length (buf : Buf) (n : Nat) : (ctrlOctets buf n).length = n - 1 := by
  simp [ctrlOctets]

/-- Too few octets for a command: none is handed on. -/
theorem quad_few (buf : Buf) {rx : Rx} {ind : Nat} (later : ind ≠ 0) (few : rx.rxCmdLen < 3) :
    (quad buf rx ind).card.rxCmds = rx.card.rxCmds ∧
      (quad buf rx ind).rxCmdLen ≤ rx.rxCmdLen + 1 := by
  have cmds := (quad_cmds buf rx later).1
  have len : (quad buf rx ind).rxCmdLen = (cmdOctetDone rx).rxCmdLen := by
    simp only [quad, if_neg later, hear, addPair]
  refine ⟨cmds.trans ?_, len ▸ cmdOctetDone_len rx⟩
  by_cases idle : rx.rxCmd rx.rxCmdLen = wpUsbCtrlIdlePattern
  · by_cases empty : rx.rxCmdLen = 0
    · rw [cmdOctetDone_idle idle empty]
      rfl
    · have short : ¬3 ≤ (dropCmd (clearOctet rx)).rxCmdLen := by
        have less : (dropCmd (clearOctet rx)).rxCmdLen ≤ rx.rxCmdLen := dropCmd_len _
        omega
      rw [cmdOctetDone_end idle empty]
      simp only [endCmd, deliverCmd, if_neg short]
      exact (dropCmd_handed (clearOctet rx)).rxCmds.trans (List.append_nil _)
  · rw [cmdOctetDone_next idle]

/-- The commands that the first groups of a block have handed on. Behind the first of them too little
of the block is left for another. -/
structure Progress (buf : Buf) (card : Card) (n : Nat) (done : List (List Octet))
    (piece : List Octet) : Prop where
  cut : splitFrom wpUsbCtrlIdlePattern [] (ctrlOctets buf n) = done ++ [piece]
  handed : (quads buf ⟨card, fun _ => 0#8, 0⟩ n).card.rxCmds =
    card.rxCmds ++ done.filter fun cmd => 3 ≤ cmd.length
  phase : Collecting (quads buf ⟨card, fun _ => 0#8, 0⟩ n) piece (ctrlOctet buf (n - 1)) ∧
      (quads buf ⟨card, fun _ => 0#8, 0⟩ n).card.rxCmdFreeList ≠ 0 ∨
    piece.length + 5 ≤ n ∧ (quads buf ⟨card, fun _ => 0#8, 0⟩ n).rxCmdLen + 5 ≤ n

variable {done : List (List Octet)} {piece : List Octet}

theorem progress_first (buf : Buf) (room : card.rxCmdFreeList ≠ 0) :
    Progress buf card 1 [] [] := by
  have reading := reading_first buf card
  refine ⟨rfl, ?_, Or.inl ⟨reading.collecting, ?_⟩⟩
  · rw [reading.same.1]
    exact (List.append_nil _).symm
  · rwa [reading.same.2]

theorem Progress.cut_idle (progress : Progress buf card n done piece) (some_ : n ≠ 0)
    (idle : ctrlOctet buf (n - 1) = wpUsbCtrlIdlePattern) :
    splitFrom wpUsbCtrlIdlePattern [] (ctrlOctets buf (n + 1)) = (done ++ [piece]) ++ [[]] := by
  rw [ctrlOctets_next buf some_, splitFrom_concat _ _ _ progress.cut, if_pos idle]

theorem Progress.cut_other (progress : Progress buf card n done piece) (some_ : n ≠ 0)
    (other : ctrlOctet buf (n - 1) ≠ wpUsbCtrlIdlePattern) :
    splitFrom wpUsbCtrlIdlePattern [] (ctrlOctets buf (n + 1)) =
      done ++ [piece ++ [ctrlOctet buf (n - 1)]] := by
  rw [ctrlOctets_next buf some_, splitFrom_concat _ _ _ progress.cut, if_neg other]

theorem filter_short (done : List (List Octet)) {piece : List Octet} (few : piece.length < 3) :
    (done ++ [piece]).filter (fun cmd => 3 ≤ cmd.length) =
      done.filter fun cmd => 3 ≤ cmd.length := by
  rw [List.filter_append, List.filter_cons_of_neg (by simpa using few), List.filter_nil,
    List.append_nil]

theorem filter_long (done : List (List Octet)) {piece : List Octet} (long : 3 ≤ piece.length) :
    (done ++ [piece]).filter (fun cmd => 3 ≤ cmd.length) =
      done.filter (fun cmd => 3 ≤ cmd.length) ++ [piece] := by
  rw [List.filter_append, List.filter_cons_of_pos (by simpa using long), List.filter_nil]

/-- One group more. -/
theorem Progress.next (progress : Progress buf card n done piece) (some_ : n ≠ 0)
    (small : n < wpUsbRxtxChunksize) : ∃ done' piece', Progress buf card (n + 1) done' piece' := by
  have bound : n < 8 := small
  have pieceShort : piece.length ≤ n - 1 := by
    have inside : piece ∈ splitFrom wpUsbCtrlIdlePattern [] (ctrlOctets buf n) := by
      rw [progress.cut]
      simp
    have short := splitFrom_lengths piece inside
    rwa [ctrlOctets_length, List.length_nil, Nat.zero_add] at short
  rcases progress.phase with ⟨collecting, room⟩ | ⟨pieceFew, lenFew⟩
  · by_cases idle : ctrlOctet buf (n - 1) = wpUsbCtrlIdlePattern
    · have cut := progress.cut_idle some_ idle
      rw [idle] at collecting
      rcases Nat.lt_or_ge piece.length 3 with few | long
      · have kept : Collecting (quad buf (quads buf ⟨card, fun _ => 0#8, 0⟩ n) n) []
            (ctrlOctet buf n) ∧ SameCmds (quads buf ⟨card, fun _ => 0#8, 0⟩ n).card
              (quad buf (quads buf ⟨card, fun _ => 0#8, 0⟩ n) n).card := by
          by_cases empty : piece = []
          · rw [empty] at collecting
            exact collecting.idle buf some_
          · exact collecting.short buf some_ empty few room
        refine ⟨done ++ [piece], [], cut, ?_, Or.inl ⟨?_, ?_⟩⟩
        · rw [quads_succ, kept.2.1, progress.handed, filter_short done few]
        · rw [quads_succ]
          exact kept.1
        · rw [quads_succ, kept.2.2]
          exact room
      · obtain ⟨again, cmds⟩ := collecting.cmd buf some_ long room
        refine ⟨done ++ [piece], [], cut, ?_, Or.inr ⟨?_, ?_⟩⟩
        · rw [quads_succ, cmds, progress.handed, filter_long done long, List.append_assoc]
        · rw [List.length_nil]
          omega
        · rw [quads_succ, again.len, List.length_nil]
          omega
    · obtain ⟨again, same⟩ := collecting.next buf some_ idle
      refine ⟨done, _, progress.cut_other some_ idle, ?_, Or.inl ⟨?_, ?_⟩⟩
      · rw [quads_succ, same.1, progress.handed]
      · rw [quads_succ]
        exact again
      · rw [quads_succ, same.2]
        exact room
  · have few : (quads buf ⟨card, fun _ => 0#8, 0⟩ n).rxCmdLen < 3 := by omega
    obtain ⟨cmds, len⟩ := quad_few buf some_ few
    by_cases idle : ctrlOctet buf (n - 1) = wpUsbCtrlIdlePattern
    · refine ⟨done ++ [piece], [], progress.cut_idle some_ idle, ?_, Or.inr ⟨?_, ?_⟩⟩
      · have few : piece.length < 3 := by omega
        rw [quads_succ, cmds, progress.handed, filter_short done few]
      · rw [List.length_nil]
        omega
      · rw [quads_succ]
        omega
    · refine ⟨done, _, progress.cut_other some_ idle, ?_, Or.inr ⟨?_, ?_⟩⟩
      · rw [quads_succ, cmds, progress.handed]
      · rw [List.length_append, List.length_singleton]
        omega
      · rw [quads_succ]
        omega

theorem progress_all (buf : Buf) (room : card.rxCmdFreeList ≠ 0) (few : n < wpUsbRxtxChunksize) :
    ∃ done piece, Progress buf card (n + 1) done piece := by
  induction n with
  | zero => exact ⟨[], [], progress_first buf room⟩
  | succ n ih =>
      obtain ⟨done, piece, progress⟩ := ih (Nat.lt_of_succ_lt few)
      exact progress.next (Nat.succ_ne_zero n) few

/-- The commands that are handed on are those of the block, if there is a buffer. -/
theorem block_commands (card : Card) (buf : Buf) :
    (sdlaUsbRxdataDecode card buf).rxCmds =
      card.rxCmds ++ if card.rxCmdFreeList = 0 then [] else commands buf := by
  have read : (sdlaUsbRxdataDecode card buf).rxCmds =
      (quads buf ⟨card, fun _ => 0#8, 0⟩ (groups buf)).card.rxCmds :=
    rxdataLoop_groups buf ⟨card, fun _ => 0#8, 0⟩ 0 wpUsbRxtxChunksize
  rw [read]
  by_cases full : card.rxCmdFreeList = 0
  · rw [if_pos full, List.append_nil]
    have empty : (⟨card, fun _ => 0#8, 0⟩ : Rx).card.rxCmdFreeList = 0 := full
    exact (quads_full buf empty (groups buf)).1
  · rw [if_neg full]
    have most : groups buf ≤ wpUsbRxtxChunksize := by
      have le := groupsFrom_le buf 0 wpUsbRxtxChunksize
      rwa [Nat.zero_add] at le
    cases count : groups buf with
    | zero =>
        have none : commands buf = [] := by
          rw [commands, count]
          rfl
        rw [none, List.append_nil]
        rfl
    | succ n =>
        have few : n < wpUsbRxtxChunksize := by omega
        obtain ⟨done, piece, progress⟩ := progress_all buf full few
        rw [progress.handed, commands, count, progress.cut, List.dropLast_concat]

end Commands

section Hostile

/-- A block is decoded, or an answer is read and its buffer freed. -/
inductive Heard
  | block (rxdata : Buf)
  | readPoll

def hears (card : Card) : Heard → Card
  | .block rxdata => sdlaUsbRxdataDecode card rxdata
  | .readPoll => (sdlaUsbReadPoll card).1

/-- Every place used is inside of its array, and a register changes only through an event of the
block that has three octets at least and a register of the shadow. -/
structure Safe (card : Card) (rxdata : Buf) : Prop where
  inside : ∀ access ∈ blockAccesses card rxdata, access.Inside
  kept : ∀ modNo reg, (sdlaUsbRxdataDecode card rxdata).regs modNo reg ≠ card.regs modNo reg →
    ∃ cmd ∈ commands rxdata, Event cmd modNo reg ∧ reg.toNat < regsSize

/-- No event of the block is for a register behind the shadow, unless it is dropped. -/
def Shadowed (card : Card) (rxdata : Buf) : Prop :=
  card.rxCmdFreeList ≠ 0 →
    ∀ cmd ∈ commands rxdata, isEvent cmd = true → (eventReg cmd).toNat < regsSize

def SafeStep (card : Card) : Heard → Prop
  | .block rxdata => Safe card rxdata
  | .readPoll => True

def ShadowedStep (card : Card) : Heard → Prop
  | .block rxdata => Shadowed card rxdata
  | .readPoll => True

theorem safe_iff (card : Card) (rxdata : Buf) : Safe card rxdata ↔ Shadowed card rxdata := by
  obtain ⟨cmds, handed⟩ := block_handed card rxdata
  have same : cmds = if card.rxCmdFreeList = 0 then [] else commands rxdata :=
    List.append_cancel_left (handed.rxCmds.symm.trans (block_commands card rxdata))
  constructor
  · intro safe room cmd member event
    have given : cmd ∈ cmds := by
      rw [same, if_neg room]
      exact member
    exact (safe.inside _ (handed.uses cmd given event)).2
  · intro shadowed
    have shadow : ∀ cmd ∈ cmds, isEvent cmd = true →
        cmd ∈ commands rxdata ∧ (eventReg cmd).toNat < regsSize := by
      intro cmd given event
      by_cases full : card.rxCmdFreeList = 0
      · rw [same, if_pos full] at given
        exact absurd given List.not_mem_nil
      · rw [same, if_neg full] at given
        exact ⟨given, shadowed full cmd given event⟩
    constructor
    · intro access member
      by_cases plain : ∀ modNo reg, access ≠ .regs modNo reg
      · exact blockAccesses_bounded card rxdata access member plain
      · simp only [not_forall, not_not] at plain
        obtain ⟨modNo, reg, rfl⟩ := plain
        obtain ⟨cmd, given, event, rfl, rfl⟩ := handed.used modNo reg member
        exact ⟨(eventModNo cmd).isLt, (shadow cmd given event).2⟩
    · intro modNo reg changed
      obtain ⟨cmd, given, event⟩ := handed.kept modNo reg changed
      obtain ⟨inside, less⟩ := shadow cmd given event.type
      rw [event.reg] at less
      exact ⟨cmd, inside, event, less⟩

/-- The decoder stays in its arrays exactly as long as no event that it takes names a register from
110 on. -/
theorem hostile_blocks (card : Card) (ops : List Heard) :
    Along (fun card op => some (hears card op)) SafeStep card ops ↔
      Along (fun card op => some (hears card op)) ShadowedStep card ops := by
  have same : ∀ card op, SafeStep card op ↔ ShadowedStep card op := by
    intro card op
    cases op with
    | block rxdata => exact safe_iff card rxdata
    | readPoll => exact Iff.rfl
  exact ⟨Along.mono fun card op => (same card op).mp, Along.mono fun card op => (same card op).mpr⟩

/-- A block with an event for register 110. -/
def eventBlock : Buf :=
  [0x30, 0x00, 0xC0, 0x00, 0x50, 0x80, 0xC0, 0x80, 0x10, 0x00, 0x00, 0x00, 0x50, 0xC0, 0xC0, 0x80,
    0x50, 0xC0, 0xC0, 0x80, 0x50, 0xC0, 0xC0, 0x80, 0x50, 0xC0, 0xC0, 0x80, 0x50, 0xC0, 0xC0, 0x80]

theorem hostile_blocks_event :
    ¬Along (fun card op => some (hears card op)) SafeStep
      ⟨fun _ _ => 0, fun _ _ => 0, fun _ _ => 0, [], 20, [], 20, ⟨0, 0, 0, 0, 0, 0⟩, []⟩
      [.block eventBlock] := by
  rintro ⟨safe, -⟩
  have shadowed := (safe_iff _ eventBlock).mp safe (by decide)
  exact absurd (shadowed [0x0C, 0x6E, 0x00] (by decide) (by decide)) (by decide)

end Hostile

end Wanpipe.Usb
