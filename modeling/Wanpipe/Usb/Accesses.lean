import Wanpipe.Usb.RoundTrip

/-! The places of `rx_cmd`, `readchunk` and `regs` that a received block makes the decoder use. -/

namespace Wanpipe.Usb

open Line

inductive Access
  | rxCmd (ind : Nat)
  | readchunk (modNo ind : Nat)
  | regs (modNo reg : Nat)
  deriving DecidableEq, Repr

def rxCmdSize : Nat := 10

def readchunkSize : Nat := wpUsbChunksize * 2 + 1

def regsSize : Nat := 110

def Access.Inside : Access → Prop
  | .rxCmd ind => ind < rxCmdSize
  | .readchunk modNo ind => modNo < 2 ∧ ind < readchunkSize
  | .regs modNo reg => modNo < 2 ∧ reg < regsSize

def isAnswer (rxCmd : List Octet) : Bool :=
  let ctrl := cmdTypeDecode (rxCmd.getD 0 0)
  ctrl = cmdTypeWriteCpu || ctrl = cmdTypeReadCpu || ctrl = cmdTypeWriteFxo || ctrl = cmdTypeReadFxo

def isEvent (rxCmd : List Octet) : Bool := cmdTypeDecode (rxCmd.getD 0 0) = cmdTypeEvent

def eventReg (rxCmd : List Octet) : Octet := rxCmd.getD 1 0

def copied (len : Nat) : List Access := (List.range len).map Access.rxCmd

/-- The places that `sdla_usb_rxcmd_decode` uses. -/
def rxcmdAccesses (rxCmd : List Octet) : List Access :=
  .rxCmd 0 ::
    if isAnswer rxCmd then copied rxCmd.length
    else if isEvent rxCmd then
      [.rxCmd 1, .rxCmd 2, .regs (eventModNo rxCmd) (eventReg rxCmd).toNat]
    else []

def deliverAccesses (rx : Rx) : List Access :=
  if 3 ≤ rx.rxCmdLen then rxcmdAccesses (cmdOctets rx) else []

def endCmdAccesses (rx : Rx) : List Access :=
  deliverAccesses (dropCmd rx) ++ copied (dropCmd rx).rxCmdLen

def octetDoneAccesses (rx : Rx) : List Access :=
  .rxCmd rx.rxCmdLen ::
    if rx.rxCmd rx.rxCmdLen = wpUsbCtrlIdlePattern then
      if rx.rxCmdLen = 0 then [] else endCmdAccesses (clearOctet rx)
    else []

/-- The places that a round of the loop uses. -/
def fieldAccesses (rx : Rx) (x : Nat) (octet : Octet) : List Access :=
  .readchunk (x % 2) (x / 4) ::
    ((if x / 4 ≠ 0 ∧ x % 4 * 2 = 0 then octetDoneAccesses (heard rx x octet) else []) ++
      [.rxCmd (rxdataField rx x octet).rxCmdLen])

def loopAccesses (rxdata : Buf) (rx : Rx) (x : Nat) : Nat → List Access
  | 0 => []
  | n + 1 =>
      if (rxdataOctet rxdata rx x).2 then
        fieldAccesses rx x (octetAt rxdata x) ++
          loopAccesses rxdata (rxdataOctet rxdata rx x).1 (x + 1) n
      else []

/-- The places that `sdla_usb_rxdata_decode` uses. -/
def blockAccesses (card : Card) (rxdata : Buf) : List Access :=
  loopAccesses rxdata ⟨card, fun _ => 0#8, 0⟩ 0 maxUsbRxLen

/-! ### Commands and registers -/

/-- An event for a register. -/
structure Event (rxCmd : List Octet) (modNo : Fin 2) (reg : Octet) : Prop where
  type : isEvent rxCmd = true
  modNo : eventModNo rxCmd = modNo
  reg : eventReg rxCmd = reg

/-- What came of the commands that were handed to `sdla_usb_rxcmd_decode`: the registers used are
those of events, and no others change. -/
structure Handed (before after : Card) (accesses : List Access) (cmds : List (List Octet)) : Prop where
  rxCmds : after.rxCmds = before.rxCmds ++ cmds
  used : ∀ modNo reg : Nat, .regs modNo reg ∈ accesses →
    ∃ cmd ∈ cmds, isEvent cmd = true ∧ modNo = (eventModNo cmd : Nat) ∧ reg = (eventReg cmd).toNat
  uses : ∀ cmd ∈ cmds, isEvent cmd = true →
    .regs (eventModNo cmd) (eventReg cmd).toNat ∈ accesses
  kept : ∀ modNo reg, after.regs modNo reg ≠ before.regs modNo reg →
    ∃ cmd ∈ cmds, Event cmd modNo reg

section

variable {before middle after : Card} {accesses others : List Access} {cmds more : List (List Octet)}

/-- No command is handed on. -/
theorem Handed.none (same : after.rxCmds = before.rxCmds) (regs : after.regs = before.regs)
    (plain : ∀ modNo reg, .regs modNo reg ∉ accesses) : Handed before after accesses [] := by
  refine ⟨?_, fun modNo reg member => absurd member (plain modNo reg), fun cmd member => ?_,
    fun modNo reg changed => ?_⟩
  · rw [same, List.append_nil]
  · exact absurd member List.not_mem_nil
  · rw [regs] at changed
    exact absurd rfl changed

theorem Handed.append (first : Handed before middle accesses cmds)
    (second : Handed middle after others more) :
    Handed before after (accesses ++ others) (cmds ++ more) := by
  constructor
  · rw [second.rxCmds, first.rxCmds, List.append_assoc]
  · intro modNo reg member
    rcases List.mem_append.mp member with early | late
    · obtain ⟨cmd, inside, found⟩ := first.used modNo reg early
      exact ⟨cmd, List.mem_append_left _ inside, found⟩
    · obtain ⟨cmd, inside, found⟩ := second.used modNo reg late
      exact ⟨cmd, List.mem_append_right _ inside, found⟩
  · intro cmd member event
    rcases List.mem_append.mp member with early | late
    · exact List.mem_append_left _ (first.uses cmd early event)
    · exact List.mem_append_right _ (second.uses cmd late event)
  · intro modNo reg changed
    by_cases early : middle.regs modNo reg = before.regs modNo reg
    · rw [← early] at changed
      obtain ⟨cmd, inside, event⟩ := second.kept modNo reg changed
      exact ⟨cmd, List.mem_append_right _ inside, event⟩
    · obtain ⟨cmd, inside, event⟩ := first.kept modNo reg early
      exact ⟨cmd, List.mem_append_left _ inside, event⟩

end

theorem copied_plain (len modNo reg : Nat) : .regs modNo reg ∉ copied len := by
  simp [copied]

theorem isAnswer_iff (rxCmd : List Octet) :
    isAnswer rxCmd = true ↔
      cmdTypeDecode (rxCmd.getD 0 0) = cmdTypeWriteCpu ∨
        cmdTypeDecode (rxCmd.getD 0 0) = cmdTypeReadCpu ∨
        cmdTypeDecode (rxCmd.getD 0 0) = cmdTypeWriteFxo ∨
        cmdTypeDecode (rxCmd.getD 0 0) = cmdTypeReadFxo := by
  simp [isAnswer, or_assoc]

theorem isEvent_iff (rxCmd : List Octet) :
    isEvent rxCmd = true ↔ cmdTypeDecode (rxCmd.getD 0 0) = cmdTypeEvent := by
  simp [isEvent]

theorem isEvent_not_answer {rxCmd : List Octet} (event : isEvent rxCmd = true) :
    ¬isAnswer rxCmd = true := by
  rw [isEvent_iff] at event
  rw [isAnswer_iff, event]
  decide

theorem sdlaUsbRxcmdDecode_handed (card : Card) (rxCmd : List Octet) :
    Handed card (sdlaUsbRxcmdDecode card rxCmd) (rxcmdAccesses rxCmd) [rxCmd] := by
  by_cases event : isEvent rxCmd = true
  · have other := isEvent_not_answer event
    have places : rxcmdAccesses rxCmd =
        [.rxCmd 0, .rxCmd 1, .rxCmd 2, .regs (eventModNo rxCmd) (eventReg rxCmd).toNat] := by
      rw [rxcmdAccesses, if_neg other, if_pos event]
    have decoded : (sdlaUsbRxcmdDecode card rxCmd).regs =
        Function.update card.regs (eventModNo rxCmd)
          (Function.update (card.regs (eventModNo rxCmd)) (eventReg rxCmd) (rxCmd.getD 2 0)) := by
      simp only [sdlaUsbRxcmdDecode]
      rw [if_neg ((isAnswer_iff rxCmd).not.mp other), if_pos ((isEvent_iff rxCmd).mp event)]
      rfl
    refine ⟨sdlaUsbRxcmdDecode_rxCmds card rxCmd, fun modNo reg member => ?_, fun cmd member _ => ?_,
      fun modNo reg changed => ⟨rxCmd, List.mem_cons_self, event, ?_, ?_⟩⟩
    · rw [places] at member
      simp only [List.mem_cons, List.not_mem_nil, reduceCtorEq, false_or, or_false,
        Access.regs.injEq] at member
      exact ⟨rxCmd, List.mem_cons_self, event, member⟩
    · rw [List.mem_singleton.mp member, places]
      simp
    · by_contra apart
      rw [decoded, Function.update_of_ne (Ne.symm apart)] at changed
      exact changed rfl
    · by_contra apart
      rw [decoded] at changed
      by_cases same : modNo = eventModNo rxCmd
      · rw [same, Function.update_self, Function.update_of_ne (Ne.symm apart)] at changed
        exact changed rfl
      · rw [Function.update_of_ne same] at changed
        exact changed rfl
  · have plain : ∀ modNo reg, .regs modNo reg ∉ rxcmdAccesses rxCmd := by
      intro modNo reg member
      rw [rxcmdAccesses, if_neg event] at member
      rcases List.mem_cons.mp member with same | member
      · exact absurd same (by simp)
      · split at member
        · exact copied_plain _ _ _ member
        · exact absurd member List.not_mem_nil
    have kept : (sdlaUsbRxcmdDecode card rxCmd).regs = card.regs := by
      simp only [sdlaUsbRxcmdDecode]
      rw [if_neg ((isEvent_iff rxCmd).not.mp event)]
      split <;> rfl
    refine ⟨sdlaUsbRxcmdDecode_rxCmds card rxCmd, fun modNo reg member => ?_,
      fun cmd member isEvent => ?_, fun modNo reg changed => ?_⟩
    · exact absurd member (plain modNo reg)
    · rw [List.mem_singleton.mp member] at isEvent
      exact absurd isEvent event
    · rw [kept] at changed
      exact absurd rfl changed

theorem deliverCmd_handed (rx : Rx) :
    ∃ cmds, Handed rx.card (deliverCmd rx) (deliverAccesses rx) cmds := by
  unfold deliverCmd deliverAccesses
  split
  · exact ⟨_, sdlaUsbRxcmdDecode_handed rx.card (cmdOctets rx)⟩
  · exact ⟨[], Handed.none rfl rfl fun _ _ => List.not_mem_nil⟩

theorem dropCmd_handed (rx : Rx) : Handed rx.card (dropCmd rx).card [] [] := by
  unfold dropCmd
  split
  · exact Handed.none rfl rfl fun _ _ => List.not_mem_nil
  · exact Handed.none rfl rfl fun _ _ => List.not_mem_nil

theorem endCmd_handed (rx : Rx) :
    ∃ cmds, Handed rx.card (endCmd rx).card (endCmdAccesses rx) cmds := by
  obtain ⟨cmds, handed⟩ := deliverCmd_handed (dropCmd rx)
  have copy : Handed (endCmd rx).card (endCmd rx).card (copied (dropCmd rx).rxCmdLen) [] :=
    Handed.none rfl rfl fun modNo reg => copied_plain _ modNo reg
  exact ⟨_, (dropCmd_handed rx).append (handed.append copy)⟩

theorem cmdOctetDone_handed (rx : Rx) :
    ∃ cmds, Handed rx.card (cmdOctetDone rx).card (octetDoneAccesses rx) cmds := by
  have first : Handed rx.card rx.card [.rxCmd rx.rxCmdLen] [] :=
    Handed.none rfl rfl fun modNo reg => by simp
  unfold octetDoneAccesses
  by_cases idle : rx.rxCmd rx.rxCmdLen = wpUsbCtrlIdlePattern
  · rw [if_pos idle]
    by_cases empty : rx.rxCmdLen = 0
    · rw [if_pos empty, cmdOctetDone_idle idle empty]
      exact ⟨[], Handed.none rfl rfl fun modNo reg => by simp⟩
    · rw [if_neg empty, cmdOctetDone_end idle empty]
      obtain ⟨cmds, handed⟩ := endCmd_handed (clearOctet rx)
      exact ⟨_, first.append handed⟩
  · rw [if_neg idle, cmdOctetDone_next idle]
    exact ⟨[], Handed.none rfl rfl fun modNo reg => by simp⟩

theorem rxdataField_handed (rx : Rx) (x : Nat) (octet : Octet) :
    ∃ cmds, Handed rx.card (rxdataField rx x octet).card (fieldAccesses rx x octet) cmds := by
  have put : Handed rx.card (heard rx x octet).card [.readchunk (x % 2) (x / 4)] [] :=
    Handed.none rfl rfl fun modNo reg => by simp
  have cell : Handed (rxdataField rx x octet).card (rxdataField rx x octet).card
      [.rxCmd (rxdataField rx x octet).rxCmdLen] [] :=
    Handed.none rfl rfl fun modNo reg => by simp
  unfold fieldAccesses
  by_cases whole : x / 4 ≠ 0 ∧ x % 4 * 2 = 0
  · obtain ⟨cmds, handed⟩ := cmdOctetDone_handed (heard rx x octet)
    have done : (rxdataField rx x octet).card = (cmdOctetDone (heard rx x octet)).card := by
      simp only [rxdataField, if_pos whole]
      rfl
    rw [if_pos whole]
    rw [← done] at handed
    exact ⟨_, put.append (handed.append cell)⟩
  · have same : (rxdataField rx x octet).card = (heard rx x octet).card := by
      simp only [rxdataField, if_neg whole]
      rfl
    rw [if_neg whole]
    rw [same] at cell
    rw [same]
    exact ⟨_, put.append cell⟩

theorem rxdataOctet_field {rxdata : Buf} {rx : Rx} {x : Nat}
    (goes : (rxdataOctet rxdata rx x).2 = true) :
    rxdataOctet rxdata rx x = (rxdataField rx x (octetAt rxdata x), true) := by
  simp only [rxdataOctet] at goes ⊢
  split_ifs at goes ⊢
  rfl

theorem rxdataOctet_stops {rxdata : Buf} {rx : Rx} {x : Nat}
    (stops : ¬(rxdataOctet rxdata rx x).2 = true) :
    (rxdataOctet rxdata rx x).1.card.rxCmds = rx.card.rxCmds ∧
      (rxdataOctet rxdata rx x).1.card.regs = rx.card.regs := by
  simp only [rxdataOctet] at stops ⊢
  split_ifs at stops ⊢
  · exact ⟨rfl, rfl⟩
  · exact ⟨rfl, rfl⟩
  · exact absurd rfl stops

theorem rxdataLoop_stops {rxdata : Buf} {rx : Rx} {x n : Nat}
    (stops : ¬(rxdataOctet rxdata rx x).2 = true) :
    rxdataLoop rxdata rx x (n + 1) = (rxdataOctet rxdata rx x).1 := by
  rw [rxdataLoop]
  split
  · rename_i next same
    rw [same] at stops
    exact absurd rfl stops
  · rename_i next same
    rw [same]

/-- The commands that a block hands on are behind all the registers it uses or changes. -/
theorem rxdataLoop_handed (rxdata : Buf) (rx : Rx) (x n : Nat) :
    ∃ cmds, Handed rx.card (rxdataLoop rxdata rx x n).card (loopAccesses rxdata rx x n) cmds := by
  induction n generalizing rx x with
  | zero => exact ⟨[], Handed.none rfl rfl fun _ _ => List.not_mem_nil⟩
  | succ n ih =>
      by_cases goes : (rxdataOctet rxdata rx x).2 = true
      · have field := rxdataOctet_field goes
        obtain ⟨cmds, handed⟩ := rxdataField_handed rx x (octetAt rxdata x)
        obtain ⟨more, later⟩ := ih (rxdataField rx x (octetAt rxdata x)) (x + 1)
        refine ⟨cmds ++ more, ?_⟩
        rw [rxdataLoop, loopAccesses, field]
        exact handed.append later
      · obtain ⟨rxCmds, regs⟩ := rxdataOctet_stops goes
        refine ⟨[], Handed.none ?_ ?_ fun modNo reg => ?_⟩
        · rw [rxdataLoop_stops goes, rxCmds]
        · rw [rxdataLoop_stops goes, regs]
        · rw [loopAccesses, if_neg goes]
          exact List.not_mem_nil

theorem block_handed (card : Card) (rxdata : Buf) :
    ∃ cmds, Handed card (sdlaUsbRxdataDecode card rxdata) (blockAccesses card rxdata) cmds :=
  rxdataLoop_handed rxdata ⟨card, fun _ => 0#8, 0⟩ 0 maxUsbRxLen

/-! ### Lengths -/

/-- All places but those of registers are inside. -/
def Bounded (accesses : List Access) : Prop :=
  ∀ access ∈ accesses, (∀ modNo reg, access ≠ .regs modNo reg) → access.Inside

theorem Bounded.nil : Bounded [] := fun _ member => absurd member List.not_mem_nil

theorem Bounded.cons {access : Access} {accesses : List Access} (inside : access.Inside)
    (bounded : Bounded accesses) : Bounded (access :: accesses) := by
  intro other member plain
  rcases List.mem_cons.mp member with rfl | later
  · exact inside
  · exact bounded other later plain

theorem Bounded.append {left right : List Access} (first : Bounded left) (second : Bounded right) :
    Bounded (left ++ right) := by
  intro access member plain
  rcases List.mem_append.mp member with early | late
  · exact first access early plain
  · exact second access late plain

theorem copied_bounded {len : Nat} (few : len ≤ rxCmdSize) : Bounded (copied len) := by
  intro access member _
  obtain ⟨ind, inside, rfl⟩ := List.mem_map.mp member
  exact Nat.lt_of_lt_of_le (List.mem_range.mp inside) few

theorem rxcmdAccesses_bounded {rxCmd : List Octet} (few : rxCmd.length ≤ rxCmdSize) :
    Bounded (rxcmdAccesses rxCmd) := by
  unfold rxcmdAccesses
  refine Bounded.cons (by decide : 0 < rxCmdSize) ?_
  split
  · exact copied_bounded few
  · split
    · refine Bounded.cons (by decide : 1 < rxCmdSize) (Bounded.cons (by decide : 2 < rxCmdSize) ?_)
      intro access member plain
      exact absurd (List.mem_singleton.mp member) (plain _ _)
    · exact Bounded.nil

theorem dropCmd_len (rx : Rx) : (dropCmd rx).rxCmdLen ≤ rx.rxCmdLen := by
  unfold dropCmd
  split
  · exact Nat.zero_le _
  · exact Nat.le_refl _

theorem endCmdAccesses_bounded {rx : Rx} (few : rx.rxCmdLen ≤ rxCmdSize) :
    Bounded (endCmdAccesses rx) := by
  have less : (dropCmd rx).rxCmdLen ≤ rxCmdSize := Nat.le_trans (dropCmd_len rx) few
  refine Bounded.append ?_ (copied_bounded less)
  unfold deliverAccesses
  split
  · apply rxcmdAccesses_bounded
    simpa [cmdOctets] using less
  · exact Bounded.nil

theorem octetDoneAccesses_bounded {rx : Rx} (few : rx.rxCmdLen < rxCmdSize) :
    Bounded (octetDoneAccesses rx) := by
  refine Bounded.cons few ?_
  split
  · split
    · exact Bounded.nil
    · exact endCmdAccesses_bounded (Nat.le_of_lt few)
  · exact Bounded.nil

theorem cmdOctetDone_len (rx : Rx) : (cmdOctetDone rx).rxCmdLen ≤ rx.rxCmdLen + 1 := by
  by_cases idle : rx.rxCmd rx.rxCmdLen = wpUsbCtrlIdlePattern
  · by_cases empty : rx.rxCmdLen = 0
    · rw [cmdOctetDone_idle idle empty]
      exact Nat.le_succ _
    · rw [cmdOctetDone_end idle empty]
      exact Nat.zero_le _
  · exact Nat.le_of_eq (congrArg Rx.rxCmdLen (cmdOctetDone_next idle))

/-- Four octets of a block make one octet of a command at most. -/
theorem rxdataField_len {rx : Rx} {x : Nat} (few : rx.rxCmdLen ≤ (x - 1) / 4) (octet : Octet) :
    (rxdataField rx x octet).rxCmdLen ≤ x / 4 := by
  by_cases whole : x / 4 ≠ 0 ∧ x % 4 * 2 = 0
  · have done : (rxdataField rx x octet).rxCmdLen =
        (cmdOctetDone (heard rx x octet)).rxCmdLen := by
      simp only [rxdataField, if_pos whole]
      rfl
    have grows : (cmdOctetDone (heard rx x octet)).rxCmdLen ≤ rx.rxCmdLen + 1 :=
      cmdOctetDone_len (heard rx x octet)
    omega
  · have same : (rxdataField rx x octet).rxCmdLen = rx.rxCmdLen := by
      simp only [rxdataField, if_neg whole]
    omega

theorem loopAccesses_bounded (rxdata : Buf) {rx : Rx} {x n : Nat} (rest : x + n ≤ maxUsbRxLen)
    (few : rx.rxCmdLen ≤ (x - 1) / 4) : Bounded (loopAccesses rxdata rx x n) := by
  induction n generalizing rx x with
  | zero => exact Bounded.nil
  | succ n ih =>
      have small : x < 32 := Nat.lt_of_lt_of_le (by omega) rest
      rw [loopAccesses]
      split
      · rename_i goes
        have len := rxdataField_len few (octetAt rxdata x)
        have chunk : x % 2 < 2 ∧ x / 4 < readchunkSize := by
          simp only [readchunkSize, wpUsbChunksize]
          omega
        have cell : (rxdataField rx x (octetAt rxdata x)).rxCmdLen < rxCmdSize := by
          simp only [rxCmdSize]
          omega
        have held : (heard rx x (octetAt rxdata x)).rxCmdLen < rxCmdSize := by
          change rx.rxCmdLen < rxCmdSize
          simp only [rxCmdSize]
          omega
        refine Bounded.append ?_ ?_
        · refine Bounded.cons chunk (Bounded.append ?_ (Bounded.cons cell Bounded.nil))
          split
          · exact octetDoneAccesses_bounded held
          · exact Bounded.nil
        · rw [rxdataOctet_field goes]
          exact ih (by omega) len
      · exact Bounded.nil

theorem blockAccesses_bounded (card : Card) (rxdata : Buf) : Bounded (blockAccesses card rxdata) :=
  loopAccesses_bounded rxdata (Nat.le_refl _) (Nat.zero_le _)

end Wanpipe.Usb
