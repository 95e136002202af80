import Wanpipe.Runs
import Wanpipe.Usb.Accesses
import Wanpipe.Usb.Commands
import Wanpipe.Usb.Exchange

/-! The buffers of the register commands stay on their queues, and a read is answered by its own
reply, as long as no other reply comes first. -/

namespace Wanpipe.Usb.Commands

open Line Runs

def readType : Side → Octet
  | .fxo _ => cmdTypeReadFxo
  | .cpu => cmdTypeReadCpu

/-- The reply is to this very read, and has come since that was queued. -/
structure Replies (call : Call) (reply : List Octet) : Prop where
  since : call.stood = []
  type : cmdTypeDecode (reply.getD 0 0) = readType call.side
  modNo : ∀ modNo, call.side = .fxo modNo → eventModNo reply = modNo
  off : reply.getD 1 0 = call.off

/-- Every buffer is on one of its two queues, and the queues are as long as the card's. -/
structure Conserved (pool : Pool) : Prop where
  tx : pool.tx.Whole (List.range wpUsbMaxTxCmdQlen)
  rx : pool.rx.Whole (List.range wpUsbMaxRxCmdQlen)
  txFree : pool.tx.free.length = pool.card.txCmdFreeList
  txBusy : pool.tx.busy.length = pool.card.txCmdList.length
  rxFree : pool.rx.free.length = pool.card.rxCmdFreeList
  rxBusy : pool.rx.busy.length = pool.card.rxCmdList.length

/-- A read that has a value has it from a reply to it. -/
def Answers (pool : Pool) : Op → Prop
  | .reply => ∀ call value, pool.running = some call → (readReply pool call).2 = some value →
      ∃ reply replies, pool.card.rxCmdList = reply :: replies ∧ Replies call reply ∧
        value = reply.getD 2 0
  | _ => True

def Meets (pool : Pool) (op : Op) : Prop := Conserved (step pool op) ∧ Answers pool op

/-- The first reply on the list can be taken by the read: that of a CPU register puts a reply for
another register back, that of a module does not. -/
def Suits (call : Call) (reply : List Octet) : Prop :=
  match call.side with
  | .fxo _ => Replies call reply
  | .cpu => reply.getD 1 0 = call.off → Replies call reply

def Clean (pool : Pool) : Op → Prop
  | .reply => ∀ call reply replies, pool.running = some call →
      pool.card.rxCmdList = reply :: replies → Suits call reply
  | _ => True

section Decode

/-- Commands have been filed on `rx_cmd_list`, in buffers that were free. -/
structure Filed (before after : Card) (cmds : List (List Octet)) : Prop where
  list : after.rxCmdList = before.rxCmdList ++ cmds
  free : before.rxCmdFreeList = after.rxCmdFreeList + cmds.length
  txList : after.txCmdList = before.txCmdList
  txFree : after.txCmdFreeList = before.txCmdFreeList

variable {before middle after : Card} {cmds more : List (List Octet)}

theorem Filed.none (list : after.rxCmdList = before.rxCmdList)
    (free : after.rxCmdFreeList = before.rxCmdFreeList) (txList : after.txCmdList = before.txCmdList)
    (txFree : after.txCmdFreeList = before.txCmdFreeList) : Filed before after [] := by
  refine ⟨?_, free.symm, txList, txFree⟩
  rw [list, List.append_nil]

theorem Filed.append (first : Filed before middle cmds) (second : Filed middle after more) :
    Filed before after (cmds ++ more) := by
  refine ⟨?_, ?_, second.txList.trans first.txList, second.txFree.trans first.txFree⟩
  · rw [second.list, first.list, List.append_assoc]
  · rw [first.free, second.free, List.length_append]
    omega

/-- A command that is handed on takes a buffer, if it is an answer. -/
theorem sdlaUsbRxcmdDecode_filed {card : Card} (room : card.rxCmdFreeList ≠ 0)
    (rxCmd : List Octet) : ∃ cmds, Filed card (sdlaUsbRxcmdDecode card rxCmd) cmds := by
  simp only [sdlaUsbRxcmdDecode]
  split_ifs with answer event side
  · refine ⟨[rxCmd], rfl, ?_, rfl, rfl⟩
    change card.rxCmdFreeList = card.rxCmdFreeList - 1 + 1
    omega
  all_goals exact ⟨[], Filed.none rfl rfl rfl rfl⟩

theorem dropCmd_filed (rx : Rx) : Filed rx.card (dropCmd rx).card [] := by
  unfold dropCmd
  split
  · exact Filed.none rfl rfl rfl rfl
  · exact Filed.none rfl rfl rfl rfl

theorem dropCmd_room {rx : Rx} (long : 3 ≤ (dropCmd rx).rxCmdLen) :
    (dropCmd rx).card.rxCmdFreeList ≠ 0 := by
  unfold dropCmd at long ⊢
  split at long
  · cases long
  · rename_i room
    rwa [if_neg room]

theorem endCmd_filed (rx : Rx) : ∃ cmds, Filed rx.card (endCmd rx).card cmds := by
  have dropped := dropCmd_filed rx
  by_cases long : 3 ≤ (dropCmd rx).rxCmdLen
  · obtain ⟨cmds, filed⟩ := sdlaUsbRxcmdDecode_filed (dropCmd_room long) (cmdOctets (dropCmd rx))
    refine ⟨[] ++ cmds, dropped.append ?_⟩
    simp only [endCmd, deliverCmd]
    rwa [if_pos long]
  · refine ⟨[] ++ [], dropped.append ?_⟩
    simp only [endCmd, deliverCmd]
    rw [if_neg long]
    exact Filed.none rfl rfl rfl rfl

theorem cmdOctetDone_filed (rx : Rx) : ∃ cmds, Filed rx.card (cmdOctetDone rx).card cmds := by
  by_cases idle : rx.rxCmd rx.rxCmdLen = wpUsbCtrlIdlePattern
  · by_cases empty : rx.rxCmdLen = 0
    · rw [cmdOctetDone_idle idle empty]
      exact ⟨[], Filed.none rfl rfl rfl rfl⟩
    · rw [cmdOctetDone_end idle empty]
      exact endCmd_filed (clearOctet rx)
  · rw [cmdOctetDone_next idle]
    exact ⟨[], Filed.none rfl rfl rfl rfl⟩

theorem rxdataField_filed (rx : Rx) (x : Nat) (octet : Octet) :
    ∃ cmds, Filed rx.card (rxdataField rx x octet).card cmds := by
  have put : Filed rx.card (heard rx x octet).card [] := Filed.none rfl rfl rfl rfl
  by_cases whole : x / 4 ≠ 0 ∧ x % 4 * 2 = 0
  · obtain ⟨cmds, filed⟩ := cmdOctetDone_filed (heard rx x octet)
    have done : (rxdataField rx x octet).card = (cmdOctetDone (heard rx x octet)).card := by
      simp only [rxdataField, if_pos whole]
      rfl
    rw [← done] at filed
    exact ⟨_, put.append filed⟩
  · have same : (rxdataField rx x octet).card = (heard rx x octet).card := by
      simp only [rxdataField, if_neg whole]
      rfl
    rw [same]
    exact ⟨_, put⟩

theorem rxdataOctet_filed {rxdata : Buf} {rx : Rx} {x : Nat}
    (stops : ¬ (rxdataOctet rxdata rx x).2 = true) :
    Filed rx.card (rxdataOctet rxdata rx x).1.card [] := by
  simp only [rxdataOctet] at stops ⊢
  split_ifs at stops ⊢
  · exact Filed.none rfl rfl rfl rfl
  · exact Filed.none rfl rfl rfl rfl
  · exact absurd rfl stops

theorem rxdataLoop_filed (rxdata : Buf) (rx : Rx) (x n : Nat) :
    ∃ cmds, Filed rx.card (rxdataLoop rxdata rx x n).card cmds := by
  induction n generalizing rx x with
  | zero => exact ⟨[], Filed.none rfl rfl rfl rfl⟩
  | succ n ih =>
      by_cases goes : (rxdataOctet rxdata rx x).2 = true
      · obtain ⟨cmds, filed⟩ := rxdataField_filed rx x (octetAt rxdata x)
        obtain ⟨more, later⟩ := ih (rxdataField rx x (octetAt rxdata x)) (x + 1)
        refine ⟨cmds ++ more, ?_⟩
        rw [rxdataLoop, rxdataOctet_field goes]
        exact filed.append later
      · refine ⟨[], ?_⟩
        rw [rxdataLoop_stops goes]
        exact rxdataOctet_filed goes

theorem decode_filed (card : Card) (rxdata : Buf) :
    ∃ cmds, Filed card (sdlaUsbRxdataDecode card rxdata) cmds :=
  rxdataLoop_filed rxdata ⟨card, fun _ => 0#8, 0⟩ 0 maxUsbRxLen

end Decode

section Steps

variable {pool : Pool}

/-- A command takes a buffer, if there is one. -/
structure Queued (before after : Card) : Prop where
  free : after.txCmdFreeList = before.txCmdFreeList - 1
  list : after.txCmdList.length = before.txCmdList.length + min 1 before.txCmdFreeList
  rxFree : after.rxCmdFreeList = before.rxCmdFreeList
  rxList : after.rxCmdList = before.rxCmdList

theorem queueCmd_queued (card : Card) (cmd : List Octet) : Queued card (queueCmd card cmd) := by
  unfold queueCmd
  split
  · rename_i none
    refine ⟨?_, ?_, rfl, rfl⟩
    · change card.txCmdFreeList = _
      omega
    · change card.txCmdList.length = _
      omega
  · refine ⟨rfl, ?_, rfl, rfl⟩
    rw [List.length_append, List.length_singleton]
    omega

theorem cardRead_queued (card : Card) (side : Side) (off : Octet) :
    Queued card (cardRead card side off) := by
  cases side with
  | fxo modNo => exact queueCmd_queued card _
  | cpu => exact queueCmd_queued card _

theorem cardWrite_queued (card : Card) (side : Side) (off data : Octet) :
    Queued card (cardWrite card side off data) := by
  cases side with
  | fxo modNo =>
      have queued := queueCmd_queued card (writeFxoCmd modNo off data)
      simp only [cardWrite, sdlaUsbFxoWrite]
      split
      · exact queued
      · exact ⟨queued.free, queued.list, queued.rxFree, queued.rxList⟩
  | cpu => exact queueCmd_queued card _

theorem Queued.conserved {card : Card} (queued : Queued pool.card card)
    (conserved : Conserved pool) :
    Conserved { pool with card := card, tx := pool.tx.take 1 } where
  tx := conserved.tx.take 1
  rx := conserved.rx
  txFree := by
    rw [queued.free, ← conserved.txFree, Queues.take, List.length_drop]
  txBusy := by
    rw [queued.list, ← conserved.txFree, ← conserved.txBusy, Queues.take, List.length_append,
      List.length_take]
  rxFree := conserved.rxFree.trans queued.rxFree.symm
  rxBusy := by
    rw [queued.rxList]
    exact conserved.rxBusy

/-- Where there is no buffer none is taken. -/
theorem Queued.none {card : Card} (queued : Queued pool.card card) (conserved : Conserved pool)
    (empty : pool.card.txCmdFreeList = 0) : Conserved { pool with card := card } where
  tx := conserved.tx
  rx := conserved.rx
  txFree := by
    rw [queued.free, conserved.txFree, empty]
  txBusy := by
    rw [queued.list, conserved.txBusy, empty]
    rfl
  rxFree := conserved.rxFree.trans queued.rxFree.symm
  rxBusy := by
    rw [queued.rxList]
    exact conserved.rxBusy

theorem readDone_conserved (conserved : Conserved pool) : Conserved (readDone pool) :=
  ⟨conserved.tx, conserved.rx, conserved.txFree, conserved.txBusy, conserved.rxFree,
    conserved.rxBusy⟩

theorem queueRead_conserved (conserved : Conserved pool) (side : Side) (off : Octet) :
    Conserved (queueRead pool side off) := by
  have queued := cardRead_queued pool.card side off
  unfold queueRead
  split_ifs with running busy empty
  · exact conserved
  · exact readDone_conserved ⟨conserved.tx, conserved.rx, conserved.txFree, conserved.txBusy,
      conserved.rxFree, conserved.rxBusy⟩
  · exact readDone_conserved (queued.none conserved empty)
  · have taken := queued.conserved conserved
    exact ⟨taken.tx, taken.rx, taken.txFree, taken.txBusy, taken.rxFree, taken.rxBusy⟩

theorem readQueue_conserved (conserved : Conserved pool) (side : Side) (off : Octet) :
    Conserved (readQueue pool side off) := by
  cases side with
  | fxo modNo => exact queueRead_conserved conserved (.fxo modNo) off
  | cpu =>
      simp only [readQueue, cpuReadQueue]
      split
      · exact queueRead_conserved conserved .cpu off
      · exact ⟨conserved.tx, conserved.rx, conserved.txFree, conserved.txBusy, conserved.rxFree,
          conserved.rxBusy⟩

theorem queueWrite_conserved (conserved : Conserved pool) (side : Side) (off data : Octet) :
    Conserved (queueWrite pool side off data) := by
  unfold queueWrite
  split
  · exact conserved
  · exact (cardWrite_queued pool.card side off data).conserved conserved

theorem sdlaUsbTxdataEncode_idle_card {card : Card} (none : card.txCmdList = []) :
    (sdlaUsbTxdataEncode card).1 = card := by
  simp only [sdlaUsbTxdataEncode, none]

theorem sdlaUsbTxdataEncode_cmd_card {card : Card} {cmd : List Octet} {cmds : List (List Octet)}
    (first : card.txCmdList = cmd :: cmds) :
    (sdlaUsbTxdataEncode card).1 =
      { card with txCmdList := cmds, txCmdFreeList := card.txCmdFreeList + 1 } := by
  simp only [sdlaUsbTxdataEncode, first]

theorem encode_conserved (conserved : Conserved pool) : Conserved (encode pool) := by
  have busy := conserved.txBusy
  have free := conserved.txFree
  unfold encode
  cases list : pool.card.txCmdList with
  | nil =>
      rw [list, List.length_nil] at busy
      rw [sdlaUsbTxdataEncode_idle_card list]
      refine ⟨conserved.tx.give 1, conserved.rx, ?_, ?_, conserved.rxFree, conserved.rxBusy⟩
      · simp only [Queues.give, List.length_append, List.length_take]
        omega
      · simp only [Queues.give, List.length_drop, list, List.length_nil]
        omega
  | cons cmd cmds =>
      rw [list, List.length_cons] at busy
      rw [sdlaUsbTxdataEncode_cmd_card list]
      refine ⟨conserved.tx.give 1, conserved.rx, ?_, ?_, conserved.rxFree, conserved.rxBusy⟩
      · simp only [Queues.give, List.length_append, List.length_take]
        omega
      · simp only [Queues.give, List.length_drop]
        omega

theorem decode_conserved (conserved : Conserved pool) (rxdata : Buf) :
    Conserved (decode pool rxdata) := by
  obtain ⟨cmds, filed⟩ := decode_filed pool.card rxdata
  have free := conserved.rxFree
  have busy := conserved.rxBusy
  have many : (sdlaUsbRxdataDecode pool.card rxdata).rxCmdList.length -
      pool.card.rxCmdList.length = cmds.length := by
    rw [filed.list, List.length_append, Nat.add_sub_cancel_left]
  refine ⟨conserved.tx, conserved.rx.take _, conserved.txFree.trans filed.txFree.symm,
    conserved.txBusy.trans (congrArg List.length filed.txList.symm), ?_, ?_⟩
  · simp only [decode, many, Queues.take, List.length_drop]
    rw [free, filed.free, Nat.add_sub_cancel]
  · have room : cmds.length ≤ pool.card.rxCmdFreeList := by
      rw [filed.free]
      omega
    rw [decode, many, filed.list, Queues.take, List.length_append, List.length_append,
      List.length_take, free, busy, Nat.min_eq_left room]

end Steps

section Reply

variable {pool : Pool} {call : Call} {reply : List Octet} {replies : List (List Octet)}

theorem freeReply_conserved (conserved : Conserved pool)
    (first : pool.card.rxCmdList = reply :: replies) : Conserved (freeReply pool replies) := by
  have free := conserved.rxFree
  have busy := conserved.rxBusy
  rw [first, List.length_cons] at busy
  refine ⟨conserved.tx, conserved.rx.give 1, conserved.txFree, conserved.txBusy, ?_, ?_⟩
  · simp only [freeReply, Queues.give, List.length_append, List.length_take]
    omega
  · simp only [freeReply, Queues.give, List.length_drop]
    omega

/-- A reply that is dropped takes its buffer along. -/
theorem dropReply_leaks (conserved : Conserved pool)
    (first : pool.card.rxCmdList = reply :: replies) : ¬ Conserved (dropReply pool replies) := by
  intro kept
  have busy := conserved.rxBusy
  rw [first, List.length_cons] at busy
  have some : pool.rx.busy ≠ [] := List.ne_nil_of_length_eq_add_one busy
  exact conserved.rx.not_lose some kept.rx

/-- The first reply answers the read in one way, which is its own reply or not. -/
theorem fxoReadReply_same (first : pool.card.rxCmdList = reply :: replies) {off : Octet}
    (same : reply.getD 1 0 = off) :
    fxoReadReply pool off = (readDone (freeReply pool replies), some (reply.getD 2 0)) := by
  rw [fxoReadReply, first]
  exact if_neg (not_not.mpr same)

theorem fxoReadReply_other (first : pool.card.rxCmdList = reply :: replies) {off : Octet}
    (other : reply.getD 1 0 ≠ off) :
    fxoReadReply pool off = (readDone (invalid (dropReply pool replies)), none) := by
  rw [fxoReadReply, first]
  exact if_pos other

theorem cpuReadReply_same (first : pool.card.rxCmdList = reply :: replies) {off : Octet}
    (same : reply.getD 1 0 = off) :
    cpuReadReply pool off = (readDone (freeReply pool replies), some (reply.getD 2 0)) := by
  rw [cpuReadReply, first]
  exact if_neg (not_not.mpr same)

theorem cpuReadReply_other (first : pool.card.rxCmdList = reply :: replies) {off : Octet}
    (other : reply.getD 1 0 ≠ off) :
    cpuReadReply pool off = (readDone (invalid (freeReply pool replies)), none) := by
  rw [cpuReadReply, first]
  exact if_pos other

theorem readReply_empty (call : Call) (conserved : Conserved pool)
    (none_ : pool.card.rxCmdList = []) :
    Conserved (readReply pool call).1 ∧ (readReply pool call).2 = none := by
  have timed : Conserved (readDone (timedOut pool)) := readDone_conserved
    ⟨conserved.tx, conserved.rx, conserved.txFree, conserved.txBusy, conserved.rxFree,
      conserved.rxBusy⟩
  have fxo : fxoReadReply pool call.off = (readDone (timedOut pool), none) := by
    rw [fxoReadReply, none_]
  have cpu : cpuReadReply pool call.off = (readDone (timedOut pool), none) := by
    rw [cpuReadReply, none_]
  unfold readReply
  split
  · rw [fxo]
    exact ⟨timed, rfl⟩
  · rw [cpu]
    exact ⟨timed, rfl⟩

/-- What is claimed of a read that finds a reply. -/
def Kept (reply : List Octet) (call : Call) (result : Pool × Option Octet) : Prop :=
  Conserved result.1 ∧ ∀ value, result.2 = some value → Replies call reply ∧ value = reply.getD 2 0

theorem kept_freed (conserved : Conserved pool) (first : pool.card.rxCmdList = reply :: replies) :
    Kept reply call (readDone (freeReply pool replies), some (reply.getD 2 0)) ↔
      Replies call reply := by
  constructor
  · intro kept
    exact (kept.2 _ rfl).1
  · intro own
    refine ⟨readDone_conserved (freeReply_conserved conserved first), ?_⟩
    intro value found
    exact ⟨own, (Option.some.inj found).symm⟩

theorem fxoReadReply_iff (conserved : Conserved pool)
    (first : pool.card.rxCmdList = reply :: replies) :
    Kept reply call (fxoReadReply pool call.off) ↔ Replies call reply := by
  by_cases same : reply.getD 1 0 = call.off
  · rw [fxoReadReply_same first same]
    exact kept_freed conserved first
  · rw [fxoReadReply_other first same]
    constructor
    · intro kept
      have leaked : Conserved (dropReply pool replies) :=
        ⟨kept.1.tx, kept.1.rx, kept.1.txFree, kept.1.txBusy, kept.1.rxFree, kept.1.rxBusy⟩
      exact absurd leaked (dropReply_leaks conserved first)
    · intro own
      exact absurd own.off same

theorem cpuReadReply_iff (conserved : Conserved pool)
    (first : pool.card.rxCmdList = reply :: replies) :
    Kept reply call (cpuReadReply pool call.off) ↔
      (reply.getD 1 0 = call.off → Replies call reply) := by
  by_cases same : reply.getD 1 0 = call.off
  · rw [cpuReadReply_same first same, kept_freed conserved first]
    exact ⟨fun own _ => own, fun suits => suits same⟩
  · rw [cpuReadReply_other first same]
    have freed := freeReply_conserved conserved first
    refine iff_of_true ⟨⟨freed.tx, freed.rx, freed.txFree, freed.txBusy, freed.rxFree,
      freed.rxBusy⟩, ?_⟩ fun equal => absurd equal same
    intro value found
    cases found

/-- A read does what is claimed when and only when the first reply suits it. -/
theorem readReply_iff (call : Call) (conserved : Conserved pool)
    (first : pool.card.rxCmdList = reply :: replies) :
    Kept reply call (readReply pool call) ↔ Suits call reply := by
  unfold readReply Suits
  cases call.side with
  | fxo modNo => exact fxoReadReply_iff conserved first
  | cpu => exact cpuReadReply_iff conserved first

end Reply

section Runs

theorem setUp_conserved (card : Card) (ready : Bool) : Conserved (setUp card ready) where
  tx := List.Perm.of_eq (List.append_nil _)
  rx := List.Perm.of_eq (List.append_nil _)
  txFree := List.length_range
  txBusy := rfl
  rxFree := List.length_range
  rxBusy := rfl

theorem reply_iff {pool : Pool} (conserved : Conserved pool) :
    Meets pool .reply ↔ Clean pool .reply := by
  unfold Meets Clean Answers
  simp only [step]
  cases running : pool.running with
  | none =>
      constructor
      · intro _ call reply replies found
        cases found
      · intro _
        refine ⟨conserved, ?_⟩
        intro call value found
        cases found
  | some call =>
      cases list : pool.card.rxCmdList with
      | nil =>
          obtain ⟨kept, nothing⟩ := readReply_empty call conserved list
          constructor
          · intro _ call reply replies _ found
            cases found
          · intro _
            refine ⟨kept, ?_⟩
            intro same value running' found
            cases running'
            rw [nothing] at found
            cases found
      | cons reply replies =>
          have answers := readReply_iff call conserved list
          constructor
          · intro meets same first rest running' found
            cases running'
            cases found
            apply answers.mp
            refine ⟨meets.1, ?_⟩
            intro value has
            obtain ⟨_, _, listed, own, carried⟩ := meets.2 call value rfl has
            cases listed
            exact ⟨own, carried⟩
          · intro clean
            obtain ⟨kept, values⟩ := answers.mpr (clean call reply replies rfl rfl)
            refine ⟨kept, ?_⟩
            intro same value running' found
            cases running'
            obtain ⟨own, carried⟩ := values value found
            exact ⟨reply, replies, rfl, own, carried⟩

theorem meets_iff {pool : Pool} (conserved : Conserved pool) (op : Op) :
    Meets pool op ↔ Clean pool op := by
  cases op with
  | read side off => exact iff_of_true ⟨readQueue_conserved conserved side off, trivial⟩ trivial
  | write side off data =>
      exact iff_of_true ⟨queueWrite_conserved conserved side off data, trivial⟩ trivial
  | reply => exact reply_iff conserved
  | encode => exact iff_of_true ⟨encode_conserved conserved, trivial⟩ trivial
  | decode rxdata => exact iff_of_true ⟨decode_conserved conserved rxdata, trivial⟩ trivial

/-- The buffers stay on their queues and reads are answered by their own replies, along a run in
which and only in which every reply that a read takes suits it. -/
theorem usb_commands (card : Card) (ready : Bool) (ops : List Op) :
    Along (fun pool op => some (step pool op)) Meets (setUp card ready) ops ↔
      Along (fun pool op => some (step pool op)) Clean (setUp card ready) ops := by
  have steps : ∀ pool op next, Conserved pool → Meets pool op → some (step pool op) = some next →
      Conserved next := by
    intro pool op next _ meets moved
    rw [← Option.some.inj moved]
    exact meets.1
  have same : ∀ pool op, Conserved pool → (Meets pool op ↔ Clean pool op) := by
    intro pool op conserved
    exact meets_iff conserved op
  exact Along.iff steps same (setUp_conserved card ready)

/-- The block in which the device answers with another register of a module. -/
def otherReply : Buf :=
  (sdlaUsbTxdataEncode { startCard with txCmdList := [readFxoCmd ⟨0, Nat.two_pos⟩ 6 ++ [0x33#8]] }).2

theorem usb_commands_leak :
    ¬ Along (fun pool op => some (step pool op)) Meets (setUp startCard true)
      [.read (.fxo 0) 5, .decode otherReply, .reply] := by
  intro along
  have conserved := ((along.2 _ rfl).2 _ rfl).1.1
  exact absurd conserved.rx.length_eq (by decide +kernel)

end Runs

end Wanpipe.Usb.Commands
