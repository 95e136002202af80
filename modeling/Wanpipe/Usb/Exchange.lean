import Wanpipe.Usb.RoundTrip

/-! Sequences of blocks from one card to another, with commands queued and answers read in
between. -/

namespace Wanpipe.Usb

open Line

/-- What a block was built from and what came of it. -/
structure Exchange where
  sent : List (List Octet)
  heard : List (List Octet)
  queued : Option (List Octet)
  free : Nat
  handed : List (List Octet)
  deriving DecidableEq, Repr

/-- Two cards, the blocks exchanged and the commands that `tx_cmd_list` has taken. -/
structure Link where
  sender : Card
  receiver : Card
  blocks : List Exchange
  accepted : List (List Octet)

inductive Op
  | voice (modNo : Fin 2) (chunk : Nat → Octet)
  | fxoRead (modNo : Fin 2) (off : Octet)
  | fxoWrite (modNo : Fin 2) (off data : Octet)
  | cpuRead (off : Octet)
  | cpuWrite (off data : Octet)
  | block
  | readPoll

def chunks (chunk : Fin 2 → Nat → Octet) : List (List Octet) :=
  [(List.range wpUsbRxtxChunksize).map (chunk ⟨0, Nat.two_pos⟩),
    (List.range wpUsbRxtxChunksize).map (chunk ⟨1, Nat.one_lt_two⟩)]

def queue (link : Link) (sender : Card) : Link :=
  { link with
    sender := sender
    accepted := link.accepted ++ sender.txCmdList.drop link.sender.txCmdList.length }

def exchange (link : Link) : Link :=
  let sent := sdlaUsbTxdataEncode link.sender
  let receiver := sdlaUsbRxdataDecode link.receiver sent.2
  { link with
    sender := sent.1
    receiver := receiver
    blocks := link.blocks ++
      [{ sent := chunks link.sender.writechunk
         heard := chunks receiver.readchunk
         queued := link.sender.txCmdList.head?
         free := link.receiver.rxCmdFreeList
         handed := receiver.rxCmds.drop link.receiver.rxCmds.length }] }

def step (link : Link) : Op → Link
  | .voice modNo chunk =>
      { link with
        sender :=
          { link.sender with writechunk := Function.update link.sender.writechunk modNo chunk } }
  | .fxoRead modNo off => queue link (sdlaUsbFxoRead link.sender modNo off)
  | .fxoWrite modNo off data => queue link (sdlaUsbFxoWrite link.sender modNo off data)
  | .cpuRead off => queue link (sdlaUsbCpuRead link.sender off)
  | .cpuWrite off data => queue link (sdlaUsbCpuWrite link.sender off data)
  | .block => exchange link
  | .readPoll => { link with receiver := (sdlaUsbReadPoll link.receiver).1 }

/-- A register command as the four register functions build them. -/
def IsCmd (cmd : List Octet) : Prop :=
  (∃ modNo off, cmd = readFxoCmd modNo off) ∨ (∃ modNo off data, cmd = writeFxoCmd modNo off data) ∨
    (∃ off, cmd = readCpuCmd off) ∨ ∃ off data, cmd = writeCpuCmd off data

/-- The voice comes through, and of the commands the writes that can be told from idle octets. -/
structure Exchange.Faithful (block : Exchange) : Prop where
  voice : block.heard = block.sent
  cmd : block.handed =
    match block.queued with
    | none => []
    | some cmd => answered cmd block.free

structure Kept (start link : Link) : Prop where
  cmds : ∀ cmd ∈ link.sender.txCmdList, IsCmd cmd
  faithful : ∀ block ∈ link.blocks, block.Faithful
  order : link.blocks.filterMap Exchange.queued ++ link.sender.txCmdList =
    start.sender.txCmdList ++ link.accepted

theorem fxo_start (type : Octet) (modNo : Fin 2) (known : type = 0x01#8 ∨ type = 0x02#8) :
    cmdTypeEncode type ||| BitVec.ofNat 8 modNo ≠ wpUsbCtrlIdlePattern := by
  have side : modNo = 0 ∨ modNo = 1 := by omega
  rcases known with rfl | rfl
  · rcases side with rfl | rfl
    · decide
    · decide
  · rcases side with rfl | rfl
    · decide
    · decide

/-- Every command starts with an octet that is not the idle pattern. -/
theorem IsCmd.shape {cmd : List Octet} (isCmd : IsCmd cmd) :
    ∃ start, start ≠ wpUsbCtrlIdlePattern ∧
      ((∃ off, cmd = [start, off]) ∨ ∃ off data, cmd = [start, off, data]) := by
  rcases isCmd with ⟨modNo, off, rfl⟩ | ⟨modNo, off, data, rfl⟩ | ⟨off, rfl⟩ | ⟨off, data, rfl⟩
  · exact ⟨_, fxo_start _ modNo (Or.inl rfl), Or.inl ⟨off, rfl⟩⟩
  · exact ⟨_, fxo_start _ modNo (Or.inr rfl), Or.inr ⟨off, data, rfl⟩⟩
  · exact ⟨cmdTypeEncode cmdTypeReadCpu, by decide, Or.inl ⟨off, rfl⟩⟩
  · exact ⟨cmdTypeEncode cmdTypeWriteCpu, by decide, Or.inr ⟨off, data, rfl⟩⟩

theorem decoded_cmd {buf : Buf} {chunk : Fin 2 → Nat → Octet} {card : Card} {cmd : List Octet}
    (isCmd : IsCmd cmd) (carries : Carries buf chunk cmd) :
    (sdlaUsbRxdataDecode card buf).rxCmds = card.rxCmds ++ answered cmd card.rxCmdFreeList := by
  rcases isCmd.shape with ⟨start, busy, ⟨off, rfl⟩ | ⟨off, data, rfl⟩⟩
  · have nothing : answered [start, off] card.rxCmdFreeList = [] := rfl
    rw [nothing, List.append_nil]
    by_cases full : card.rxCmdFreeList = 0
    · exact decoded_full carries full
    · exact decoded_read carries busy full
  · by_cases full : card.rxCmdFreeList = 0
    · have nothing : answered [start, off, data] card.rxCmdFreeList = [] :=
        if_neg (fun all => all.2.2 full)
      rw [nothing, List.append_nil]
      exact decoded_full carries full
    · exact decoded_write carries busy full

theorem IsCmd.short {cmd : List Octet} (isCmd : IsCmd cmd) :
    1 + cmd.length ≤ wpUsbRxtxChunksize := by
  rcases isCmd.shape with ⟨start, _, ⟨off, rfl⟩ | ⟨off, data, rfl⟩⟩
  · exact (by decide : 3 ≤ 8)
  · exact (by decide : 4 ≤ 8)

theorem chunks_congr {heard sent : Fin 2 → Nat → Octet}
    (same : ∀ modNo, ∀ x < wpUsbRxtxChunksize, heard modNo x = sent modNo x) :
    chunks heard = chunks sent := by
  have each : ∀ modNo, (List.range wpUsbRxtxChunksize).map (heard modNo) =
      (List.range wpUsbRxtxChunksize).map (sent modNo) := by
    intro modNo
    apply List.map_congr_left
    intro x member
    exact same modNo x (List.mem_range.mp member)
  rw [chunks, chunks, each, each]

theorem exchange_faithful {link : Link} (cmds : ∀ cmd ∈ link.sender.txCmdList, IsCmd cmd)
    {block : Exchange} (last : (exchange link).blocks = link.blocks ++ [block]) :
    block.Faithful := by
  rw [exchange] at last
  rw [← List.singleton_inj.mp (List.append_cancel_left last)]
  cases queued : link.sender.txCmdList with
  | nil =>
      have carries := sdlaUsbTxdataEncode_idle queued
      constructor
      · exact chunks_congr fun modNo x inside => decoded_voice carries modNo inside
      · simp only [List.head?_nil, decoded_idle carries, List.drop_length]
  | cons cmd rest =>
      have isCmd : IsCmd cmd := cmds cmd (by rw [queued]; exact List.mem_cons_self)
      have carries := sdlaUsbTxdataEncode_cmd queued isCmd.short
      constructor
      · exact chunks_congr fun modNo x inside => decoded_voice carries modNo inside
      · simp only [List.head?_cons, decoded_cmd isCmd carries, List.drop_left]

theorem exchange_kept {start link : Link} (kept : Kept start link) :
    Kept start (exchange link) := by
  constructor
  · intro cmd member
    apply kept.cmds
    cases queued : link.sender.txCmdList with
    | nil =>
        simp only [exchange, sdlaUsbTxdataEncode, queued] at member
        exact member
    | cons head rest =>
        simp only [exchange, sdlaUsbTxdataEncode, queued] at member
        exact List.mem_cons_of_mem head member
  · intro block member
    have appended : ∃ last, (exchange link).blocks = link.blocks ++ [last] := ⟨_, rfl⟩
    rcases appended with ⟨last, shape⟩
    rw [shape, List.mem_append, List.mem_singleton] at member
    rcases member with earlier | rfl
    · exact kept.faithful block earlier
    · exact exchange_faithful kept.cmds shape
  · have order := kept.order
    cases queued : link.sender.txCmdList with
    | nil =>
        rw [queued] at order
        simpa [exchange, sdlaUsbTxdataEncode, queued] using order
    | cons cmd rest =>
        rw [queued] at order
        simpa [exchange, sdlaUsbTxdataEncode, queued] using order

theorem queueCmd_cases (card : Card) (cmd : List Octet) :
    (queueCmd card cmd).txCmdList = card.txCmdList ∨
      (queueCmd card cmd).txCmdList = card.txCmdList ++ [cmd] := by
  by_cases full : card.txCmdFreeList = 0
  · left
    rw [queueCmd, if_pos full]
  · right
    rw [queueCmd, if_neg full]

theorem sdlaUsbFxoWrite_txCmdList (card : Card) (modNo : Fin 2) (off data : Octet) :
    (sdlaUsbFxoWrite card modNo off data).txCmdList =
      (queueCmd card (writeFxoCmd modNo off data)).txCmdList := by
  by_cases full : card.txCmdFreeList = 0
  · rw [sdlaUsbFxoWrite, if_pos full]
  · rw [sdlaUsbFxoWrite, if_neg full]

theorem queue_kept {start link : Link} (kept : Kept start link) {sender : Card} {cmd : List Octet}
    (isCmd : IsCmd cmd)
    (queued : sender.txCmdList = link.sender.txCmdList ∨
      sender.txCmdList = link.sender.txCmdList ++ [cmd]) : Kept start (queue link sender) := by
  have cmds : ∀ other ∈ sender.txCmdList, IsCmd other := by
    intro other member
    rcases queued with same | more
    · rw [same] at member
      exact kept.cmds other member
    · rw [more, List.mem_append, List.mem_singleton] at member
      rcases member with earlier | rfl
      · exact kept.cmds other earlier
      · exact isCmd
  have order : link.blocks.filterMap Exchange.queued ++ sender.txCmdList =
      start.sender.txCmdList ++
        (link.accepted ++ sender.txCmdList.drop link.sender.txCmdList.length) := by
    rcases queued with same | more
    · rw [same, List.drop_length, List.append_nil, kept.order]
    · rw [more, List.drop_left, ← List.append_assoc, ← List.append_assoc, kept.order]
  exact ⟨cmds, kept.faithful, order⟩

theorem step_kept {start link : Link} (kept : Kept start link) (op : Op) :
    Kept start (step link op) := by
  cases op with
  | voice modNo chunk => exact ⟨kept.cmds, kept.faithful, kept.order⟩
  | fxoRead modNo off =>
      exact queue_kept kept (Or.inl ⟨modNo, off, rfl⟩) (queueCmd_cases _ _)
  | fxoWrite modNo off data =>
      apply queue_kept kept (Or.inr (Or.inl ⟨modNo, off, data, rfl⟩))
      rw [sdlaUsbFxoWrite_txCmdList]
      exact queueCmd_cases _ _
  | cpuRead off =>
      exact queue_kept kept (Or.inr (Or.inr (Or.inl ⟨off, rfl⟩))) (queueCmd_cases _ _)
  | cpuWrite off data =>
      exact queue_kept kept (Or.inr (Or.inr (Or.inr ⟨off, data, rfl⟩))) (queueCmd_cases _ _)
  | block => exact exchange_kept kept
  | readPoll => exact ⟨kept.cmds, kept.faithful, kept.order⟩

theorem run_kept {start link : Link} (kept : Kept start link) (ops : List Op) :
    Kept start (ops.foldl step link) := by
  induction ops generalizing link with
  | nil => exact kept
  | cons op ops ih => exact ih (step_kept kept op)

/-- Over every sequence of blocks the voice octets come through in order. A command leaves the
transmit list in its turn and is handed to the receiver once if it is a write whose register and
data octets are not the idle pattern and a receive buffer is free; otherwise, and with no command
queued, nothing is handed on. -/
theorem usb_blocks (link : Link) (ops : List Op) (fresh : link.blocks = [])
    (unused : link.accepted = []) (cmds : ∀ cmd ∈ link.sender.txCmdList, IsCmd cmd) :
    (∀ block ∈ (ops.foldl step link).blocks,
      block.heard = block.sent ∧
        block.handed =
          match block.queued with
          | none => []
          | some cmd => answered cmd block.free) ∧
      (ops.foldl step link).blocks.filterMap Exchange.queued ++
          (ops.foldl step link).sender.txCmdList =
        link.sender.txCmdList ++ (ops.foldl step link).accepted := by
  have start : Kept link link := by
    constructor
    · exact cmds
    · intro block member
      rw [fresh] at member
      exact absurd member List.not_mem_nil
    · rw [fresh, unused]
      simp
  have kept := run_kept start ops
  refine ⟨fun block member => ?_, kept.order⟩
  have faithful := kept.faithful block member
  exact ⟨faithful.voice, faithful.cmd⟩

def startCard : Card :=
  ⟨fun _ _ => 0#8, fun _ _ => 0#8, fun _ _ => 0xFF#8, [], 20, [], 20, ⟨0, 0, 0, 0, 0, 0⟩, []⟩

def startLink : Link := ⟨startCard, startCard, [], []⟩

theorem usb_blocks_start :
    ([Op.fxoWrite 1 5 0x33, .block, .block].foldl step startLink).blocks.map Exchange.handed =
        [[[0x09, 5, 0x33]], []] ∧
      ∀ block ∈ ([Op.fxoWrite 1 5 0x33, .block, .block].foldl step startLink).blocks,
        block.heard = block.sent := by
  constructor
  · decide +kernel
  · intro block member
    exact ((usb_blocks startLink _ rfl rfl (by simp [startLink, startCard])).1 block member).1

/-- A write of the idle pattern is lost, with every receive buffer free. -/
theorem usb_idle_data_lost :
    ([Op.fxoWrite 0 5 0x7E, .block].foldl step startLink).blocks.map
        (fun block => (block.queued, block.free, block.handed)) =
      [(some [0x08, 5, 0x7E], 20, [])] := by
  decide +kernel

end Wanpipe.Usb
