import Wanpipe.Packets
import Wanpipe.TdmApi.RxPool

/-! The byte streams of a channelized device: what is written goes to the line, what is heard on the
line is read. -/

namespace Wanpipe.TdmApi

open Line Runs

/-- A chunk that is heard now is lost: the queue is full, or there is no buffer to begin. -/
def Loses (dev : Dev) : Prop :=
  dev.cfg.rxQueueSz ≤ dev.rxList.length ∨ (dev.rxSkb = none ∧ dev.rxFreeList = 0)

instance (dev : Dev) : Decidable (Loses dev) := inferInstanceAs (Decidable (_ ∨ _))

/-- A device with what its user wrote and read and what went over the line. -/
structure Stream where
  dev : Dev
  /-- The payloads of the writes that were accepted. -/
  accepted : List (List Octet)
  /-- The chunks that were not idle fill. -/
  sent : List Octet
  heard : List (Arrival Octet)
  read : List (List Octet)

/-- Idle fill is counted, and nothing else moves that counter. -/
def sentIdle (dev next : Dev) : Bool := next.cfg.stats.txIdlePackets != dev.cfg.stats.txIdlePackets

inductive StreamOp
  | rxTx (rxData txData : List Octet) (now : Time)
  | read (count : Int) (errors : BitVec 32)
  | write (skb : Skb)

def StreamOp.toChan : StreamOp → ChanOp
  | .rxTx rxData txData now => .rxTx rxData txData now
  | .read count errors => .read count errors
  | .write skb => .write skb

def streamStep (stream : Stream) (op : StreamOp) : Stream :=
  let next := chanStep stream.dev op.toChan
  match op with
  | .rxTx rxData txData now =>
      let chunk := (wanpipeTdmApiRxTx stream.dev rxData txData now).1
      { stream with
        dev := next
        sent := stream.sent ++ if sentIdle stream.dev next then [] else chunk
        heard := stream.heard ++ [⟨rxData, decide (Loses stream.dev)⟩] }
  | .read count errors =>
      let result := (wpTdmapiReadMsg stream.dev count true errors).1
      { stream with dev := next, read := stream.read ++ result.skb.toList.map payload }
  | .write skb =>
      let result := (wpTdmapiWriteMsg stream.dev skb).1
      { stream with
        dev := next
        accepted := stream.accepted ++ if result.err = 0 then [payload skb] else [] }

def streamRun (stream : Stream) (ops : List StreamOp) : Stream := ops.foldl streamStep stream

/-- The line is driven with chunks of one length. -/
def ChunkLen (len : Nat) : StreamOp → Prop
  | .rxTx rxData txData _ => rxData.length = len ∧ txData.length = len
  | _ => True

/-- What is accepted and not yet on the line, the payload that is being sent first. -/
def waiting (dev : Dev) : List (List Octet) := dev.txSkb.toList ++ dev.txList.map payload

def good (len : Nat) (data : List Octet) : Bool := data.length % len == 0

/-- The bytes of the payloads that are sent. -/
def wanted (len : Nat) (payloads : List (List Octet)) : List Octet :=
  (payloads.filter (good len)).flatten

/-- An open device in channel mode that neither direction, the loop nor a gain table changes. -/
structure Streaming (dev : Dev) : Prop where
  init : dev.init = true
  used : dev.used = true
  down : dev.down = false
  mode : dev.blockMode = false
  multiplier : dev.bufferMultiplier = 1
  rxDisable : dev.cfg.rxDisable = false
  txDisable : dev.cfg.txDisable = false
  loop : dev.cfg.loop = false
  rxGain : dev.rxGain = none
  txGain : dev.txGain = none

/-- What no operation on the streams changes. -/
structure SameSet (dev next : Dev) : Prop where
  init : next.init = dev.init
  used : next.used = dev.used
  down : next.down = dev.down
  mode : next.blockMode = dev.blockMode
  multiplier : next.bufferMultiplier = dev.bufferMultiplier
  rxDisable : next.cfg.rxDisable = dev.cfg.rxDisable
  txDisable : next.cfg.txDisable = dev.cfg.txDisable
  loop : next.cfg.loop = dev.cfg.loop
  rxGain : next.rxGain = dev.rxGain
  txGain : next.txGain = dev.txGain
  mtuMru : next.mtuMru = dev.mtuMru

theorem SameSet.refl (dev : Dev) : SameSet dev dev :=
  ⟨rfl, rfl, rfl, rfl, rfl, rfl, rfl, rfl, rfl, rfl, rfl⟩

theorem SameSet.trans {dev next last : Dev} (first : SameSet dev next)
    (second : SameSet next last) : SameSet dev last where
  init := second.init.trans first.init
  used := second.used.trans first.used
  down := second.down.trans first.down
  mode := second.mode.trans first.mode
  multiplier := second.multiplier.trans first.multiplier
  rxDisable := second.rxDisable.trans first.rxDisable
  txDisable := second.txDisable.trans first.txDisable
  loop := second.loop.trans first.loop
  rxGain := second.rxGain.trans first.rxGain
  txGain := second.txGain.trans first.txGain
  mtuMru := second.mtuMru.trans first.mtuMru

theorem SameSet.streaming {dev next : Dev} (same : SameSet dev next) (streaming : Streaming dev) :
    Streaming next where
  init := same.init.trans streaming.init
  used := same.used.trans streaming.used
  down := same.down.trans streaming.down
  mode := same.mode.trans streaming.mode
  multiplier := same.multiplier.trans streaming.multiplier
  rxDisable := same.rxDisable.trans streaming.rxDisable
  txDisable := same.txDisable.trans streaming.txDisable
  loop := same.loop.trans streaming.loop
  rxGain := same.rxGain.trans streaming.rxGain
  txGain := same.txGain.trans streaming.txGain

/-- What the receive side leaves alone. -/
structure SameTx (dev next : Dev) : Prop where
  set : SameSet dev next
  txSkb : next.txSkb = dev.txSkb
  txList : next.txList = dev.txList
  idle : next.cfg.stats.txIdlePackets = dev.cfg.stats.txIdlePackets

theorem SameTx.refl (dev : Dev) : SameTx dev dev := ⟨SameSet.refl dev, rfl, rfl, rfl⟩

theorem SameTx.trans {dev next last : Dev} (first : SameTx dev next) (second : SameTx next last) :
    SameTx dev last where
  set := first.set.trans second.set
  txSkb := second.txSkb.trans first.txSkb
  txList := second.txList.trans first.txList
  idle := second.idle.trans first.idle

theorem rxError_tx (dev : Dev) : SameTx dev (rxError dev) :=
  ⟨⟨rfl, rfl, rfl, rfl, rfl, rfl, rfl, rfl, rfl, rfl, rfl⟩, rfl, rfl, rfl⟩

theorem rxAppend_tx (dev : Dev) (skb : Skb) (rxData : List Octet) (now : Time) :
    SameTx dev (rxAppend dev skb rxData now) := by
  simp only [rxAppend]
  split <;> exact ⟨⟨rfl, rfl, rfl, rfl, rfl, rfl, rfl, rfl, rfl, rfl, rfl⟩, rfl, rfl, rfl⟩

theorem channelizedRx_tx (dev : Dev) (rxData : List Octet) (now : Time) :
    SameTx dev (wanpipeTdmApiChannelizedRx dev rxData now) := by
  have dropped : SameTx dev (addStats dev rxDropped) :=
    ⟨⟨rfl, rfl, rfl, rfl, rfl, rfl, rfl, rfl, rfl, rfl, rfl⟩, rfl, rfl, rfl⟩
  have failed : SameTx dev (addStats dev rxErrors) :=
    ⟨⟨rfl, rfl, rfl, rfl, rfl, rfl, rfl, rfl, rfl, rfl, rfl⟩, rfl, rfl, rfl⟩
  rw [wanpipeTdmApiChannelizedRx]
  split
  · exact rxError_tx dev
  · split
    · exact dropped.trans (rxError_tx _)
    · split
      · exact rxAppend_tx dev _ rxData now
      · split
        · exact failed.trans (rxError_tx _)
        · have taken : SameTx dev { dev with rxFreeList := dev.rxFreeList - 1 } :=
            ⟨⟨rfl, rfl, rfl, rfl, rfl, rfl, rfl, rfl, rfl, rfl, rfl⟩, rfl, rfl, rfl⟩
          exact taken.trans (rxAppend_tx _ _ rxData now)

/-! The receive side. -/

/-- What is already in the buffer that is being filled. -/
def rxPart (dev : Dev) : List Octet := dev.rxSkb.elim [] payload

/-- The payloads in the queue and the one that is begun. -/
structure RxView (dev : Dev) (queue : List (List Octet)) (part : List Octet) : Prop where
  queue : dev.rxList.map payload = queue
  part : rxPart dev = part

theorem channelizedRx_lost {dev : Dev} (streaming : Streaming dev) (lost : Loses dev)
    (rxData : List Octet) (now : Time) :
    RxView (wanpipeTdmApiChannelizedRx dev rxData now) (dev.rxList.map payload) [] := by
  have enabled : ¬ dev.cfg.rxDisable = true := by simp [streaming.rxDisable]
  rw [wanpipeTdmApiChannelizedRx, if_neg enabled]
  by_cases full : dev.cfg.rxQueueSz ≤ dev.rxList.length
  · rw [if_pos full]
    exact ⟨rfl, rfl⟩
  · rw [if_neg full]
    rcases lost with queue | ⟨none, empty⟩
    · exact absurd queue full
    · simp only [none, if_pos empty]
      exact ⟨rfl, rfl⟩

theorem payload_append {skb : Skb} (whole : hdrSz ≤ skb.length) (data : List Octet) :
    payload (skb ++ data) = payload skb ++ data :=
  List.drop_append_of_le_length whole

theorem payload_length {skb : Skb} (whole : hdrSz ≤ skb.length) :
    skb.length = hdrSz + (payload skb).length := by
  rw [payload, List.length_drop]
  omega

theorem payload_stamped {skb : Skb} (whole : hdrSz ≤ skb.length) (now : Time) :
    payload (wanpipeTdmTimestampHdr skb now) = payload skb := by
  have long : 64 ≤ skb.length := whole
  have front : (skb.take 3 ++ (le32 now.sec ++ le32 now.usec)).length = 11 := by
    simp only [le32, List.length_append, List.length_take, List.length_cons, List.length_nil]
    omega
  rw [payload, wanpipeTdmTimestampHdr, List.drop_append, front, List.drop_drop,
    List.drop_eq_nil_of_le (by rw [front]; decide)]
  rfl

/-- A chunk in the buffer `skb`. -/
theorem rxAppend_view (dev : Dev) {skb : Skb} (whole : hdrSz ≤ skb.length) (rxData : List Octet)
    (now : Time) :
    let filled := payload skb ++ rxData
    if dev.mtuMru ≤ hdrSz + filled.length then
      RxView (rxAppend dev skb rxData now) (dev.rxList.map payload ++ [filled]) []
    else RxView (rxAppend dev skb rxData now) (dev.rxList.map payload) filled := by
  have joined : hdrSz ≤ (skb ++ rxData).length := by
    rw [List.length_append]
    exact Nat.le_add_right_of_le whole
  have same := payload_append whole rxData
  have length : (skb ++ rxData).length = hdrSz + (payload skb ++ rxData).length := by
    rw [← same]
    exact payload_length joined
  simp only
  split
  · next full =>
      rw [← length] at full
      simp only [rxAppend, if_pos full]
      constructor
      · simp [addStats, payload_stamped joined, same]
      · rfl
  · next more =>
      rw [← length] at more
      simp only [rxAppend, if_neg more]
      exact ⟨rfl, same⟩

theorem channelizedRx_kept {dev : Dev} (streaming : Streaming dev) (channelized : Channelized dev)
    (kept : ¬ Loses dev) (rxData : List Octet) (now : Time) :
    let filled := rxPart dev ++ rxData
    let next := wanpipeTdmApiChannelizedRx dev rxData now
    if dev.mtuMru ≤ hdrSz + filled.length then
      RxView next (dev.rxList.map payload ++ [filled]) []
    else RxView next (dev.rxList.map payload) filled := by
  have enabled : ¬ dev.cfg.rxDisable = true := by simp [streaming.rxDisable]
  have room : ¬ dev.cfg.rxQueueSz ≤ dev.rxList.length := fun full => kept (.inl full)
  simp only [wanpipeTdmApiChannelizedRx, if_neg enabled, if_neg room]
  cases filling : dev.rxSkb with
  | some skb =>
      have part : rxPart dev = payload skb := by rw [rxPart, filling, Option.elim_some]
      rw [part]
      exact rxAppend_view dev (channelized.filling skb filling) rxData now
  | none =>
      have some : ¬ dev.rxFreeList = 0 := fun empty => kept (.inr ⟨filling, empty⟩)
      have part : rxPart dev = payload (List.replicate hdrSz 0x00#8) := by
        rw [rxPart, filling, Option.elim_none]
        rfl
      rw [part]
      simp only [if_neg some]
      exact rxAppend_view { dev with rxFreeList := dev.rxFreeList - 1 }
        (Nat.le_of_eq List.length_replicate.symm) rxData now

/-- The chunks of a payload: the least number of them that fills a buffer. -/
def packetChunks (mtuMru len : Nat) : Nat := max 1 ((mtuMru - hdrSz + (len - 1)) / len)

theorem packetChunks_le {mtuMru len : Nat} (some : 0 < len) (chunks : Nat) :
    packetChunks mtuMru len ≤ chunks + 1 ↔ mtuMru ≤ hdrSz + (chunks + 1) * len := by
  rw [packetChunks, Nat.max_le, Nat.div_le_iff_le_mul_add_pred some, Nat.mul_comm len]
  omega

/-- The arrivals of a stream are cut into the payloads that were read or are in the queue. -/
structure Receives (len : Nat) (stream : Stream) (packets : List (Packet Octet))
    (gap part : List (Arrival Octet)) : Prop where
  cut : Cut (packetChunks stream.dev.mtuMru len) stream.heard packets gap part
  payloads : packets.map Packet.payload = stream.read ++ stream.dev.rxList.map payload
  part : rxPart stream.dev = bytes part
  even : ∀ arrival ∈ stream.heard, arrival.data.length = len
  channelized : Channelized stream.dev

variable {len : Nat} {stream : Stream} {packets : List (Packet Octet)}
  {gap part : List (Arrival Octet)}

theorem Receives.part_length (receives : Receives len stream packets gap part) :
    (bytes part).length = part.length * len := by
  apply bytes_length
  intro arrival member
  apply receives.even
  rw [receives.cut.heard]
  simp [member]

theorem txSend_set (dev : Dev) (skb : Skb) (len : Nat) : SameSet dev (txSend dev skb len).2 := by
  rw [txSend]
  split
  · exact ⟨rfl, rfl, rfl, rfl, rfl, rfl, rfl, rfl, rfl, rfl, rfl⟩
  · split <;> exact ⟨rfl, rfl, rfl, rfl, rfl, rfl, rfl, rfl, rfl, rfl, rfl⟩

theorem channelizedTx_set (dev : Dev) (txData : List Octet) :
    SameSet dev (wanpipeTdmApiChannelizedTx dev txData).2 := by
  simp only [wanpipeTdmApiChannelizedTx]
  split
  · exact SameSet.refl dev
  · split
    · exact txSend_set dev _ _
    · exact ⟨rfl, rfl, rfl, rfl, rfl, rfl, rfl, rfl, rfl, rfl, rfl⟩
    · split
      · exact ⟨rfl, rfl, rfl, rfl, rfl, rfl, rfl, rfl, rfl, rfl, rfl⟩
      · next skb skbs _ _ _ =>
          have taken : SameSet dev (txTake dev skb skbs) :=
            ⟨rfl, rfl, rfl, rfl, rfl, rfl, rfl, rfl, rfl, rfl, rfl⟩
          exact taken.trans (txSend_set _ _ _)

theorem rxTx_eq {dev : Dev} (streaming : Streaming dev) {rxData : List Octet}
    (some : rxData.length ≠ 0) (txData : List Octet) (now : Time) :
    wanpipeTdmApiRxTx dev rxData txData now =
      wanpipeTdmApiChannelizedTx (wanpipeTdmApiChannelizedRx dev rxData now) txData := by
  have set := (channelizedRx_tx dev rxData now).set.trans
    (channelizedTx_set (wanpipeTdmApiChannelizedRx dev rxData now) txData)
  have loop := (set.streaming streaming).loop
  simp [wanpipeTdmApiRxTx, some, streaming.init, streaming.used, loop]

theorem RxView.same {dev next : Dev} {queue : List (List Octet)} {bytes : List Octet}
    (view : RxView dev queue bytes) (same : SameRx dev next) : RxView next queue bytes where
  queue := by rw [same.rxList, view.queue]
  part := by rw [← view.part, rxPart, rxPart, same.rxSkb]

theorem Receives.even_snoc (receives : Receives len stream packets gap part)
    {arrival : Arrival Octet} (even : arrival.data.length = len) :
    ∀ other ∈ stream.heard ++ [arrival], other.data.length = len := by
  intro other member
  rcases List.mem_append.mp member with old | new
  · exact receives.even other old
  · rw [List.mem_singleton.mp new]
    exact even

/-- A chunk is heard. -/
theorem Receives.rxTx (receives : Receives len stream packets gap part)
    (streaming : Streaming stream.dev) {rxData txData : List Octet} (now : Time)
    (chunk : rxData.length = len) (some : 0 < len) :
    ∃ packets gap part,
      Receives len (streamStep stream (.rxTx rxData txData now)) packets gap part := by
  let arrival : Arrival Octet := ⟨rxData, decide (Loses stream.dev)⟩
  let heard := wanpipeTdmApiChannelizedRx stream.dev rxData now
  have even : ∀ other ∈ stream.heard ++ [arrival], other.data.length = len :=
    receives.even_snoc chunk
  have full : rxData.length ≠ 0 := by omega
  have moved : (streamStep stream (.rxTx rxData txData now)).dev =
      (wanpipeTdmApiChannelizedTx heard txData).2 :=
    congrArg Prod.snd (rxTx_eq streaming full txData now)
  have same := channelizedTx_same heard txData
  have channelized : Channelized (streamStep stream (.rxTx rxData txData now)).dev := by
    rw [moved]
    exact same.channelized (channelizedRx_keeps receives.channelized rxData now).1
  have mtuMru : (streamStep stream (.rxTx rxData txData now)).dev.mtuMru = stream.dev.mtuMru := by
    rw [moved]
    exact ((channelizedRx_tx stream.dev rxData now).set.trans
      (channelizedTx_set heard txData)).mtuMru
  have cut := receives.cut
  rw [← mtuMru] at cut
  by_cases lost : Loses stream.dev
  · have view := (channelizedRx_lost streaming lost rxData now).same same
    rw [← moved] at view
    refine ⟨packets, gap ++ part ++ [arrival], [], ?_⟩
    constructor
    · exact cut.lose (decide_eq_true lost)
    · rw [view.queue]
      exact receives.payloads
    · exact view.part
    · exact even
    · exact channelized
  · have view := channelizedRx_kept streaming receives.channelized lost rxData now
    have filled : (bytes part ++ rxData).length = (part.length + 1) * len := by
      rw [List.length_append, receives.part_length, chunk, Nat.add_mul, Nat.one_mul]
    have ready : packetChunks stream.dev.mtuMru len ≤ part.length + 1 ↔ _ :=
      packetChunks_le some part.length
    simp only [receives.part, filled, ← ready] at view
    rw [← mtuMru] at view
    split at view
    · next last =>
        have whole : part.length + 1 = packetChunks _ len := Nat.le_antisymm cut.part last
        have seen := view.same same
        rw [← moved] at seen
        refine ⟨packets ++ [⟨gap, part ++ [arrival]⟩], [], [], ?_⟩
        constructor
        · exact cut.close arrival whole
        · rw [seen.queue, List.map_append, receives.payloads, List.append_assoc]
          simp [Packet.payload, bytes, arrival, streamStep]
        · exact seen.part
        · exact even
        · exact channelized
    · next more =>
        have seen := view.same same
        rw [← moved] at seen
        refine ⟨packets, gap, part ++ [arrival], ?_⟩
        constructor
        · exact cut.keep arrival (Nat.lt_of_not_le more)
        · rw [seen.queue]
          exact receives.payloads
        · rw [seen.part, bytes_append]
          simp [bytes, arrival]
        · exact even
        · exact channelized

theorem rxHdr_length {hdr : List Octet} (whole : hdr.length = hdrSz) (dataLength frames maxFrames : Nat)
    (errors : BitVec 32) : (rxHdr hdr dataLength frames maxFrames errors).length = hdrSz := by
  have long : hdr.length = 64 := whole
  simp only [rxHdr, le16, le32, List.length_append, List.length_cons, List.length_nil,
    List.length_take, List.length_drop, long, hdrSz]
  omega

/-- The device after a read that takes the first buffer. -/
def readDev (dev : Dev) (skbs : List Skb) : Dev :=
  { dev with rxList := skbs, rxFreeList := dev.rxFreeList + 1 }

/-- A read returns the payload of the first buffer in the queue, if there is one. -/
theorem read_view {dev : Dev} (streaming : Streaming dev) (channelized : Channelized dev)
    {count : Int} {errors : BitVec 32} (fits : ReadFits dev (.read count errors)) :
    let result := wpTdmapiReadMsg dev count true errors
    match dev.rxList with
    | [] => result.1.skb = none ∧ result.2 = dev
    | skb :: skbs => result.1.skb.map payload = some (payload skb) ∧ result.2 = readDev dev skbs := by
  have ready : (!dev.init || !dev.used || dev.down) = false := by
    simp [streaming.init, streaming.used, streaming.down]
  simp only [wpTdmapiReadMsg, ready, Bool.false_eq_true, if_false, takeRx_one channelized]
  cases queue : dev.rxList with
  | nil => exact ⟨rfl, rfl⟩
  | cons skb skbs =>
      have room := fits streaming.init streaming.used streaming.down skb (by rw [queue]; rfl)
      have whole := channelized.queued skb (by rw [queue]; exact List.mem_cons_self)
      have fine : ¬ (count < skb.length ∨ skb.length < hdrSz) := by omega
      have hdr : (hdrOf skb).length = hdrSz := by
        rw [hdrOf, List.length_take]
        omega
      have gain : wpTdmapiSetGain skb dev.rxGain = skb := by rw [streaming.rxGain, wpTdmapiSetGain]
      have mode : ({ dev with rxList := skbs } : Dev).blockMode = false := streaming.mode
      have added : (if ({ dev with rxList := skbs } : Dev).blockMode || !true then 0 else 1) = 1 := by
        rw [mode]
        rfl
      simp only [gain, if_neg fine]
      constructor
      · rw [Option.map_some, payload, List.drop_left' (rxHdr_length hdr _ _ _ _)]
      · simp only [added, readDev]

theorem Receives.read (receives : Receives len stream packets gap part)
    (streaming : Streaming stream.dev) {count : Int} {errors : BitVec 32}
    (fits : ReadFits stream.dev (.read count errors)) :
    Receives len (streamStep stream (.read count errors)) packets gap part := by
  have view := read_view streaming receives.channelized fits
  have keeps := read_keeps receives.channelized count errors fits
  have payloads := receives.payloads
  cases queue : stream.dev.rxList with
  | nil =>
      simp only [queue] at view
      rcases view with ⟨none, same⟩
      constructor
      · simp only [streamStep, chanStep, StreamOp.toChan, same]
        exact receives.cut
      · simp only [streamStep, chanStep, StreamOp.toChan, none, same, Option.toList_none,
          List.map_nil, List.append_nil]
        exact payloads
      · simp only [streamStep, chanStep, StreamOp.toChan, same]
        exact receives.part
      · exact receives.even
      · exact keeps.1
  | cons skb skbs =>
      simp only [queue] at view
      rcases view with ⟨first, taken⟩
      have returned : (wpTdmapiReadMsg stream.dev count true errors).1.skb.toList.map payload =
          [payload skb] := by
        rw [← Option.toList_map, first, Option.toList_some]
      constructor
      · simp only [streamStep, chanStep, StreamOp.toChan, taken]
        exact receives.cut
      · simp only [streamStep, chanStep, StreamOp.toChan, taken, returned]
        rw [payloads, queue, List.map_cons, List.append_assoc]
        rfl
      · simp only [streamStep, chanStep, StreamOp.toChan, taken]
        exact receives.part
      · exact receives.even
      · exact keeps.1

theorem writeMsg_set (dev : Dev) (skb : Skb) : SameSet dev (wpTdmapiWriteMsg dev skb).2 := by
  have failed : SameSet dev (addStats dev txErrors) :=
    ⟨rfl, rfl, rfl, rfl, rfl, rfl, rfl, rfl, rfl, rfl, rfl⟩
  rw [wpTdmapiWriteMsg]
  split
  · exact SameSet.refl dev
  · split
    · exact failed
    · split
      · exact failed
      · rw [writeChan]
        split
        · exact failed
        · split <;> exact ⟨rfl, rfl, rfl, rfl, rfl, rfl, rfl, rfl, rfl, rfl, rfl⟩

theorem Receives.write (receives : Receives len stream packets gap part) (skb : Skb) :
    Receives len (streamStep stream (.write skb)) packets gap part := by
  have same := wpTdmapiWriteMsg_same stream.dev skb
  have moved : (streamStep stream (.write skb)).dev = (wpTdmapiWriteMsg stream.dev skb).2 := rfl
  constructor
  · rw [moved, (writeMsg_set stream.dev skb).mtuMru]
    exact receives.cut
  · rw [moved, same.rxList]
    exact receives.payloads
  · rw [moved, rxPart, same.rxSkb]
    exact receives.part
  · exact receives.even
  · rw [moved]
    exact same.channelized receives.channelized

end Wanpipe.TdmApi
