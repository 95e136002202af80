import Wanpipe.TdmApi.Device

/-! The voice stream of a channel device: chunks to and from the line, reads and writes of the
user. -/

namespace Wanpipe.TdmApi

open Line

def hdrOf (skb : Skb) : List Octet := skb.take hdrSz

def payload (skb : Skb) : List Octet := skb.drop hdrSz

def le16 (value : Nat) : List Octet := [BitVec.ofNat 8 value, BitVec.ofNat 8 (value / 256)]

def le32 (value : BitVec 32) : List Octet :=
  [value.setWidth 8, (value >>> 8).setWidth 8, (value >>> 16).setWidth 8, (value >>> 24).setWidth 8]

/-- `wanpipe_tdm_timestamp_hdr`: the members behind `operation_status` and `data_length`. -/
def wanpipeTdmTimestampHdr (skb : Skb) (now : Time) : Skb :=
  skb.take 3 ++ (le32 now.sec ++ le32 now.usec) ++ skb.drop 11

/-- The members of the header that a read fills in. -/
def rxHdr (hdr : List Octet) (dataLength frames maxFrames : Nat) (errors : BitVec 32) :
    List Octet :=
  [0x02#8] ++ le16 dataLength ++ (hdr.drop 3).take 10 ++
    [BitVec.ofNat 8 maxFrames, BitVec.ofNat 8 frames] ++ le32 errors ++ hdr.drop 19

def addStats (dev : Dev) (update : Stats → Stats) : Dev :=
  { dev with cfg := { dev.cfg with stats := update dev.cfg.stats } }

/-- `WP_AFT_CHAN_ERROR_STATS` for the four counters that the stream functions use. -/
def rxDropped (stats : Stats) : Stats :=
  { stats with rxDropped := stats.rxDropped + 1, errors := stats.errors + 1 }

def rxErrors (stats : Stats) : Stats :=
  { stats with rxErrors := stats.rxErrors + 1, errors := stats.errors + 1 }

def txErrors (stats : Stats) : Stats :=
  { stats with txErrors := stats.txErrors + 1, errors := stats.errors + 1 }

def txIdle (stats : Stats) : Stats := { stats with txIdlePackets := stats.txIdlePackets + 1 }

def idleChunk (dev : Dev) (len : Nat) : List Octet :=
  List.replicate len (dev.cfg.idleFlag.setWidth 8)

/-- `wanpipe_tdm_api_rx_error`: the buffer that was being filled goes back empty. -/
def rxError (dev : Dev) : Dev :=
  { dev with rxFreeList := dev.rxFreeList + dev.rxSkb.toList.length, rxSkb := none }

/-- A chunk at the end of the buffer `skb`, which is queued once it is long enough. -/
def rxAppend (dev : Dev) (skb : Skb) (rxData : List Octet) (now : Time) : Dev :=
  let filled := skb ++ rxData
  if dev.mtuMru ≤ filled.length then
    addStats { dev with rxList := dev.rxList ++ [wanpipeTdmTimestampHdr filled now], rxSkb := none }
      fun stats => { stats with rxPackets := stats.rxPackets + 1 }
  else { dev with rxSkb := some filled }

/-- The look for a faked polarity reversal, which reports an event, is not part of the stream. -/
def wanpipeTdmApiChannelizedRx (dev : Dev) (rxData : List Octet) (now : Time) : Dev :=
  if dev.cfg.rxDisable then rxError dev
  else if dev.cfg.rxQueueSz ≤ dev.rxList.length then rxError (addStats dev rxDropped)
  else
    match dev.rxSkb with
    | some skb => rxAppend dev skb rxData now
    | none =>
        if dev.rxFreeList = 0 then rxError (addStats dev rxErrors)
        else
          rxAppend { dev with rxFreeList := dev.rxFreeList - 1 } (List.replicate hdrSz 0x00#8)
            rxData now

/-- `wanpipe_tdm_api_tx_error`. -/
def txError (dev : Dev) (len : Nat) : List Octet × Dev :=
  (idleChunk dev len,
    addStats { dev with txFreeList := dev.txFreeList + dev.txSkb.toList.length, txSkb := none }
      txIdle)

/-- A chunk from the front of what is left of `tx_skb`. -/
def txSend (dev : Dev) (skb : Skb) (len : Nat) : List Octet × Dev :=
  if skb.length < len then txError (addStats dev txErrors) len
  else if skb.drop len = [] then
    (skb.take len,
      addStats { dev with txFreeList := dev.txFreeList + 1, txSkb := none }
        fun stats => { stats with txPackets := stats.txPackets + 1 })
  else (skb.take len, { dev with txSkb := some (skb.drop len) })

/-- The next buffer of the user becomes `tx_skb`, without its header. -/
def txTake (dev : Dev) (skb : Skb) (skbs : List Skb) : Dev :=
  { dev with txList := skbs, txSkb := some (payload skb) }

def wanpipeTdmApiChannelizedTx (dev : Dev) (txData : List Octet) : List Octet × Dev :=
  let len := txData.length
  if dev.cfg.txDisable then (txData, dev)
  else
    match dev.txSkb, dev.txList with
    | some skb, _ => txSend dev skb len
    | none, [] => (idleChunk dev len, addStats dev txIdle)
    | none, skb :: skbs =>
        if (payload skb).length % len ≠ 0 then
          txError (addStats (txTake dev skb skbs) txErrors) len
        else txSend (txTake dev skb skbs) (payload skb) len

/-- One chunk each way; the chunks are as long as the buffers of the line. -/
def wanpipeTdmApiRxTx (dev : Dev) (rxData txData : List Octet) (now : Time) : List Octet × Dev :=
  if rxData.length = 0 then (txData, dev)
  else if dev.init then
    if dev.used then
      let sent := wanpipeTdmApiChannelizedTx (wanpipeTdmApiChannelizedRx dev rxData now) txData
      if sent.2.cfg.loop then (rxData, sent.2) else sent
    else (idleChunk dev txData.length, dev)
  else (txData, dev)

inductive SangStatus
  | success
  | rxDataAvailable
  | noDataAvailable
  | txDataTooLong
  | bufferTooSmall
  | generalError
  | deviceBusy
  | ioError
  deriving DecidableEq, Repr

/-- `wp_tdmapi_set_gain`. -/
def wpTdmapiSetGain (skb : Skb) (gain : Option (List Octet)) : Skb :=
  match gain with
  | none => skb
  | some gain => hdrOf skb ++ (payload skb).map fun octet => gain.getD octet.toNat 0x00#8

theorem wpTdmapiSetGain_length (skb : Skb) (gain : Option (List Octet)) :
    (wpTdmapiSetGain skb gain).length = skb.length := by
  cases gain with
  | none => rfl
  | some gain =>
      simp only [wpTdmapiSetGain, hdrOf, payload, List.length_append, List.length_take,
        List.length_map, List.length_drop]
      omega

/-- What a read returns: the error, the status in the header and the buffer. -/
structure ReadMsg where
  err : Int
  status : SangStatus
  skb : Option Skb
  deriving DecidableEq, Repr

/-- The buffers that a read takes: one, or as many as the multiplier says, which are joined in a
new buffer for which there may be no memory. -/
def takeRx (dev : Dev) (mem : Bool) : Option Skb × Dev :=
  let multiplier := dev.bufferMultiplier
  if 1 < multiplier then
    match dev.rxList with
    | [] => (none, dev)
    | skb :: skbs =>
        if dev.rxList.length < multiplier then (none, dev)
        else if mem then
          let len := skb.length - hdrSz
          let joined := (skbs.take (multiplier - 1)).flatMap fun next => (payload next).take len
          (some (skb ++ joined), { dev with rxList := skbs.drop (multiplier - 1) })
        else (none, { dev with rxList := skbs })
  else
    match dev.rxList with
    | [] => (none, dev)
    | skb :: skbs => (some skb, { dev with rxList := skbs })

/-- `errors` is the count of synchronization errors of the front end, `mem` whether there is memory
for the buffers that the read asks for. -/
def wpTdmapiReadMsg (dev : Dev) (count : Int) (mem : Bool) (errors : BitVec 32) : ReadMsg × Dev :=
  if !dev.init || !dev.used || dev.down then (⟨-enodev, .generalError, none⟩, dev)
  else
    match takeRx dev mem with
    | (none, dev) => (⟨-enobufs, .noDataAvailable, none⟩, dev)
    | (some taken, dev) =>
        let skb := wpTdmapiSetGain taken dev.rxGain
        if count < skb.length ∨ skb.length < hdrSz then (⟨-efault, .bufferTooSmall, none⟩, dev)
        else
          -- the place of the buffer that the user gets is taken by a new one
          let added := if dev.blockMode || !mem then 0 else 1
          let hdr :=
            rxHdr (hdrOf skb) (payload skb).length dev.rxList.length dev.cfg.rxQueueSz errors
          (⟨0, .rxDataAvailable, some (hdr ++ payload skb)⟩,
            { dev with rxFreeList := dev.rxFreeList + added })

structure WriteMsg where
  err : Int
  status : Option SangStatus
  deriving DecidableEq, Repr

/-- The branch of the channelized devices, whose buffers do not go to the driver at once. -/
def writeChan (dev : Dev) (skb : Skb) : WriteMsg × Dev :=
  if wpTdmApiMaxLen + hdrSz < skb.length then
    (⟨-efbig, some .txDataTooLong⟩, addStats dev txErrors)
  else if dev.cfg.txQueueSz ≤ dev.txList.length then (⟨1, none⟩, dev)
  else
    (⟨0, some .success⟩,
      { dev with txList := dev.txList ++ [wpTdmapiSetGain skb dev.txGain], txFreeList := 0 })

/-- `wp_tdmapi_write_msg` of a device that is not in a block mode. -/
def wpTdmapiWriteMsg (dev : Dev) (skb : Skb) : WriteMsg × Dev :=
  if !dev.init || !dev.used then (⟨-enodev, none⟩, dev)
  else if dev.down then (⟨-enodev, some .generalError⟩, addStats dev txErrors)
  else if skb.length ≤ hdrSz then (⟨-einval, some .bufferTooSmall⟩, addStats dev txErrors)
  else writeChan dev skb

end Wanpipe.TdmApi
