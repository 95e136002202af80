import Mathlib.Logic.Function.Basic
import Wanpipe.Line.Octets
import Wanpipe.Runs

/-! A channel device of `wanpipe_tdm_api.c`: its configuration, its buffers and its queues. -/

namespace Wanpipe.TdmApi

open Line

def numOfE1Channels : Nat := 32

def maxTdmApiChannels : Nat := 32

/-- `sizeof(wp_api_hdr_t)`. -/
def hdrSz : Nat := 64

def wpTdmApiMaxLen : Nat := 4096 + hdrSz

def wpTdmMaxRxQLen : Nat := 10

def wpTdmMaxHdlcRxQLen : Nat := 40

def wpTdmMaxTxQLen : Nat := 5

def wpTdmMaxHdlcTxQLen : Nat := 17

def wpTdmMaxEventQTimeslotMultiple : Nat := 6

def wpTdmMinEventQLen : Nat := 10

def wpTdmMaxCtrlEventQLen : Nat := 2000

def einval : Int := 22

def ebusy : Int := 16

def enodev : Int := 19

def enobufs : Int := 105

def efault : Int := 14

def efbig : Int := 27

inductive WpTdmOpmode
  | chan
  | span
  | mtp1
  deriving DecidableEq, Repr

inductive HwCoding
  | mulaw
  | alaw
  | lin16
  deriving DecidableEq, Repr

/-- What lies between `data` and `tail` of a socket buffer, the header in front. -/
abbrev Skb := List Octet

structure Time where
  sec : BitVec 32
  usec : BitVec 32
  deriving DecidableEq, Repr

inductive EventType
  | rbs
  | alarm
  | dtmf
  | fax1100
  | fax2100
  | fax2100Wspr
  | rxhook
  | linkStatus
  | polarityReverse
  | ringTripDetect
  | ringDetect
  deriving DecidableEq, Repr

/-- `wp_api_event_t`; `value` is the member of the union that the type of event uses. -/
structure WpApiEvent where
  eventType : EventType
  channel : Octet
  span : Octet
  value : List (BitVec 32)
  timeStamp : Time
  deriving DecidableEq, Repr

/-- The members of `wanpipe_chan_stats_t` that tell what became of a packet or an event. -/
structure Stats where
  rxPackets : Nat
  rxErrors : Nat
  rxDropped : Nat
  txPackets : Nat
  txErrors : Nat
  txIdlePackets : Nat
  rxEvents : Nat
  rxEventsDropped : Nat
  errors : Nat
  deriving DecidableEq, Repr

structure Cfg where
  hwTdmCoding : HwCoding
  hwMtuMru : Nat
  usrPeriod : Nat
  usrMtuMru : Nat
  rxDisable : Bool
  txDisable : Bool
  rxQueueSz : Nat
  txQueueSz : Nat
  idleFlag : BitVec 32
  loop : Bool
  stats : Stats
  deriving DecidableEq, Repr

/-- `wanpipe_tdm_api_dev_t`. Of the free lists only the number of buffers matters: whoever takes a
buffer from them sees it empty. -/
structure Dev where
  init : Bool
  used : Bool
  openCnt : BitVec 32
  down : Bool
  state : Octet
  hdlcFraming : Bool
  activeCh : BitVec 32
  cfg : Cfg
  rxList : List Skb
  rxFreeList : Nat
  rxSkb : Option Skb
  txList : List Skb
  txFreeList : Nat
  txSkb : Option Skb
  txChannelized : Bool
  rxGain : Option (List Octet)
  txGain : Option (List Octet)
  eventList : List WpApiEvent
  eventFreeList : Nat
  rbsRxBits : List Octet
  operationMode : WpTdmOpmode
  mtuMru : Nat
  bufferMultiplier : Nat
  timeslots : Nat
  deriving DecidableEq, Repr

def Stats.zero : Stats := ⟨0, 0, 0, 0, 0, 0, 0, 0, 0⟩

def Cfg.zero : Cfg :=
  { hwTdmCoding := .mulaw, hwMtuMru := 0, usrPeriod := 0, usrMtuMru := 0, rxDisable := false
    txDisable := false, rxQueueSz := 0, txQueueSz := 0, idleFlag := 0#32, loop := false
    stats := .zero }

/-- The device after `memset`. -/
def Dev.zero : Dev :=
  { init := false, used := false, openCnt := 0#32, down := false, state := 0#8
    hdlcFraming := false, activeCh := 0#32, cfg := .zero, rxList := [], rxFreeList := 0
    rxSkb := none, txList := [], txFreeList := 0, txSkb := none, txChannelized := false
    rxGain := none, txGain := none, eventList := [], eventFreeList := 0, rbsRxBits := List.replicate numOfE1Channels 0#8
    operationMode := .chan, mtuMru := 0, bufferMultiplier := 0, timeslots := 0 }

/-- `WPTDM_SPAN_OP_MODE(tdm_api) || tdm_api->hdlc_framing`. -/
def Dev.blockMode (dev : Dev) : Bool := dev.operationMode != .chan || dev.hdlcFraming

inductive Flush
  | all
  | rx
  | tx
  | event
  deriving DecidableEq, Repr

def flushRx (dev : Dev) : Dev :=
  if dev.blockMode then { dev with rxList := [], rxFreeList := 0, rxSkb := none }
  else
    { dev with
      rxList := []
      rxFreeList := dev.rxFreeList + dev.rxList.length + dev.rxSkb.toList.length
      rxSkb := none }

def flushTx (dev : Dev) : Dev := { dev with txFreeList := 0, txList := [], txSkb := none }

def flushEvent (dev : Dev) : Dev :=
  { dev with eventList := [], eventFreeList := dev.eventFreeList + dev.eventList.length }

def wpTdmapiInitBuffs (dev : Dev) : Flush → Dev
  | .all => flushEvent (flushTx (flushRx dev))
  | .rx => flushRx dev
  | .tx => flushTx dev
  | .event => flushEvent dev

/-- The queues after `wp_tdmapi_free_buffs`. -/
def wpTdmapiFreeBuffs (dev : Dev) : Dev :=
  { dev with
    rxList := [], rxFreeList := 0, rxSkb := none, txList := [], txFreeList := 0, txSkb := none
    eventList := [], eventFreeList := 0, rxGain := none, txGain := none }

def wpTdmapiOpen (dev : Dev) : Dev :=
  if dev.down then dev
  else
    let opened := { dev with openCnt := dev.openCnt + 1#32 }
    let flushed :=
      if opened.openCnt = 1#32 then
        { wpTdmapiInitBuffs opened .all with cfg := { dev.cfg with loop := false } }
      else opened
    { flushed with used := true }

def wpTdmapiRelease (dev : Dev) : Dev :=
  if dev.init then
    let released := { dev with openCnt := dev.openCnt - 1#32 }
    if released.openCnt = 0#32 then { released with used := false } else released
  else { dev with used := false }

end Wanpipe.TdmApi
