import Mathlib.Data.List.Basic
import Mathlib.Data.List.Range
import Mathlib.Logic.Function.Basic
import Wanpipe.Bitmap

/-! The channels of an AFT T1/E1 card: how an interface is given its time slots, a block of the card's
fifo memory and a logical channel, and how these are taken back. -/

namespace Wanpipe.Aft.Channels

open Bitmap

def numOfT1Channels : Nat := 24

def numOfE1Channels : Nat := 32

def aftDefltActiveCh : Nat := 0

inductive Media
  | t1
  | e1
  | fiftySixK
  | serial
  deriving DecidableEq, Repr

/-- What stays as it is while the card runs. -/
structure Cfg where
  media : Media
  unframed : Bool
  shark : Bool
  securityId : Nat
  deriving Repr

def Cfg.numOfTimeSlots (cfg : Cfg) : Nat :=
  match cfg.media with
  | .t1 => numOfT1Channels
  | .e1 => numOfE1Channels
  | .fiftySixK => 1
  | .serial => 1

def Cfg.isE1 (cfg : Cfg) : Bool :=
  match cfg.media with
  | .e1 => true
  | _ => false

/-- The entry of a time slot in the control RAM. -/
structure CtrlRam where
  logicCh : Nat
  fifoSize : Nat
  fifoBase : Nat
  hdlcMode : Bool
  crcSize : Bool
  txchReset : Bool
  rxchReset : Bool
  syncFstTslot : Bool
  ss7Enable : Bool
  dataMux : Bool
  deriving DecidableEq, Repr

/-- The entry of a logical channel in the DMA chain RAM. -/
structure DmaRam where
  fifoSize : Nat
  fifoBase : Nat
  rxSync : Bool
  ss7Enable : Bool
  tdmv : Option Nat
  deriving DecidableEq, Repr

structure Card where
  timeSlotMap : BitVec 32
  logicChMap : BitVec 32
  tdmLogicChMap : BitVec 32
  fifoAddrMap : BitVec 32
  devToChMap : Nat → Option Nat
  topLogicCh : Nat
  maxLogicCh : Nat
  tdmvCnt : Nat
  ifCnt : Int
  securityCnt : BitVec 32
  dchan : BitVec 32
  ctrlRam : Nat → CtrlRam
  dmaRam : Nat → DmaRam

/-- `private_area_t`; a pointer to one is its `addr`. -/
structure Chan where
  addr : Nat
  dev : Nat
  timeSlotMap : BitVec 32
  numOfTimeSlots : Nat
  firstTimeSlot : Option Nat
  lastTimeSlot : Option Nat
  logicChNum : Option Nat
  fifoSize : Nat
  fifoSizeCode : Nat
  fifoBaseAddr : Nat
  mru : Nat
  hdlcEng : Bool
  channelizedCfg : Bool
  swHdlcMode : Bool
  ss7Enable : Bool
  dataMux : Bool
  deriving DecidableEq, Repr

def Chan.globalIrqCfg (chan : Chan) : Bool :=
  chan.channelizedCfg && !chan.hdlcEng && !chan.swHdlcMode

def aftGetNumOfSlots (total : Nat) (slots : BitVec 32) : Nat :=
  (List.range total).countP slots.getLsbD

/-! ## The fifo memory -/

def fifoSizeVector : List Nat := [1, 2, 4, 8, 16, 32]

def fifoCodeVector : List Nat := [0, 1, 3, 7, 0xF, 0x1F]

/-- The fifo size wanted for a number of time slots, as a power of two. -/
def reqFifoSize (cfg : Cfg) (slots : Nat) : Option Nat :=
  match cfg.media with
  | .serial => some 5
  | .t1 =>
    if slots == numOfT1Channels then some 5
    else if slots == 1 then some 0
    else if slots == 2 || slots == 3 then some 1
    else if decide (4 ≤ slots) && decide (slots ≤ 7) then some 2
    else if decide (8 ≤ slots) && decide (slots ≤ 15) then some 3
    else if decide (16 ≤ slots) && decide (slots ≤ 23) then some 4
    else none
  | _ =>
    if slots == numOfE1Channels - 1 then some 5
    else if slots == 1 then some 0
    else if slots == 2 || slots == 3 then some 1
    else if decide (4 ≤ slots) && decide (slots ≤ 7) then some 2
    else if decide (8 ≤ slots) && decide (slots ≤ 15) then some 3
    else if decide (16 ≤ slots) && decide (slots ≤ 31) then some 4
    else if cfg.unframed then some 4
    else none

/-- Where the loop over the multiples of the block's size first finds the whole block free. -/
def freeBase (map : BitVec 32) (exp : Nat) : Option Nat :=
  ((List.range (32 / (1 <<< exp))).map (· * (1 <<< exp))).find? fun base =>
    map &&& (mask 32 (1 <<< exp) <<< base) == 0#32

/-- A block of `1 <<< exp` units, or half of it where there is none, and so on: its size, its base and
the new map. -/
def aftMapFifoBaddrAndSize (map : BitVec 32) (exp : Nat) : Option (Nat × Nat × BitVec 32) :=
  match freeBase map exp with
  | some base => some (1 <<< exp, base, map ||| (mask 32 (1 <<< exp) <<< base))
  | none =>
    match exp with
    | 0 => none
    | exp + 1 => aftMapFifoBaddrAndSize map exp

def codeOf (size : Nat) : Option Nat :=
  ((fifoSizeVector.zip fifoCodeVector).find? fun row => row.1 == size).map Prod.snd

/-- The base 31 is refused, though the map has the unit by then. -/
def requestFifoBaddrAndSize (cfg : Cfg) (card : Card) (chan : Chan) : Card × Chan × Bool :=
  match reqFifoSize cfg chan.numOfTimeSlots with
  | none => (card, chan, false)
  | some exp =>
    match aftMapFifoBaddrAndSize card.fifoAddrMap exp with
    | none => (card, chan, false)
    | some (size, base, map) =>
      let card := { card with fifoAddrMap := map }
      let chan := { chan with fifoBaseAddr := base }
      if base == 31 then (card, chan, false)
      else
        (card,
          { chan with fifoSizeCode := (codeOf size).getD chan.fifoSizeCode, fifoSize := size }, true)

def aftFreeFifoBaddrAndSize (card : Card) (chan : Chan) : Card × Chan :=
  ({ card with
      fifoAddrMap :=
        card.fifoAddrMap &&& ~~~(mask 32 chan.fifoSize <<< chan.fifoBaseAddr) },
    { chan with fifoSize := 0, fifoBaseAddr := 0 })

/-! ## The logical channels -/

def aftDmaMaxLogicCh (card : Card) : Card :=
  if card.maxLogicCh < card.topLogicCh then { card with maxLogicCh := card.topLogicCh % 32 } else card

def aftFreeLogicalChannelNum (cfg : Cfg) (card : Card) (logicCh : Nat) : Card :=
  let card :=
    { card with
      logicChMap := clearBit card.logicChMap logicCh
      devToChMap := Function.update card.devToChMap logicCh none }
  if card.topLogicCh ≤ logicCh then
    aftDmaMaxLogicCh
      { card with
        topLogicCh :=
          (List.range cfg.numOfTimeSlots).foldl
            (fun top i => if (card.devToChMap i).isSome then i else top) aftDefltActiveCh }
  else card

/-- The channel's first and last time slots, up to the first one that is in use. -/
def slotTurn (card : Card) (chan : Chan) (i : Nat) : Chan × Bool :=
  if chan.timeSlotMap.getLsbD i then
    ({ chan with
        firstTimeSlot := if chan.firstTimeSlot.isNone then some i else chan.firstTimeSlot
        lastTimeSlot := some i },
      card.timeSlotMap.getLsbD i)
  else (chan, false)

def slotLoop (card : Card) : List Nat → Chan → Chan × Bool
  | [], chan => (chan, false)
  | i :: slots, chan =>
    match slotTurn card chan i with
    | (chan, true) => (chan, true)
    | (chan, false) => slotLoop card slots chan

/-- An unchannelised card keeps its first logical channels for HDLC. -/
def keptForHdlc (cfg : Cfg) (card : Card) (chan : Chan) (i : Nat) : Bool :=
  cfg.securityId == 0 &&
    if chan.channelizedCfg then card.dchan != 0#32 && i == 0 && !chan.hdlcEng
    else
      (i == 0 || i == 1) && !chan.hdlcEng &&
        decide (card.ifCnt < (cfg.numOfTimeSlots : Int) - if cfg.isE1 && !cfg.unframed then 3 else 2)

def aftRequestLogicalChannelNum (cfg : Cfg) (card : Card) (chan : Chan) : Card × Chan × Option Nat :=
  match slotLoop card (List.range cfg.numOfTimeSlots) chan with
  | (chan, true) => (card, chan, none)
  | (chan, false) =>
    match requestFifoBaddrAndSize cfg card chan with
    | (card, chan, false) => (card, chan, none)
    | (card, chan, true) =>
      match (List.range cfg.numOfTimeSlots).find? fun i =>
          !keptForHdlc cfg card chan i && !card.logicChMap.getLsbD i with
      | none => (card, chan, none)
      | some logicCh =>
        let card := { card with logicChMap := setBit card.logicChMap logicCh }
        if (card.devToChMap logicCh).isSome then (card, chan, none)
        else
          let card :=
            { card with devToChMap := Function.update card.devToChMap logicCh (some chan.addr) }
          if card.topLogicCh ≤ logicCh then
            (aftDmaMaxLogicCh { card with topLogicCh := logicCh }, chan, some logicCh)
          else (card, chan, some logicCh)

/-! ## A channel's configuration -/

def tdmvSizeOf (mru : Nat) : Nat :=
  match mru with
  | 8 => 0
  | 16 => 1
  | 32 => 2
  | 40 => 2
  | 80 => 3
  | _ => 0

def aftLcfgTdmvCntInc (cnt : Nat) : Nat := (if cnt < 32 then cnt + 1 else cnt) % 32

def aftLcfgTdmvCntDec (cnt : Nat) : Nat := (if 0 < cnt then cnt - 1 else cnt) % 32

/-- What the control RAM is to hold for a time slot of the channel. -/
def slotEntry (chan : Chan) (logicCh : Nat) (i : Nat) (entry : CtrlRam) : CtrlRam :=
  { entry with
    logicCh := logicCh % 32
    syncFstTslot := entry.syncFstTslot || chan.firstTimeSlot == some i
    fifoSize := chan.fifoSizeCode % 32
    fifoBase := chan.fifoBaseAddr % 32
    hdlcMode := chan.hdlcEng
    dataMux := chan.dataMux
    crcSize := false
    ss7Enable := chan.ss7Enable
    txchReset := false
    rxchReset := false }

def dmaEntry (chan : Chan) : DmaRam where
  fifoSize := chan.fifoSizeCode % 32
  fifoBase := chan.fifoBaseAddr % 32
  rxSync := false
  ss7Enable := chan.ss7Enable
  tdmv := if chan.globalIrqCfg then some (tdmvSizeOf chan.mru) else none

def configSlot (chan : Chan) (logicCh : Nat) (card : Card) (i : Nat) : Card :=
  if chan.timeSlotMap.getLsbD i then
    { card with
      timeSlotMap := setBit card.timeSlotMap i
      ctrlRam := Function.update card.ctrlRam i (slotEntry chan logicCh i (card.ctrlRam i)) }
  else card

def a104ChanDevConfigTdmv (card : Card) (chan : Chan) (logicCh : Nat) : Card :=
  if chan.globalIrqCfg then
    { card with
      tdmvCnt := aftLcfgTdmvCntInc card.tdmvCnt
      tdmLogicChMap := setBit card.tdmLogicChMap logicCh }
  else card

def a104ChanDevConfig (cfg : Cfg) (card : Card) (chan : Chan) : Card × Chan × Bool :=
  match aftRequestLogicalChannelNum cfg card chan with
  | (card, chan, none) => (card, chan, false)
  | (card, chan, some logicCh) =>
    let chan := { chan with logicChNum := some logicCh }
    let card := { card with dmaRam := Function.update card.dmaRam logicCh (dmaEntry chan) }
    let card := (List.range cfg.numOfTimeSlots).foldl (configSlot chan logicCh) card
    (a104ChanDevConfigTdmv card chan logicCh, chan, true)

/-- What the control RAM holds for a time slot that was given back. -/
def freeEntry : CtrlRam where
  logicCh := 0x1F
  fifoSize := 0
  fifoBase := 0x1F
  hdlcMode := true
  crcSize := false
  txchReset := true
  rxchReset := true
  syncFstTslot := false
  ss7Enable := false
  dataMux := false

def resetSlot (chan : Chan) (card : Card) (i : Nat) : Card :=
  if chan.timeSlotMap.getLsbD i then
    { card with ctrlRam := Function.update card.ctrlRam i freeEntry }
  else card

def freeSlot (chan : Chan) (card : Card) (i : Nat) : Card :=
  if chan.timeSlotMap.getLsbD i then { card with timeSlotMap := clearBit card.timeSlotMap i } else card

def a104ChanDevUnconfig (cfg : Cfg) (card : Card) (chan : Chan) : Card × Chan :=
  match chan.logicChNum with
  | none => (card, chan)
  | some logicCh =>
    let card :=
      { card with
        dmaRam :=
          Function.update card.dmaRam logicCh
            { card.dmaRam logicCh with fifoBase := 0x1F, fifoSize := 0 } }
    let card := (List.range cfg.numOfTimeSlots).foldl (resetSlot chan) card
    let card := aftFreeLogicalChannelNum cfg card logicCh
    let (card, chan) := aftFreeFifoBaddrAndSize card chan
    let card := (List.range cfg.numOfTimeSlots).foldl (freeSlot chan) card
    if chan.globalIrqCfg then
      ({ card with
          tdmvCnt := aftLcfgTdmvCntDec card.tdmvCnt
          tdmLogicChMap := clearBit card.tdmLogicChMap logicCh }, chan)
    else (card, chan)

def aftDevConfigure (cfg : Cfg) (card : Card) (chan : Chan) : Card × Chan × Bool :=
  let chan := { chan with logicChNum := none }
  if chan.timeSlotMap == 0#32 then (card, chan, false) else a104ChanDevConfig cfg card chan

def aftDevUnconfigure (cfg : Cfg) (card : Card) (chan : Chan) : Card × Chan :=
  a104ChanDevUnconfig cfg card chan

/-! ## The interfaces -/

/-- How an interface is used: as one channel, as a span with its signalling slots apart, or with a
channel for each of its slots. -/
inductive Usage
  | data
  | span
  | channels
  deriving DecidableEq, Repr

/-- Where making a channel fails for a reason that is none of the card's maps: before the channel is
the interface's, before its HDLC engine is chosen, before it is configured, or after that. -/
inductive Fails
  | never
  | early
  | attached
  | ready
  | late
  deriving DecidableEq, Repr

/-- What the configuration says of a channel, and how making it ends. -/
structure Setup where
  fails : Fails
  mru : Nat
  hdlcStreaming : Bool
  swHdlcMode : Bool
  ss7Enable : Bool
  dataMux : Bool
  deriving DecidableEq, Repr

structure Part where
  activeCh : BitVec 32
  channelized : Bool
  deriving DecidableEq, Repr

/-- The interfaces' channels in the order they were made. -/
structure State where
  card : Card
  chans : List Chan
  nextAddr : Nat

def State.inUse (state : State) (dev : Nat) : Bool := state.chans.any fun chan => chan.dev == dev

def Cfg.activeCh (cfg : Cfg) (activeCh : BitVec 32) : BitVec 32 :=
  if cfg.isE1 && !cfg.unframed then clearBit (activeCh <<< 1) 0
  else
    match cfg.media with
    | .t1 => activeCh &&& ~~~0xFF000000#32
    | .fiftySixK => 1#32
    | _ => activeCh

/-- The signalling slots, moved on by one on a framed E1 card each time they are looked for. -/
def aftFindMasterIfAndDchan (cfg : Cfg) (dchan : BitVec 32) : BitVec 32 × Bool :=
  let dchan := if cfg.isE1 && !cfg.unframed then clearBit (dchan <<< 1) 0 else dchan
  (dchan, dchan == 0#32 || (List.range cfg.numOfTimeSlots).any dchan.getLsbD)

def single (cfg : Cfg) (map : BitVec 32) (channelized : Bool) : List Part :=
  ((List.range cfg.numOfTimeSlots).filter map.getLsbD).map fun i => ⟨setBit 0#32 i, channelized⟩

def parts (cfg : Cfg) (usage : Usage) (activeCh dchan : BitVec 32) : List Part :=
  match usage with
  | .data => [⟨activeCh, false⟩]
  | .span =>
    (if activeCh &&& ~~~dchan == 0#32 && dchan != 0#32 then [] else [⟨activeCh &&& ~~~dchan, false⟩]) ++
      single cfg dchan false
  | .channels => single cfg activeCh true

def newChan (cfg : Cfg) (addr dev : Nat) (part : Part) (setup : Setup) : Chan where
  addr := addr
  dev := dev
  timeSlotMap := part.activeCh
  numOfTimeSlots := aftGetNumOfSlots cfg.numOfTimeSlots part.activeCh
  firstTimeSlot := none
  lastTimeSlot := none
  logicChNum := none
  fifoSize := 0
  fifoSizeCode := 0
  fifoBaseAddr := 0
  mru := setup.mru
  hdlcEng := false
  channelizedCfg := part.channelized
  swHdlcMode := setup.swHdlcMode
  ss7Enable := setup.ss7Enable
  dataMux := setup.dataMux && !setup.swHdlcMode

def State.attach (state : State) (card : Card) (chan : Chan) : State :=
  { card := card, chans := state.chans ++ [chan], nextAddr := state.nextAddr + 1 }

/-- An unchannelised card has no more than two HDLC interfaces. -/
def Cfg.barred (cfg : Cfg) (card : Card) : Bool :=
  !cfg.shark && cfg.securityId != 1 && decide (2 ≤ card.securityCnt.toNat)

/-- A channel as it is when it is to be configured. -/
def readyChan (cfg : Cfg) (state : State) (dev : Nat) (part : Part) (setup : Setup) : Chan :=
  { newChan cfg state.nextAddr dev part setup with hdlcEng := setup.hdlcStreaming && !setup.swHdlcMode }

def counted (card : Card) (chan : Chan) : Card :=
  { card with
    ifCnt := card.ifCnt + 1
    securityCnt := if chan.hdlcEng then card.securityCnt + 1#32 else card.securityCnt }

def newIfPrivate (cfg : Cfg) (state : State) (dev : Nat) (part : Part) (setup : Setup) : State × Bool :=
  if cfg.barred state.card || setup.fails == .early then (state, false)
  else if aftGetNumOfSlots cfg.numOfTimeSlots part.activeCh == 0 || setup.fails == .attached then
    (state.attach state.card (newChan cfg state.nextAddr dev part setup), false)
  else if setup.fails == .ready then
    (state.attach state.card (readyChan cfg state dev part setup), false)
  else
    match aftDevConfigure cfg state.card (readyChan cfg state dev part setup) with
    | (card, chan, false) => (state.attach card chan, false)
    | (card, chan, true) =>
      if setup.fails == .late then (state.attach card chan, false)
      else (state.attach (counted card chan) chan, true)

/-- The counts go down with a channel that was never counted, too. -/
def delIfPrivate (cfg : Cfg) (state : State) (chan : Chan) : State :=
  let card := (aftDevUnconfigure cfg state.card chan).1
  { state with
    card :=
      { card with
        ifCnt := card.ifCnt - 1
        securityCnt := if chan.hdlcEng then card.securityCnt - 1#32 else card.securityCnt }
    chans := state.chans.filter fun other => other.addr != chan.addr }

def delIf (cfg : Cfg) (state : State) (dev : Nat) : State :=
  (state.chans.filter fun chan => chan.dev == dev).foldl (delIfPrivate cfg) state

def partsLoop (cfg : Cfg) (dev : Nat) : State → List (Part × Setup) → State × Bool
  | state, [] => (state, true)
  | state, (part, setup) :: rest =>
    match newIfPrivate cfg state dev part setup with
    | (state, false) => (state, false)
    | (state, true) => partsLoop cfg dev state rest

def newIfParts (cfg : Cfg) (state : State) (dev : Nat) (parts : List (Part × Setup)) : State :=
  match partsLoop cfg dev state parts with
  | (state, true) => state
  | (state, false) => delIf cfg state dev

def dchanFor (cfg : Cfg) (usage : Usage) (dchan : BitVec 32) : BitVec 32 × Bool :=
  match usage with
  | .data => (0#32, true)
  | _ => aftFindMasterIfAndDchan cfg dchan

/-- The router refuses the name of an interface there is. -/
def newIf (cfg : Cfg) (state : State) (dev : Nat) (usage : Usage) (activeCh : BitVec 32)
    (setups : Nat → Setup) : State :=
  if state.inUse dev then state
  else
    let found := dchanFor cfg usage state.card.dchan
    let state := { state with card := { state.card with dchan := found.1 } }
    if found.2 then
      newIfParts cfg state dev
        ((parts cfg usage (cfg.activeCh activeCh) found.1).zipIdx.map fun pair => (pair.1, setups pair.2))
    else state

inductive Op
  | newIf (dev : Nat) (usage : Usage) (activeCh : BitVec 32) (setups : Nat → Setup)
  | delIf (dev : Nat)

def step (cfg : Cfg) (state : State) : Op → State
  | .newIf dev usage activeCh setups => newIf cfg state dev usage activeCh setups
  | .delIf dev => delIf cfg state dev

def run (cfg : Cfg) (state : State) (ops : List Op) : State := ops.foldl (step cfg) state

/-- The card as `a104_chip_config` leaves it, with the signalling slots of its configuration. -/
def started (dchan : BitVec 32) (dmaRam : Nat → DmaRam) : State where
  card :=
    { timeSlotMap := 0#32
      logicChMap := 0#32
      tdmLogicChMap := 0#32
      fifoAddrMap := 0#32
      devToChMap := fun _ => none
      topLogicCh := aftDefltActiveCh
      maxLogicCh := 0
      tdmvCnt := 0
      ifCnt := 0
      securityCnt := 0#32
      dchan := dchan
      ctrlRam := fun _ => freeEntry
      dmaRam := dmaRam }
  chans := []
  nextAddr := 0

end Wanpipe.Aft.Channels
