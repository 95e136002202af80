import Wanpipe.TdmApi.Events

/-! Registration of the channel devices of a card, as the interfaces of `aft_core_prot.c` drive
it. -/

namespace Wanpipe.TdmApi

open Line

/-- What the calls into the kernel give during one registration: whether the memory of the
character device and of the card device is there, how many buffers of each pool are, and what
`wanpipe_cdev_tdm_create` returns. -/
structure Outcomes where
  cdev : Bool
  cardDev : Bool
  rxBuffers : Nat
  eventBuffers : Nat
  cdevCreate : Int

/-- The sanity checks of `wp_tdmapi_reg_globals` are on the sizes of structures. -/
def wpTdmapiRegGlobals : Int := 0

/-- The number of one bits of `active_ch`. -/
def activeCount (activeCh : BitVec 32) : Nat :=
  ((List.range 32).filter fun i => activeCh.getLsbD i).length

/-- One more than the highest bit that is set. -/
def maxTimeslot (map : BitVec 32) : Nat :=
  (List.range 32).foldl (fun found i => if map.getLsbD i then i + 1 else found) 0

def deviceTimeslots (dev : Dev) : Nat :=
  if dev.hdlcFraming then 1 else dev.timeslots + activeCount dev.activeCh

def addTimeslots (isE1 : Bool) (cardDev : CardDev) (dev : Dev) : CardDev :=
  if dev.hdlcFraming then cardDev
  else
    let channels := if isE1 then dev.activeCh else dev.activeCh >>> 1
    let map := cardDev.sigTimeslotMap ||| channels
    { cardDev with
      sigTimeslotMap := map
      maxTimeslots := max cardDev.maxTimeslots (maxTimeslot map) }

def initQueues (dev : Dev) : Dev :=
  { dev with
    rxList := [], rxFreeList := 0, txList := [], txFreeList := 0, eventList := []
    eventFreeList := 0 }

def rxPoolSz : Nat := 16

def eventQueueLen (timeslots : Nat) : Nat :=
  max (timeslots * wpTdmMaxEventQTimeslotMultiple) wpTdmMinEventQLen

def hdlcCfg (isBri : Bool) (dev : Dev) : Dev :=
  let mtu := if isBri then 300 else 1500
  { dev with
    mtuMru := mtu
    cfg :=
      { dev.cfg with
        hwMtuMru := mtu, usrMtuMru := mtu, usrPeriod := 0, rxDisable := false, txDisable := false
        rxQueueSz := wpTdmMaxHdlcRxQLen, txQueueSz := wpTdmMaxHdlcTxQLen } }

def chanCfg (dev : Dev) : Dev :=
  { dev with
    txChannelized := true
    mtuMru := dev.cfg.usrPeriod * dev.cfg.hwMtuMru + hdrSz
    cfg := { dev.cfg with rxQueueSz := wpTdmMaxRxQLen, txQueueSz := wpTdmMaxTxQLen } }

def idleCfg (isBri : Bool) (dev : Dev) : Dev :=
  if dev.cfg.idleFlag = 0#32 then
    { dev with
      cfg :=
        { dev.cfg with
          idleFlag :=
            if dev.cfg.hwTdmCoding = .mulaw ∨ isBri then 0xFF#32 else 0xD5#32 } }
  else dev

/-- The defaults of a device and the checks on what its owner has filled in. -/
def configure (isBri : Bool) (dev : Dev) : Int × Dev :=
  let dev :=
    { dev with
      txChannelized := false, bufferMultiplier := 1
      cfg := { dev.cfg with rxQueueSz := wpTdmMaxRxQLen } }
  if dev.hdlcFraming then (0, hdlcCfg isBri dev)
  else
    let dev := { dev with cfg := { dev.cfg with rxDisable := false, txDisable := false } }
    if dev.cfg.hwMtuMru = 0 ∨ dev.cfg.usrPeriod = 0 ∨ dev.cfg.usrMtuMru = 0 then (-einval, dev)
    else if dev.operationMode = .chan then (0, idleCfg isBri (chanCfg dev))
    else if dev.cfg.txQueueSz = 0 then (-einval, dev)
    else (0, idleCfg isBri dev)

def storeOne (hash : Nat → Option Nat) (t feChan : Nat) : Int × (Nat → Option Nat) :=
  if maxTdmApiChannels ≤ feChan then (1, hash)
  else if (hash feChan).isSome then (1, hash)
  else (0, Function.update hash feChan (some t))

/-- The channels of a device are entered one by one, up to the first that is taken. -/
def storeChannels (t : Nat) (activeCh : BitVec 32) :
    List Nat → (Nat → Option Nat) → Int × (Nat → Option Nat)
  | [], hash => (0, hash)
  | feChan :: feChans, hash =>
      if activeCh.getLsbD feChan then
        if (storeOne hash t feChan).1 = 0 then
          storeChannels t activeCh feChans (storeOne hash t feChan).2
        else storeOne hash t feChan
      else storeChannels t activeCh feChans hash

def storeTdmApiPointerInCard (hash : Nat → Option Nat) (t : Nat) (activeCh : BitVec 32) :
    Int × (Nat → Option Nat) :=
  storeChannels t activeCh (List.range numOfE1Channels) hash

def removeTdmApiPointerFromCard (hash : Nat → Option Nat) (activeCh : BitVec 32) :
    Nat → Option Nat :=
  (List.range numOfE1Channels).foldl
    (fun hash feChan =>
      if activeCh.getLsbD feChan then
        if maxTdmApiChannels ≤ feChan then hash else Function.update hash feChan none
      else hash)
    hash

/-- One reference to the card device less; the last one frees it. -/
def putCardDev : Option CardDev → Option CardDev
  | none => none
  | some cardDev =>
      let refCnt := if 0 < cardDev.refCnt then cardDev.refCnt - 1 else cardDev.refCnt
      if refCnt = 0 then none else some { cardDev with refCnt := refCnt }

/-- `tdm_api_reg_error_exit`. -/
def regErrorExit (card : Card) (t : Nat) (queueInit : Bool) : Card :=
  let cnt := card.wpTdmapiGlobalCnt
  let freed := if queueInit then wpTdmapiFreeBuffs (card.devs t) else card.devs t
  let counted := { card with wpTdmapiGlobalCnt := if 0 < cnt then cnt - 1 else cnt }
  (counted.setDev t freed).setCardDev (putCardDev card.tdmApiDev)

def startDev (dev : Dev) : Dev := { dev with down := false, used := false }

/-- The entry of the configured device and its character device. -/
def regStore (card : Card) (t : Nat) (out : Outcomes) : Int × Card :=
  let stored := storeTdmApiPointerInCard card.wpTdmapiHash t (card.devs t).activeCh
  let card := (card.setDev t (startDev (card.devs t))).setHash stored.2
  if stored.1 ≠ 0 then (stored.1, regErrorExit card t true)
  else if out.cdevCreate ≠ 0 then (out.cdevCreate, regErrorExit card t true)
  else (0, card)

def regConfigure (card : Card) (t : Nat) (out : Outcomes) : Int × Card :=
  let configured := configure card.isBri (card.devs t)
  let card := card.setDev t configured.2
  if configured.1 ≠ 0 then (configured.1, regErrorExit card t true) else regStore card t out

/-- The buffers of a queue as far as there is memory; the device has no others yet. -/
def allocRx (dev : Dev) (out : Outcomes) : Dev :=
  { initQueues dev with rxFreeList := min out.rxBuffers rxPoolSz }

def allocEvents (dev : Dev) (out : Outcomes) : Dev :=
  { allocRx dev out with eventFreeList := min out.eventBuffers (eventQueueLen dev.timeslots) }

def regBuffers (card : Card) (t : Nat) (out : Outcomes) : Int × Card :=
  let dev := card.devs t
  if out.rxBuffers < rxPoolSz then (-1, regErrorExit (card.setDev t (allocRx dev out)) t true)
  else if out.eventBuffers < eventQueueLen dev.timeslots then
    (-1, regErrorExit (card.setDev t (allocEvents dev out)) t true)
  else regConfigure (card.setDev t (allocEvents dev out)) t out

def newCardDev : CardDev := { refCnt := 1, sigTimeslotMap := 0#32, maxTimeslots := 0 }

/-- The count of references is raised by the device for which the card device is made. -/
def getCardDev (card : Card) (out : Outcomes) : Option CardDev :=
  match card.tdmApiDev with
  | some cardDev => some cardDev
  | none => if out.cardDev then some newCardDev else none

def countedDev (dev : Dev) : Dev := { dev with timeslots := deviceTimeslots dev }

def countTimeslots (card : Card) (t : Nat) (cardDev : CardDev) : Card :=
  (card.setDev t (countedDev (card.devs t))).setCardDev
    (some (addTimeslots card.isE1 cardDev (card.devs t)))

def countDevice (card : Card) : Card :=
  { card with wpTdmapiGlobalCnt := card.wpTdmapiGlobalCnt + 1 }

/-- Without memory for the character device the error exit follows `card` before it is set. -/
def wanpipeTdmApiReg (card : Card) (t : Nat) (out : Outcomes) : Option (Int × Card) :=
  let err := if card.wpTdmapiGlobalCnt = 0 then wpTdmapiRegGlobals else -einval
  if out.cdev then
    match getCardDev card out with
    | none => some (err, regErrorExit (countDevice card) t false)
    | some cardDev => some (regBuffers (countTimeslots (countDevice card) t cardDev) t out)
  else none

/-- The end of `wanpipe_tdm_api_unreg`. -/
def unregRelease (card : Card) (t : Nat) : Card :=
  let hash := removeTdmApiPointerFromCard card.wpTdmapiHash (card.devs t).activeCh
  let freed := (card.setDev t (wpTdmapiFreeBuffs (card.devs t))).setHash hash
  { freed.setCardDev (putCardDev card.tdmApiDev) with
    wpTdmapiGlobalCnt := card.wpTdmapiGlobalCnt - 1 }

def setDown (card : Card) (t : Nat) : Card := card.setDev t { card.devs t with down := true }

def wanpipeTdmApiUnreg (card : Card) (t : Nat) : Int × Card :=
  if (card.devs t).used then (-ebusy, setDown card t)
  else (0, unregRelease (wpTdmapiUnregNotifyCtrl (setDown card t) t) t)

def setInit (card : Card) (t : Nat) (init : Bool) : Card :=
  card.setDev t { card.devs t with init := init }

/-- The last steps of `aft_tdm_api_init`. -/
def aftTdmApiInit (card : Card) (t : Nat) (out : Outcomes) : Option (Int × Card) :=
  (wanpipeTdmApiReg card t out).map fun result =>
    if result.1 = 0 then (0, setInit result.2 t true) else result

/-- `aft_tdm_api_free`, which leaves alone what is not registered. -/
def aftTdmApiFree (card : Card) (t : Nat) : Int × Card :=
  if (card.devs t).init then
    let result := wanpipeTdmApiUnreg (setInit card t false) t
    if result.1 = 0 then result else (result.1, setInit result.2 t true)
  else (0, card)

inductive RegOp
  | prepare (t : Nat) (dev : Dev)
  | reg (t : Nat) (out : Outcomes)
  | unreg (t : Nat)
  | openDev (t : Nat)
  | closeDev (t : Nat)
  | otherCards (cnt : Int)

/-- The owner of a device fills it in before it is registered, users open and close it, and the
devices of other cards count in `wp_tdmapi_global_cnt` too. -/
def regStep (card : Card) : RegOp → Option Card
  | .prepare t dev =>
      if (card.devs t).init then some card else some (card.setDev t { dev with init := false })
  | .reg t out => (aftTdmApiInit card t out).map Prod.snd
  | .unreg t => some (aftTdmApiFree card t).2
  | .openDev t => some (card.setDev t (wpTdmapiOpen (card.devs t)))
  | .closeDev t => some (card.setDev t (wpTdmapiRelease (card.devs t)))
  | .otherCards cnt => some { card with wpTdmapiGlobalCnt := cnt }

end Wanpipe.TdmApi
