import Wanpipe.TdmApi.Device

/-! The events that the channel devices of a card and the control device are told of. -/

namespace Wanpipe.TdmApi

open Line

/-- `wanpipe_tdm_api_card_dev_t`. -/
structure CardDev where
  refCnt : Int
  sigTimeslotMap : BitVec 32
  maxTimeslots : Nat
  deriving DecidableEq, Repr

/-- A card with its devices, of which the pointers are numbers, the control device of the driver
and the clock that `wan_get_timestamp` reads. -/
structure Card where
  isE1 : Bool
  isBri : Bool
  isAnalog : Bool
  spanNo : Octet
  wpTdmapiHash : Nat → Option Nat
  tdmApiDev : Option CardDev
  wpTdmapiGlobalCnt : Int
  devs : Nat → Dev
  ctrl : Dev
  clock : Nat → Time
  stamps : Nat

def Card.setDev (card : Card) (t : Nat) (dev : Dev) : Card :=
  { card with devs := Function.update card.devs t dev }

def Card.setHash (card : Card) (hash : Nat → Option Nat) : Card :=
  { card with wpTdmapiHash := hash }

def Card.setCardDev (card : Card) (cardDev : Option CardDev) : Card :=
  { card with tdmApiDev := cardDev }

inductive WanEventType
  | ecDtmf
  | ecFax1100
  | ecFax2100
  | ecFax2100Wspr
  | rmDtmf
  | other
  deriving DecidableEq, Repr

/-- `wan_event_t`. -/
structure WanEvent where
  type : WanEventType
  channel : Octet
  digit : Octet
  toneType : Octet
  tonePort : Octet
  rxhook : Octet
  ringMode : Octet
  linkStatus : Octet
  polarityReverse : Octet
  alarms : BitVec 32
  deriving DecidableEq, Repr

def wpTdmapiSearch (card : Card) (feChan : Nat) : Option Nat :=
  if feChan < maxTdmApiChannels then
    match card.wpTdmapiHash feChan with
    | some t => if (card.devs t).init then some t else none
    | none => none
  else none

/-- `WP_AFT_CHAN_ERROR_STATS(stats, rx_events_dropped)`. -/
def eventDropped (dev : Dev) : Dev :=
  { dev with
    cfg :=
      { dev.cfg with
        stats :=
          { dev.cfg.stats with
            rxEventsDropped := dev.cfg.stats.rxEventsDropped + 1
            errors := dev.cfg.stats.errors + 1 } } }

def wanpipeTdmApiHandleEvent (dev : Dev) (now : Time) (event : WpApiEvent) : Dev :=
  { dev with
    eventList := dev.eventList ++ [{ event with timeStamp := now }]
    cfg :=
      { dev.cfg with
        stats := { dev.cfg.stats with rxEvents := dev.cfg.stats.rxEvents + 1 } } }

/-- The buffer that an event is filled into leaves the free list. -/
def takeEventBuffer (dev : Dev) : Dev := { dev with eventFreeList := dev.eventFreeList - 1 }

def giveEventBuffer (dev : Dev) : Dev := { dev with eventFreeList := dev.eventFreeList + 1 }

/-- An event is as long as every other, so it fits into each buffer of the control device. -/
def wanSkbPushToCtrlEvent (card : Card) (event : WpApiEvent) : Card :=
  if card.ctrl.used then
    if card.ctrl.eventFreeList = 0 then { card with ctrl := eventDropped card.ctrl }
    else
      { card with
        ctrl :=
          wanpipeTdmApiHandleEvent (takeEventBuffer card.ctrl) (card.clock card.stamps) event
        stamps := card.stamps + 1 }
  else card

/-- What becomes of a filled buffer: a copy for the control device, then the event list if the
device is open and the free list if not. -/
def queueEvent (card : Card) (t : Nat) (event : WpApiEvent) : Card :=
  let told := wanSkbPushToCtrlEvent card event
  if (told.devs t).used then
    { told.setDev t (wanpipeTdmApiHandleEvent (told.devs t) (told.clock told.stamps) event) with
      stamps := told.stamps + 1 }
  else told.setDev t (giveEventBuffer (told.devs t))

/-- The sequence that the report functions share. -/
def reportEvent (card : Card) (t : Nat) (event : WpApiEvent) : Card :=
  if (card.devs t).eventFreeList = 0 then card.setDev t (eventDropped (card.devs t))
  else queueEvent (card.setDev t (takeEventBuffer (card.devs t))) t event

def apiEvent (card : Card) (eventType : EventType) (channel : Octet) (value : List (BitVec 32)) :
    WpApiEvent :=
  { eventType := eventType, channel := channel, span := card.spanNo, value := value
    timeStamp := ⟨0#32, 0#32⟩ }

/-- The report of an event for the device of a channel, if it has one. -/
def reportAt (card : Card) (channel : Octet) (eventType : EventType) (value : List (BitVec 32)) :
    Card :=
  match wpTdmapiSearch card channel.toNat with
  | none => card
  | some t => reportEvent card t (apiEvent card eventType channel value)

/-- The member of the union that a `switch` sets, zero where no case is met. -/
def known (value : Octet) (values : List Octet) : List (BitVec 32) :=
  if value ∈ values then [value.setWidth 32] else [0#32]

def wpTdmapiReportRbsbits (card : Card) (channel : Octet) (rbsbits : Octet) : Card :=
  match wpTdmapiSearch card channel.toNat with
  | none => card
  | some t =>
      if (card.devs t).rbsRxBits.getD channel.toNat 0#8 = rbsbits then card
      else
        let dev := card.devs t
        let noted := { dev with rbsRxBits := dev.rbsRxBits.set channel.toNat rbsbits }
        reportEvent (card.setDev t noted) t (apiEvent card .rbs channel [rbsbits.setWidth 32])

def wpTdmapiAlarms (card : Card) (event : WanEvent) : Card :=
  reportAt card event.channel .alarm [event.alarms]

def channels : List Octet := (List.range numOfE1Channels).map (BitVec.ofNat 8)

def wpTdmapiReportAlarms (card : Card) (event : WanEvent) : Card :=
  channels.foldl (fun card ch => wpTdmapiAlarms card { event with channel := ch }) card

def toneEventType : WanEventType → Option EventType
  | .ecDtmf => some .dtmf
  | .rmDtmf => some .dtmf
  | .ecFax1100 => some .fax1100
  | .ecFax2100 => some .fax2100
  | .ecFax2100Wspr => some .fax2100Wspr
  | .other => none

def wpTdmapiTone (card : Card) (event : WanEvent) : Card :=
  match toneEventType event.type with
  | none => card
  | some eventType =>
      reportAt card event.channel eventType
        [event.digit.setWidth 32, event.toneType.setWidth 32, event.tonePort.setWidth 32]

def wpTdmapiHook (card : Card) (event : WanEvent) : Card :=
  reportAt card event.channel .rxhook (known event.rxhook [0x02#8, 0x01#8, 0x03#8])

/-- The loop over the channels of a device, which ends where the free list is empty. -/
def linkStatusLoop (t : Nat) (value : List (BitVec 32)) : List Octet → Card → Card
  | [], card => card
  | ch :: chs, card =>
      if (card.devs t).activeCh.getLsbD ch.toNat then
        if (card.devs t).eventFreeList = 0 then card.setDev t (eventDropped (card.devs t))
        else
          linkStatusLoop t value chs
            (queueEvent (card.setDev t (takeEventBuffer (card.devs t))) t
              (apiEvent card .linkStatus ch value))
      else linkStatusLoop t value chs card

def wpTdmapiLinkstatusOne (card : Card) (event : WanEvent) : Card :=
  match wpTdmapiSearch card event.channel.toNat with
  | none => card
  | some t =>
      if (card.devs t).state = event.linkStatus then card
      else
        let dev := card.devs t
        let value := if event.linkStatus = 0x01#8 then 0x01#32 else 0x02#32
        linkStatusLoop t [value] channels (card.setDev t { dev with state := event.linkStatus })

def wpTdmapiLinkstatus (card : Card) (event : WanEvent) : Card :=
  if card.isAnalog then wpTdmapiLinkstatusOne card event
  else
    channels.foldl (fun card ch => wpTdmapiLinkstatusOne card { event with channel := ch }) card

def wpTdmapiPolarityreverse (card : Card) (event : WanEvent) : Card :=
  reportAt card event.channel .polarityReverse (known event.polarityReverse [0x01#8, 0x02#8])

def wpTdmapiRingtrip (card : Card) (event : WanEvent) : Card :=
  reportAt card event.channel .ringTripDetect (known event.ringMode [0x02#8, 0x01#8])

def wpTdmapiRingdetect (card : Card) (event : WanEvent) : Card :=
  reportAt card event.channel .ringDetect (known event.ringMode [0x01#8, 0x02#8])

/-- `WP_API_CMD_READ_EVENT`. -/
def readEvent (dev : Dev) : Option WpApiEvent × Dev :=
  match dev.eventList with
  | [] => (none, dev)
  | event :: events => (some event, giveEventBuffer { dev with eventList := events })

/-- `wp_tdmapi_unreg_notify_ctrl`. -/
def notifyCtrlLoop (t : Nat) : List Octet → Card → Card
  | [], card => card
  | ch :: chs, card =>
      if (card.devs t).activeCh.getLsbD ch.toNat then
        if (card.devs t).eventFreeList = 0 then notifyCtrlLoop t chs card
        else
          notifyCtrlLoop t chs
            (wanSkbPushToCtrlEvent card (apiEvent card .linkStatus ch [0x02#32]))
      else notifyCtrlLoop t chs card

def wpTdmapiUnregNotifyCtrl (card : Card) (t : Nat) : Card :=
  if card.ctrl.used then notifyCtrlLoop t channels card else card

end Wanpipe.TdmApi
