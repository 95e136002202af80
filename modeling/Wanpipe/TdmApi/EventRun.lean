import Wanpipe.Mailbox
import Wanpipe.TdmApi.Table

/-! The event queues of the devices of a card and of the control device over runs, held to one
mailbox each. -/

namespace Wanpipe.TdmApi

open Line Runs

/-- An event without the time at which it was queued. -/
def unstamped (event : WpApiEvent) : WpApiEvent := { event with timeStamp := ⟨0#32, 0#32⟩ }

/-- A card with the events that the users have read from its devices. -/
structure Events where
  card : Card
  heard : Nat → List WpApiEvent
  heardCtrl : List WpApiEvent

inductive EventOp
  | reportRbsbits (channel rbsbits : Octet)
  | reportAlarms (event : WanEvent)
  | tone (event : WanEvent)
  | hook (event : WanEvent)
  | linkstatus (event : WanEvent)
  | polarityreverse (event : WanEvent)
  | ringtrip (event : WanEvent)
  | ringdetect (event : WanEvent)
  /-- A report for a device of another card, which has a buffer for it or not. -/
  | elsewhere (room : Bool) (event : WpApiEvent)
  | readEvent (t : Nat)
  | flush (t : Nat) (option : Flush)
  | openDev (t : Nat)
  | closeDev (t : Nat)
  | readCtrl
  | openCtrl
  | closeCtrl

def Events.setDev (events : Events) (t : Nat) (dev : Dev) : Events :=
  { events with card := events.card.setDev t dev }

def Events.setCtrl (events : Events) (ctrl : Dev) : Events :=
  { events with card := { events.card with ctrl := ctrl } }

def eventStep (events : Events) : EventOp → Events
  | .reportRbsbits channel rbsbits =>
      { events with card := wpTdmapiReportRbsbits events.card channel rbsbits }
  | .reportAlarms event => { events with card := wpTdmapiReportAlarms events.card event }
  | .tone event => { events with card := wpTdmapiTone events.card event }
  | .hook event => { events with card := wpTdmapiHook events.card event }
  | .linkstatus event => { events with card := wpTdmapiLinkstatus events.card event }
  | .polarityreverse event => { events with card := wpTdmapiPolarityreverse events.card event }
  | .ringtrip event => { events with card := wpTdmapiRingtrip events.card event }
  | .ringdetect event => { events with card := wpTdmapiRingdetect events.card event }
  | .elsewhere room event =>
      { events with card := if room then wanSkbPushToCtrlEvent events.card event else events.card }
  | .readEvent t =>
      let result := readEvent (events.card.devs t)
      { events.setDev t result.2 with
        heard := Function.update events.heard t (events.heard t ++ result.1.toList) }
  | .flush t option => events.setDev t (wpTdmapiInitBuffs (events.card.devs t) option)
  | .openDev t => events.setDev t (wpTdmapiOpen (events.card.devs t))
  | .closeDev t => events.setDev t (wpTdmapiRelease (events.card.devs t))
  | .readCtrl =>
      let result := readEvent events.card.ctrl
      { events.setCtrl result.2 with heardCtrl := events.heardCtrl ++ result.1.toList }
  | .openCtrl => events.setCtrl (wpTdmapiOpen events.card.ctrl)
  | .closeCtrl => events.setCtrl (wpTdmapiRelease events.card.ctrl)

/-- A device and the event reported for it. -/
abbrev Report := Nat × WpApiEvent

def reportsAt (card : Card) (channel : Octet) (eventType : EventType) (value : List (BitVec 32)) :
    List Report :=
  match wpTdmapiSearch card channel.toNat with
  | none => []
  | some t => [(t, apiEvent card eventType channel value)]

def rbsReports (card : Card) (channel rbsbits : Octet) : List Report :=
  match wpTdmapiSearch card channel.toNat with
  | none => []
  | some t =>
      if (card.devs t).rbsRxBits.getD channel.toNat 0#8 = rbsbits then []
      else [(t, apiEvent card .rbs channel [rbsbits.setWidth 32])]

def alarmReports (card : Card) (event : WanEvent) : List Report :=
  channels.flatMap fun ch => reportsAt card ch .alarm [event.alarms]

def toneReports (card : Card) (event : WanEvent) : List Report :=
  match toneEventType event.type with
  | none => []
  | some eventType =>
      reportsAt card event.channel eventType
        [event.digit.setWidth 32, event.toneType.setWidth 32, event.tonePort.setWidth 32]

def linkValue (status : Octet) : List (BitVec 32) :=
  [if status = 0x01#8 then 0x01#32 else 0x02#32]

/-- One event for each channel of the device. -/
def linkReportsOf (card : Card) (t : Nat) (status : Octet) (chs : List Octet) : List Report :=
  (chs.filter fun ch => (card.devs t).activeCh.getLsbD ch.toNat).map fun ch =>
    (t, apiEvent card .linkStatus ch (linkValue status))

def setState (card : Card) (t : Nat) (status : Octet) : Card :=
  card.setDev t { card.devs t with state := status }

/-- The devices on the channels that were in another state, each once. -/
def linkReports (status : Octet) : List Octet → Card → List Report
  | [], _ => []
  | ch :: chs, card =>
      match wpTdmapiSearch card ch.toNat with
      | none => linkReports status chs card
      | some t =>
          if (card.devs t).state = status then linkReports status chs card
          else
            linkReportsOf card t status channels ++
              linkReports status chs (setState card t status)

/-- The events that a report function is called to report, in their order. -/
def reports (card : Card) : EventOp → List Report
  | .reportRbsbits channel rbsbits => rbsReports card channel rbsbits
  | .reportAlarms event => alarmReports card event
  | .tone event => toneReports card event
  | .hook event =>
      reportsAt card event.channel .rxhook (known event.rxhook [0x02#8, 0x01#8, 0x03#8])
  | .linkstatus event =>
      if card.isAnalog then linkReports event.linkStatus [event.channel] card
      else linkReports event.linkStatus channels card
  | .polarityreverse event =>
      reportsAt card event.channel .polarityReverse
        (known event.polarityReverse [0x01#8, 0x02#8])
  | .ringtrip event =>
      reportsAt card event.channel .ringTripDetect (known event.ringMode [0x02#8, 0x01#8])
  | .ringdetect event =>
      reportsAt card event.channel .ringDetect (known event.ringMode [0x01#8, 0x02#8])
  | _ => []

/-- The mailboxes of the devices and of the control device. -/
structure Boxes where
  dev : Nat → Mailbox WpApiEvent
  ctrl : Mailbox WpApiEvent

def Boxes.setDev (boxes : Boxes) (t : Nat) (box : Mailbox WpApiEvent) : Boxes :=
  { boxes with dev := Function.update boxes.dev t box }

/-- A report is for the device, whose user has it while the device is open, and for the control
device while that is open. The want of a buffer is counted for a closed device too. -/
def Boxes.report (boxes : Boxes) (card : Card) (report : Report) : Boxes :=
  let box := boxes.dev report.1
  let told :=
    if (card.devs report.1).used ∨ box.free = 0 then box.offer (unstamped report.2) else box
  { boxes.setDev report.1 told with
    ctrl := if card.ctrl.used then boxes.ctrl.offer (unstamped report.2) else boxes.ctrl }

def firstOpen (dev : Dev) : Bool := !dev.down && dev.openCnt + 1#32 == 1#32

/-- What the users of the devices are to see of an operation. -/
def Boxes.step (boxes : Boxes) (card : Card) : EventOp → Boxes
  | .elsewhere _ event =>
      { boxes with
        ctrl := if card.ctrl.used then boxes.ctrl.offer (unstamped event) else boxes.ctrl }
  | .readEvent t => boxes.setDev t (boxes.dev t).take
  | .flush t option =>
      if option = .all ∨ option = .event then boxes.setDev t (boxes.dev t).flush else boxes
  | .openDev t => if firstOpen (card.devs t) then boxes.setDev t (boxes.dev t).flush else boxes
  | .readCtrl => { boxes with ctrl := boxes.ctrl.take }
  | .openCtrl => if firstOpen card.ctrl then { boxes with ctrl := boxes.ctrl.flush } else boxes
  | op => (reports card op).foldl (fun boxes report => boxes.report card report) boxes

def countFor (t : Nat) (list : List Report) : Nat := list.countP fun report => report.1 = t

/-- Every event of a report finds a free buffer in its device. -/
def Enough (card : Card) (list : List Report) : Prop :=
  ∀ t, countFor t list = 0 ∨
    if (card.devs t).used then countFor t list ≤ (card.devs t).eventFreeList
    else 0 < (card.devs t).eventFreeList

/-- At most the last event of a link status report for a device finds no free buffer. -/
def NoBreak (card : Card) (list : List Report) : Prop :=
  ∀ t, countFor t list ≤ 1 ∨
    if (card.devs t).used then countFor t list ≤ (card.devs t).eventFreeList + 1
    else 0 < (card.devs t).eventFreeList

/-- While the control device is open every reported event finds a free buffer in its device, and
the loop of a link status report does not end early. -/
def EventAllowed (card : Card) (op : EventOp) : Prop :=
  (card.ctrl.used = true →
      Enough card (reports card op) ∧ ∀ room event, op = .elsewhere room event → room = true) ∧
    (∀ event, op = .linkstatus event → NoBreak card (reports card op))

end Wanpipe.TdmApi
