import Wanpipe.TdmApi.EventOrder
import Wanpipe.TdmApi.TableRun

/-! What the users of the devices of a card read of the reported events, over runs. -/

namespace Wanpipe.TdmApi

open Line Runs

/-- The mailboxes move with the queues whenever a step is allowed. -/
theorem eventStep_matches {events : Events} {boxes : Boxes} (same : Matches events boxes)
    {op : EventOp} (allowed : EventAllowed events.card op) :
    Matches (eventStep events op) (boxes.step events.card op) := by
  have enough (used : events.card.ctrl.used = true) := (allowed.1 used).1
  cases op with
  | reportRbsbits channel rbsbits => exact same.rbsbits channel rbsbits enough
  | reportAlarms event =>
      have all := same.reports _ enough
      rw [reports, ← wpTdmapiReportAlarms_eq] at all
      exact all
  | tone event =>
      have all := same.reports _ enough
      rw [reports, ← wpTdmapiTone_eq] at all
      exact all
  | hook event =>
      have all := same.reports _ enough
      rw [reports, ← reportAt_eq] at all
      exact all
  | polarityreverse event =>
      have all := same.reports _ enough
      rw [reports, ← reportAt_eq] at all
      exact all
  | ringtrip event =>
      have all := same.reports _ enough
      rw [reports, ← reportAt_eq] at all
      exact all
  | ringdetect event =>
      have all := same.reports _ enough
      rw [reports, ← reportAt_eq] at all
      exact all
  | linkstatus event =>
      have noBreak := allowed.2 event rfl
      simp only [reports] at enough noBreak
      simp only [eventStep, Boxes.step, reports, wpTdmapiLinkstatus]
      by_cases analog : events.card.isAnalog = true
      · simp only [if_pos analog] at enough noBreak ⊢
        exact same.linkstatus event [event.channel] enough noBreak
      · simp only [if_neg analog] at enough noBreak ⊢
        exact same.linkstatus event channels enough noBreak
  | elsewhere room event =>
      have devs := (wanSkbPushToCtrlEvent_devs events.card event).1
      simp only [eventStep, Boxes.step]
      constructor
      · intro t
        have here := same.dev t
        cases room <;> simp only [Bool.false_eq_true, if_false, if_true, devs]
        · exact here
        · exact here
      · by_cases used : events.card.ctrl.used = true
        · have found : room = true := (allowed.1 used).2 room event rfl
          simp only [found, if_true, wanSkbPushToCtrlEvent_ctrl]
          exact copied_sees same.ctrl event
        · have quiet : wanSkbPushToCtrlEvent events.card event = events.card := by
            rw [wanSkbPushToCtrlEvent, if_neg used]
          simp only [quiet, ite_self, if_neg used]
          exact same.ctrl
  | readEvent t => exact same.setDev t (same.dev t).readEvent
  | flush t option =>
      have flushed := (same.dev t).initBuffs option
      rw [Boxes.step]
      split
      · next events =>
          rw [if_pos events] at flushed
          have set := same.setDev t flushed
          rw [Function.update_eq_self] at set
          exact set
      · next others =>
          rw [if_neg others] at flushed
          exact same.note t flushed
  | openDev t =>
      have opened := (same.dev t).openDev
      rw [Boxes.step]
      split
      · next first =>
          rw [if_pos first] at opened
          have set := same.setDev t opened
          rw [Function.update_eq_self] at set
          exact set
      · next later =>
          rw [if_neg later] at opened
          exact same.note t opened
  | closeDev t => exact same.note t (same.dev t).closeDev
  | readCtrl => exact ⟨same.dev, same.ctrl.readEvent⟩
  | openCtrl =>
      have opened := same.ctrl.openDev
      rw [Boxes.step]
      split
      · next first =>
          rw [if_pos first] at opened
          exact ⟨same.dev, opened⟩
      · next later =>
          rw [if_neg later] at opened
          exact ⟨same.dev, opened⟩
  | closeCtrl => exact ⟨same.dev, same.ctrl.closeDev⟩

/-- Both move together. -/
structure Watched where
  events : Events
  boxes : Boxes

def watchStep (watched : Watched) (op : EventOp) : Option Watched :=
  some
    { events := eventStep watched.events op
      boxes := watched.boxes.step watched.events.card op }

def watch (watched : Watched) (ops : List EventOp) : Watched :=
  (run watchStep watched ops).getD watched

def boxOf (dev : Dev) : Mailbox WpApiEvent :=
  Mailbox.fresh dev.eventFreeList (dev.eventList.map unstamped) dev.cfg.stats.rxEventsDropped

/-- A card of which nothing was read yet. -/
def atStart (card : Card) : Watched :=
  { events := { card := card, heard := fun _ => [], heardCtrl := [] }
    boxes := { dev := fun t => boxOf (card.devs t), ctrl := boxOf card.ctrl } }

/-- The mailboxes are in order, with as many buffers as the devices had. -/
structure Boxes.Sound (dev : Nat → Nat) (ctrl : Nat) (boxes : Boxes) : Prop where
  dev : ∀ t, (boxes.dev t).Sound (dev t)
  ctrl : boxes.ctrl.Sound ctrl

variable {buffers : Nat → Nat} {ctrlBuffers : Nat} {boxes : Boxes}

theorem Boxes.Sound.setDev (sound : boxes.Sound buffers ctrlBuffers) {t : Nat}
    {box : Mailbox WpApiEvent} (kept : box.Sound (buffers t)) :
    (boxes.setDev t box).Sound buffers ctrlBuffers := by
  refine ⟨?_, sound.ctrl⟩
  intro u
  by_cases here : u = t
  · rw [here]
    simp only [Boxes.setDev, Function.update_self]
    exact kept
  · simp only [Boxes.setDev, Function.update_of_ne here]
    exact sound.dev u

theorem Boxes.Sound.report (sound : boxes.Sound buffers ctrlBuffers) (card : Card)
    (report : Report) : (boxes.report card report).Sound buffers ctrlBuffers := by
  have told : (if (card.devs report.1).used ∨ (boxes.dev report.1).free = 0
      then (boxes.dev report.1).offer (unstamped report.2) else boxes.dev report.1).Sound
        (buffers report.1) := by
    split
    · exact (sound.dev report.1).offer _
    · exact sound.dev report.1
  constructor
  · exact (sound.setDev told).dev
  · simp only [Boxes.report]
    split
    · exact sound.ctrl.offer _
    · exact sound.ctrl

theorem Boxes.Sound.reportAll (sound : boxes.Sound buffers ctrlBuffers) (card : Card)
    (list : List Report) : (boxes.reportAll card list).Sound buffers ctrlBuffers := by
  induction list generalizing boxes with
  | nil => exact sound
  | cons report list ih => exact ih (sound.report card report)

theorem Boxes.Sound.step (sound : boxes.Sound buffers ctrlBuffers) (card : Card) (op : EventOp) :
    (boxes.step card op).Sound buffers ctrlBuffers := by
  cases op with
  | readEvent t => exact sound.setDev (sound.dev t).take
  | flush t option =>
      rw [Boxes.step]
      split
      · exact sound.setDev (sound.dev t).flush
      · exact sound
  | openDev t =>
      rw [Boxes.step]
      split
      · exact sound.setDev (sound.dev t).flush
      · exact sound
  | readCtrl => exact ⟨sound.dev, sound.ctrl.take⟩
  | openCtrl =>
      rw [Boxes.step]
      split
      · exact ⟨sound.dev, sound.ctrl.flush⟩
      · exact sound
  | elsewhere room event =>
      refine ⟨sound.dev, ?_⟩
      simp only [Boxes.step]
      split
      · exact sound.ctrl.offer _
      · exact sound.ctrl
  | _ => exact sound.reportAll card _

/-- What a run keeps of a card and its mailboxes. -/
structure Kept (buffers : Nat → Nat) (ctrlBuffers : Nat) (watched : Watched) : Prop where
  same : Matches watched.events watched.boxes
  sound : watched.boxes.Sound buffers ctrlBuffers

def EventsAllowed (watched : Watched) (op : EventOp) : Prop :=
  EventAllowed watched.events.card op

theorem watch_kept {watched : Watched} {ops : List EventOp}
    (allowed : Along watchStep EventsAllowed watched ops)
    (start : Kept buffers ctrlBuffers watched) : Kept buffers ctrlBuffers (watch watched ops) := by
  have steps (watched : Watched) (op : EventOp) (kept : Kept buffers ctrlBuffers watched)
      (allows : EventsAllowed watched op) :
      ∃ next, watchStep watched op = some next ∧ Kept buffers ctrlBuffers next :=
    ⟨_, rfl, eventStep_matches kept.same allows, kept.sound.step watched.events.card op⟩
  rcases allowed.run steps start with ⟨last, ran, kept⟩
  rw [watch, ran]
  exact kept

def eventBuffers (dev : Dev) : Nat := dev.eventFreeList + dev.eventList.length

theorem boxOf_sees (dev : Dev) : Sees dev [] (boxOf dev) := ⟨rfl, rfl, rfl, rfl⟩

theorem boxOf_sound (dev : Dev) : (boxOf dev).Sound (eventBuffers dev) := by
  have sound := Mailbox.fresh_sound dev.eventFreeList (dev.eventList.map unstamped)
    dev.cfg.stats.rxEventsDropped
  rw [List.length_map] at sound
  exact sound

theorem atStart_kept (card : Card) :
    Kept (fun t => eventBuffers (card.devs t)) (eventBuffers card.ctrl) (atStart card) where
  same := ⟨fun t => boxOf_sees (card.devs t), boxOf_sees card.ctrl⟩
  sound := ⟨fun t => boxOf_sound (card.devs t), boxOf_sound card.ctrl⟩

/-- No buffer is lost, what found a buffer is read once and in order or still waits to be, and what
found none is counted. -/
structure Account (buffers : Nat) (dev : Dev) (heard : List WpApiEvent)
    (box : Mailbox WpApiEvent) : Prop where
  pool : eventBuffers dev = buffers
  once : box.kept = (heard ++ dev.eventList).map unstamped
  dropped : dev.cfg.stats.rxEventsDropped = box.lost

theorem Sees.account {dev : Dev} {heard : List WpApiEvent} {box : Mailbox WpApiEvent}
    {count : Nat} (sees : Sees dev heard box) (sound : box.Sound count) :
    Account count dev heard box := by
  constructor
  · rw [eventBuffers, ← sound.size, Mailbox.size, sees.free, sees.pending, List.length_map]
  · rw [sound.inOrder, sees.read, sees.pending, List.map_append]
  · exact sees.lost.symm

/-- The users of the devices and of the control device are told of the reported events. -/
theorem tdm_api_events (card : Card) (ops : List EventOp)
    (allowed : Along watchStep EventsAllowed (atStart card) ops) :
    let last := watch (atStart card) ops
    (∀ t, Account (eventBuffers (card.devs t)) (last.events.card.devs t) (last.events.heard t)
      (last.boxes.dev t)) ∧
      Account (eventBuffers card.ctrl) last.events.card.ctrl last.events.heardCtrl
        last.boxes.ctrl := by
  have kept := watch_kept allowed (atStart_kept card)
  constructor
  · exact fun t => (kept.same.dev t).account (kept.sound.dev t)
  · exact kept.same.ctrl.account kept.sound.ctrl

/-- A card with a device of two channels, of which the control device is there. -/
def pairCard : Card :=
  { emptyCard with
    devs := fun _ => voiceDev 0x6#32
    ctrl := { Dev.zero with init := true, eventFreeList := wpTdmMaxCtrlEventQLen } }

def pairOutcomes : Outcomes := { allThere with eventBuffers := eventQueueLen 2 }

def linkEvent (status : Octet) : WanEvent :=
  { type := .other, channel := 1#8, digit := 0#8, toneType := 0#8, tonePort := 0#8, rxhook := 0#8
    ringMode := 0#8, linkStatus := status, polarityReverse := 0#8, alarms := 0#32 }

/-- The card with its first device registered. -/
def hookCard : Card :=
  { pairCard with
    wpTdmapiHash := fun ch => if ch = 1 then some 0 else none
    devs := fun _ => { voiceDev 0x2#32 with init := true, eventFreeList := 10 } }

theorem tdm_api_events_read :
    let last := watch (atStart hookCard) [.openDev 0, .hook (linkEvent 0x01#8), .readEvent 0]
    (∀ t, Account (eventBuffers (hookCard.devs t)) (last.events.card.devs t)
      (last.events.heard t) (last.boxes.dev t)) ∧
      Account (eventBuffers hookCard.ctrl) last.events.card.ctrl last.events.heardCtrl
        last.boxes.ctrl := by
  apply tdm_api_events
  have closed {card : Card} (unused : card.ctrl.used = false) {op : EventOp}
      (other : ∀ event, op ≠ .linkstatus event) : EventAllowed card op := by
    constructor
    · intro used
      rw [unused] at used
      cases used
    · intro event link
      exact absurd link (other event)
  refine ⟨closed rfl (by simp), ?_⟩
  rintro opened ⟨⟩
  refine ⟨closed (by decide +kernel) (by simp), ?_⟩
  rintro hooked ⟨⟩
  exact ⟨closed (by decide +kernel) (by simp), fun _ _ => trivial⟩

/-- Seven changes of the link status of two channels, with buffers for six. The seventh counts one
event of two and tells the control device of neither. -/
theorem tdm_api_events_lost :
    ¬ ∀ (card next : Card) (t : Nat) (out : Outcomes) (ops : List EventOp),
      aftTdmApiInit card t out = some (0, next) →
      let last := watch (atStart next) ops
      Account (eventBuffers (next.devs t)) (last.events.card.devs t) (last.events.heard t)
        (last.boxes.dev t) ∨
        Account (eventBuffers next.ctrl) last.events.card.ctrl last.events.heardCtrl
          last.boxes.ctrl := by
  intro always
  let up : EventOp := .linkstatus (linkEvent 0x01#8)
  let down : EventOp := .linkstatus (linkEvent 0x02#8)
  let ops : List EventOp := [.openCtrl, .openDev 0, up, down, up, down, up, down, up]
  have done : (aftTdmApiInit pairCard 0 pairOutcomes).map
      (fun result =>
        let last := watch (atStart result.2) ops
        (result.1, (last.events.card.devs 0).cfg.stats.rxEventsDropped, (last.boxes.dev 0).lost,
          last.events.card.ctrl.eventList.length, last.boxes.ctrl.kept.length,
          last.events.heardCtrl.length)) = some (0, 1, 2, 12, 14, 0) := by
    decide +kernel
  rcases Option.map_eq_some_iff.mp done with ⟨⟨err, next⟩, ran, seen⟩
  simp only [Prod.mk.injEq] at seen
  rcases seen with ⟨zero, counted, lost, queued, kept, heard⟩
  rw [zero] at ran
  rcases always pairCard next 0 pairOutcomes ops ran with device | control
  · have same := device.dropped
    rw [counted, lost] at same
    cases same
  · have same := congrArg List.length control.once
    rw [kept, List.length_map, List.length_append, heard, queued] at same
    cases same

end Wanpipe.TdmApi
