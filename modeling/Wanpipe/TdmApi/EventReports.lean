import Wanpipe.TdmApi.EventRun

/-! What a report does to the event queue of a device, and what it does to a mailbox. -/

namespace Wanpipe.TdmApi

open Line Runs

/-- The mailbox of a device says what is in its queue, what was read and what was lost. -/
structure Sees (dev : Dev) (heard : List WpApiEvent) (box : Mailbox WpApiEvent) : Prop where
  free : box.free = dev.eventFreeList
  pending : box.pending = dev.eventList.map unstamped
  read : box.read = heard.map unstamped
  lost : box.lost = dev.cfg.stats.rxEventsDropped

structure Matches (events : Events) (boxes : Boxes) : Prop where
  dev : ∀ t, Sees (events.card.devs t) (events.heard t) (boxes.dev t)
  ctrl : Sees events.card.ctrl events.heardCtrl boxes.ctrl

variable {dev : Dev} {heard : List WpApiEvent} {box : Mailbox WpApiEvent}

theorem Sees.queue (sees : Sees dev heard box) (some : dev.eventFreeList ≠ 0) (now : Time)
    (event : WpApiEvent) :
    Sees (wanpipeTdmApiHandleEvent (takeEventBuffer dev) now event) heard
      (box.offer (unstamped event)) := by
  have room : box.free ≠ 0 := by rwa [sees.free]
  rw [Mailbox.offer, if_neg room]
  constructor
  · rw [Mailbox.push, sees.free]
    rfl
  · rw [Mailbox.push, sees.pending]
    simp [wanpipeTdmApiHandleEvent, takeEventBuffer, unstamped]
  · exact sees.read
  · exact sees.lost

theorem Sees.drop (sees : Sees dev heard box) (none : dev.eventFreeList = 0)
    (event : WpApiEvent) : Sees (eventDropped dev) heard (box.offer event) := by
  have full : box.free = 0 := by rwa [sees.free]
  rw [Mailbox.offer, if_pos full]
  constructor
  · exact sees.free
  · exact sees.pending
  · exact sees.read
  · rw [Mailbox.lose, sees.lost]
    rfl

theorem Sees.giveBack (sees : Sees dev heard box) (some : dev.eventFreeList ≠ 0) :
    Sees (giveEventBuffer (takeEventBuffer dev)) heard box := by
  constructor
  · rw [sees.free]
    simp only [giveEventBuffer, takeEventBuffer]
    omega
  · exact sees.pending
  · exact sees.read
  · exact sees.lost

theorem Sees.readEvent (sees : Sees dev heard box) :
    Sees (readEvent dev).2 (heard ++ (readEvent dev).1.toList) box.take := by
  have waiting := sees.pending
  cases queue : dev.eventList with
  | nil =>
      rw [queue, List.map_nil] at waiting
      simp only [TdmApi.readEvent, queue, Mailbox.take, waiting, Option.toList_none,
        List.append_nil]
      exact sees
  | cons event events =>
      rw [queue, List.map_cons] at waiting
      simp only [TdmApi.readEvent, queue, Mailbox.take, waiting, Option.toList_some]
      constructor
      · simp [giveEventBuffer, sees.free]
      · rfl
      · simp [sees.read]
      · exact sees.lost

/-- A step that leaves the event queue of the device alone. -/
theorem Sees.same {next : Dev} (sees : Sees dev heard box)
    (free : next.eventFreeList = dev.eventFreeList) (queue : next.eventList = dev.eventList)
    (dropped : next.cfg.stats.rxEventsDropped = dev.cfg.stats.rxEventsDropped) :
    Sees next heard box := by
  constructor
  · rw [sees.free, free]
  · rw [sees.pending, queue]
  · exact sees.read
  · rw [sees.lost, dropped]

theorem flushRx_events (dev : Dev) :
    (flushRx dev).eventFreeList = dev.eventFreeList ∧ (flushRx dev).eventList = dev.eventList ∧
      (flushRx dev).cfg = dev.cfg := by
  rw [flushRx]
  split <;> exact ⟨rfl, rfl, rfl⟩

theorem Sees.flushEvent {next : Dev} (sees : Sees dev heard box)
    (free : next.eventFreeList = dev.eventFreeList + dev.eventList.length)
    (queue : next.eventList = [])
    (dropped : next.cfg.stats.rxEventsDropped = dev.cfg.stats.rxEventsDropped) :
    Sees next heard box.flush := by
  constructor
  · rw [Mailbox.flush, sees.free, sees.pending, List.length_map, free]
  · rw [Mailbox.flush, queue]
    rfl
  · exact sees.read
  · rw [dropped]
    exact sees.lost

theorem Sees.initBuffs (sees : Sees dev heard box) (option : Flush) :
    Sees (wpTdmapiInitBuffs dev option) heard
      (if option = .all ∨ option = .event then box.flush else box) := by
  rcases flushRx_events dev with ⟨free, queue, cfg⟩
  cases option with
  | all =>
      have flushed : (wpTdmapiInitBuffs dev .all).eventFreeList =
          (flushRx dev).eventFreeList + (flushRx dev).eventList.length := rfl
      rw [free, queue] at flushed
      have dropped : (wpTdmapiInitBuffs dev .all).cfg = (flushRx dev).cfg := rfl
      rw [if_pos (.inl rfl)]
      exact sees.flushEvent flushed rfl (by rw [dropped, cfg])
  | rx =>
      rw [if_neg (by simp)]
      exact sees.same free queue (congrArg (fun cfg => cfg.stats.rxEventsDropped) cfg)
  | tx =>
      rw [if_neg (by simp)]
      exact sees.same rfl rfl rfl
  | event =>
      rw [if_pos (.inr rfl)]
      exact sees.flushEvent rfl rfl rfl

theorem Sees.openDev (sees : Sees dev heard box) :
    Sees (wpTdmapiOpen dev) heard (if firstOpen dev then box.flush else box) := by
  by_cases down : dev.down = true
  · have open' : wpTdmapiOpen dev = dev := by simp [wpTdmapiOpen, down]
    have later : firstOpen dev = false := by simp [firstOpen, down]
    rw [open', later]
    exact sees
  · by_cases first : dev.openCnt + 1#32 = 1#32
    · have flushes : firstOpen dev = true := by simp [firstOpen, down, first]
      rw [flushes, if_pos rfl]
      have counted : Sees { dev with openCnt := dev.openCnt + 1#32 } heard box :=
        sees.same rfl rfl rfl
      have flushed := counted.initBuffs .all
      rw [if_pos (.inl rfl)] at flushed
      simp only [wpTdmapiOpen, if_neg down, if_pos first]
      exact flushed.same rfl rfl (by
        have cfg := (flushRx_events { dev with openCnt := dev.openCnt + 1#32 }).2.2
        exact (congrArg (fun cfg => cfg.stats.rxEventsDropped) cfg).symm)
    · have later : firstOpen dev = false := by simp [firstOpen, first]
      rw [later]
      simp only [wpTdmapiOpen, if_neg down, if_neg first]
      exact sees.same rfl rfl rfl

theorem Sees.closeDev (sees : Sees dev heard box) : Sees (wpTdmapiRelease dev) heard box := by
  simp only [wpTdmapiRelease]
  split
  · split <;> exact sees.same rfl rfl rfl
  · exact sees.same rfl rfl rfl

/-- What a report leaves alone. -/
structure Told (card next : Card) : Prop where
  isAnalog : next.isAnalog = card.isAnalog
  spanNo : next.spanNo = card.spanNo
  hash : next.wpTdmapiHash = card.wpTdmapiHash
  ctrl : next.ctrl.used = card.ctrl.used
  init : ∀ t, (next.devs t).init = (card.devs t).init
  used : ∀ t, (next.devs t).used = (card.devs t).used
  activeCh : ∀ t, (next.devs t).activeCh = (card.devs t).activeCh
  state : ∀ t, (next.devs t).state = (card.devs t).state

theorem Told.refl (card : Card) : Told card card :=
  ⟨rfl, rfl, rfl, rfl, fun _ => rfl, fun _ => rfl, fun _ => rfl, fun _ => rfl⟩

theorem Told.trans {card next last : Card} (first : Told card next) (second : Told next last) :
    Told card last where
  isAnalog := second.isAnalog.trans first.isAnalog
  spanNo := second.spanNo.trans first.spanNo
  hash := second.hash.trans first.hash
  ctrl := second.ctrl.trans first.ctrl
  init t := (second.init t).trans (first.init t)
  used t := (second.used t).trans (first.used t)
  activeCh t := (second.activeCh t).trans (first.activeCh t)
  state t := (second.state t).trans (first.state t)

/-- How the control device is after the copy of an event. -/
def copied (card : Card) (event : WpApiEvent) : Dev :=
  if card.ctrl.used then
    if card.ctrl.eventFreeList = 0 then eventDropped card.ctrl
    else wanpipeTdmApiHandleEvent (takeEventBuffer card.ctrl) (card.clock card.stamps) event
  else card.ctrl

theorem wanSkbPushToCtrlEvent_ctrl (card : Card) (event : WpApiEvent) :
    (wanSkbPushToCtrlEvent card event).ctrl = copied card event := by
  rw [wanSkbPushToCtrlEvent, copied]
  split
  · split <;> rfl
  · rfl

theorem wanSkbPushToCtrlEvent_told (card : Card) (event : WpApiEvent) :
    Told card (wanSkbPushToCtrlEvent card event) := by
  have devs := (wanSkbPushToCtrlEvent_devs card event).1
  constructor
  · rw [wanSkbPushToCtrlEvent]
    split
    · split <;> rfl
    · rfl
  · rw [wanSkbPushToCtrlEvent]
    split
    · split <;> rfl
    · rfl
  · exact (wanSkbPushToCtrlEvent_devs card event).2.1
  · rw [wanSkbPushToCtrlEvent_ctrl, copied]
    split
    · split <;> rfl
    · rfl
  · exact fun t => by rw [devs]
  · exact fun t => by rw [devs]
  · exact fun t => by rw [devs]
  · exact fun t => by rw [devs]

theorem copied_sees {card : Card} (sees : Sees card.ctrl heard box) (event : WpApiEvent) :
    Sees (copied card event) heard
      (if card.ctrl.used then box.offer (unstamped event) else box) := by
  rw [copied]
  split
  · split
    · next none => exact sees.drop none _
    · next some => exact sees.queue some _ _
  · exact sees

theorem Told.setDev (card : Card) (t : Nat) {dev : Dev} (init : dev.init = (card.devs t).init)
    (used : dev.used = (card.devs t).used) (activeCh : dev.activeCh = (card.devs t).activeCh)
    (state : dev.state = (card.devs t).state) : Told card (card.setDev t dev) := by
  have each {α : Type} (field : Dev → α) (same : field dev = field (card.devs t)) (u : Nat) :
      field ((card.setDev t dev).devs u) = field (card.devs u) := by
    by_cases here : u = t
    · rw [here, Card.setDev_self, same]
    · rw [Card.setDev_other _ _ here]
  exact ⟨rfl, rfl, rfl, rfl, each Dev.init init, each Dev.used used, each Dev.activeCh activeCh,
    each Dev.state state⟩

/-- The state of a device once its event is filled in and copied. -/
def queued (dev : Dev) (now : Time) (event : WpApiEvent) : Dev :=
  if dev.used then wanpipeTdmApiHandleEvent (takeEventBuffer dev) now event
  else giveEventBuffer (takeEventBuffer dev)

/-- A report that finds a buffer. -/
theorem reportEvent_some {card : Card} {t : Nat} (some : (card.devs t).eventFreeList ≠ 0)
    (event : WpApiEvent) :
    ∃ now, (reportEvent card t event).devs =
        Function.update card.devs t (queued (card.devs t) now event) ∧
      (reportEvent card t event).ctrl = copied card event ∧
      Told card (reportEvent card t event) := by
  let taken := card.setDev t (takeEventBuffer (card.devs t))
  have took : Told card taken := Told.setDev card t rfl rfl rfl rfl
  have pushed := wanSkbPushToCtrlEvent_devs taken event
  have ctrl := wanSkbPushToCtrlEvent_ctrl taken event
  have told := took.trans (wanSkbPushToCtrlEvent_told taken event)
  have same : copied taken event = copied card event := rfl
  have devs : taken.devs = Function.update card.devs t (takeEventBuffer (card.devs t)) := rfl
  have reported : reportEvent card t event = queueEvent taken t event := by
    rw [reportEvent, if_neg some]
  rw [reported]
  simp only [queueEvent]
  generalize wanSkbPushToCtrlEvent taken event = next at pushed ctrl told
  have here : next.devs t = takeEventBuffer (card.devs t) := by
    rw [pushed.1, devs, Function.update_self]
  have placed (dev : Dev) : Function.update next.devs t dev = Function.update card.devs t dev := by
    rw [pushed.1, devs, Function.update_idem]
  refine ⟨next.clock next.stamps, ?_⟩
  by_cases used : (card.devs t).used = true
  · have open' : (next.devs t).used = true := by rw [here]; exact used
    rw [if_pos open', queued, if_pos used]
    refine ⟨?_, ctrl.trans same, ?_⟩
    · rw [← here]
      exact placed _
    · have set : Told next (next.setDev t
          (wanpipeTdmApiHandleEvent (next.devs t) (next.clock next.stamps) event)) :=
        Told.setDev next t rfl rfl rfl rfl
      exact told.trans ⟨set.isAnalog, set.spanNo, set.hash, set.ctrl, set.init, set.used,
        set.activeCh, set.state⟩
  · have closed : ¬ (next.devs t).used = true := by rw [here]; exact used
    rw [if_neg closed, queued, if_neg used]
    refine ⟨?_, ctrl.trans same, ?_⟩
    · rw [← here]
      exact placed _
    · exact told.trans (Told.setDev next t rfl rfl rfl rfl)

theorem reportEvent_none {card : Card} {t : Nat} (none : (card.devs t).eventFreeList = 0)
    (event : WpApiEvent) :
    reportEvent card t event = card.setDev t (eventDropped (card.devs t)) := by
  rw [reportEvent, if_pos none]

theorem reportEvent_told (card : Card) (t : Nat) (event : WpApiEvent) :
    Told card (reportEvent card t event) := by
  by_cases none : (card.devs t).eventFreeList = 0
  · rw [reportEvent_none none]
    exact Told.setDev card t rfl rfl rfl rfl
  · rcases reportEvent_some none event with ⟨now, devs, ctrl, told⟩
    exact told

theorem reportEvent_other (card : Card) {t u : Nat} (event : WpApiEvent) (other : u ≠ t) :
    (reportEvent card t event).devs u = card.devs u := by
  by_cases none : (card.devs t).eventFreeList = 0
  · rw [reportEvent_none none, Card.setDev_other _ _ other]
  · rcases reportEvent_some none event with ⟨now, devs, -, -⟩
    rw [devs, Function.update_of_ne other]

/-- The buffers that are left after a report. -/
theorem reportEvent_free (card : Card) (t : Nat) (event : WpApiEvent) :
    ((reportEvent card t event).devs t).eventFreeList =
      if (card.devs t).used then (card.devs t).eventFreeList - 1
      else (card.devs t).eventFreeList := by
  by_cases none : (card.devs t).eventFreeList = 0
  · rw [reportEvent_none none, Card.setDev_self]
    simp [eventDropped, none]
  · rcases reportEvent_some none event with ⟨now, devs, -, -⟩
    rw [devs, Function.update_self, queued]
    split
    · rfl
    · simp only [giveEventBuffer, takeEventBuffer]
      omega

/-- A report is what the mailboxes have of it, unless the device has no buffer while the control
device is open. -/
theorem Matches.report {events : Events} {boxes : Boxes} (same : Matches events boxes) (t : Nat)
    (event : WpApiEvent)
    (enough : events.card.ctrl.used = true → (events.card.devs t).eventFreeList ≠ 0) :
    Matches { events with card := reportEvent events.card t event }
      (boxes.report events.card (t, event)) := by
  have here := same.dev t
  by_cases none : (events.card.devs t).eventFreeList = 0
  · have closed : ¬ events.card.ctrl.used = true := fun used => enough used none
    have full : (boxes.dev t).free = 0 := by rw [here.free, none]
    simp only [Boxes.report, if_neg closed, full, or_true, if_true, reportEvent_none none]
    constructor
    · intro u
      by_cases self : u = t
      · rw [self]
        simp only [Card.setDev_self, Boxes.setDev, Function.update_self]
        exact here.drop none _
      · simp only [Card.setDev_other _ _ self, Boxes.setDev, Function.update_of_ne self]
        exact same.dev u
    · exact same.ctrl
  · rcases reportEvent_some none event with ⟨now, devs, ctrl, -⟩
    have room : (boxes.dev t).free ≠ 0 := by rwa [here.free]
    simp only [Boxes.report, room, or_false]
    constructor
    · intro u
      by_cases self : u = t
      · rw [self]
        simp only [devs, Function.update_self, Boxes.setDev, queued]
        split
        · exact here.queue none now event
        · exact here.giveBack none
      · simp only [devs, Function.update_of_ne self, Boxes.setDev]
        exact same.dev u
    · simp only [ctrl]
      exact copied_sees same.ctrl event

def runReports (card : Card) (list : List Report) : Card :=
  list.foldl (fun card report => reportEvent card report.1 report.2) card

def Boxes.reportAll (boxes : Boxes) (card : Card) (list : List Report) : Boxes :=
  list.foldl (fun boxes report => boxes.report card report) boxes

theorem runReports_told (card : Card) (list : List Report) : Told card (runReports card list) := by
  induction list generalizing card with
  | nil => exact Told.refl card
  | cons report list ih => exact (reportEvent_told card report.1 report.2).trans (ih _)

theorem runReports_append (card : Card) (left right : List Report) :
    runReports card (left ++ right) = runReports (runReports card left) right :=
  List.foldl_append

theorem runReports_other (card : Card) (list : List Report) {t : Nat}
    (none : ∀ report ∈ list, report.1 ≠ t) : (runReports card list).devs t = card.devs t := by
  induction list generalizing card with
  | nil => rfl
  | cons report list ih =>
      have other : t ≠ report.1 := (none report List.mem_cons_self).symm
      have rest := ih (reportEvent card report.1 report.2)
        fun later member => none later (List.mem_cons_of_mem _ member)
      exact rest.trans (reportEvent_other card report.2 other)

theorem Boxes.report_congr (boxes : Boxes) {card next : Card}
    (used : ∀ t, (next.devs t).used = (card.devs t).used) (ctrl : next.ctrl.used = card.ctrl.used)
    (report : Report) : boxes.report next report = boxes.report card report := by
  simp only [Boxes.report, used, ctrl]

theorem Boxes.reportAll_congr (boxes : Boxes) {card next : Card}
    (used : ∀ t, (next.devs t).used = (card.devs t).used) (ctrl : next.ctrl.used = card.ctrl.used)
    (list : List Report) : boxes.reportAll next list = boxes.reportAll card list := by
  simp only [Boxes.reportAll, Boxes.report_congr _ used ctrl]

theorem countFor_cons (t : Nat) (report : Report) (list : List Report) :
    countFor t (report :: list) = countFor t list + if report.1 = t then 1 else 0 := by
  simp [countFor, List.countP_cons]

theorem countFor_append (t : Nat) (left right : List Report) :
    countFor t (left ++ right) = countFor t left + countFor t right := by
  simp [countFor, List.countP_append]

/-- The buffers that the later reports need are still there. -/
theorem Enough.next {card : Card} {report : Report} {list : List Report}
    (enough : Enough card (report :: list)) :
    Enough (reportEvent card report.1 report.2) list := by
  intro t
  have before := enough t
  rw [countFor_cons] at before
  rw [(reportEvent_told card report.1 report.2).used t]
  by_cases here : report.1 = t
  · rw [if_pos here] at before
    rw [← here, reportEvent_free]
    rw [← here] at before
    by_cases used : (card.devs report.1).used = true
    · simp only [used, if_true] at before ⊢
      omega
    · simp only [used, Bool.false_eq_true, if_false] at before ⊢
      omega
  · rw [if_neg here] at before
    rw [reportEvent_other card report.2 (Ne.symm here)]
    exact before

theorem Enough.drop {card : Card} {left right : List Report}
    (enough : Enough card (left ++ right)) : Enough (runReports card left) right := by
  induction left generalizing card with
  | nil => exact enough
  | cons report left ih => exact ih enough.next

theorem Enough.head {card : Card} {report : Report} {list : List Report}
    (enough : Enough card (report :: list)) : (card.devs report.1).eventFreeList ≠ 0 := by
  have before := enough report.1
  rw [countFor_cons, if_pos rfl] at before
  split at before <;> omega

theorem Enough.take {card : Card} {left right : List Report}
    (enough : Enough card (left ++ right)) : Enough card left := by
  intro t
  have before := enough t
  rw [countFor_append] at before
  split at before
  · next used =>
      rw [if_pos used]
      omega
  · next closed =>
      rw [if_neg closed]
      omega

theorem Matches.reports {events : Events} {boxes : Boxes} (same : Matches events boxes)
    (list : List Report)
    (enough : events.card.ctrl.used = true → Enough events.card list) :
    Matches { events with card := runReports events.card list }
      (boxes.reportAll events.card list) := by
  induction list generalizing events boxes with
  | nil => exact same
  | cons report list ih =>
      have told := reportEvent_told events.card report.1 report.2
      have first := same.report report.1 report.2 fun used => (enough used).head
      have rest := ih first fun used => (enough (told.ctrl ▸ used)).next
      simp only at rest
      rw [Boxes.reportAll_congr _ told.used told.ctrl] at rest
      exact rest

end Wanpipe.TdmApi
