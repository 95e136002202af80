import Wanpipe.TdmApi.EventReports

/-! The event queues of a card do what their mailboxes do. -/

namespace Wanpipe.TdmApi

open Line Runs

theorem search_told {card next : Card} (told : Told card next) (feChan : Nat) :
    wpTdmapiSearch next feChan = wpTdmapiSearch card feChan := by
  simp only [wpTdmapiSearch, told.hash, told.init]

theorem apiEvent_told {card next : Card} (told : Told card next) (eventType : EventType)
    (channel : Octet) (value : List (BitVec 32)) :
    apiEvent next eventType channel value = apiEvent card eventType channel value := by
  simp only [apiEvent, told.spanNo]

theorem reportsAt_told {card next : Card} (told : Told card next) (channel : Octet)
    (eventType : EventType) (value : List (BitVec 32)) :
    reportsAt next channel eventType value = reportsAt card channel eventType value := by
  simp only [reportsAt, search_told told, apiEvent_told told]

theorem reportAt_eq (card : Card) (channel : Octet) (eventType : EventType)
    (value : List (BitVec 32)) :
    reportAt card channel eventType value =
      runReports card (reportsAt card channel eventType value) := by
  rw [reportAt, reportsAt]
  cases wpTdmapiSearch card channel.toNat with
  | none => rfl
  | some t => rfl

theorem wpTdmapiReportAlarms_eq (card : Card) (event : WanEvent) :
    wpTdmapiReportAlarms card event = runReports card (alarmReports card event) := by
  rw [wpTdmapiReportAlarms, alarmReports]
  induction channels generalizing card with
  | nil => rfl
  | cons ch chs ih =>
      have told := runReports_told card (reportsAt card ch .alarm [event.alarms])
      have first : wpTdmapiAlarms card { event with channel := ch } =
          runReports card (reportsAt card ch .alarm [event.alarms]) := reportAt_eq card ch _ _
      rw [List.foldl_cons, ih, List.flatMap_cons, runReports_append, first]
      simp only [reportsAt_told told]

theorem wpTdmapiTone_eq (card : Card) (event : WanEvent) :
    wpTdmapiTone card event = runReports card (toneReports card event) := by
  rw [wpTdmapiTone, toneReports]
  cases toneEventType event.type with
  | none => rfl
  | some eventType => exact reportAt_eq card _ _ _

/-- A device other than in its event queue. -/
theorem Matches.setDev {events : Events} {boxes : Boxes} (same : Matches events boxes) (t : Nat)
    {dev : Dev} {heard : List WpApiEvent} {box : Mailbox WpApiEvent} (sees : Sees dev heard box) :
    Matches { events.setDev t dev with heard := Function.update events.heard t heard }
      (boxes.setDev t box) := by
  constructor
  · intro u
    by_cases self : u = t
    · rw [self]
      simp only [Events.setDev, Card.setDev_self, Boxes.setDev, Function.update_self]
      exact sees
    · simp only [Events.setDev, Card.setDev_other _ _ self, Boxes.setDev,
        Function.update_of_ne self]
      exact same.dev u
  · exact same.ctrl

theorem Boxes.setDev_same (boxes : Boxes) (t : Nat) : boxes.setDev t (boxes.dev t) = boxes := by
  simp [Boxes.setDev]

theorem Matches.note {events : Events} {boxes : Boxes} (same : Matches events boxes) (t : Nat)
    {dev : Dev} (sees : Sees dev (events.heard t) (boxes.dev t)) :
    Matches (events.setDev t dev) boxes := by
  have set := same.setDev t sees
  rw [Boxes.setDev_same, Function.update_eq_self] at set
  exact set

theorem Matches.rbsbits {events : Events} {boxes : Boxes} (same : Matches events boxes)
    (channel rbsbits : Octet)
    (enough : events.card.ctrl.used = true →
      Enough events.card (rbsReports events.card channel rbsbits)) :
    Matches { events with card := wpTdmapiReportRbsbits events.card channel rbsbits }
      (boxes.reportAll events.card (rbsReports events.card channel rbsbits)) := by
  simp only [rbsReports, wpTdmapiReportRbsbits] at enough ⊢
  cases found : wpTdmapiSearch events.card channel.toNat with
  | none => exact same
  | some t =>
      simp only [found] at enough ⊢
      split
      · exact same
      · next changed =>
          rw [if_neg changed] at enough
          let dev := events.card.devs t
          let noted := { dev with rbsRxBits := dev.rbsRxBits.set channel.toNat rbsbits }
          have told : Told events.card (events.setDev t noted).card :=
            Told.setDev events.card t rfl rfl rfl rfl
          have known : Matches (events.setDev t noted) boxes :=
            same.note t ((same.dev t).same rfl rfl rfl)
          have free : ((events.setDev t noted).card.devs t).eventFreeList =
              (events.card.devs t).eventFreeList := by
            simp [Events.setDev, noted, dev]
          have reported := known.report t
            (apiEvent events.card .rbs channel [rbsbits.setWidth 32])
            fun used => by rw [free]; exact (enough used).head
          rw [Boxes.report_congr _ told.used told.ctrl] at reported
          exact reported

theorem linkReportsOf_told {card next : Card} (told : Told card next) (t : Nat) (status : Octet)
    (chs : List Octet) : linkReportsOf next t status chs = linkReportsOf card t status chs := by
  simp only [linkReportsOf, told.activeCh, apiEvent_told told]

theorem linkReportsOf_cons (card : Card) (t : Nat) (status ch : Octet) (chs : List Octet) :
    linkReportsOf card t status (ch :: chs) =
      if (card.devs t).activeCh.getLsbD ch.toNat then
        (t, apiEvent card .linkStatus ch (linkValue status)) :: linkReportsOf card t status chs
      else linkReportsOf card t status chs := by
  by_cases active : (card.devs t).activeCh.getLsbD ch.toNat = true <;>
    simp [linkReportsOf, active]

theorem linkReportsOf_mine {card : Card} {t : Nat} {status : Octet} {chs : List Octet} :
    ∀ report ∈ linkReportsOf card t status chs, report.1 = t := by
  intro report member
  rcases List.mem_map.mp member with ⟨ch, -, rfl⟩
  rfl

theorem countFor_mine {t : Nat} {list : List Report} (mine : ∀ report ∈ list, report.1 = t) :
    countFor t list = list.length := by
  rw [countFor, List.countP_eq_length]
  intro report member
  exact decide_eq_true (mine report member)

theorem countFor_none {t : Nat} {list : List Report} (none : ∀ report ∈ list, report.1 ≠ t) :
    countFor t list = 0 := by
  rw [countFor, List.countP_eq_zero]
  intro report member
  simp [none report member]

/-- The loop reports every channel when at most the last event finds no buffer. -/
theorem linkStatusLoop_eq (t : Nat) (status : Octet) (chs : List Octet) (card : Card)
    (enough : (linkReportsOf card t status chs).length ≤ 1 ∨
      if (card.devs t).used then
        (linkReportsOf card t status chs).length ≤ (card.devs t).eventFreeList + 1
      else 0 < (card.devs t).eventFreeList) :
    linkStatusLoop t (linkValue status) chs card =
      runReports card (linkReportsOf card t status chs) := by
  induction chs generalizing card with
  | nil => rfl
  | cons ch chs ih =>
      rw [linkReportsOf_cons] at enough ⊢
      by_cases active : (card.devs t).activeCh.getLsbD ch.toNat = true
      · rw [if_pos active] at enough ⊢
        rw [linkStatusLoop, if_pos active]
        let event := apiEvent card .linkStatus ch (linkValue status)
        by_cases none : (card.devs t).eventFreeList = 0
        · -- the loop ends here, so this event is the last one
          have last : linkReportsOf card t status chs = [] := by
            apply List.eq_nil_of_length_eq_zero
            rw [List.length_cons] at enough
            split at enough <;> omega
          rw [if_pos none, last]
          exact (reportEvent_none none event).symm
        · have reported : queueEvent (card.setDev t (takeEventBuffer (card.devs t))) t event =
              reportEvent card t event := by rw [reportEvent, if_neg none]
          have told := reportEvent_told card t event
          rw [if_neg none, reported, ih, linkReportsOf_told told]
          · rfl
          · rw [linkReportsOf_told told, told.used t, reportEvent_free]
            rw [List.length_cons] at enough
            by_cases used : (card.devs t).used = true
            · simp only [used, if_true] at enough ⊢
              omega
            · simp only [used, Bool.false_eq_true, if_false] at enough ⊢
              omega
      · rw [if_neg active] at enough ⊢
        rw [linkStatusLoop, if_neg active]
        exact ih card enough

theorem setState_reports (card : Card) (t : Nat) (status : Octet) (chs : List Octet) :
    linkReportsOf (setState card t status) t status chs = linkReportsOf card t status chs := by
  simp only [linkReportsOf, setState, Card.setDev_self]
  rfl

theorem linkReports_told {card next : Card} (told : Told card next) (status : Octet)
    (chs : List Octet) : linkReports status chs next = linkReports status chs card := by
  induction chs generalizing card next with
  | nil => rfl
  | cons ch chs ih =>
      rw [linkReports, linkReports, search_told told]
      cases wpTdmapiSearch card ch.toNat with
      | none => exact ih told
      | some t =>
          have set : Told (setState card t status) (setState next t status) := by
            have each {α : Type} (field : Dev → α)
                (outside : ∀ u, field (next.devs u) = field (card.devs u))
                (inside : field { next.devs t with state := status } =
                  field { card.devs t with state := status }) (u : Nat) :
                field ((setState next t status).devs u) =
                  field ((setState card t status).devs u) := by
              by_cases here : u = t
              · rw [here, setState, setState, Card.setDev_self, Card.setDev_self, inside]
              · rw [setState, setState, Card.setDev_other _ _ here, Card.setDev_other _ _ here,
                  outside]
            exact ⟨told.isAnalog, told.spanNo, told.hash, told.ctrl,
              each Dev.init told.init (told.init t), each Dev.used told.used (told.used t),
              each Dev.activeCh told.activeCh (told.activeCh t),
              each Dev.state told.state rfl⟩
          simp only [told.state, linkReportsOf_told told, ih told, ih set]

theorem setState_search (card : Card) (t : Nat) (status : Octet) (feChan : Nat) :
    wpTdmapiSearch (setState card t status) feChan = wpTdmapiSearch card feChan := by
  have init (u : Nat) : ((setState card t status).devs u).init = (card.devs u).init := by
    by_cases here : u = t
    · rw [here, setState, Card.setDev_self]
    · rw [setState, Card.setDev_other _ _ here]
  have hash : (setState card t status).wpTdmapiHash = card.wpTdmapiHash := rfl
  simp only [wpTdmapiSearch, hash, init]

/-- A device in the reported state is not reported again. -/
theorem linkReports_done {card : Card} {t : Nat} {status : Octet}
    (done : (card.devs t).state = status) (chs : List Octet) :
    ∀ report ∈ linkReports status chs card, report.1 ≠ t := by
  induction chs generalizing card with
  | nil => simp [linkReports]
  | cons ch chs ih =>
      rw [linkReports]
      cases wpTdmapiSearch card ch.toNat with
      | none => exact ih done
      | some u =>
          simp only
          split
          · exact ih done
          · next changed =>
              have other : u ≠ t := by
                intro same
                rw [same] at changed
                exact changed done
              intro report member
              rcases List.mem_append.mp member with mine | later
              · rw [linkReportsOf_mine report mine]
                exact other
              · apply ih _ report later
                rw [setState, Card.setDev_other _ _ other.symm]
                exact done

theorem setState_kept (card : Card) (t : Nat) (status : Octet) (u : Nat) :
    ((setState card t status).devs u).used = (card.devs u).used ∧
      ((setState card t status).devs u).eventFreeList = (card.devs u).eventFreeList := by
  by_cases here : u = t
  · rw [here, setState, Card.setDev_self]
    exact ⟨rfl, rfl⟩
  · rw [setState, Card.setDev_other _ _ here]
    exact ⟨rfl, rfl⟩

theorem linkstatusOne_none (event : WanEvent) {card : Card}
    (found : wpTdmapiSearch card event.channel.toNat = none) :
    wpTdmapiLinkstatusOne card event = card := by
  rw [wpTdmapiLinkstatusOne, found]

theorem linkstatusOne_done (event : WanEvent) {card : Card} {t : Nat}
    (found : wpTdmapiSearch card event.channel.toNat = some t)
    (done : (card.devs t).state = event.linkStatus) : wpTdmapiLinkstatusOne card event = card := by
  rw [wpTdmapiLinkstatusOne, found]
  exact if_pos done

theorem linkstatusOne_changed (event : WanEvent) {card : Card} {t : Nat}
    (found : wpTdmapiSearch card event.channel.toNat = some t)
    (changed : (card.devs t).state ≠ event.linkStatus) :
    wpTdmapiLinkstatusOne card event =
      linkStatusLoop t (linkValue event.linkStatus) channels
        (setState card t event.linkStatus) := by
  rw [wpTdmapiLinkstatusOne, found]
  exact if_neg changed

/-- The part of a link status report that is about one device. -/
theorem Matches.linkDevice {events : Events} {boxes : Boxes} (same : Matches events boxes) (t : Nat)
    (status : Octet) (rest : List Report) (others : ∀ report ∈ rest, report.1 ≠ t)
    (enough : events.card.ctrl.used = true →
      Enough events.card (linkReportsOf events.card t status channels ++ rest))
    (noBreak : NoBreak events.card (linkReportsOf events.card t status channels ++ rest)) :
    ∃ next, linkStatusLoop t (linkValue status) channels (setState events.card t status) = next ∧
      Told (setState events.card t status) next ∧
      Matches { events with card := next }
        (boxes.reportAll events.card (linkReportsOf events.card t status channels)) ∧
      (events.card.ctrl.used = true → Enough next rest) ∧ NoBreak next rest := by
  let set := setState events.card t status
  let list := linkReportsOf events.card t status channels
  have kept := setState_kept events.card t status
  have mine : ∀ report ∈ list, report.1 = t := linkReportsOf_mine
  have alone : countFor t (list ++ rest) = list.length := by
    rw [countFor_append, countFor_mine mine, countFor_none others, Nat.add_zero]
  have room := noBreak t
  rw [alone, ← (kept t).1, ← (kept t).2] at room
  have loop : linkStatusLoop t (linkValue status) channels set = runReports set list := by
    have whole := linkStatusLoop_eq t status channels set
    rw [setState_reports] at whole
    exact whole room
  have known : Matches (events.setDev t { events.card.devs t with state := status }) boxes :=
    same.note t ((same.dev t).same rfl rfl rfl)
  have needed : events.card.ctrl.used = true → Enough set (list ++ rest) := by
    intro used u
    rw [(kept u).1, (kept u).2]
    exact enough used u
  have reported := known.reports list fun used => (needed used).take
  have sameBoxes : boxes.reportAll set list = boxes.reportAll events.card list :=
    boxes.reportAll_congr (fun u => (kept u).1) rfl list
  refine ⟨runReports set list, loop, runReports_told set list, ?_, ?_, ?_⟩
  · rw [← sameBoxes]
    exact reported
  · exact fun used => (needed used).drop
  · intro u
    by_cases here : u = t
    · rw [here, countFor_none others]
      exact .inl (Nat.zero_le 1)
    · have before := noBreak u
      have notMine : ∀ report ∈ list, report.1 ≠ u := by
        intro report member same
        exact here (same.symm.trans (mine report member))
      rw [countFor_append, countFor_none notMine, Nat.zero_add] at before
      have untouched : (runReports set list).devs u = events.card.devs u := by
        rw [runReports_other set list notMine]
        exact Card.setDev_other _ _ here
      rw [untouched]
      exact before

/-- The link status of one channel after the other. -/
theorem Matches.linkstatus {events : Events} {boxes : Boxes} (same : Matches events boxes)
    (event : WanEvent) (chs : List Octet)
    (enough : events.card.ctrl.used = true →
      Enough events.card (linkReports event.linkStatus chs events.card))
    (noBreak : NoBreak events.card (linkReports event.linkStatus chs events.card)) :
    Matches
      { events with
        card :=
          chs.foldl (fun card ch => wpTdmapiLinkstatusOne card { event with channel := ch })
            events.card }
      (boxes.reportAll events.card (linkReports event.linkStatus chs events.card)) := by
  induction chs generalizing events boxes with
  | nil => exact same
  | cons ch chs ih =>
      rw [List.foldl_cons]
      rw [linkReports] at enough noBreak ⊢
      cases found : wpTdmapiSearch events.card ch.toNat with
      | none =>
          simp only [found] at enough noBreak ⊢
          rw [linkstatusOne_none { event with channel := ch } found]
          exact ih same enough noBreak
      | some t =>
          simp only [found] at enough noBreak ⊢
          by_cases done : (events.card.devs t).state = event.linkStatus
          · rw [if_pos done] at enough noBreak ⊢
            rw [linkstatusOne_done { event with channel := ch } found done]
            exact ih same enough noBreak
          · rw [if_neg done] at enough noBreak ⊢
            rw [linkstatusOne_changed { event with channel := ch } found done]
            have settled : ((setState events.card t event.linkStatus).devs t).state =
                event.linkStatus := by rw [setState, Card.setDev_self]
            have others := linkReports_done settled chs
            rcases same.linkDevice t event.linkStatus _ others enough noBreak with
              ⟨next, loop, told, reported, stillEnough, stillNoBreak⟩
            have ctrl : next.ctrl.used = events.card.ctrl.used := told.ctrl
            have used (u : Nat) : (next.devs u).used = (events.card.devs u).used :=
              (told.used u).trans (setState_kept events.card t event.linkStatus u).1
            rw [← linkReports_told told] at stillEnough stillNoBreak
            have rest := ih reported (fun used => stillEnough (ctrl ▸ used)) stillNoBreak
            simp only [Boxes.reportAll_congr _ used ctrl, linkReports_told told] at rest
            rw [loop, Boxes.reportAll, List.foldl_append]
            exact rest

end Wanpipe.TdmApi
