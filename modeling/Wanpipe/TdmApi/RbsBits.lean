import Wanpipe.TdmApi.EventQueues

/-! The signalling bits that a device remembers, and the events that told its user of them. -/

namespace Wanpipe.TdmApi

open Line Runs

/-- A poll of the signalling bits of a channel, or a read of the user. -/
inductive PollOp
  | report (channel rbsbits : Octet)
  | read (t : Nat)
  deriving DecidableEq, Repr

def PollOp.toEvent : PollOp → EventOp
  | .report channel rbsbits => .reportRbsbits channel rbsbits
  | .read t => .readEvent t

def pollStep (events : Events) (op : PollOp) : Events := eventStep events op.toEvent

def pollRun (events : Events) (ops : List PollOp) : Events := ops.foldl pollStep events

/-- `rbs_rx_bits[channel]`. -/
def bitsAt (events : Events) (t : Nat) (channel : Octet) : Octet :=
  (events.card.devs t).rbsRxBits.getD channel.toNat 0#8

/-- The events that were queued to a device: those that were read and those that wait. -/
def history (events : Events) (t : Nat) : List WpApiEvent :=
  events.heard t ++ (events.card.devs t).eventList

def carried (event : WpApiEvent) : Octet := (event.value.headD 0#32).setWidth 8

/-- The bits of the last event of a channel, if there was one. -/
def lastBits (initial channel : Octet) (queued : List WpApiEvent) : Octet :=
  ((queued.filter fun event => event.eventType = .rbs ∧ event.channel = channel).map
    carried).getLastD initial

/-- What a device remembers of its channels is what it last told its user. -/
def Faithful (start : Events) (t : Nat) (events : Events) : Prop :=
  ∀ channel : Octet, wpTdmapiSearch start.card channel.toNat = some t →
    bitsAt events t channel =
      lastBits (bitsAt start t channel) channel
        ((history events t).drop (history start t).length)

/-- A change that is polled finds a free buffer. -/
def ChangeFits (t : Nat) (events : Events) : PollOp → Prop
  | .report channel rbsbits =>
      wpTdmapiSearch events.card channel.toNat = some t → bitsAt events t channel ≠ rbsbits →
        (events.card.devs t).eventFreeList ≠ 0
  | .read _ => True

/-- What every poll and every read keep. -/
structure Follows (start : Events) (t : Nat) (events : Events) : Prop where
  told : Told start.card events.card
  bits : (events.card.devs t).rbsRxBits.length = numOfE1Channels
  history : history start t <+: history events t

section Polls

variable {start events : Events} {t : Nat} {channel rbsbits : Octet}

/-- What a step may do to the device: nothing, or note the bits of a channel of its own. -/
inductive Polled (t : Nat) (events next : Events) : PollOp → Prop
  | quiet (op : PollOp) (told : Told events.card next.card)
      (bits : (next.card.devs t).rbsRxBits = (events.card.devs t).rbsRxBits)
      (history : history next t = history events t) (fits : ChangeFits t events op) :
      Polled t events next op
  | noted (channel rbsbits : Octet) (event : WpApiEvent) (told : Told events.card next.card)
      (mine : wpTdmapiSearch events.card channel.toNat = some t)
      (bits : (next.card.devs t).rbsRxBits =
        (events.card.devs t).rbsRxBits.set channel.toNat rbsbits)
      (room : (events.card.devs t).eventFreeList ≠ 0)
      (history : history next t = history events t ++ [event])
      (tells : event.eventType = .rbs ∧ event.channel = channel ∧ carried event = rbsbits) :
      Polled t events next (.report channel rbsbits)
  | lost (channel rbsbits : Octet) (told : Told events.card next.card)
      (mine : wpTdmapiSearch events.card channel.toNat = some t)
      (changed : bitsAt events t channel ≠ rbsbits)
      (bits : (next.card.devs t).rbsRxBits =
        (events.card.devs t).rbsRxBits.set channel.toNat rbsbits)
      (none : (events.card.devs t).eventFreeList = 0)
      (history : history next t = history events t) :
      Polled t events next (.report channel rbsbits)

theorem readEvent_polled (t u : Nat) (events : Events) :
    Polled t events (pollStep events (.read u)) (.read u) := by
  have told : Told events.card (events.card.setDev u (readEvent (events.card.devs u)).2) := by
    apply Told.setDev <;> rw [readEvent] <;> split <;> rfl
  by_cases here : t = u
  · subst here
    refine .quiet _ told ?_ ?_ trivial
    · simp only [pollStep, PollOp.toEvent, eventStep, Events.setDev, Card.setDev_self, readEvent]
      split <;> rfl
    · simp only [pollStep, PollOp.toEvent, eventStep, Events.setDev, history, Card.setDev_self,
        Function.update_self, readEvent]
      split
      · next empty => rw [empty, Option.toList_none, List.append_nil]
      · next event rest queue =>
          rw [queue, Option.toList_some, List.append_assoc]
          rfl
  · refine .quiet _ told ?_ ?_ trivial
    · simp only [pollStep, PollOp.toEvent, eventStep, Events.setDev, Card.setDev_other _ _ here]
    · simp only [pollStep, PollOp.toEvent, eventStep, Events.setDev, history,
        Card.setDev_other _ _ here, Function.update_of_ne here]

theorem report_polled (used : (events.card.devs t).used = true) (channel rbsbits : Octet) :
    Polled t events (pollStep events (.report channel rbsbits)) (.report channel rbsbits) := by
  let card := events.card
  have stays (same : wpTdmapiReportRbsbits card channel rbsbits = card)
      (fits : ChangeFits t events (.report channel rbsbits)) :
      Polled t events (pollStep events (.report channel rbsbits)) (.report channel rbsbits) := by
    have still : pollStep events (.report channel rbsbits) = events := by
      simp only [pollStep, PollOp.toEvent, eventStep]
      rw [same]
    rw [still]
    exact .quiet _ (Told.refl _) rfl rfl fits
  cases found : wpTdmapiSearch card channel.toNat with
  | none =>
      apply stays
      · rw [wpTdmapiReportRbsbits, found]
      · intro mine
        rw [found] at mine
        contradiction
  | some u =>
      by_cases same : (card.devs u).rbsRxBits.getD channel.toNat 0#8 = rbsbits
      · apply stays
        · simp only [wpTdmapiReportRbsbits, found, if_pos same]
        · intro mine changed
          rw [found, Option.some.injEq] at mine
          subst mine
          exact absurd same changed
      · let dev := card.devs u
        let noted := { dev with rbsRxBits := dev.rbsRxBits.set channel.toNat rbsbits }
        let event := apiEvent card .rbs channel [rbsbits.setWidth 32]
        have moved : (pollStep events (.report channel rbsbits)).card =
            reportEvent (card.setDev u noted) u event := by
          simp only [pollStep, PollOp.toEvent, eventStep, wpTdmapiReportRbsbits]
          rw [found]
          exact if_neg same
        have heard : (pollStep events (.report channel rbsbits)).heard = events.heard := rfl
        have told : Told card (pollStep events (.report channel rbsbits)).card := by
          have set : Told card (card.setDev u noted) := Told.setDev card u rfl rfl rfl rfl
          rw [moved]
          exact set.trans (reportEvent_told _ u event)
        by_cases here : t = u
        · subst here
          by_cases none : (card.devs t).eventFreeList = 0
          · have dropped : (card.setDev t noted).devs t = noted := Card.setDev_self _ _ _
            have empty : ((card.setDev t noted).devs t).eventFreeList = 0 := by
              rw [dropped]
              exact none
            rw [reportEvent_none empty, dropped] at moved
            refine .lost _ _ told found same ?_ none ?_
            · rw [moved, Card.setDev_self]
              rfl
            · rw [history, moved, Card.setDev_self]
              rfl
          · have dropped : (card.setDev t noted).devs t = noted := Card.setDev_self _ _ _
            have room : ((card.setDev t noted).devs t).eventFreeList ≠ 0 := by
              rw [dropped]
              exact none
            obtain ⟨now, devs, -, -⟩ := reportEvent_some room event
            have open_ : noted.used = true := used
            have dev : (pollStep events (.report channel rbsbits)).card.devs t =
                wanpipeTdmApiHandleEvent (takeEventBuffer noted) now event := by
              rw [moved, devs, Function.update_self, dropped, queued, if_pos open_]
            refine .noted _ _ { event with timeStamp := now } told found ?_ none ?_
              ⟨rfl, rfl, ?_⟩
            · rw [dev]
              rfl
            · rw [history, dev, heard, history, List.append_assoc]
              rfl
            · exact BitVec.setWidth_setWidth_of_le _ (by decide)
        · refine .quiet _ told ?_ ?_ ?_
          · rw [moved, reportEvent_other _ _ here, Card.setDev_other _ _ here]
          · rw [history, moved, reportEvent_other _ _ here, Card.setDev_other _ _ here]
            rfl
          · intro mine
            rw [found, Option.some.injEq] at mine
            exact absurd mine.symm here

theorem step_polled (used : (events.card.devs t).used = true) (op : PollOp) :
    Polled t events (pollStep events op) op := by
  cases op with
  | report channel rbsbits => exact report_polled used channel rbsbits
  | read u => exact readEvent_polled t u events

theorem search_lt {card : Card} {feChan t : Nat} (found : wpTdmapiSearch card feChan = some t) :
    feChan < numOfE1Channels := by
  rw [wpTdmapiSearch] at found
  split at found
  · assumption
  · contradiction

theorem bitsAt_set {next : Events} (mine : channel.toNat < (events.card.devs t).rbsRxBits.length)
    (bits : (next.card.devs t).rbsRxBits =
      (events.card.devs t).rbsRxBits.set channel.toNat rbsbits) (other : Octet) :
    bitsAt next t other = if other = channel then rbsbits else bitsAt events t other := by
  rw [bitsAt, bits, bitsAt]
  split
  · next same => simp [same, mine]
  · next apart =>
      have distinct : channel.toNat ≠ other.toNat := fun same => apart (BitVec.eq_of_toNat_eq same.symm)
      simp [List.getD_eq_getElem?_getD, List.getElem?_set_ne distinct]

/-- The last bits once an event is queued. -/
theorem lastBits_append (initial other : Octet) (queued : List WpApiEvent) {event : WpApiEvent}
    (tells : event.eventType = .rbs ∧ event.channel = channel ∧ carried event = rbsbits) :
    lastBits initial other (queued ++ [event]) =
      if other = channel then rbsbits else lastBits initial other queued := by
  obtain ⟨type, same, bits⟩ := tells
  rw [lastBits, lastBits, List.filter_append]
  split
  · next here =>
      have told : [event].filter (fun event => event.eventType = .rbs ∧ event.channel = other) =
          [event] := by
        simp [type, same, here]
      rw [told, List.map_append, List.map_singleton, List.getLastD_concat, bits]
  · next apart =>
      have silent : [event].filter (fun event => event.eventType = .rbs ∧ event.channel = other) =
          [] := by
        simp [type, same, Ne.symm apart]
      rw [silent, List.append_nil]

theorem Follows.step (follows : Follows start t events)
    (used : (start.card.devs t).used = true) (op : PollOp) :
    Follows start t (pollStep events op) := by
  have open_ := (follows.told.used t).trans used
  cases step_polled open_ op with
  | quiet op told bits history =>
      refine ⟨follows.told.trans told, ?_, ?_⟩
      · rw [bits, follows.bits]
      · rw [history]
        exact follows.history
  | noted channel rbsbits event told mine bits room history =>
      refine ⟨follows.told.trans told, ?_, ?_⟩
      · rw [bits, List.length_set, follows.bits]
      · rw [history]
        exact follows.history.trans (List.prefix_append _ _)
  | lost channel rbsbits told mine changed bits none history =>
      refine ⟨follows.told.trans told, ?_, ?_⟩
      · rw [bits, List.length_set, follows.bits]
      · rw [history]
        exact follows.history

/-- A step stays faithful exactly when the change that it polls, if any, finds a buffer. -/
theorem step_faithful_iff (follows : Follows start t events)
    (used : (start.card.devs t).used = true) (faithful : Faithful start t events) (op : PollOp) :
    Faithful start t (pollStep events op) ↔ ChangeFits t events op := by
  have open_ := (follows.told.used t).trans used
  cases step_polled open_ op with
  | quiet op told bits history fits =>
      refine iff_of_true ?_ fits
      intro channel mine
      rw [bitsAt, bits, history]
      exact faithful channel mine
  | noted channel rbsbits event told mine bits room history tells =>
      refine iff_of_true ?_ fun _ _ => room
      have inside : channel.toNat < (events.card.devs t).rbsRxBits.length := by
        rw [follows.bits]
        exact search_lt mine
      intro other theirs
      rw [bitsAt_set inside bits, history,
        List.drop_append_of_le_length follows.history.length_le, lastBits_append _ _ _ tells,
        faithful other theirs]
  | lost channel rbsbits told mine changed bits none history =>
      refine iff_of_false ?_ fun fits => fits mine changed none
      have inside : channel.toNat < (events.card.devs t).rbsRxBits.length := by
        rw [follows.bits]
        exact search_lt mine
      have theirs : wpTdmapiSearch start.card channel.toNat = some t := by
        rw [← search_told follows.told, mine]
      intro later
      have now := later channel theirs
      rw [bitsAt_set inside bits, if_pos rfl, history, ← faithful channel theirs] at now
      exact changed now.symm

theorem pollRun_faithful_iff (follows : Follows start t events)
    (used : (start.card.devs t).used = true) (faithful : Faithful start t events)
    (ops : List PollOp) :
    (∀ front rest, ops = front ++ rest → Faithful start t (pollRun events front)) ↔
      Along (fun events op => some (pollStep events op)) (ChangeFits t) events ops := by
  induction ops generalizing events with
  | nil =>
      refine iff_of_true ?_ trivial
      intro front rest split
      obtain ⟨rfl, -⟩ := List.append_eq_nil_iff.mp split.symm
      exact faithful
  | cons op ops ih =>
      have one := step_faithful_iff follows used faithful op
      have next := follows.step used op
      constructor
      · intro always
        have first : Faithful start t (pollStep events op) := always [op] ops rfl
        refine ⟨one.mp first, ?_⟩
        intro later moved
        rw [← Option.some.inj moved]
        apply (ih next first).mp
        intro front rest split
        exact always (op :: front) rest (by rw [split]; rfl)
      · intro along front rest split
        cases front with
        | nil => exact faithful
        | cons first front =>
            rw [List.cons_append, List.cons.injEq] at split
            rw [← split.1]
            exact (ih next (one.mpr along.1)).mpr (along.2 _ rfl) front rest split.2

end Polls

/-- A device in use remembers, at every point, what it last told its user, exactly as long as every
change finds a free buffer. -/
theorem tdm_api_rbs_events (start : Events) (t : Nat) (ops : List PollOp)
    (used : (start.card.devs t).used = true)
    (bits : (start.card.devs t).rbsRxBits.length = numOfE1Channels) :
    (∀ front rest, ops = front ++ rest → Faithful start t (pollRun start front)) ↔
      Along (fun events op => some (pollStep events op)) (ChangeFits t) start ops := by
  have follows : Follows start t start := ⟨Told.refl _, bits, List.prefix_rfl⟩
  apply pollRun_faithful_iff follows used
  intro channel _
  rw [List.drop_length]
  rfl

/-- A card of which the device on the first channel is open. -/
def pollCard : Card :=
  { hookCard with devs := fun _ => { hookCard.devs 0 with used := true } }

def pollStart : Events := (atStart pollCard).events

def pollAt (rbsbits : Octet) : PollOp := .report 1#8 rbsbits

theorem tdm_api_rbs_events_read :
    Faithful pollStart 0 (pollRun pollStart [pollAt 0x05#8, .read 0, pollAt 0x0A#8]) := by
  refine (tdm_api_rbs_events pollStart 0 [pollAt 0x05#8, .read 0, pollAt 0x0A#8] (by decide)
    (by decide)).mpr ?_ _ [] (List.append_nil _).symm
  refine ⟨fun _ _ => by decide, ?_⟩
  rintro first ⟨⟩
  refine ⟨trivial, ?_⟩
  rintro second ⟨⟩
  exact ⟨fun _ _ => by decide +kernel, fun _ _ => trivial⟩

/-- Eleven changes for the ten buffers of a device whose user reads nothing. -/
theorem tdm_api_rbs_events_full :
    ¬ ∀ (start : Events) (t : Nat) (ops : List PollOp),
      (start.card.devs t).used = true → (start.card.devs t).rbsRxBits.length = numOfE1Channels →
        ∀ front rest, ops = front ++ rest → Faithful start t (pollRun start front) := by
  intro always
  let ops := (List.range 11).map fun i => pollAt (BitVec.ofNat 8 (i + 1))
  have last := always pollStart 0 ops (by decide) (by decide) ops [] (by simp)
    1#8 (by decide)
  exact absurd last (by decide +kernel)

end Wanpipe.TdmApi
