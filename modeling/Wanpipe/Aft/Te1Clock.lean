import Wanpipe.Aft.Te1Loops
import Wanpipe.Runs

/-! The clocks of a T1/E1 card, whatever happens to its ports. -/

namespace Wanpipe.Aft.Clock

open Runs

/-- A port that the echo canceller may take its clock from. -/
def Port.fits (port : Port) : Bool :=
  !port.down && port.kind == .te1 && port.ecEnableMap && port.connected && port.refClk == 0 &&
    port.ecClockCtrl

/-- A master clocks the echo canceller. -/
structure Te1Clock (card : Card) : Prop where
  ports : ∀ i port, card.ports i = some port →
    i < maxBriLines ∧ port.kind ≠ .bri ∧ (port.ecClockCtrl = true → port.shark = true)
  master : ∀ i port, card.ports i = some port → port.masterClock = true →
    port.kind = .te1 ∧ port.ecEnableMap = true ∧ port.ecClockCtrl = true ∧
      (port.down = false → card.ecSource = some i)

/-- What holds when the clocks have been looked at. -/
structure Te1Settled (card : Card) : Prop where
  connected : ∀ i port, card.ports i = some port → port.down = false → port.masterClock = true →
    port.connected = true
  found : (∃ i port, card.ports i = some port ∧ port.fits = true) →
    ∃ i port, card.ports i = some port ∧ port.down = false ∧ port.masterClock = true
  paced : (∃ i port, card.ports i = some port ∧ port.down = false ∧ port.paced = true) →
    ∃ i port, card.ports i = some port ∧ port.down = false ∧ port.paced = true ∧
      (port.connected = true ∨ port.wdtTdmTiming = true)
  quiet : ∀ i port, card.ports i = some port → port.down = false → port.paced = true →
    port.connected = true → port.wdtTdmTiming = false
  slaves : ∀ i port master, card.ports i = some port → port.down = false → port.kind = .te1 →
    port.refClk ≠ 0 → card.ports (port.refClk - 1) = some master → master.down = false →
    port.refOsc = !master.connected

/-- What `aft_handle_clock_master` may change of a port that is not a BRI one. -/
def Handled (port other : Port) : Prop :=
  other =
    { port with
      masterClock := other.masterClock, refOsc := other.refOsc, wdtTdmTiming := other.wdtTdmTiming
      setClock := other.setClock, wdt := other.wdt }

theorem handle_te1 {own : Port} (kind : own.kind ≠ .bri) (card : Card) :
    let scan := timers own
      ((List.range maxBriLines).foldl check (Scan.start ((List.range maxBriLines).foldl slave card)))
    aftHandleClockMaster own card =
      if !scan.timerEnable && scan.masterFound then scan.card
      else (choose (List.range maxBriLines) scan).card := by
  unfold aftHandleClockMaster
  rw [beq_eq_false_iff_ne.mpr kind]
  rfl

theorem timers_same (own : Port) (scan : Scan) :
    (timers own scan).card.ports = scan.card.ports ∧
      (timers own scan).card.ecSource = scan.card.ecSource ∧
      (timers own scan).masterFound = scan.masterFound ∧
      (scan.timerDetect = true → (timers own scan).timerEnable = scan.timerEnable) := by
  unfold timers
  cases scan.freeRunDetect with
  | true =>
      rw [if_pos rfl]
      dsimp only
      cases scan.freeRunEnable with
      | true =>
          rw [if_pos rfl]
          unfold aftFreeRunningTimerSetEnable
          refine ⟨?_, ?_, rfl, fun _ => rfl⟩
          · split
            · rfl
            · split
              · rfl
              · split <;> rfl
          · split
            · rfl
            · split
              · rfl
              · split <;> rfl
      | false =>
          rw [if_neg Bool.false_ne_true]
          unfold aftFreeRunningTimerDisable
          refine ⟨?_, ?_, rfl, fun _ => rfl⟩
          · split <;> rfl
          · split <;> rfl
  | false =>
      rw [if_neg Bool.false_ne_true]
      cases scan.timerDetect with
      | true => exact ⟨rfl, rfl, rfl, fun _ => rfl⟩
      | false => exact ⟨rfl, rfl, rfl, fun wrong => by cases wrong⟩

/-- The free running timer is on exactly when no port that it paces is connected. -/
theorem timers_freeRun {own : Port} (isr : own.freeRunIsr = true) {scan : Scan} (ms : 1 ≤ scan.ms)
    (detect : scan.freeRunDetect = true) :
    (timers own scan).card.freeRun.isSome = scan.freeRunEnable := by
  unfold timers
  rw [detect, if_pos rfl]
  dsimp only
  cases scan.freeRunEnable with
  | true =>
      rw [if_pos rfl, aftFreeRunningTimerSetEnable, isr, Bool.not_true, if_neg Bool.false_ne_true, if_neg,
        if_neg]
      · rfl
      · rw [beq_iff_eq]
        omega
      · rw [beq_iff_eq]
        omega
  | false =>
      rw [if_neg Bool.false_ne_true, aftFreeRunningTimerDisable, isr]
      rfl

/-- The loops one after the other: `scan` is what the second one leaves, `last` what is left then. The
third one has gone through `lines`. -/
structure Passed (own : Port) (card : Card) (lines : List Nat) (scan last : Scan) : Prop where
  chosen : Chosen lines scan last
  whole : lines = List.range maxBriLines ∨ (scan.timerEnable = false ∧ scan.masterFound = true)
  places : ∀ j, scan.card.ports j = (card.ports j).map fun port => (port.slaved card).checked
  source : scan.card.ecSource = card.ecSource
  found : scan.masterFound = true ↔ ∃ i port, card.ports i = some port ∧
    (!port.down && port.echoes && port.connected) = true
  timer : (∃ i port, card.ports i = some port ∧ (!port.down && port.paced) = true) →
    (scan.timerEnable = false ↔ ∃ i port, card.ports i = some port ∧
      (!port.down && port.paced && port.connected) = true)
  running : own.freeRunIsr = true →
    (∃ i port, card.ports i = some port ∧ (!port.down && port.running) = true) →
      (scan.card.freeRun.isSome = true ↔ ¬ ∃ i port, card.ports i = some port ∧
        (!port.down && port.running && port.connected) = true)

theorem passed_te1 {card : Card} (clock : Te1Clock card) {own : Port} (kind : own.kind ≠ .bri) :
    ∃ lines scan last, aftHandleClockMaster own card = last.card ∧ Passed own card lines scan last := by
  obtain ⟨ports, source, freeRun⟩ := slaves card
  have all : ∀ j, ((List.range maxBriLines).foldl slave card).ports j =
      (card.ports j).map (Port.slaved card) := by
    intro j
    rw [ports]
    by_cases less : j < maxBriLines
    · rw [if_pos less]
    · rw [if_neg less]
      cases there : card.ports j with
      | none => rfl
      | some port => exact absurd (clock.ports j port there).1 less
  have back : ∀ {j : Nat} {port : Port},
      ((List.range maxBriLines).foldl slave card).ports j = some port →
        ∃ first, card.ports j = some first ∧ first.slaved card = port := by
    intro j port there
    rw [all] at there
    exact Option.map_eq_some_iff.mp there
  -- What is asked of the ports is not about what the first loop changes.
  have asks : ∀ hit : Port → Bool, (∀ port refOsc setClock,
      hit { port with refOsc, setClock } = hit port) →
      ((∃ i port, ((List.range maxBriLines).foldl slave card).ports i = some port ∧ hit port = true) ↔
        ∃ i port, card.ports i = some port ∧ hit port = true) := by
    intro hit blind
    constructor
    · rintro ⟨i, port, there, hits⟩
      obtain ⟨first, here, rfl⟩ := back there
      rw [Port.slaved_same, blind] at hits
      exact ⟨i, first, here, hits⟩
    · rintro ⟨i, port, here, hits⟩
      refine ⟨i, port.slaved card, by rw [all, here, Option.map_some], ?_⟩
      rw [Port.slaved_same, blind]
      exact hits
  have looks := @checks ((List.range maxBriLines).foldl slave card)
    (fun i port there => by
      obtain ⟨first, here, -⟩ := back there
      exact (clock.ports i first here).1)
    (fun i port there => by
      obtain ⟨first, here, rfl⟩ := back there
      rw [Port.slaved_same]
      exact (clock.ports i first here).2.1)
  have result := handle_te1 kind card
  dsimp only at result
  generalize (List.range maxBriLines).foldl check
    (Scan.start ((List.range maxBriLines).foldl slave card)) = scan at looks result
  obtain ⟨samePorts, sameSource, sameFound, sameTimer⟩ := timers_same own scan
  have facts : (∀ j, (timers own scan).card.ports j =
      (card.ports j).map fun port => (port.slaved card).checked) ∧
      (timers own scan).card.ecSource = card.ecSource ∧
      ((timers own scan).masterFound = true ↔ ∃ i port, card.ports i = some port ∧
        (!port.down && port.echoes && port.connected) = true) ∧
      ((∃ i port, card.ports i = some port ∧ (!port.down && port.paced) = true) →
        ((timers own scan).timerEnable = false ↔ ∃ i port, card.ports i = some port ∧
          (!port.down && port.paced && port.connected) = true)) ∧
      (own.freeRunIsr = true →
        (∃ i port, card.ports i = some port ∧ (!port.down && port.running) = true) →
        ((timers own scan).card.freeRun.isSome = true ↔ ¬ ∃ i port, card.ports i = some port ∧
          (!port.down && port.running && port.connected) = true)) := by
    refine ⟨fun j => ?_, ?_, ?_, fun some => ?_, fun isr some => ?_⟩
    · rw [samePorts, looks.ports, all, Option.map_map]
      rfl
    · rw [sameSource, looks.source, source]
    · rw [sameFound, looks.masterFound]
      exact asks (fun port => !port.down && port.echoes && port.connected) (fun _ _ _ => rfl)
    · have detect := looks.timerDetect.mpr
        ((asks (fun port => !port.down && port.paced) (fun _ _ _ => rfl)).mpr some)
      rw [sameTimer detect, looks.timerOff]
      exact asks (fun port => !port.down && port.paced && port.connected) (fun _ _ _ => rfl)
    · have detect := looks.freeRunDetect.mpr
        ((asks (fun port => !port.down && port.running) (fun _ _ _ => rfl)).mpr some)
      rw [timers_freeRun isr looks.ms detect,
        ← asks (fun port => !port.down && port.running && port.connected) (fun _ _ _ => rfl),
        ← looks.freeRunOff, Bool.not_eq_false]
  obtain ⟨places, source', found, timer, running⟩ := facts
  have notBri : ∀ i port, (timers own scan).card.ports i = some port → port.kind ≠ .bri := by
    intro i port there
    rw [places] at there
    obtain ⟨first, here, rfl⟩ := Option.map_eq_some_iff.mp there
    rw [checked_same, Port.slaved_same]
    exact (clock.ports i first here).2.1
  cases ends : !(timers own scan).timerEnable && (timers own scan).masterFound with
  | true =>
      rw [ends, if_pos rfl] at result
      rw [Bool.and_eq_true, Bool.not_eq_true'] at ends
      exact ⟨[], timers own scan, timers own scan, result, Chosen.nil _, Or.inr ends, places, source',
        found, timer, running⟩
  | false =>
      rw [ends, if_neg Bool.false_ne_true] at result
      exact ⟨List.range maxBriLines, timers own scan, _, result, chooses _ notBri, Or.inl rfl, places,
        source', found, timer, running⟩

theorem handled_of_turned {card : Card} {port other : Port}
    (turned : Turned (port.slaved card).checked other) : Handled port other := by
  unfold Handled
  rw [turned.same, checked_same, Port.slaved_same]

/-- A master that is up clocks the echo canceller while it is connected, and not after that. -/
theorem checked_master {card : Card} (clock : Te1Clock card) {i : Nat} {port : Port}
    (here : card.ports i = some port) (up : port.down = false)
    (stays : (port.slaved card).checked.masterClock = true) :
    port.masterClock = true ∧ port.echoes = true ∧ port.connected = true := by
  have fields := Port.slaved_same card port
  have isMaster : port.masterClock = true := by
    rw [Port.checked, fields] at stays
    dsimp only at stays
    rw [up, if_neg Bool.false_ne_true] at stays
    split at stays
    · cases stays
    · rw [timed_same] at stays
      exact stays
  obtain ⟨kind, ecMap, ctrl, -⟩ := clock.master i port here isMaster
  have echoes : port.echoes = true := by
    rw [Port.echoes, kind, ecMap, (clock.ports i port here).2.2 ctrl, isMaster]
    rfl
  refine ⟨isMaster, echoes, ?_⟩
  by_contra off
  rw [Bool.not_eq_true] at off
  have same : (port.slaved card).echoes = port.echoes := by
    rw [fields]
    rfl
  have cond : ((port.slaved card).echoes && !(port.slaved card).connected &&
      (port.slaved card).ecClockCtrl) = true := by
    rw [same, echoes, fields]
    dsimp only
    rw [off, ctrl]
    rfl
  have up' : (port.slaved card).down = false := by
    rw [fields]
    exact up
  rw [checked_up up', if_pos cond] at stays
  cases stays

section Passed

variable {own : Port} {card : Card} {lines : List Nat} {scan last : Scan}

theorem Passed.before (passed : Passed own card lines scan last) {i : Nat} {port : Port}
    (here : card.ports i = some port) : scan.card.ports i = some (port.slaved card).checked := by
  rw [passed.places, here, Option.map_some]

theorem Passed.forth (passed : Passed own card lines scan last) {i : Nat} {port : Port}
    (here : card.ports i = some port) :
    ∃ other, last.card.ports i = some other ∧ Turned (port.slaved card).checked other :=
  rel_some passed.chosen.ports (passed.before here)

theorem Passed.back (passed : Passed own card lines scan last) {i : Nat} {other : Port}
    (there : last.card.ports i = some other) :
    ∃ port, card.ports i = some port ∧ Turned (port.slaved card).checked other := by
  obtain ⟨middle, at_, turned⟩ := rel_back passed.chosen.ports there
  rw [passed.places] at at_
  obtain ⟨port, here, rfl⟩ := Option.map_eq_some_iff.mp at_
  exact ⟨port, here, turned⟩

/-- A master that is up has been one, or it has just been chosen. -/
theorem Passed.masters (passed : Passed own card lines scan last) (clock : Te1Clock card) {i : Nat}
    {port other : Port} (here : card.ports i = some port) (there : last.card.ports i = some other)
    (isMaster : other.masterClock = true) :
    (port.kind = .te1 ∧ port.ecEnableMap = true ∧ port.ecClockCtrl = true) ∧
      (port.down = false → last.card.ecSource = some i ∧ port.connected = true) := by
  have kept : (port.slaved card).checked.masterClock = true → scan.masterFound = true ∨
      port.down = true := by
    intro stays
    cases up : port.down with
    | true => exact Or.inr rfl
    | false =>
        obtain ⟨-, echoes, connected⟩ := checked_master clock here up stays
        refine Or.inl (passed.found.mpr ⟨i, port, here, ?_⟩)
        rw [up, echoes, connected]
        rfl
  have was : (port.slaved card).checked.masterClock = true → port.masterClock = true := by
    intro stays
    rw [Port.checked, Port.slaved_same] at stays
    dsimp only at stays
    split at stays
    · exact stays
    · split at stays
      · cases stays
      · rw [timed_same] at stays
        exact stays
  have old : (port.slaved card).checked.masterClock = true →
      last.masterFound = scan.masterFound ∨ port.down = true →
      (port.kind = .te1 ∧ port.ecEnableMap = true ∧ port.ecClockCtrl = true) ∧
        (port.down = false → last.card.ecSource = some i ∧ port.connected = true) := by
    intro stays same
    obtain ⟨kind, ecMap, ctrl, clocks⟩ := clock.master i port here (was stays)
    refine ⟨⟨kind, ecMap, ctrl⟩, fun up => ?_⟩
    rcases same with same | down
    · obtain ⟨source', -⟩ := passed.chosen.same same
      exact ⟨by rw [source', passed.source, clocks up], (checked_master clock here up stays).2.2⟩
    · rw [down] at up
      cases up
  cases first : scan.masterFound with
  | true =>
      have same : last.masterFound = scan.masterFound := (passed.chosen.mono first).trans first.symm
      have stays : (port.slaved card).checked.masterClock = true := by
        rw [← (passed.chosen.same same).2 i _ other (passed.before here) there]
        exact isMaster
      exact old stays (Or.inl same)
  | false =>
      cases second : last.masterFound with
      | false =>
          have same : last.masterFound = scan.masterFound := second.trans first.symm
          have stays : (port.slaved card).checked.masterClock = true := by
            rw [← (passed.chosen.same same).2 i _ other (passed.before here) there]
            exact isMaster
          exact old stays (Or.inl same)
      | true =>
          obtain ⟨m, chosenPort, at_, fit, source', -, others⟩ := passed.chosen.found first second
          by_cases equal : i = m
          · rw [← equal, passed.before here, Option.some.injEq] at at_
            rw [← at_, Port.candidate, checked_same, Port.slaved_same] at fit
            rw [Bool.and_eq_true, Bool.and_eq_true, Bool.and_eq_true, Bool.and_eq_true,
              Bool.and_eq_true, Bool.and_eq_true] at fit
            obtain ⟨⟨⟨⟨⟨⟨-, isTe1⟩, ecMap⟩, connected⟩, -⟩, ctrl⟩, -⟩ := fit
            refine ⟨⟨beq_iff_eq.mp isTe1, ecMap, ctrl⟩, fun _ => ⟨?_, connected⟩⟩
            rw [source', equal]
          · have stays : (port.slaved card).checked.masterClock = true := by
              rw [← others i equal _ other (passed.before here) there]
              exact isMaster
            rcases kept stays with wrong | down
            · rw [first] at wrong
              cases wrong
            · exact old stays (Or.inr down)

theorem Passed.clock (passed : Passed own card lines scan last) (clock : Te1Clock card) :
    Te1Clock last.card := by
  constructor
  · intro i other there
    obtain ⟨port, here, turned⟩ := passed.back there
    rw [handled_of_turned turned]
    exact clock.ports i port here
  · intro i other there isMaster
    obtain ⟨port, here, turned⟩ := passed.back there
    obtain ⟨⟨isTe1, ecMap, ctrl⟩, clocks⟩ := passed.masters clock here there isMaster
    have same := handled_of_turned turned
    refine ⟨by rw [same]; exact isTe1, by rw [same]; exact ecMap, by rw [same]; exact ctrl, fun up => ?_⟩
    rw [same] at up
    exact (clocks up).1

/-- There is a master when there can be one. -/
theorem Passed.found_master (passed : Passed own card lines scan last) (clock : Te1Clock card)
    (any : ∃ i port, last.card.ports i = some port ∧ port.fits = true) :
    ∃ i port, last.card.ports i = some port ∧ port.down = false ∧ port.masterClock = true := by
  obtain ⟨i, other, there, fit⟩ := any
  obtain ⟨port, here, turned⟩ := passed.back there
  have same := handled_of_turned turned
  cases first : scan.masterFound with
  | true =>
      -- The master that was there is still there.
      obtain ⟨m, old, at_, isMaster⟩ := passed.found.mp first
      rw [Bool.and_eq_true, Bool.and_eq_true, Bool.not_eq_true'] at isMaster
      obtain ⟨⟨up, echoes⟩, connected⟩ := isMaster
      obtain ⟨next, there', turned'⟩ := passed.forth at_
      refine ⟨m, next, there', ?_, turned'.master ?_⟩
      · rw [handled_of_turned turned']
        exact up
      · rw [Port.echoes, Bool.and_eq_true] at echoes
        have fields := Port.slaved_same card old
        rw [checked_up (by rw [fields]; exact up), if_neg]
        · rw [timed_same, fields]
          exact echoes.2
        · rw [fields]
          dsimp only
          rw [connected, Bool.not_true, Bool.and_false, Bool.false_and]
          exact Bool.false_ne_true
  | false =>
      cases second : last.masterFound with
      | true =>
          obtain ⟨m, chosenPort, at_, fit', -, master, -⟩ := passed.chosen.found first second
          obtain ⟨next, there', turned'⟩ := rel_some passed.chosen.ports at_
          refine ⟨m, next, there', ?_, master next there'⟩
          rw [turned'.same]
          rw [Port.candidate, Bool.and_eq_true, Bool.and_eq_true, Bool.and_eq_true,
            Bool.and_eq_true, Bool.and_eq_true, Bool.and_eq_true, Bool.not_eq_true'] at fit'
          exact fit'.1.1.1.1.1.1
      | false =>
          have all : lines = List.range maxBriLines := by
            rcases passed.whole with all | ⟨-, wrong⟩
            · exact all
            · rw [first] at wrong
              cases wrong
          have unfit := passed.chosen.unfit second i
            (by rw [all]; exact List.mem_range.mpr (clock.ports i port here).1) _ (passed.before here)
          have fits : (port.slaved card).checked.candidate =
              (other.fits && !(port.slaved card).checked.masterClock) := by
            rw [Port.candidate, same, checked_same, Port.slaved_same]
            rfl
          rw [fits, fit, Bool.true_and, Bool.not_eq_false'] at unfit
          refine ⟨i, other, there, ?_, turned.master unfit⟩
          rw [Port.fits, Bool.and_eq_true, Bool.and_eq_true, Bool.and_eq_true, Bool.and_eq_true,
            Bool.and_eq_true, Bool.not_eq_true'] at fit
          exact fit.1.1.1.1.1

/-- Something paces voice when there is a span that has to be paced. -/
theorem Passed.paced (passed : Passed own card lines scan last) (clock : Te1Clock card)
    (any : ∃ i port, last.card.ports i = some port ∧ port.down = false ∧ port.paced = true) :
    ∃ i port, last.card.ports i = some port ∧ port.down = false ∧ port.paced = true ∧
      (port.connected = true ∨ port.wdtTdmTiming = true) := by
  obtain ⟨i, other, there, up, paced⟩ := any
  obtain ⟨port, here, turned⟩ := passed.back there
  have same := handled_of_turned turned
  rw [same] at up paced
  have some : ∃ i port, card.ports i = some port ∧ (!port.down && port.paced) = true := by
    refine ⟨i, port, here, ?_⟩
    rw [show port.down = false from up, show port.paced = true from paced]
    rfl
  cases on : scan.timerEnable with
  | false =>
      obtain ⟨m, alive, at_, connected⟩ := (passed.timer some).mp on
      rw [Bool.and_eq_true, Bool.and_eq_true, Bool.not_eq_true'] at connected
      obtain ⟨next, there', turned'⟩ := passed.forth at_
      have same' := handled_of_turned turned'
      refine ⟨m, next, there', ?_, ?_, Or.inl ?_⟩
      · rw [same']
        exact connected.1.1
      · rw [same']
        exact connected.1.2
      · rw [same']
        exact connected.2
  | true =>
      have all : lines = List.range maxBriLines := by
        rcases passed.whole with all | ⟨wrong, -⟩
        · exact all
        · rw [on] at wrong
          cases wrong
      cases still : last.timerEnable with
      | false =>
          obtain ⟨m, next, there', ready, set⟩ := passed.chosen.paced on still
          rw [Bool.and_eq_true, Bool.not_eq_true'] at ready
          exact ⟨m, next, there', ready.1, ready.2, Or.inr set⟩
      | true =>
          have idle := (passed.chosen.timer still).2 i
            (by rw [all]; exact List.mem_range.mpr (clock.ports i port here).1) _ (passed.before here)
          rw [Port.waiting, checked_same, Port.slaved_same] at idle
          refine ⟨i, other, there, by rw [same]; exact up, by rw [same]; exact paced, Or.inl ?_⟩
          rw [same]
          by_contra off
          rw [Bool.not_eq_true] at off
          have waits : (!port.down && port.paced && !port.connected) = true := by
            rw [show port.down = false from up, show port.paced = true from paced,
              show port.connected = false from off]
            rfl
          rw [show (!port.down && port.paced && !port.connected) = false from idle] at waits
          cases waits

theorem Passed.quiet (passed : Passed own card lines scan last) {i : Nat} {other : Port}
    (there : last.card.ports i = some other) (up : other.down = false) (paced : other.paced = true)
    (connected : other.connected = true) : other.wdtTdmTiming = false := by
  obtain ⟨port, here, turned⟩ := passed.back there
  rw [Bool.eq_false_iff]
  intro set
  have same := handled_of_turned turned
  rw [same] at up paced connected
  have fields := Port.slaved_same card port
  rcases turned.sets set with early | off
  · have cleared : (port.slaved card).timed.wdtTdmTiming = false := by
      rw [Port.timed, if_pos]
      rw [fields]
      exact (Bool.and_eq_true _ _).mpr ⟨paced, connected⟩
    rw [checked_up (by rw [fields]; exact up)] at early
    split at early <;> exact Bool.false_ne_true (cleared.symm.trans early)
  · rw [checked_same, fields] at off
    rw [show port.connected = true from connected] at off
    cases off

theorem Passed.slaves (passed : Passed own card lines scan last) {i : Nat} {other master : Port}
    (there : last.card.ports i = some other) (up : other.down = false) (isTe1 : other.kind = .te1)
    (slave : other.refClk ≠ 0) (at_ : last.card.ports (other.refClk - 1) = some master)
    (masterUp : master.down = false) : other.refOsc = !master.connected := by
  obtain ⟨port, here, turned⟩ := passed.back there
  obtain ⟨first, was, turned'⟩ := passed.back at_
  have same := handled_of_turned turned
  have same' := handled_of_turned turned'
  have told : other.refOsc = (port.slaved card).refOsc := by
    rw [turned.same, checked_same]
  rw [same] at up isTe1 slave was
  rw [same'] at masterUp ⊢
  rw [told, Port.slaved, if_neg, was]
  · dsimp only
    rw [if_neg (by rw [show first.down = false from masterUp]; exact Bool.false_ne_true)]
    split
    · next equal => exact beq_iff_eq.mp equal
    · rfl
  · rw [Bool.or_eq_true, Bool.or_eq_true, not_or, not_or]
    refine ⟨⟨by rw [show port.down = false from up]; exact Bool.false_ne_true, ?_⟩, ?_⟩
    · rw [bne_iff_ne, not_not]
      exact isTe1
    · rw [beq_iff_eq]
      exact slave

theorem Passed.settled (passed : Passed own card lines scan last) (clock : Te1Clock card) :
    Te1Settled last.card := by
  refine ⟨?_, passed.found_master clock, passed.paced clock, fun _ _ => passed.quiet,
    fun _ _ _ => passed.slaves⟩
  intro i other there up isMaster
  obtain ⟨port, here, turned⟩ := passed.back there
  have same := handled_of_turned turned
  rw [same] at up ⊢
  exact ((passed.masters clock here there isMaster).2 up).2

end Passed

/-- `aft_handle_clock_master` on a T1/E1 card. -/
theorem aftHandleClockMaster_te1 {card : Card} (clock : Te1Clock card) {own : Port}
    (kind : own.kind ≠ .bri) :
    Te1Clock (aftHandleClockMaster own card) ∧ Te1Settled (aftHandleClockMaster own card) := by
  obtain ⟨lines, scan, last, result, passed⟩ := passed_te1 clock kind
  rw [result]
  exact ⟨passed.clock clock, passed.settled clock⟩

/-- What the free running timer is by when the clocks have been looked at for a port with it. -/
theorem freeRun_te1 {card : Card} (clock : Te1Clock card) {own : Port} (kind : own.kind ≠ .bri)
    (isr : own.freeRunIsr = true) :
    let next := aftHandleClockMaster own card
    (∃ i port, next.ports i = some port ∧ (!port.down && port.running) = true) →
      (next.freeRun.isSome = true ↔ ¬ ∃ i port, next.ports i = some port ∧
        (!port.down && port.running && port.connected) = true) := by
  obtain ⟨lines, scan, last, result, passed⟩ := passed_te1 clock kind
  dsimp only
  rw [result]
  -- The three loops do not change what is asked here.
  have asks : ∀ hit : Port → Bool, (∀ port other, Handled port other → hit other = hit port) →
      ((∃ i port, last.card.ports i = some port ∧ hit port = true) ↔
        ∃ i port, card.ports i = some port ∧ hit port = true) := by
    intro hit blind
    constructor
    · rintro ⟨i, other, there, hits⟩
      obtain ⟨port, here, turned⟩ := passed.back there
      exact ⟨i, port, here, (blind port other (handled_of_turned turned)).symm.trans hits⟩
    · rintro ⟨i, port, here, hits⟩
      obtain ⟨other, there, turned⟩ := passed.forth here
      exact ⟨i, other, there, (blind port other (handled_of_turned turned)).trans hits⟩
  rw [asks (fun port => !port.down && port.running) fun port other same => by rw [same]; rfl,
    asks (fun port => !port.down && port.running && port.connected) fun port other same => by
      rw [same]; rfl, passed.chosen.freeRun]
  exact passed.running isr

theorem Te1Clock.put {card : Card} (clock : Te1Clock card) {i : Nat} {port : Port}
    (here : card.ports i = some port) (connected hwec sc globalTdmIrq : Bool) :
    Te1Clock (card.put i
      { port with connected, ecEnableMap := port.ecEnableMap || hwec, sc, globalTdmIrq }) := by
  constructor
  · intro j other there
    rw [put_ports] at there
    split at there
    · next same =>
        rw [Option.some.injEq] at there
        rw [same, ← there]
        exact clock.ports i port here
    · exact clock.ports j other there
  · intro j other there isMaster
    rw [put_ports] at there
    split at there
    · next same =>
        rw [Option.some.injEq] at there
        rw [← there] at isMaster
        obtain ⟨kind, ecMap, ctrl, clocks⟩ := clock.master i port here isMaster
        rw [same, ← there]
        refine ⟨kind, ?_, ctrl, clocks⟩
        dsimp only
        rw [ecMap, Bool.true_or]
    · exact clock.master j other there isMaster

/-- What happens to a card without BRI ports. Only a card of the Shark family clocks an echo
canceller. -/
def Op.te1 : Op → Prop
  | .up _ port => port.kind ≠ .bri ∧ (port.ecClockCtrl = true → port.shark = true)
  | _ => True

/-- The clocks are looked at for a port that stays. -/
def Op.looks (card : Card) (own : Port) : Op → Prop
  | .connect i => card.ports i = some own ∧ own.connected = false
  | .disconnect i => card.ports i = some own ∧ own.connected = true
  | .newIf i _ => card.ports i = some own
  | _ => False

theorem changed_te1 {card : Card} (clock : Te1Clock card) {i : Nat} {port : Port}
    (here : card.ports i = some port) (connected hwec : Bool) :
    let own := { port with connected, ecEnableMap := port.ecEnableMap || hwec }
    Te1Clock (changed card i own) ∧ Te1Settled (changed card i own) := by
  have kind := (clock.ports i port here).2.1
  exact @aftHandleClockMaster_te1 _
    (clock.put here connected hwec port.sc port.globalTdmIrq)
    { port with connected, ecEnableMap := port.ecEnableMap || hwec } kind

theorem connected_eq (port : Port) (connected : Bool) :
    ({ port with connected } : Port) =
      { port with connected, ecEnableMap := port.ecEnableMap || false } := by
  rw [Bool.or_false]

theorem Te1Clock.pushed {card : Card} (clock : Te1Clock card) {i : Nat} {port : Port}
    (inside : i < maxBriLines) (kind : port.kind ≠ .bri)
    (ctrl : port.ecClockCtrl = true → port.shark = true) : Te1Clock (card.put i port.fresh) := by
  constructor
  · intro j other there
    rw [put_ports] at there
    split at there
    · next same =>
        rw [Option.some.injEq] at there
        rw [same, ← there]
        exact ⟨inside, kind, ctrl⟩
    · exact clock.ports j other there
  · intro j other there isMaster
    rw [put_ports] at there
    split at there
    · rw [Option.some.injEq] at there
      rw [← there] at isMaster
      cases isMaster
    · exact clock.master j other there isMaster

theorem Te1Clock.pulled {card : Card} (clock : Te1Clock card) (i : Nat) :
    Te1Clock { card with ports := Function.update card.ports i none } := by
  have before : ∀ j other, Function.update card.ports i none j = some other →
      card.ports j = some other := by
    intro j other there
    by_cases same : j = i
    · rw [same, Function.update_self] at there
      cases there
    · rwa [Function.update_of_ne same] at there
  exact ⟨fun j other there => clock.ports j other (before j other there),
    fun j other there => clock.master j other (before j other there)⟩

theorem Te1Clock.shutDown {card : Card} (clock : Te1Clock card) (i : Nat) (own : Port) :
    Te1Clock (shutDown i own card) := by
  constructor
  · intro j other there
    obtain ⟨port, here, result⟩ := Option.map_eq_some_iff.mp there
    rw [← result]
    split
    · exact clock.ports j port here
    · exact clock.ports j port here
  · intro j other there isMaster
    obtain ⟨port, here, result⟩ := Option.map_eq_some_iff.mp there
    rw [← result] at isMaster ⊢
    split at isMaster
    · next hit =>
        obtain ⟨kind, ecMap, ctrl, -⟩ := clock.master j port here isMaster
        rw [if_pos hit]
        exact ⟨kind, ecMap, ctrl, fun wrong => by cases wrong⟩
    · next miss =>
        rw [if_neg miss]
        exact clock.master j port here isMaster

theorem step_te1 {card : Card} (clock : Te1Clock card) (op : Op) (allowed : op.te1) :
    Te1Clock (step card op) := by
  cases op with
  | up i port =>
      rw [step]
      split
      · exact clock
      · exact clock.pushed i.isLt allowed.1 allowed.2
  | connect i =>
      rw [step]
      cases here : card.ports i with
      | none => exact clock
      | some port =>
          dsimp only
          split
          · exact clock
          · rw [connected_eq]
            exact (changed_te1 clock here true false).1
  | disconnect i =>
      rw [step]
      cases here : card.ports i with
      | none => exact clock
      | some port =>
          dsimp only
          split
          · rw [connected_eq]
            exact (changed_te1 clock here false false).1
          · exact clock
  | newIf i hwec =>
      rw [step]
      cases here : card.ports i with
      | none => exact clock
      | some port => exact (changed_te1 clock here port.connected hwec).1
  | voice i sc globalTdmIrq =>
      rw [step]
      cases here : card.ports i with
      | none => exact clock
      | some port =>
          have kept := clock.put here port.connected false sc globalTdmIrq
          rw [Bool.or_false] at kept
          exact kept
  | criticalShutdown i =>
      rw [step]
      cases here : card.ports i with
      | none => exact clock
      | some port => exact clock.shutDown i port
  | disableComm i =>
      rw [step]
      cases here : card.ports i with
      | none => exact clock
      | some port =>
          dsimp only
          rw [connected_eq]
          exact (changed_te1 clock here false false).1.pulled i

theorem looks_te1 {card : Card} (clock : Te1Clock card) {op : Op} {own : Port}
    (looks : op.looks card own) :
    Te1Settled (step card op) ∧ (own.freeRunIsr = true →
      (∃ i port, (step card op).ports i = some port ∧ (!port.down && port.running) = true) →
        ((step card op).freeRun.isSome = true ↔ ¬ ∃ i port, (step card op).ports i = some port ∧
          (!port.down && port.running && port.connected) = true)) := by
  have changes : ∀ (i : Nat), card.ports i = some own → ∀ connected hwec : Bool,
      step card op = changed card i { own with connected, ecEnableMap := own.ecEnableMap || hwec } →
      Te1Settled (step card op) ∧ (own.freeRunIsr = true →
        (∃ i port, (step card op).ports i = some port ∧ (!port.down && port.running) = true) →
          ((step card op).freeRun.isSome = true ↔ ¬ ∃ i port, (step card op).ports i = some port ∧
            (!port.down && port.running && port.connected) = true)) := by
    intro i here connected hwec same
    rw [same]
    refine ⟨(changed_te1 clock here connected hwec).2, fun isr => ?_⟩
    exact @freeRun_te1 _ (clock.put here connected hwec own.sc own.globalTdmIrq)
      { own with connected, ecEnableMap := own.ecEnableMap || hwec } (clock.ports i own here).2.1 isr
  cases op with
  | connect i =>
      apply changes i looks.1 true false
      rw [step, looks.1, ← connected_eq]
      dsimp only
      rw [looks.2, if_neg Bool.false_ne_true]
  | disconnect i =>
      apply changes i looks.1 false false
      rw [step, looks.1, ← connected_eq]
      dsimp only
      rw [looks.2, if_pos rfl]
  | newIf i hwec =>
      have here : card.ports i = some own := looks
      apply changes i here own.connected hwec
      rw [step, here]
  | up | voice | criticalShutdown | disableComm => exact looks.elim

theorem noPorts_te1 : Te1Clock noPorts :=
  ⟨fun _ _ wrong => (by cases wrong), fun _ _ wrong => (by cases wrong)⟩

/-- A port of a Shark card with voice and with the echo canceller. -/
def te1Port : Port where
  kind := .te1
  te := false
  osc := false
  khz512 := false
  clockCtrl := false
  refClk := 0
  shark := true
  ecClockCtrl := true
  ecEnableMap := true
  freeRunIsr := false
  sc := true
  globalTdmIrq := true
  tdmvMtu := 8
  down := false
  connected := false
  masterClock := false
  refOsc := false
  wdtTdmTiming := false
  recovers := false
  setClock := false
  wdt := 0

end Wanpipe.Aft.Clock
