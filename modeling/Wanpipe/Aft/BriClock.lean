import Wanpipe.Aft.Clock
import Wanpipe.Runs

/-! The clock of a BRI card, whatever happens to its ports. -/

namespace Wanpipe.Aft.Clock

open Runs

/-- A loop in which nothing happens except at one place. -/
theorem foldl_one {State : Type} {turn : State → Nat → State} {state next : State} {n m : Nat}
    (inside : m < n) (before : ∀ i < m, turn state i = state) (here : turn state m = next)
    (after : ∀ i, m < i → i < n → turn next i = next) :
    (List.range n).foldl turn state = next := by
  induction n with
  | zero => exact absurd inside (Nat.not_lt_zero m)
  | succ n ih =>
      rw [List.range_succ, List.foldl_append, List.foldl_cons, List.foldl_nil]
      rcases Nat.lt_succ_iff_lt_or_eq.mp inside with less | rfl
      · rw [ih less fun i first second => after i first (Nat.lt_succ_of_lt second)]
        exact after n less (Nat.lt_succ_self n)
      · have still : ∀ k ≤ m, (List.range k).foldl turn state = state := by
          intro k few
          induction k with
          | zero => rfl
          | succ k ih =>
              rw [List.range_succ, List.foldl_append, ih (Nat.le_of_succ_le few)]
              exact before k few
        rw [still m (Nat.le_refl m), here]

theorem foldl_still {State : Type} {turn : State → Nat → State} {state : State} (n : Nat)
    (each : ∀ i < n, turn state i = state) : (List.range n).foldl turn state = state := by
  induction n with
  | zero => rfl
  | succ n ih =>
      rw [List.range_succ, List.foldl_append, ih fun i less => each i (Nat.lt_succ_of_lt less)]
      exact each n (Nat.lt_succ_self n)

/-- A port that the clock of a BRI card may be taken from. -/
def Port.eligible (port : Port) : Bool :=
  port.te && !port.osc && port.khz512 && port.connected

/-- At most one port recovers the clock of the card, and the chip is in step with a line exactly when
there is one. -/
structure BriClock (card : Card) : Prop where
  bris : ∀ i port, card.ports i = some port →
    i < maxBriLines ∧ port.kind = .bri ∧ port.clockCtrl = true ∧ port.down = false
  one : ∀ i j port other, card.ports i = some port → card.ports j = some other →
    port.masterClock = true → other.masterClock = true → i = j
  master : ∀ i port, card.ports i = some port → port.masterClock = true →
    port.te = true ∧ port.osc = false ∧ port.khz512 = true
  recovers : ∀ i port, card.ports i = some port → port.recovers = port.masterClock
  sync : card.lineSync = true ↔ ∃ i port, card.ports i = some port ∧ port.masterClock = true

/-- The master is connected, and there is one when a port can be it. -/
structure Settled (card : Card) : Prop where
  connected : ∀ i port, card.ports i = some port → port.masterClock = true → port.connected = true
  found : (∃ i port, card.ports i = some port ∧ port.eligible = true) →
    ∃ i port, card.ports i = some port ∧ port.masterClock = true

/-- The lines of the ports are as they were. -/
def Lines (card next : Card) : Prop :=
  ∀ i other, next.ports i = some other →
    ∃ port, card.ports i = some port ∧ other.connected = port.connected

section Bri

variable {card : Card}

theorem slave_bri (clock : BriClock card) (i : Nat) : slave card i = card := by
  unfold slave
  split
  · rfl
  · next port here =>
      rw [(clock.bris i port here).2.1]
      rw [if_pos]
      rw [Bool.or_eq_true, Bool.or_eq_true]
      exact Or.inl (Or.inr rfl)

theorem check_bri (clock : BriClock card) {scan : Scan} (same : scan.card = card) {i : Nat} {port : Port}
    (here : card.ports i = some port) : check scan i = checkBri scan i port := by
  obtain ⟨-, kind, -, up⟩ := clock.bris i port here
  rw [check, same, here]
  dsimp only
  rw [up, kind, if_neg Bool.false_ne_true]

theorem check_idle (clock : BriClock card) {scan : Scan} (same : scan.card = card) {i : Nat}
    (idle : ∀ port, card.ports i = some port → port.masterClock = false) : check scan i = scan := by
  cases here : card.ports i with
  | none => rw [check, same, here]
  | some port =>
      rw [check_bri clock same here, checkBri, idle port here, Bool.and_false, if_neg Bool.false_ne_true]

/-- The port that was the master is disconnected. -/
def released (card : Card) (i : Nat) (port : Port) : Card :=
  aftBriClockControl (card.put i { port with masterClock := false, recovers := false }) false

/-- A port is made the master. -/
def taken (card : Card) (i : Nat) (port : Port) : Card :=
  aftBriClockControl (card.put i { port with masterClock := true, recovers := true }) true

theorem Lines.put {i : Nat} {port other : Port} (here : card.ports i = some port)
    (same : other.connected = port.connected) : Lines card (card.put i other) := by
  intro j changed there
  rw [put_ports] at there
  split at there
  · next equal =>
      rw [Option.some.injEq] at there
      rw [equal, ← there]
      exact ⟨port, here, same⟩
  · exact ⟨changed, there, rfl⟩

theorem BriClock.released (clock : BriClock card) {i : Nat} {port : Port}
    (here : card.ports i = some port) (wasMaster : port.masterClock = true) :
    BriClock (released card i port) ∧
      ∀ j other, (Clock.released card i port).ports j = some other → other.masterClock = false := by
  have others : ∀ j other, (Clock.released card i port).ports j = some other →
      (j = i ∧ other = { port with masterClock := false, recovers := false }) ∨
        (j ≠ i ∧ card.ports j = some other ∧ other.masterClock = false) := by
    intro j other there
    rw [Clock.released, aftBriClockControl, put_ports] at there
    by_cases same : j = i
    · rw [if_pos same, Option.some.injEq] at there
      exact Or.inl ⟨same, there.symm⟩
    · rw [if_neg same] at there
      refine Or.inr ⟨same, there, ?_⟩
      rw [Bool.eq_false_iff]
      intro isMaster
      exact same (clock.one j i other port there here isMaster wasMaster)
  have none : ∀ j other, (Clock.released card i port).ports j = some other →
      other.masterClock = false := by
    intro j other there
    rcases others j other there with ⟨-, rfl⟩ | ⟨-, -, idle⟩
    · rfl
    · exact idle
  refine ⟨⟨?_, ?_, ?_, ?_, ?_⟩, none⟩
  · intro j other there
    rcases others j other there with ⟨rfl, rfl⟩ | ⟨-, before, -⟩
    · exact clock.bris j port here
    · exact clock.bris j other before
  · intro j k left right first _ isMaster
    rw [none j left first] at isMaster
    cases isMaster
  · intro j other there isMaster
    rw [none j other there] at isMaster
    cases isMaster
  · intro j other there
    rcases others j other there with ⟨rfl, rfl⟩ | ⟨-, before, -⟩
    · rfl
    · exact clock.recovers j other before
  · refine iff_of_false Bool.false_ne_true ?_
    rintro ⟨j, other, there, isMaster⟩
    rw [none j other there] at isMaster
    cases isMaster

theorem BriClock.taken (clock : BriClock card)
    (none : ∀ j other, card.ports j = some other → other.masterClock = false) {i : Nat} {port : Port}
    (here : card.ports i = some port) (eligible : port.eligible = true) :
    BriClock (taken card i port) ∧ Settled (Clock.taken card i port) := by
  rw [Port.eligible, Bool.and_eq_true, Bool.and_eq_true, Bool.and_eq_true, Bool.not_eq_true'] at eligible
  obtain ⟨⟨⟨te, free⟩, khz512⟩, connected⟩ := eligible
  have others : ∀ j other, (Clock.taken card i port).ports j = some other →
      (j = i ∧ other = { port with masterClock := true, recovers := true }) ∨
        (j ≠ i ∧ card.ports j = some other ∧ other.masterClock = false) := by
    intro j other there
    rw [Clock.taken, aftBriClockControl, put_ports] at there
    by_cases same : j = i
    · rw [if_pos same, Option.some.injEq] at there
      exact Or.inl ⟨same, there.symm⟩
    · rw [if_neg same] at there
      exact Or.inr ⟨same, there, none j other there⟩
  have only : ∀ j other, (Clock.taken card i port).ports j = some other → other.masterClock = true →
      j = i ∧ other = { port with masterClock := true, recovers := true } := by
    intro j other there isMaster
    rcases others j other there with chosen | ⟨-, -, idle⟩
    · exact chosen
    · rw [idle] at isMaster
      cases isMaster
  have chosen : (Clock.taken card i port).ports i =
      some { port with masterClock := true, recovers := true } := by
    rw [Clock.taken, aftBriClockControl, put_ports, if_pos rfl]
  refine ⟨⟨?_, ?_, ?_, ?_, ?_⟩, ?_, ?_⟩
  · intro j other there
    rcases others j other there with ⟨rfl, rfl⟩ | ⟨-, before, -⟩
    · exact clock.bris j port here
    · exact clock.bris j other before
  · intro j k left right first second isMaster isMaster'
    rw [(only j left first isMaster).1, (only k right second isMaster').1]
  · intro j other there isMaster
    obtain ⟨-, rfl⟩ := only j other there isMaster
    exact ⟨te, free, khz512⟩
  · intro j other there
    rcases others j other there with ⟨-, rfl⟩ | ⟨-, before, -⟩
    · rfl
    · exact clock.recovers j other before
  · exact iff_of_true rfl ⟨i, _, chosen, rfl⟩
  · intro j other there isMaster
    obtain ⟨-, rfl⟩ := only j other there isMaster
    exact connected
  · exact fun _ => ⟨i, _, chosen, rfl⟩

theorem chooseBri_fit {scan : Scan} {i : Nat} {port : Port} (fit : port.eligible = true)
    (idle : port.masterClock = false) (clockCtrl : port.clockCtrl = true) :
    chooseBri scan i port =
      { scan with masterFound := true, card := Clock.taken scan.card i port } := by
  rw [Port.eligible, Bool.and_eq_true, Bool.and_eq_true, Bool.and_eq_true, Bool.not_eq_true'] at fit
  obtain ⟨⟨⟨te, free⟩, khz512⟩, connected⟩ := fit
  unfold chooseBri
  rw [if_neg, if_pos]
  · rfl
  · rw [te, idle, connected, clockCtrl]
    rfl
  · rw [free, khz512]
    exact Bool.false_ne_true

theorem chooseBri_unfit {scan : Scan} {i : Nat} {port : Port} (unfit : port.eligible = false) :
    chooseBri scan i port = scan := by
  rw [Port.eligible] at unfit
  unfold chooseBri
  split
  · rfl
  · next recovers =>
      rw [Bool.not_eq_true, Bool.or_eq_false_iff, Bool.not_eq_false'] at recovers
      rw [if_neg]
      intro able
      rw [Bool.and_eq_true, Bool.and_eq_true, Bool.and_eq_true] at able
      rw [recovers.1, recovers.2, able.1.2, able.1.1.1] at unfit
      cases unfit

/-- The second loop when there is no master. -/
theorem choose_bri (clock : BriClock card)
    (none : ∀ j other, card.ports j = some other → other.masterClock = false) {scan : Scan}
    (same : scan.card = card) (unfound : scan.masterFound = false) (lines : List Nat) :
    (∃ i ∈ lines, ∃ port, card.ports i = some port ∧ port.eligible = true ∧
        (choose lines scan).card = taken card i port) ∨
      ((∀ i ∈ lines, ∀ port, card.ports i = some port → port.eligible = false) ∧
        (choose lines scan).card = card) := by
  induction lines with
  | nil => exact Or.inr ⟨fun i wrong => absurd wrong List.not_mem_nil, same⟩
  | cons i rest ih =>
      -- What the loop does with the rest when this port is not chosen.
      have skipped : (∀ port, card.ports i = some port → port.eligible = false) →
          choose (i :: rest) scan = choose rest scan →
          ((∃ j ∈ i :: rest, ∃ port, card.ports j = some port ∧ port.eligible = true ∧
              (choose (i :: rest) scan).card = Clock.taken card j port) ∨
            ((∀ j ∈ i :: rest, ∀ port, card.ports j = some port → port.eligible = false) ∧
              (choose (i :: rest) scan).card = card)) := by
        intro unfit goesOn
        rw [goesOn]
        rcases ih with ⟨j, member, port, there, fit, result⟩ | ⟨unfits, result⟩
        · exact Or.inl ⟨j, List.mem_cons_of_mem i member, port, there, fit, result⟩
        · refine Or.inr ⟨fun j member port there => ?_, result⟩
          rcases List.mem_cons.mp member with rfl | later
          · exact unfit port there
          · exact unfits j later port there
      cases here : card.ports i with
      | none =>
          apply skipped
          · intro port wrong
            rw [here] at wrong
            cases wrong
          · rw [choose, same, here]
      | some port =>
          obtain ⟨-, kind, clockCtrl, up⟩ := clock.bris i port here
          have idle := none i port here
          have turn : choose (i :: rest) scan =
              if (chooseBri scan i port).masterFound then chooseBri scan i port
              else choose rest (chooseBri scan i port) := by
            rw [choose, same, here]
            dsimp only
            rw [up, kind, unfound, if_neg Bool.false_ne_true, if_neg Bool.false_ne_true]
          cases fit : port.eligible with
          | true =>
              refine Or.inl ⟨i, List.mem_cons_self, port, here, fit, ?_⟩
              rw [turn, chooseBri_fit fit idle clockCtrl, same]
              rfl
          | false =>
              apply skipped
              · intro other there
                rw [here, Option.some.injEq] at there
                rw [← there]
                exact fit
              · rw [turn, chooseBri_unfit fit, unfound, if_neg Bool.false_ne_true]

theorem timers_card (own : Port) (scan : Scan) (off : scan.freeRunDetect = false) :
    (timers own scan).card = scan.card ∧ (timers own scan).masterFound = scan.masterFound := by
  rw [timers, off, if_neg Bool.false_ne_true]
  split <;> exact ⟨rfl, rfl⟩

theorem chosen_bri (clock : BriClock card)
    (none : ∀ j other, card.ports j = some other → other.masterClock = false) {scan : Scan}
    (same : scan.card = card) (unfound : scan.masterFound = false) :
    BriClock (choose (List.range maxBriLines) scan).card ∧
      Settled (choose (List.range maxBriLines) scan).card ∧
      Lines card (choose (List.range maxBriLines) scan).card := by
  rcases choose_bri clock none same unfound (List.range maxBriLines) with
    ⟨i, -, port, here, fit, result⟩ | ⟨unfit, result⟩
  · rw [result]
    obtain ⟨clock', settled⟩ := clock.taken none here fit
    exact ⟨clock', settled, Lines.put here rfl⟩
  · rw [result]
    refine ⟨clock, ⟨?_, ?_⟩, fun i port here => ⟨port, here, rfl⟩⟩
    · intro i port here isMaster
      rw [none i port here] at isMaster
      cases isMaster
    · rintro ⟨i, port, here, fit⟩
      rw [unfit i (List.mem_range.mpr (clock.bris i port here).1) port here] at fit
      cases fit

theorem handle_bri {own : Port} (kind : own.kind = .bri) (clockCtrl : own.clockCtrl = true)
    (card : Card) :
    aftHandleClockMaster own card =
      let checked := (List.range maxBriLines).foldl check
        (Scan.start ((List.range maxBriLines).foldl slave card))
      if (timers own checked).masterFound then (timers own checked).card
      else (choose (List.range maxBriLines) (timers own checked)).card := by
  unfold aftHandleClockMaster
  rw [kind, clockCtrl]
  rfl

/-- `aft_handle_clock_master` on a BRI card. -/
theorem aftHandleClockMaster_bri (clock : BriClock card) {own : Port} (kind : own.kind = .bri)
    (clockCtrl : own.clockCtrl = true) :
    BriClock (aftHandleClockMaster own card) ∧ Settled (aftHandleClockMaster own card) ∧
      Lines card (aftHandleClockMaster own card) := by
  rw [handle_bri kind clockCtrl, foldl_still maxBriLines fun i _ => slave_bri clock i]
  dsimp only
  by_cases any : ∃ i port, card.ports i = some port ∧ port.masterClock = true
  · obtain ⟨m, port, here, isMaster⟩ := any
    have inside := (clock.bris m port here).1
    have te := (clock.master m port here isMaster).1
    have others : ∀ j ≠ m, ∀ other, card.ports j = some other → other.masterClock = false := by
      intro j apart other there
      rw [Bool.eq_false_iff]
      intro isMaster'
      exact apart (clock.one j m other port there here isMaster' isMaster)
    cases connected : port.connected with
    | true =>
        -- The master stays.
        have looked : (List.range maxBriLines).foldl check (Scan.start card) =
            { Scan.start card with masterFound := true } := by
          apply foldl_one inside
          · intro i before
            exact check_idle clock rfl (others i (Nat.ne_of_lt before))
          · rw [check_bri clock rfl here, checkBri, if_pos (by rw [te, isMaster]; rfl), if_pos connected]
          · intro i after _
            exact check_idle clock rfl (others i (Nat.ne_of_gt after))
        rw [looked]
        obtain ⟨same, found⟩ := timers_card own { Scan.start card with masterFound := true } rfl
        rw [found, if_pos rfl, same]
        change BriClock card ∧ Settled card ∧ Lines card card
        refine ⟨clock, ⟨?_, fun _ => ⟨m, port, here, isMaster⟩⟩, fun i port here => ⟨port, here, rfl⟩⟩
        intro j other there isMaster'
        have again := clock.one j m other port there here isMaster' isMaster
        rw [again, here, Option.some.injEq] at there
        rw [← there]
        exact connected
    | false =>
        -- The master goes, and another one is looked for.
        obtain ⟨clock', none⟩ := clock.released here isMaster
        have looked : (List.range maxBriLines).foldl check (Scan.start card) =
            Scan.start (released card m port) := by
          apply foldl_one inside
          · intro i before
            exact check_idle clock rfl (others i (Nat.ne_of_lt before))
          · have quiet : (!port.clockCtrl && port.recovers) = false := by
              rw [(clock.bris m port here).2.2.1]
              rfl
            rw [check_bri clock rfl here, checkBri, if_pos (by rw [te, isMaster]; rfl),
              if_neg (by rw [connected]; exact Bool.false_ne_true), quiet]
            rfl
          · intro i after _
            exact check_idle clock' rfl (none i)
        rw [looked]
        obtain ⟨same, found⟩ :=
          timers_card own (Scan.start (released card m port)) rfl
        rw [if_neg (by rw [found]; exact Bool.false_ne_true)]
        obtain ⟨last, settled, lines⟩ := chosen_bri clock' none same found
        refine ⟨last, settled, fun i other there => ?_⟩
        obtain ⟨between, middle, kept⟩ := lines i other there
        obtain ⟨first, before, kept'⟩ := Lines.put here (by rfl) i between middle
        exact ⟨first, before, kept.trans kept'⟩
  · have none : ∀ j other, card.ports j = some other → other.masterClock = false := by
      intro j other there
      rw [Bool.eq_false_iff]
      exact fun isMaster => any ⟨j, other, there, isMaster⟩
    have looked : (List.range maxBriLines).foldl check (Scan.start card) =
        Scan.start card :=
      foldl_still maxBriLines fun i _ => check_idle clock rfl (none i)
    rw [looked]
    obtain ⟨same, found⟩ := timers_card own (Scan.start card) rfl
    rw [if_neg (by rw [found]; exact Bool.false_ne_true)]
    exact chosen_bri clock none same found

theorem BriClock.put (clock : BriClock card) {i : Nat} {port : Port} (here : card.ports i = some port)
    (connected ecEnableMap sc globalTdmIrq : Bool) :
    BriClock (card.put i { port with connected, ecEnableMap, sc, globalTdmIrq }) := by
  have before : ∀ j other,
      (card.put i { port with connected, ecEnableMap, sc, globalTdmIrq }).ports j = some other →
        ∃ first, card.ports j = some first ∧ other = { first with
          connected := other.connected, ecEnableMap := other.ecEnableMap, sc := other.sc
          globalTdmIrq := other.globalTdmIrq } := by
    intro j other there
    rw [put_ports] at there
    split at there
    · next same =>
        rw [Option.some.injEq] at there
        rw [same, ← there]
        exact ⟨port, here, rfl⟩
    · exact ⟨other, there, rfl⟩
  refine ⟨?_, ?_, ?_, ?_, ?_⟩
  · intro j other there
    obtain ⟨first, was, same⟩ := before j other there
    rw [same]
    exact clock.bris j first was
  · intro j k left right there there' isMaster isMaster'
    obtain ⟨first, was, same⟩ := before j left there
    obtain ⟨second, was', same'⟩ := before k right there'
    rw [same] at isMaster
    rw [same'] at isMaster'
    exact clock.one j k first second was was' isMaster isMaster'
  · intro j other there isMaster
    obtain ⟨first, was, same⟩ := before j other there
    rw [same] at isMaster ⊢
    exact clock.master j first was isMaster
  · intro j other there
    obtain ⟨first, was, same⟩ := before j other there
    rw [same]
    exact clock.recovers j first was
  · refine clock.sync.trans ⟨?_, ?_⟩
    · rintro ⟨j, other, there, isMaster⟩
      by_cases same : j = i
      · refine ⟨j, { port with connected, ecEnableMap, sc, globalTdmIrq }, ?_, ?_⟩
        · rw [put_ports, if_pos same]
        · rw [same, here, Option.some.injEq] at there
          rw [there]
          exact isMaster
      · exact ⟨j, other, by rw [put_ports, if_neg same, there], isMaster⟩
    · rintro ⟨j, other, there, isMaster⟩
      obtain ⟨first, was, same⟩ := before j other there
      rw [same] at isMaster
      exact ⟨j, first, was, isMaster⟩

/-- A port goes that is not the master. -/
theorem BriClock.pulled (clock : BriClock card) (settled : Settled card) {i : Nat}
    (idle : ∀ port, card.ports i = some port → port.masterClock = false) :
    BriClock { card with ports := Function.update card.ports i none } ∧
      Settled { card with ports := Function.update card.ports i none } := by
  have before : ∀ j other, Function.update card.ports i none j = some other →
      card.ports j = some other := by
    intro j other there
    by_cases same : j = i
    · rw [same, Function.update_self] at there
      cases there
    · rwa [Function.update_of_ne same] at there
  have kept : (∃ j other, card.ports j = some other ∧ other.masterClock = true) →
      ∃ j other, Function.update card.ports i none j = some other ∧ other.masterClock = true := by
    rintro ⟨j, other, there, isMaster⟩
    refine ⟨j, other, ?_, isMaster⟩
    rw [Function.update_of_ne, there]
    intro same
    rw [same] at there
    rw [idle other there] at isMaster
    cases isMaster
  refine ⟨⟨?_, ?_, ?_, ?_, ?_⟩, ?_, ?_⟩
  · exact fun j other there => clock.bris j other (before j other there)
  · exact fun j k left right first second => clock.one j k left right (before j left first)
      (before k right second)
  · exact fun j other there => clock.master j other (before j other there)
  · exact fun j other there => clock.recovers j other (before j other there)
  · refine clock.sync.trans ⟨kept, ?_⟩
    rintro ⟨j, other, there, isMaster⟩
    exact ⟨j, other, before j other there, isMaster⟩
  · exact fun j other there => settled.connected j other (before j other there)
  · rintro ⟨j, other, there, fit⟩
    exact kept (settled.found ⟨j, other, before j other there, fit⟩)

/-- A port comes that is not connected. -/
theorem BriClock.pushed (clock : BriClock card) (settled : Settled card) {i : Nat} {port : Port}
    (inside : i < maxBriLines) (kind : port.kind = .bri) (clockCtrl : port.clockCtrl = true)
    (empty : card.ports i = none) :
    BriClock (card.put i port.fresh) ∧ Settled (card.put i port.fresh) := by
  have before : ∀ j other, (card.put i port.fresh).ports j = some other →
      (j = i ∧ other = port.fresh) ∨ card.ports j = some other := by
    intro j other there
    rw [put_ports] at there
    split at there
    · next same =>
        rw [Option.some.injEq] at there
        exact Or.inl ⟨same, there.symm⟩
    · exact Or.inr there
  have masters : ∀ j other, (card.put i port.fresh).ports j = some other → other.masterClock = true →
      card.ports j = some other := by
    intro j other there isMaster
    rcases before j other there with ⟨-, rfl⟩ | was
    · cases isMaster
    · exact was
  have kept : (∃ j other, card.ports j = some other ∧ other.masterClock = true) →
      ∃ j other, (card.put i port.fresh).ports j = some other ∧ other.masterClock = true := by
    rintro ⟨j, other, there, isMaster⟩
    refine ⟨j, other, ?_, isMaster⟩
    rw [put_ports, if_neg, there]
    intro same
    rw [same, empty] at there
    cases there
  refine ⟨⟨?_, ?_, ?_, ?_, ?_⟩, ?_, ?_⟩
  · intro j other there
    rcases before j other there with ⟨rfl, rfl⟩ | was
    · exact ⟨inside, kind, clockCtrl, rfl⟩
    · exact clock.bris j other was
  · intro j k left right first second isMaster isMaster'
    exact clock.one j k left right (masters j left first isMaster) (masters k right second isMaster')
      isMaster isMaster'
  · exact fun j other there isMaster => clock.master j other (masters j other there isMaster) isMaster
  · intro j other there
    rcases before j other there with ⟨-, rfl⟩ | was
    · rfl
    · exact clock.recovers j other was
  · refine clock.sync.trans ⟨kept, ?_⟩
    rintro ⟨j, other, there, isMaster⟩
    exact ⟨j, other, masters j other there isMaster, isMaster⟩
  · exact fun j other there isMaster =>
      settled.connected j other (masters j other there isMaster) isMaster
  · rintro ⟨j, other, there, fit⟩
    rcases before j other there with ⟨-, rfl⟩ | was
    · rw [Port.eligible, Bool.and_eq_true] at fit
      cases fit.2
    · exact kept (settled.found ⟨j, other, was, fit⟩)

/-- The interfaces of a port come or go. -/
theorem Settled.voice (settled : Settled card) {i : Nat} {port : Port} (here : card.ports i = some port)
    (sc globalTdmIrq : Bool) : Settled (card.put i { port with sc, globalTdmIrq }) := by
  have before : ∀ j other, (card.put i { port with sc, globalTdmIrq }).ports j = some other →
      ∃ first, card.ports j = some first ∧
        other = { first with sc := other.sc, globalTdmIrq := other.globalTdmIrq } := by
    intro j other there
    rw [put_ports] at there
    split at there
    · next same =>
        rw [Option.some.injEq] at there
        rw [same, ← there]
        exact ⟨port, here, rfl⟩
    · exact ⟨other, there, rfl⟩
  constructor
  · intro j other there isMaster
    obtain ⟨first, was, same⟩ := before j other there
    rw [same] at isMaster ⊢
    exact settled.connected j first was isMaster
  · rintro ⟨j, other, there, fit⟩
    obtain ⟨first, was, same⟩ := before j other there
    rw [same] at fit
    obtain ⟨m, master, there', isMaster⟩ := settled.found ⟨j, first, was, fit⟩
    by_cases equal : m = i
    · refine ⟨m, { port with sc, globalTdmIrq }, by rw [put_ports, if_pos equal], ?_⟩
      rw [equal, here, Option.some.injEq] at there'
      rw [there']
      exact isMaster
    · exact ⟨m, master, by rw [put_ports, if_neg equal, there'], isMaster⟩

end Bri

/-- What happens to a BRI card that is not shut down as a whole. -/
def Op.bri : Op → Prop
  | .up _ port => port.kind = .bri ∧ port.clockCtrl = true
  | .criticalShutdown _ => False
  | _ => True

theorem step_bri {card : Card} (clock : BriClock card) (settled : Settled card) (op : Op)
    (allowed : op.bri) : BriClock (step card op) ∧ Settled (step card op) := by
  have looked : ∀ (i : Nat) (port : Port), card.ports i = some port → ∀ connected ecEnableMap : Bool,
      BriClock (changed card i { port with connected, ecEnableMap }) ∧
        Settled (changed card i { port with connected, ecEnableMap }) ∧
        Lines (card.put i { port with connected, ecEnableMap })
          (changed card i { port with connected, ecEnableMap }) := by
    intro i port here connected ecEnableMap
    obtain ⟨-, kind, clockCtrl, -⟩ := clock.bris i port here
    exact aftHandleClockMaster_bri (clock.put here connected ecEnableMap port.sc port.globalTdmIrq)
      kind clockCtrl
  cases op with
  | up i port =>
      obtain ⟨kind, clockCtrl⟩ := allowed
      rw [step]
      cases here : card.ports i with
      | some other => exact ⟨clock, settled⟩
      | none => exact clock.pushed settled i.isLt kind clockCtrl here
  | connect i =>
      rw [step]
      cases here : card.ports i with
      | none => exact ⟨clock, settled⟩
      | some port =>
          dsimp only
          split
          · exact ⟨clock, settled⟩
          · obtain ⟨clock', settled', -⟩ := looked i port here true port.ecEnableMap
            exact ⟨clock', settled'⟩
  | disconnect i =>
      rw [step]
      cases here : card.ports i with
      | none => exact ⟨clock, settled⟩
      | some port =>
          dsimp only
          split
          · obtain ⟨clock', settled', -⟩ := looked i port here false port.ecEnableMap
            exact ⟨clock', settled'⟩
          · exact ⟨clock, settled⟩
  | newIf i hwec =>
      rw [step]
      cases here : card.ports i with
      | none => exact ⟨clock, settled⟩
      | some port =>
          obtain ⟨clock', settled', -⟩ := looked i port here port.connected (port.ecEnableMap || hwec)
          exact ⟨clock', settled'⟩
  | voice i sc globalTdmIrq =>
      rw [step]
      cases here : card.ports i with
      | none => exact ⟨clock, settled⟩
      | some port =>
          exact ⟨clock.put here port.connected port.ecEnableMap sc globalTdmIrq,
            settled.voice here sc globalTdmIrq⟩
  | criticalShutdown i => exact allowed.elim
  | disableComm i =>
      rw [step]
      cases here : card.ports i with
      | none => exact ⟨clock, settled⟩
      | some port =>
          obtain ⟨clock', settled', lines⟩ := looked i port here false port.ecEnableMap
          apply clock'.pulled settled'
          -- A port that goes is not connected any more, and the master is.
          intro other there
          rw [Bool.eq_false_iff]
          intro isMaster
          have connected := settled'.connected i other there isMaster
          obtain ⟨first, was, same⟩ := lines i other there
          rw [put_ports, if_pos rfl, Option.some.injEq] at was
          rw [same, ← was] at connected
          cases connected

theorem noPorts_bri : BriClock noPorts ∧ Settled noPorts := by
  have none : ∀ i port, noPorts.ports i = some port → False := by
    intro i port wrong
    cases wrong
  refine ⟨⟨fun i port here => (none i port here).elim, fun i j port _ here => (none i port here).elim,
    fun i port here => (none i port here).elim, fun i port here => (none i port here).elim, ?_⟩,
    fun i port here => (none i port here).elim, fun ⟨i, port, here, _⟩ => (none i port here).elim⟩
  exact iff_of_false Bool.false_ne_true fun ⟨i, port, here, _⟩ => none i port here

/-- In every run of a BRI card at most one port is the master. It recovers the clock of its line, no
other port does, it is connected, and there is one whenever a port can be it. The chip is in step with
a line exactly while there is a master. -/
theorem bri_clock (ops : List Op) (allowed : ∀ op ∈ ops, op.bri) :
    let card := run noPorts ops
    (∀ i j port other, card.ports i = some port → card.ports j = some other →
        port.masterClock = true → other.masterClock = true → i = j) ∧
      (∀ i port, card.ports i = some port → port.recovers = port.masterClock ∧
        (port.masterClock = true → port.eligible = true)) ∧
      ((∃ i port, card.ports i = some port ∧ port.eligible = true) →
        ∃ i port, card.ports i = some port ∧ port.masterClock = true) ∧
      (card.lineSync = true ↔ ∃ i port, card.ports i = some port ∧ port.masterClock = true) := by
  intro card
  have kept : BriClock card ∧ Settled card :=
    @Along.fold Card Op step (fun _ => Op.bri) (fun card => BriClock card ∧ Settled card) noPorts ops
      (fun _ op kept able => step_bri kept.1 kept.2 op able) noPorts_bri
      (Along.of_forall noPorts ops allowed)
  obtain ⟨clock, settled⟩ := kept
  refine ⟨clock.one, fun i port here => ⟨clock.recovers i port here, fun isMaster => ?_⟩, settled.found,
    clock.sync⟩
  obtain ⟨te, osc, khz512⟩ := clock.master i port here isMaster
  rw [Port.eligible, te, osc, khz512, settled.connected i port here isMaster]
  rfl

/-- A TE module on a card with a new CPLD. -/
def briPort : Port where
  kind := .bri
  te := true
  osc := false
  khz512 := true
  clockCtrl := true
  refClk := 0
  shark := false
  ecClockCtrl := false
  ecEnableMap := false
  freeRunIsr := false
  sc := false
  globalTdmIrq := false
  tdmvMtu := 8
  down := false
  connected := false
  masterClock := false
  refOsc := false
  wdtTdmTiming := false
  recovers := false
  setClock := false
  wdt := 0

theorem bri_clock_handover :
    let card := run noPorts [.up ⟨0, by decide⟩ briPort, .up ⟨3, by decide⟩ briPort,
      .connect ⟨3, by decide⟩, .connect ⟨0, by decide⟩, .disableComm ⟨3, by decide⟩]
    (∀ i j port other, card.ports i = some port → card.ports j = some other →
        port.masterClock = true → other.masterClock = true → i = j) ∧
      (∀ i port, card.ports i = some port → port.recovers = port.masterClock ∧
        (port.masterClock = true → port.eligible = true)) ∧
      ((∃ i port, card.ports i = some port ∧ port.eligible = true) →
        ∃ i port, card.ports i = some port ∧ port.masterClock = true) ∧
      (card.lineSync = true ↔ ∃ i port, card.ports i = some port ∧ port.masterClock = true) := by
  apply bri_clock
  intro op member
  simp only [List.mem_cons, List.not_mem_nil, or_false] at member
  rcases member with rfl | rfl | rfl | rfl | rfl
  · exact ⟨rfl, rfl⟩
  · exact ⟨rfl, rfl⟩
  · trivial
  · trivial
  · trivial

end Wanpipe.Aft.Clock
