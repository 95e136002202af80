import Wanpipe.Mgd.Boost

/-! Which events the daemon survives. -/

namespace Wanpipe.Mgd

open Line

/-- A circuit that is validated is in the process table, or `span` is its length. -/
def SpanFits (config : Config) (event : Event) : Prop :=
  event.valid config = true → event.span.toNat < coreMaxSpans

/-- A session that a CALL_START_NACK is about. -/
def Nacks (config : Config) (server : Server) (event : Event) (ptr : Ptr) : Prop :=
  peekFromHoldingTank server event.callSetupId.toNat = some ptr ∨
    (event.callSetupId.toNat = 0 ∧ event.valid config = true ∧ releasable server event = some ptr)

/-- The event makes no handler follow NULL or reach past an array. -/
def Survives (config : Config) (server : Server) (event : Event) (out : Outcomes) : Prop :=
  match event.id with
  | .callStart | .callAnswered | .callStoppedAck => SpanFits config event
  | .callStopped | .removeCheckLoop => InTable event.circuit
  | .callStartAck =>
      ∀ ptr, peekFromHoldingTank server event.callSetupId.toNat = some ptr →
        (server.woomera ptr).hangup = false → InTable event.circuit
  | .callStartNack =>
      (event.callSetupId.toNat = 0 → SpanFits config event) ∧
        (event.releaseCause.toNat = allCktsBusy →
          ∃ ptr, Nacks config server event ptr ∧ (server.woomera ptr).trunkGroup ≤ smgMaxTg)
  | .callStartNackAck => event.callSetupId.toNat = 0 → SpanFits config event
  | .insertCheckLoop =>
      InTable event.circuit ∧
        ((server.processTable event.circuit).dev = none →
          out.alloc.isSome = true ∧ out.thread = true)
  | .autoCallGapAbate => (event.trunkGroup + 1#32).toNat ≤ smgMaxTg
  | .digitIn =>
      event.valid config = true → event.span.toNat < coreMaxSpans ∧
        (server.processTable event.circuit).digitsLen.val + event.digitsCount.toNat ≤
          maxDialedDigits + 1
  | _ => True

variable {config : Config} {server : Server} {event : Event} {out : Outcomes}

theorem valid_chan (valid : event.valid config = true) :
    event.chan.toNat < coreMaxChanPerSpan + 1 := by
  simp only [Event.valid, smgValidateSpanChan, decide_eq_true_eq] at valid
  have chan : (event.chan.toNat : Int) ≤ (31 : Nat) := valid.2.2.2
  have bound : coreMaxChanPerSpan + 1 = 33 := rfl
  omega

theorem spanFits_iff : SpanFits config event ↔ (event.valid config = true → InTable event.circuit) := by
  constructor
  · intro fits valid
    exact ⟨fits valid, valid_chan valid⟩
  · intro inside valid
    exact (inside valid).1

theorem atSlot_isSome {circuit : Circuit} {next : Option Server} :
    (atSlot circuit next).isSome = true ↔ InTable circuit ∧ next.isSome = true := by
  rw [atSlot]
  by_cases inside : InTable circuit <;> simp [inside]

theorem handleCallStart_isSome :
    (handleCallStart config server event out).isSome = true ↔ SpanFits config event := by
  rw [spanFits_iff, handleCallStart]
  by_cases valid : event.valid config = true
  · rw [if_pos valid, atSlot_isSome]
    constructor
    · rintro ⟨inside, -⟩ -
      exact inside
    · intro inside
      refine ⟨inside valid, ?_⟩
      split
      · rfl
      · simp only
        split <;> rfl
  · simp [valid]

theorem handleCallStop_isSome :
    (handleCallStop config server event).isSome = true ↔ InTable event.circuit := by
  rw [handleCallStop, atSlot_isSome]
  refine and_iff_left ?_
  simp only
  split <;> rfl

theorem handleCallStartAck_isSome :
    (handleCallStartAck config server event out).isSome = true ↔
      ∀ ptr, peekFromHoldingTank server event.callSetupId.toNat = some ptr →
        (server.woomera ptr).hangup = false → InTable event.circuit := by
  rw [handleCallStartAck]
  cases found : peekFromHoldingTank server event.callSetupId.toNat with
  | none => simp
  | some ptr =>
      simp only
      by_cases dead : (server.woomera ptr).hangup = true
      · simp [dead]
      · rw [if_neg dead, atSlot_isSome]
        have alive : (server.woomera ptr).hangup = false := Bool.eq_false_iff.mpr dead
        constructor
        · rintro ⟨inside, -⟩ other same running
          exact inside
        · intro inside
          refine ⟨inside ptr rfl alive, ?_⟩
          split <;> rfl

theorem peek_zero (server : Server) : peekFromHoldingTank server 0 = none := rfl

/-- How a CALL_START_NACK finds its session. -/
theorem nackSession_cases (config : Config) (server : Server) (event : Event) :
    (nackSession config server event = none ∧ event.callSetupId.toNat = 0 ∧
        ¬ SpanFits config event) ∨
      ∃ found ack told, nackSession config server event = some (found, ack, told) ∧
        (event.callSetupId.toNat = 0 → SpanFits config event) ∧
        ∀ ptr, found = some ptr ↔ Nacks config server event ptr := by
  by_cases zero : event.callSetupId.toNat = 0
  · simp only [nackSession, Nacks, zero, peek_zero, Nat.lt_irrefl, if_false, true_and,
      true_imp_iff, reduceCtorEq, false_or]
    by_cases valid : event.valid config = true
    · by_cases inside : InTable event.circuit
      · right
        simp only [valid, inside, if_true, true_and]
        cases releasable server event with
        | none => exact ⟨none, _, _, rfl, fun _ => inside.1, by simp⟩
        | some ptr => exact ⟨some ptr, _, _, rfl, fun _ => inside.1, by simp⟩
      · left
        simp only [valid, inside, if_true, if_false]
        exact ⟨trivial, fun fits => inside (spanFits_iff.mp fits valid)⟩
    · right
      simp only [valid, Bool.false_eq_true, if_false, false_and]
      exact ⟨none, _, _, rfl, fun good => absurd good valid, by simp⟩
  · have id : 0 < event.callSetupId.toNat := Nat.pos_of_ne_zero zero
    simp only [nackSession, Nacks, zero, if_pos id, false_and, or_false, false_imp_iff, true_and]
    right
    cases found : peekFromHoldingTank server event.callSetupId.toNat with
    | none => exact ⟨none, _, _, rfl, by simp⟩
    | some ptr =>
        simp only
        split
        · exact ⟨some ptr, _, _, rfl, by simp⟩
        · exact ⟨some ptr, _, _, rfl, by simp⟩

theorem handleCallStartNack_isSome :
    (handleCallStartNack config server event).isSome = true ↔
      (event.callSetupId.toNat = 0 → SpanFits config event) ∧
        (event.releaseCause.toNat = allCktsBusy →
          ∃ ptr, Nacks config server event ptr ∧ (server.woomera ptr).trunkGroup ≤ smgMaxTg) := by
  rw [handleCallStartNack]
  rcases nackSession_cases config server event with
    ⟨none, zero, outside⟩ | ⟨found, ack, told, session, fits, nacks⟩
  · rw [none]
    constructor
    · intro result
      cases result
    · rintro ⟨inside, -⟩
      exact absurd (inside zero) outside
  · simp only [session]
    by_cases busy : event.releaseCause.toNat = allCktsBusy
    · simp only [busy, if_true, true_imp_iff]
      cases found with
      | none =>
          constructor
          · intro result
            cases result
          · rintro ⟨-, ptr, meant, -⟩
            cases (nacks ptr).mpr meant
      | some ptr =>
          simp only [atTrunkGroup]
          split
          · next tg => exact iff_of_true rfl ⟨fits, ptr, (nacks ptr).mp rfl, tg⟩
          · next tg =>
              constructor
              · intro result
                cases result
              · rintro ⟨-, other, meant, small⟩
                have same := (nacks other).mpr meant
                rw [Option.some.injEq] at same
                rw [same] at tg
                exact absurd small tg
    · simp only [if_neg busy]
      exact iff_of_true rfl ⟨fits, fun same => absurd same busy⟩

theorem handleCallAnswer_isSome :
    (handleCallAnswer config server event).isSome = true ↔ SpanFits config event := by
  rw [spanFits_iff, handleCallAnswer]
  by_cases valid : event.valid config = true
  · rw [if_pos valid, atSlot_isSome]
    constructor
    · rintro ⟨inside, -⟩ -
      exact inside
    · intro inside
      refine ⟨inside valid, ?_⟩
      split
      · rfl
      · simp only
        split
        · rfl
        · split
          · rfl
          · split <;> rfl
  · simp [valid]

theorem handleCallStartNackAck_isSome :
    (handleCallStartNackAck config server event).isSome = true ↔
      (event.callSetupId.toNat = 0 → SpanFits config event) := by
  by_cases zero : event.callSetupId.toNat = 0
  · have none : pullFromHoldingTank server 0 (-1) (-1) = (Option.none, server) := rfl
    simp only [handleCallStartNackAck, zero, none, true_imp_iff, spanFits_iff]
    by_cases valid : event.valid config = true
    · simp only [valid, and_self, if_true, atSlot_isSome, true_imp_iff]
      refine and_iff_left ?_
      split <;> rfl
    · simp [valid]
  · simp only [handleCallStartNackAck, zero, false_and, if_false, false_imp_iff, iff_true]
    split <;> rfl

theorem handleCallStopAck_isSome :
    (handleCallStopAck config server event).isSome = true ↔ SpanFits config event := by
  rw [spanFits_iff, handleCallStopAck]
  by_cases valid : event.valid config = true
  · simp [valid, atSlot_isSome]
  · simp [valid]

theorem handleCallLoopStart_isSome :
    (handleCallLoopStart config server event out).isSome = true ↔
      InTable event.circuit ∧
        ((server.processTable event.circuit).dev = none →
          out.alloc.isSome = true ∧ out.thread = true) := by
  rw [handleCallLoopStart, atSlot_isSome]
  cases (server.processTable event.circuit).dev with
  | some busy => simp
  | none =>
      cases out.alloc with
      | none => simp
      | some ptr => by_cases thread : out.thread = true <;> simp [thread]

theorem handleRemoveLoop_isSome :
    (handleRemoveLoop server event).isSome = true ↔ InTable event.circuit := by
  rw [handleRemoveLoop, atSlot_isSome]
  refine and_iff_left ?_
  simp only
  split <;> rfl

theorem handleGapAbate_isSome :
    (handleGapAbate server event).isSome = true ↔ (event.trunkGroup + 1#32).toNat ≤ smgMaxTg := by
  rw [handleGapAbate, atTrunkGroup]
  split
  · next inside => exact iff_of_true rfl inside
  · next outside => exact iff_of_false (by simp) outside

/-- A name that is validated says a circuit of the process table. -/
theorem woomeraCheckDigits_isSome (bounded : config.maxSpans ≤ coreMaxSpans) (ptr : Ptr) :
    (woomeraCheckDigits config server ptr).isSome = true := by
  rw [woomeraCheckDigits]
  split
  · rfl
  · next span chan _ =>
      split
      · next valid =>
          rw [atSlot_isSome]
          simp only [smgValidateSpanChan, decide_eq_true_eq] at valid
          have chans : ((chan + 1 : Nat) : Int) ≤ (31 : Nat) := valid.2.2.2
          have width : coreMaxChanPerSpan + 1 = 33 := rfl
          have spans := valid.2.1
          exact ⟨⟨by simp only; omega, by simp only; omega⟩, rfl⟩
      · rfl

theorem handleIncomingDigit_isSome (bounded : config.maxSpans ≤ coreMaxSpans) :
    (handleIncomingDigit config server event).isSome = true ↔
      (event.valid config = true → event.span.toNat < coreMaxSpans ∧
        (server.processTable event.circuit).digitsLen.val + event.digitsCount.toNat ≤
          maxDialedDigits + 1) := by
  rw [handleIncomingDigit]
  by_cases valid : event.valid config = true
  · have inside : event.span.toNat < coreMaxSpans ↔ InTable event.circuit :=
      ⟨fun span => ⟨span, valid_chan valid⟩, And.left⟩
    simp only [valid, if_true, true_imp_iff, atSlot_isSome, inside, addDigits]
    refine and_congr_right fun _ => ?_
    split
    · next fits =>
        refine iff_of_true ?_ (Nat.le_of_lt_succ fits)
        rw [Option.bind_some]
        simp only
        split
        · rfl
        · split
          · exact woomeraCheckDigits_isSome bounded _
          · rfl
    · next full =>
        refine iff_of_false (by simp) ?_
        omega
  · simp [valid]

/-- The daemon survives an event exactly in the states and for the outcomes of `Survives`. -/
theorem parse_ss7_event_survives (config : Config) (bounded : config.maxSpans ≤ coreMaxSpans)
    (server : Server) (event : Event) (out : Outcomes) :
    (parseSs7Event config server event out).isSome = true ↔ Survives config server event out := by
  rw [parseSs7Event, Survives]
  cases event.id with
  | callStart => exact handleCallStart_isSome
  | callStopped => exact handleCallStop_isSome
  | callStartAck => exact handleCallStartAck_isSome
  | callStartNack => exact handleCallStartNack_isSome
  | callAnswered => exact handleCallAnswer_isSome
  | callStartNackAck => exact handleCallStartNackAck_isSome
  | callStoppedAck => exact handleCallStopAck_isSome
  | insertCheckLoop => exact handleCallLoopStart_isSome
  | removeCheckLoop => exact handleRemoveLoop_isSome
  | autoCallGapAbate => exact handleGapAbate_isSome
  | digitIn => exact handleIncomingDigit_isSome bounded
  | heartbeat => exact iff_of_true rfl trivial
  | systemRestart => exact iff_of_true rfl trivial
  | systemRestartAck => exact iff_of_true rfl trivial
  | callProgress => exact iff_of_true rfl trivial
  | unknown value => exact iff_of_true rfl trivial

def t1Config : Config := { maxSpans := 32, maxChans := 31, autoacm := false }

/-- The daemon after it has started. -/
def idleServer : Server :=
  { processTable := fun _ =>
      { dev := none, session := none, digitsLen := noDigits, clients := 0 }
    holdingTank := fun _ => .free
    holdingTankIndex := ⟨0, coreTankLen_pos⟩
    woomera := fun _ => allocWoomera
    systemReset := false, systemNeedResetAck := false, systemNeedInResetAck := false, sent := [] }

def noOutcomes : Outcomes :=
  { alloc := none, thread := false, media := false, clients := 0, rand := [] }

/-- All circuits are busy for a call that boost does not know. -/
def busyNack : Event :=
  { id := .callStartNack, span := 0#8, chan := 0#8, callSetupId := 0#16, trunkGroup := 0#32
    releaseCause := 117#8, digitsCount := 0#8 }

theorem parse_ss7_event_survives_idle :
    (parseSs7Event t1Config idleServer busyNack noOutcomes).isSome = true ↔
      Survives t1Config idleServer busyNack noOutcomes :=
  parse_ss7_event_survives t1Config (by decide) idleServer busyNack noOutcomes

theorem parse_ss7_event_crashes :
    ¬ ∀ (config : Config) (server : Server) (event : Event) (out : Outcomes),
      0 < config.maxSpans → config.maxSpans ≤ coreMaxSpans →
      (parseSs7Event config server event out).isSome = true := by
  intro always
  have survived := always t1Config idleServer busyNack noOutcomes (by decide) (by decide)
  cases survived

end Wanpipe.Mgd
