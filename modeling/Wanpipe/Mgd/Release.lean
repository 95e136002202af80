import Wanpipe.Mgd.BoostFrame

/-! The releases of boost and their answers: a release is left to a session or answered at once. -/

namespace Wanpipe.Mgd

open Line

/-- A CALL_STOPPED for a circuit, or a CALL_START_NACK for a circuit or for a setup id. -/
inductive Release
  | stopped (span chan : Int)
  | nackOn (span chan : Int)
  | nackOf (id : Nat)
  deriving DecidableEq, Repr

def Release.isStop : Release → Bool
  | .stopped _ _ => true
  | _ => false

def nackRelease (id : Nat) (span chan : Int) : Release :=
  if id = 0 then .nackOn span chan else .nackOf id

def Event.release (event : Event) : Option Release :=
  match event.id with
  | .callStopped => some (.stopped event.span.toNat event.chan.toNat)
  | .callStartNack =>
      some (nackRelease event.callSetupId.toNat event.span.toNat event.chan.toNat)
  | _ => none

/-- The release that a CALL_STOPPED_ACK or a CALL_START_NACK_ACK answers. -/
def Msg.answers (msg : Msg) : Option Release :=
  match msg.id with
  | .callStoppedAck => some (.stopped msg.span msg.chan)
  | .callStartNackAck => some (nackRelease msg.callSetupId msg.span msg.chan)
  | _ => none

/-- The releases that were answered. -/
def answered (server : Server) : List Release := server.sent.filterMap Msg.answers

/-- A CALL_STOPPED or a CALL_START_NACK. -/
def Msg.releases (msg : Msg) : Bool := msg.id == .callStopped || msg.id == .callStartNack

/-- The message that `isup_exec_command` does not refuse. -/
def reaches (config : Config) (msg : Msg) : Bool :=
  decide (msg.span ≤ config.maxSpans ∧ msg.chan ≤ config.maxChans)

/-- The session that a release is left to. -/
def handed (config : Config) (server : Server) (event : Event) : Option Ptr :=
  match event.id with
  | .callStopped => releasable server event
  | .callStartNack =>
      match nackSession config server event with
      | some (some ptr, false, _) => some ptr
      | _ => none
  | _ => none

/-- The answer that the daemon sends itself. -/
def ownAnswer (config : Config) (event : Event) : Option Msg :=
  match event.id with
  | .callStopped => some ⟨.callStoppedAck, event.span.toNat, event.chan.toNat, 0, 0⟩
  | .callStartNack =>
      if event.valid config then
        some ⟨.callStartNackAck, event.span.toNat, event.chan.toNat, event.callSetupId.toNat, 0⟩
      else some ⟨.callStartNackAck, 0, 0, event.callSetupId.toNat, 0⟩
  | _ => none

variable {config : Config} {server next : Server} {event : Event} {out : Outcomes} {ptr : Ptr}

theorem answered_of_sent (same : next.sent = server.sent) : answered next = answered server := by
  rw [answered, answered, same]

/-- What `isup_exec_command` sends where the system is not reset. -/
theorem isupExecCommand_sent {span chan : Int} {id : Nat} {cmd : EventId} {cause : Nat}
    (up : server.systemReset = false) :
    (isupExecCommand config server span chan id cmd cause).sent =
      server.sent ++
        if reaches config ⟨cmd, span, chan, id, cause⟩ then [⟨cmd, span, chan, id, cause⟩]
        else [] := by
  rw [isupExecCommand]
  by_cases refused : config.maxSpans < span ∨ config.maxChans < chan
  · have lost : reaches config ⟨cmd, span, chan, id, cause⟩ = false := by
      simp only [reaches, decide_eq_false_iff_not]
      omega
    rw [if_pos refused, lost]
    simp
  · have goes : reaches config ⟨cmd, span, chan, id, cause⟩ = true := by
      simp only [reaches, decide_eq_true_eq]
      omega
    rw [if_neg refused, goes]
    simp [up]

/-- A message that answers no release. -/
theorem answered_other {span chan : Int} {id : Nat} {cmd : EventId} {cause : Nat}
    (other : Msg.answers ⟨cmd, span, chan, id, cause⟩ = none) :
    answered (isupExecCommand config server span chan id cmd cause) = answered server := by
  rcases isupExecCommand_cases config server span chan id cmd cause with same | sent
  · rw [same]
  · rw [sent]
    simp [answered, other]

theorem handleCallStart_answered (handled : handleCallStart config server event out = some next) :
    answered next = answered server := by
  rw [handleCallStart] at handled
  split at handled
  · obtain ⟨-, handled⟩ := atSlot_eq_some.mp handled
    split at handled
    · cases handled
      rw [answer, answered_other rfl]
      rfl
    · have acked : answered
          (if config.autoacm then
            answer config (server.onSlot event.circuit (startSlot event out.rand out.clients))
              event .callStartAck 0
          else server.onSlot event.circuit (startSlot event out.rand out.clients)) =
            answered server := by
        split
        · rw [answer, answered_other rfl]
          rfl
        · rfl
      simp only at handled
      split at handled
      · cases handled
        rw [answer, answered_other]
        · exact acked
        · split <;> rfl
      · cases handled
        exact acked
  · cases handled
    rfl

theorem pullFromHoldingTank_sent (server : Server) (index : Nat) (span chan : Int) :
    (pullFromHoldingTank server index span chan).2.sent = server.sent := by
  rw [pullFromHoldingTank]
  split <;> rfl

theorem clearFromHoldingTank_sent (server : Server) (index : Nat) (ptr : Option Ptr) :
    (clearFromHoldingTank server index ptr).sent = server.sent := by
  rw [clearFromHoldingTank]
  split
  · split
    · rfl
    · split <;> rfl
    · rfl
  · rfl

theorem handleCallStartAck_answered
    (handled : handleCallStartAck config server event out = some next) :
    answered next = answered server := by
  rw [handleCallStartAck] at handled
  split at handled
  · cases handled
    rw [answer, answered_other rfl]
  · split at handled
    · cases handled
      rfl
    · obtain ⟨-, handled⟩ := atSlot_eq_some.mp handled
      have pulled := pullFromHoldingTank_sent server event.callSetupId.toNat event.span.toNat
        event.chan.toNat
      split at handled
      · cases handled
        exact answered_of_sent pulled
      · cases handled
        exact answered_of_sent pulled

theorem handleCallAnswer_answered (handled : handleCallAnswer config server event = some next) :
    answered next = answered server := by
  rw [handleCallAnswer] at handled
  split at handled
  · obtain ⟨-, handled⟩ := atSlot_eq_some.mp handled
    split at handled
    · cases handled
      rfl
    · simp only at handled
      split at handled
      · cases handled
        rfl
      · split at handled
        · cases handled
          rfl
        · split at handled
          · cases handled
            rfl
          · cases handled
            rfl
  · cases handled
    rfl

theorem handleCallStartNackAck_answered
    (handled : handleCallStartNackAck config server event = some next) :
    answered next = answered server := by
  rw [handleCallStartNackAck] at handled
  have pulled := pullFromHoldingTank_sent server event.callSetupId.toNat (-1) (-1)
  simp only at handled
  split at handled
  · next found =>
      rw [found] at pulled
      cases handled
      apply answered_of_sent
      rw [clearFromHoldingTank_sent, onWoomera_sent, pulled]
  · split at handled
    · obtain ⟨-, handled⟩ := atSlot_eq_some.mp handled
      split at handled
      · cases handled
        rfl
      · cases handled
        rfl
    · cases handled
      exact answered_of_sent (clearFromHoldingTank_sent _ _ _)

theorem handleCallStopAck_answered (handled : handleCallStopAck config server event = some next) :
    answered next = answered server := by
  rw [handleCallStopAck] at handled
  simp only at handled
  split at handled
  · obtain ⟨-, handled⟩ := atSlot_eq_some.mp handled
    cases handled
    apply answered_of_sent
    rw [clearFromHoldingTank_sent]
    split
    · rfl
    · rfl
  · cases handled
    rfl

theorem handleCallLoopStart_answered
    (handled : handleCallLoopStart config server event out = some next) :
    answered next = answered server := by
  rw [handleCallLoopStart] at handled
  obtain ⟨-, handled⟩ := atSlot_eq_some.mp handled
  split at handled
  · cases handled
    rw [answer, answered_other rfl]
  · split at handled
    · cases handled
    · split at handled
      · cases handled
        rfl
      · cases handled

theorem handleRemoveLoop_answered (handled : handleRemoveLoop server event = some next) :
    answered next = answered server := by
  rw [handleRemoveLoop] at handled
  obtain ⟨-, handled⟩ := atSlot_eq_some.mp handled
  simp only at handled
  split at handled
  · cases handled
    rfl
  · cases handled
    rfl

theorem handleIncomingDigit_answered
    (handled : handleIncomingDigit config server event = some next) :
    answered next = answered server := by
  rw [handleIncomingDigit] at handled
  split at handled
  · obtain ⟨-, handled⟩ := atSlot_eq_some.mp handled
    obtain ⟨slot, -, handled⟩ := Option.bind_eq_some_iff.mp handled
    simp only at handled
    split at handled
    · cases handled
      rfl
    · split at handled
      · obtain ⟨-, -, sent, -, -⟩ := woomeraCheckDigits_keeps handled
        exact answered_of_sent sent
      · cases handled
        rfl
  · cases handled
    rfl

/-- An event that is no release is not answered. -/
theorem parseSs7Event_answered (parsed : parseSs7Event config server event out = some next)
    (none : event.release = none) : answered next = answered server := by
  rw [parseSs7Event] at parsed
  cases id : event.id with
  | callStart =>
      rw [id] at parsed
      exact handleCallStart_answered parsed
  | callStopped => simp [Event.release, id] at none
  | callStartAck =>
      rw [id] at parsed
      exact handleCallStartAck_answered parsed
  | callStartNack => simp [Event.release, id] at none
  | callAnswered =>
      rw [id] at parsed
      exact handleCallAnswer_answered parsed
  | callStartNackAck =>
      rw [id] at parsed
      exact handleCallStartNackAck_answered parsed
  | callStoppedAck =>
      rw [id] at parsed
      exact handleCallStopAck_answered parsed
  | insertCheckLoop =>
      rw [id] at parsed
      exact handleCallLoopStart_answered parsed
  | removeCheckLoop =>
      rw [id] at parsed
      exact handleRemoveLoop_answered parsed
  | digitIn =>
      rw [id] at parsed
      exact handleIncomingDigit_answered parsed
  | systemRestart =>
      rw [id, Option.some.injEq, handleRestart] at parsed
      split at parsed
      · rw [← parsed]
      · rw [← parsed]
        rfl
  | systemRestartAck =>
      rw [id, Option.some.injEq] at parsed
      rw [← parsed]
      rfl
  | autoCallGapAbate =>
      rw [id] at parsed
      simp only [handleGapAbate, atTrunkGroup] at parsed
      split at parsed
      · cases parsed
        rfl
      · cases parsed
  | heartbeat =>
      rw [id, Option.some.injEq] at parsed
      rw [← parsed]
  | callProgress =>
      rw [id, Option.some.injEq] at parsed
      rw [← parsed]
  | unknown value =>
      rw [id, Option.some.injEq] at parsed
      rw [← parsed]

/-- `WFLAG_HANGUP_ACK` or `WFLAG_HANGUP_NACK_ACK`. -/
def Woomera.pending (stop : Bool) (woomera : Woomera) : Bool :=
  if stop then woomera.hangupAck else woomera.hangupNackAck

/-- A session that a release was left to. -/
structure Handed (stop : Bool) (woomera : Woomera) : Prop where
  hangup : woomera.hangup = true
  pending : woomera.pending stop = true

theorem nackSession_release {found : Option Ptr} {ack : Bool} {told : Server}
    (session : nackSession config server event = some (found, ack, told)) :
    told.sent = server.sent ∧ told.systemReset = server.systemReset ∧
      (ack = true ∨ ack = false ∧ ∃ ptr, found = some ptr ∧ Handed false (told.woomera ptr)) := by
  rw [nackSession] at session
  split at session
  · next ptr _ =>
      split at session
      · cases session
        exact ⟨rfl, rfl, Or.inl rfl⟩
      · cases session
        refine ⟨rfl, rfl, Or.inr ⟨rfl, ptr, rfl, ?_⟩⟩
        rw [onWoomera_woomera, Function.update_self]
        exact ⟨rfl, rfl⟩
  · split at session
    · split at session
      · split at session
        · next ptr _ =>
            cases session
            refine ⟨rfl, rfl, Or.inr ⟨rfl, ptr, rfl, ?_⟩⟩
            rw [onWoomera_woomera, Function.update_self]
            exact ⟨rfl, rfl⟩
        · cases session
          exact ⟨rfl, rfl, Or.inl rfl⟩
      · cases session
    · cases session
      exact ⟨rfl, rfl, Or.inl rfl⟩

/-- A release is left to a session, or the daemon sends its answer. -/
theorem parseSs7Event_release {release : Release} (up : server.systemReset = false)
    (parsed : parseSs7Event config server event out = some next)
    (came : event.release = some release) :
    (∃ ptr, handed config server event = some ptr ∧ answered next = answered server ∧
        Handed release.isStop (next.woomera ptr)) ∨
      handed config server event = none ∧ ∃ msg, ownAnswer config event = some msg ∧
        next.sent = server.sent ++ if reaches config msg then [msg] else [] := by
  rw [parseSs7Event] at parsed
  cases id : event.id with
  | callStopped =>
      simp only [Event.release, id, Option.some.injEq] at came
      rw [id] at parsed
      simp only [handed, ownAnswer, id, ← came, Release.isStop]
      rw [handleCallStop] at parsed
      obtain ⟨-, parsed⟩ := atSlot_eq_some.mp parsed
      cases found : releasable server event with
      | some ptr =>
          rw [found] at parsed
          cases parsed
          left
          refine ⟨ptr, rfl, rfl, ?_⟩
          rw [onWoomera_woomera, Function.update_self]
          exact ⟨rfl, rfl⟩
      | none =>
          rw [found] at parsed
          cases parsed
          exact Or.inr ⟨rfl, _, rfl, isupExecCommand_sent up⟩
  | callStartNack =>
      have kind : release.isStop = false := by
        simp only [Event.release, id, Option.some.injEq, nackRelease] at came
        rw [← came]
        split <;> rfl
      rw [id] at parsed
      simp only [handed, ownAnswer, id, kind]
      obtain ⟨found, ack, told, session, answered'⟩ := handleCallStartNack_cases parsed
      obtain ⟨sent, reset, left⟩ := nackSession_release session
      rw [answered', nackAnswer, session]
      rcases left with ack' | ⟨ack', ptr, found', told'⟩
      · right
        rw [ack', if_pos rfl]
        refine ⟨by cases found <;> rfl, ?_⟩
        have told'' : told.systemReset = false := reset.trans up
        split
        · exact ⟨_, rfl, by rw [isupExecCommand_sent told'', sent]⟩
        · exact ⟨_, rfl, by rw [isupExecCommand_sent told'', sent]⟩
      · left
        rw [ack', found']
        exact ⟨ptr, rfl, answered_of_sent sent, told'⟩
  | _ => simp [Event.release, id] at came

end Wanpipe.Mgd
