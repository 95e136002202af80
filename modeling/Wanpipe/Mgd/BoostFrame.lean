import Wanpipe.Mgd.Boost

/-! What the events from boost leave alone. -/

namespace Wanpipe.Mgd

open Line

/-- What only its own thread and its own client change of a session, and the flags that nobody takes
back before its end. -/
structure Spared (before after : Woomera) : Prop where
  pc : after.pc = before.pc
  indexHold : after.indexHold = before.indexHold
  localSpan : after.localSpan = before.localSpan
  localChan : after.localChan = before.localChan
  localIndex : after.localIndex = before.localIndex
  loopTdm : after.loopTdm = before.loopTdm
  nackSent : after.waitForNackAckSent = before.waitForNackAckSent
  stoppedSent : after.waitForStoppedAckSent = before.waitForStoppedAckSent
  hangup : before.hangup = true → after.hangup = true
  mediaEnd : before.mediaEnd = true → after.mediaEnd = true
  hangupAck : before.hangupAck = true → after.hangupAck = true
  hangupNackAck : before.hangupNackAck = true → after.hangupNackAck = true

theorem Spared.refl (woomera : Woomera) : Spared woomera woomera := by
  constructor <;> simp

theorem Spared.trans {first second third : Woomera} (left : Spared first second)
    (right : Spared second third) : Spared first third where
  pc := right.pc.trans left.pc
  indexHold := right.indexHold.trans left.indexHold
  localSpan := right.localSpan.trans left.localSpan
  localChan := right.localChan.trans left.localChan
  localIndex := right.localIndex.trans left.localIndex
  loopTdm := right.loopTdm.trans left.loopTdm
  nackSent := right.nackSent.trans left.nackSent
  stoppedSent := right.stoppedSent.trans left.stoppedSent
  hangup := right.hangup ∘ left.hangup
  mediaEnd := right.mediaEnd ∘ left.mediaEnd
  hangupAck := right.hangupAck ∘ left.hangupAck
  hangupNackAck := right.hangupNackAck ∘ left.hangupNackAck

/-- All sessions are spared when the one that changes is. -/
theorem onWoomera_spared {server : Server} {ptr : Ptr} {change : Woomera → Woomera}
    (spares : ∀ woomera, Spared woomera (change woomera)) (other : Ptr) :
    Spared (server.woomera other) ((server.onWoomera ptr change).woomera other) := by
  rw [onWoomera_woomera]
  by_cases same : other = ptr
  · rw [same, Function.update_self]
    exact spares _
  · rw [Function.update_of_ne same]
    exact Spared.refl _

/-- What an event leaves alone: the sessions as far as they are spared, the indices of the tank but
its own and the sessions of the circuits but its own. -/
structure Told (event : Event) (server next : Server) : Prop where
  spared : ∀ ptr, Spared (server.woomera ptr) (next.woomera ptr)
  tank : ∀ index, index ≠ event.callSetupId.toNat →
    next.holdingTank index = server.holdingTank index
  dev : ∀ circuit, circuit ≠ event.circuit →
    (next.processTable circuit).dev = (server.processTable circuit).dev

section Told

variable {config : Config} {server next : Server} {event : Event} {out : Outcomes}

theorem Told.refl : Told event server server where
  spared _ := Spared.refl _
  tank _ _ := rfl
  dev _ _ := rfl

theorem Told.onWoomera {ptr : Ptr} {change : Woomera → Woomera} (told : Told event server next)
    (spares : ∀ woomera, Spared woomera (change woomera)) :
    Told event server (next.onWoomera ptr change) where
  spared other := by
    rw [onWoomera_woomera]
    by_cases same : other = ptr
    · rw [same, Function.update_self]
      exact (told.spared ptr).trans (spares _)
    · rw [Function.update_of_ne same]
      exact told.spared other
  tank := told.tank
  dev := told.dev

theorem Told.setWoomera {ptr : Ptr} {woomera : Woomera} (told : Told event server next)
    (spares : Spared (next.woomera ptr) woomera) :
    Told event server (next.setWoomera ptr woomera) where
  spared other := by
    rw [setWoomera_woomera]
    by_cases same : other = ptr
    · rw [same, Function.update_self]
      exact (told.spared ptr).trans spares
    · rw [Function.update_of_ne same]
      exact told.spared other
  tank := told.tank
  dev := told.dev

theorem Told.setSlot {slot : Slot} (told : Told event server next) :
    Told event server (next.setSlot event.circuit slot) where
  spared := told.spared
  tank := told.tank
  dev circuit apart := by
    rw [setSlot_processTable, Function.update_of_ne apart]
    exact told.dev circuit apart

theorem Told.onSlot {change : Slot → Slot} (told : Told event server next) :
    Told event server (next.onSlot event.circuit change) := told.setSlot

theorem Told.setTank {tank : Tank} (told : Told event server next) :
    Told event server (next.setTank event.callSetupId.toNat tank) where
  spared := told.spared
  tank index apart := by
    rw [setTank_holdingTank, Function.update_of_ne apart]
    exact told.tank index apart
  dev := told.dev

theorem Told.send {span chan : Int} {id : Nat} {cmd : EventId} {cause : Nat}
    (told : Told event server next) :
    Told event server (isupExecCommand config next span chan id cmd cause) where
  spared ptr := by
    rw [isupExecCommand_woomera]
    exact told.spared ptr
  tank index apart := by
    rw [isupExecCommand_holdingTank]
    exact told.tank index apart
  dev circuit apart := by
    rw [isupExecCommand_processTable]
    exact told.dev circuit apart

theorem pulled_spared (span chan : Int) (woomera : Woomera) :
    Spared woomera { woomera with index := 0, span := span, chan := chan } := by
  constructor <;> simp

theorem Told.pull {span chan : Int} (told : Told event server next) :
    Told event server (pullFromHoldingTank next event.callSetupId.toNat span chan).2 := by
  rw [pullFromHoldingTank]
  split
  · exact told
  · exact told.setTank.onWoomera (pulled_spared span chan)

theorem Told.clear {ptr : Option Ptr} (told : Told event server next) :
    Told event server (clearFromHoldingTank next event.callSetupId.toNat ptr) := by
  rw [clearFromHoldingTank]
  split
  · split
    · exact told.setTank
    · split
      · exact told.setTank
      · exact told
    · exact told
  · exact told

theorem pullFromHoldingTank_table (server : Server) (index : Nat) (span chan : Int) :
    (pullFromHoldingTank server index span chan).2.processTable = server.processTable := by
  rw [pullFromHoldingTank]
  split <;> rfl

theorem clearFromHoldingTank_table (server : Server) (index : Nat) (ptr : Option Ptr) :
    (clearFromHoldingTank server index ptr).processTable = server.processTable := by
  rw [clearFromHoldingTank]
  split
  · split
    · rfl
    · split <;> rfl
    · rfl
  · rfl

theorem hangupBusy_spared (woomera : Woomera) : Spared woomera (hangupBusy woomera) := by
  constructor <;> simp [hangupBusy]

theorem endMedia_spared (woomera : Woomera) : Spared woomera (endMedia woomera) := by
  constructor <;> simp [endMedia]

theorem stopped_spared (cause : Nat) (woomera : Woomera) :
    Spared woomera (stopped cause woomera) := by
  constructor <;> simp [stopped, woomeraSetCauseTopbx]

theorem ackedWoomera_spared (event : Event) (rand : List Nat) (woomera : Woomera) :
    Spared woomera (ackedWoomera event rand woomera) := by
  constructor <;> simp [ackedWoomera]

theorem startMedia_spared (media : Bool) (woomera : Woomera) :
    Spared woomera (startMedia media woomera) := by
  cases media <;> constructor <;> simp [startMedia, endMedia]

theorem nackedById_spared (cause : Nat) (woomera : Woomera) :
    Spared woomera (nackedById cause woomera) := by
  constructor <;> simp [nackedById, woomeraSetCauseTopbx]

theorem nackedOnCircuit_spared (cause : Nat) (woomera : Woomera) :
    Spared woomera (nackedOnCircuit cause woomera) := by
  rw [nackedOnCircuit]
  by_cases dead : woomera.hangup = true
  · constructor <;> simp [dead]
  · constructor <;> simp [dead, woomeraSetCauseTopbx]

theorem clearNackWait_spared (woomera : Woomera) :
    Spared woomera { woomera with waitForNackAck := false } := by
  constructor <;> simp

theorem clearStoppedWait_spared (woomera : Woomera) :
    Spared woomera { woomera with waitForStoppedAck := false } := by
  constructor <;> simp

theorem atSlot_eq_some {circuit : Circuit} {result : Option Server} :
    atSlot circuit result = some next ↔ InTable circuit ∧ result = some next := by
  rw [atSlot]
  by_cases inside : InTable circuit <;> simp [inside]

theorem handleCallStart_told (handled : handleCallStart config server event out = some next) :
    Told event server next := by
  rw [handleCallStart] at handled
  split at handled
  · obtain ⟨-, handled⟩ := atSlot_eq_some.mp handled
    split at handled
    · cases handled
      exact (Told.refl.onWoomera hangupBusy_spared).send
    · simp only at handled
      split at handled
      · cases handled
        refine Told.send (Told.onSlot ?_)
        split
        · exact Told.refl.onSlot.send
        · exact Told.refl.onSlot
      · cases handled
        split
        · exact Told.refl.onSlot.send
        · exact Told.refl.onSlot
  · cases handled
    exact Told.refl

theorem handleCallStop_told (handled : handleCallStop config server event = some next) :
    Told event server next := by
  rw [handleCallStop] at handled
  obtain ⟨-, handled⟩ := atSlot_eq_some.mp handled
  simp only at handled
  split at handled
  · cases handled
    exact Told.refl.onSlot.onWoomera (stopped_spared _)
  · cases handled
    exact Told.refl.onSlot.send

theorem handleCallStartAck_told
    (handled : handleCallStartAck config server event out = some next) :
    Told event server next := by
  rw [handleCallStartAck] at handled
  split at handled
  · cases handled
    exact Told.refl.send
  · next ptr _ =>
      split at handled
      · cases handled
        exact Told.refl.onWoomera endMedia_spared
      · obtain ⟨-, handled⟩ := atSlot_eq_some.mp handled
        have pulled : Told event server
            (pullFromHoldingTank server event.callSetupId.toNat event.span.toNat
              event.chan.toNat).2 := Told.refl.pull
        have acked : Told event server
            ((pullFromHoldingTank server event.callSetupId.toNat event.span.toNat
              event.chan.toNat).2.onWoomera ptr (ackedWoomera event out.rand)) :=
          pulled.onWoomera (ackedWoomera_spared event out.rand)
        split at handled
        · cases handled
          exact (acked.onWoomera hangupBusy_spared).onSlot.onWoomera endMedia_spared
        · cases handled
          exact acked.onSlot.onWoomera (startMedia_spared _)

theorem nackSession_told {found : Option Ptr} {ack : Bool}
    (handled : nackSession config server event = some (found, ack, next)) :
    Told event server next := by
  rw [nackSession] at handled
  split at handled
  · split at handled
    · cases handled
      exact Told.refl
    · cases handled
      exact Told.refl.onWoomera (nackedById_spared _)
  · split at handled
    · split at handled
      · split at handled
        · cases handled
          exact Told.refl.onSlot.onWoomera (nackedOnCircuit_spared _)
        · cases handled
          exact Told.refl.onSlot
      · cases handled
    · cases handled
      exact Told.refl

/-- The answer to a CALL_START_NACK for which no session will send one. -/
def nackAnswer (config : Config) (told : Server) (event : Event) (ack : Bool) : Server :=
  if ack then
    if event.valid config then
      isupExecCommand config told event.span.toNat event.chan.toNat
        event.callSetupId.toNat .callStartNackAck 0
    else isupExecCommand config told 0 0 event.callSetupId.toNat .callStartNackAck 0
  else told

theorem handleCallStartNack_cases (handled : handleCallStartNack config server event = some next) :
    ∃ found ack told, nackSession config server event = some (found, ack, told) ∧
      next = nackAnswer config told event ack := by
  rw [handleCallStartNack] at handled
  cases session : nackSession config server event with
  | none =>
      rw [session] at handled
      cases handled
  | some result =>
      obtain ⟨found, ack, told⟩ := result
      refine ⟨found, ack, told, rfl, ?_⟩
      rw [session] at handled
      simp only at handled
      split at handled
      · cases found with
        | none => cases handled
        | some ptr =>
            simp only [atTrunkGroup] at handled
            split at handled
            · cases handled
              rfl
            · cases handled
      · cases handled
        rfl

theorem handleCallStartNack_told (handled : handleCallStartNack config server event = some next) :
    Told event server next := by
  obtain ⟨found, ack, told, session, answered⟩ := handleCallStartNack_cases handled
  have before := nackSession_told session
  rw [answered, nackAnswer]
  split
  · split
    · exact before.send
    · exact before.send
  · exact before

theorem handleCallAnswer_told (handled : handleCallAnswer config server event = some next) :
    Told event server next := by
  rw [handleCallAnswer] at handled
  split at handled
  · obtain ⟨-, handled⟩ := atSlot_eq_some.mp handled
    split at handled
    · cases handled
      exact Told.refl
    · simp only at handled
      split at handled
      · cases handled
        exact Told.refl.setWoomera (by constructor <;> simp [endMedia])
      · split at handled
        · cases handled
          exact Told.refl.setWoomera (by constructor <;> simp [endMedia])
        · split at handled
          · cases handled
            exact Told.refl.setWoomera (by constructor <;> simp [endMedia])
          · cases handled
            exact Told.refl.setWoomera (by constructor <;> simp)
  · cases handled
    exact Told.refl

theorem handleCallStartNackAck_told
    (handled : handleCallStartNackAck config server event = some next) :
    Told event server next := by
  rw [handleCallStartNackAck] at handled
  have pulled : Told event server
      (pullFromHoldingTank server event.callSetupId.toNat (-1) (-1)).2 := Told.refl.pull
  simp only at handled
  split at handled
  · next found =>
      rw [found] at pulled
      cases handled
      exact (pulled.onWoomera clearNackWait_spared).clear
  · split at handled
    · obtain ⟨-, handled⟩ := atSlot_eq_some.mp handled
      split at handled
      · cases handled
        exact Told.refl.onSlot.onWoomera clearNackWait_spared
      · cases handled
        exact Told.refl.onSlot
    · cases handled
      exact Told.refl.clear

theorem handleCallStopAck_told (handled : handleCallStopAck config server event = some next) :
    Told event server next := by
  rw [handleCallStopAck] at handled
  simp only at handled
  split at handled
  · obtain ⟨-, handled⟩ := atSlot_eq_some.mp handled
    cases handled
    split
    · exact (Told.refl.onSlot.onWoomera clearStoppedWait_spared).clear
    · exact Told.refl.onSlot.clear
  · cases handled
    exact Told.refl

theorem handleRestart_told : Told event server (handleRestart server) := by
  rw [handleRestart]
  split
  · exact Told.refl
  · exact ⟨fun _ => Spared.refl _, fun _ _ => rfl, fun _ _ => rfl⟩

theorem handleRestartAck_told : Told event server (handleRestartAck server) :=
  ⟨fun _ => Spared.refl _, fun _ _ => rfl, fun _ _ => rfl⟩

theorem handleRemoveLoop_told (handled : handleRemoveLoop server event = some next) :
    Told event server next := by
  rw [handleRemoveLoop] at handled
  obtain ⟨-, handled⟩ := atSlot_eq_some.mp handled
  simp only at handled
  split at handled
  · cases handled
    exact Told.refl.onSlot.onWoomera hangupBusy_spared
  · cases handled
    exact Told.refl.onSlot

/-- The digits are all that it changes. -/
theorem woomeraCheckDigits_keeps {ptr : Ptr}
    (checked : woomeraCheckDigits config server ptr = some next) :
    next.woomera = server.woomera ∧ next.holdingTank = server.holdingTank ∧
      next.sent = server.sent ∧ next.systemReset = server.systemReset ∧
      ∀ circuit, (next.processTable circuit).dev = (server.processTable circuit).dev := by
  rw [woomeraCheckDigits] at checked
  split at checked
  · cases checked
    exact ⟨rfl, rfl, rfl, rfl, fun _ => rfl⟩
  · next span chan _ =>
      split at checked
      · obtain ⟨-, checked⟩ := atSlot_eq_some.mp checked
        cases checked
        refine ⟨rfl, rfl, rfl, rfl, fun circuit => ?_⟩
        rw [onSlot_processTable]
        by_cases same : circuit = (span, chan)
        · rw [same, Function.update_self]
        · rw [Function.update_of_ne same]
      · cases checked
        exact ⟨rfl, rfl, rfl, rfl, fun _ => rfl⟩

theorem handleIncomingDigit_told (handled : handleIncomingDigit config server event = some next) :
    Told event server next := by
  rw [handleIncomingDigit] at handled
  split at handled
  · obtain ⟨-, handled⟩ := atSlot_eq_some.mp handled
    obtain ⟨slot, -, handled⟩ := Option.bind_eq_some_iff.mp handled
    have queued : Told event server (server.setSlot event.circuit slot) := Told.refl.setSlot
    simp only at handled
    split at handled
    · cases handled
      exact queued
    · split at handled
      · obtain ⟨woomera, tank, -, -, dev⟩ := woomeraCheckDigits_keeps handled
        constructor
        · intro ptr
          rw [woomera]
          exact queued.spared ptr
        · intro index apart
          rw [tank]
          exact queued.tank index apart
        · intro circuit apart
          rw [dev]
          exact queued.dev circuit apart
      · cases handled
        exact queued
  · cases handled
    exact Told.refl

/-- The state with a loop test on a free circuit. -/
def looped (server : Server) (event : Event) (rand : List Nat) (ptr : Ptr) : Server :=
  ((server.onSlot event.circuit (loopSlot ptr event rand)).setWoomera ptr
    (loopWoomera event)).onWoomera ptr fun woomera => { woomera with callAcked := true }

theorem handleCallLoopStart_cases
    (handled : handleCallLoopStart config server event out = some next) :
    Told event server next ∨
      ∃ ptr, out.alloc = some ptr ∧ (server.processTable event.circuit).dev = none ∧
        next = looped server event out.rand ptr := by
  rw [handleCallLoopStart] at handled
  obtain ⟨-, handled⟩ := atSlot_eq_some.mp handled
  split at handled
  · cases handled
    exact Or.inl Told.refl.send
  · next free =>
      split at handled
      · cases handled
      · next ptr alloc =>
          split at handled
          · cases handled
            exact Or.inr ⟨ptr, alloc, free, rfl⟩
          · cases handled

/-- An event tells sessions, or starts a loop test. -/
theorem parseSs7Event_cases (parsed : parseSs7Event config server event out = some next) :
    Told event server next ∨
      ∃ ptr, event.id = .insertCheckLoop ∧ out.alloc = some ptr ∧
        (server.processTable event.circuit).dev = none ∧
        next = looped server event out.rand ptr := by
  rw [parseSs7Event] at parsed
  cases id : event.id with
  | insertCheckLoop =>
      rw [id] at parsed
      rcases handleCallLoopStart_cases parsed with told | ⟨ptr, alloc, free, made⟩
      · exact Or.inl told
      · exact Or.inr ⟨ptr, rfl, alloc, free, made⟩
  | callStart =>
      rw [id] at parsed
      exact Or.inl (handleCallStart_told parsed)
  | callStopped =>
      rw [id] at parsed
      exact Or.inl (handleCallStop_told parsed)
  | callStartAck =>
      rw [id] at parsed
      exact Or.inl (handleCallStartAck_told parsed)
  | callStartNack =>
      rw [id] at parsed
      exact Or.inl (handleCallStartNack_told parsed)
  | callAnswered =>
      rw [id] at parsed
      exact Or.inl (handleCallAnswer_told parsed)
  | callStartNackAck =>
      rw [id] at parsed
      exact Or.inl (handleCallStartNackAck_told parsed)
  | callStoppedAck =>
      rw [id] at parsed
      exact Or.inl (handleCallStopAck_told parsed)
  | removeCheckLoop =>
      rw [id] at parsed
      exact Or.inl (handleRemoveLoop_told parsed)
  | digitIn =>
      rw [id] at parsed
      exact Or.inl (handleIncomingDigit_told parsed)
  | systemRestart =>
      rw [id, Option.some.injEq] at parsed
      rw [← parsed]
      exact Or.inl handleRestart_told
  | systemRestartAck =>
      rw [id, Option.some.injEq] at parsed
      rw [← parsed]
      exact Or.inl handleRestartAck_told
  | autoCallGapAbate =>
      rw [id] at parsed
      simp only [handleGapAbate, atTrunkGroup] at parsed
      split at parsed
      · cases parsed
        exact Or.inl Told.refl
      · cases parsed
  | heartbeat =>
      rw [id, Option.some.injEq] at parsed
      rw [← parsed]
      exact Or.inl Told.refl
  | callProgress =>
      rw [id, Option.some.injEq] at parsed
      rw [← parsed]
      exact Or.inl Told.refl
  | unknown value =>
      rw [id, Option.some.injEq] at parsed
      rw [← parsed]
      exact Or.inl Told.refl

end Told

end Wanpipe.Mgd
