import Wanpipe.Mgd.CommandFrame
import Wanpipe.Mgd.Tank
import Wanpipe.Mgd.ThreadFrame

/-! Which session a circuit belongs to. -/

namespace Wanpipe.Mgd

open Line Runs

/-- The part of a session thread behind `WFLAG_HANGUP`. -/
def Pc.hungUp : Pc → Bool
  | .loop | .close | .hangupTest | .stop | .stopSend | .stopSent | .nack | .nackSend | .nackSent
  | .setHangup | .gone => false
  | _ => true

/-- Every session that has come so far has the flag. -/
def HungUp (server : Server) : Prop :=
  ∀ ptr, (server.woomera ptr).pc.hungUp = true → (server.woomera ptr).hangup = true

/-- The session that was entered for a circuit is still there, or it was told to end. -/
def Owned (circuit : Circuit) (ptr : Ptr) (server : Server) : Prop :=
  (server.processTable circuit).dev = some ptr ∨ (server.woomera ptr).hangup = true ∨
    (server.woomera ptr).mediaEnd = true

/-- A CALL_STOPPED_ACK, or a CALL_START_NACK_ACK for a circuit. -/
def Event.isAck (event : Event) : Prop :=
  event.id = .callStoppedAck ∨ event.id = .callStartNackAck ∧ event.callSetupId.toNat = 0

instance (event : Event) : Decidable event.isAck := inferInstanceAs (Decidable (_ ∨ _))

/-- An ack comes for a circuit whose session, if it has one that goes on, was told to end. -/
def AckFits (config : Config) (server : Server) : Op → Prop
  | .boost event _ =>
      event.isAck → event.valid config = true →
        ∀ ptr ∈ (server.processTable event.circuit).dev, (server.woomera ptr).pc ≠ .gone →
          (server.woomera ptr).hangup = true ∨ (server.woomera ptr).mediaEnd = true
  | _ => True

variable {config : Config} {server next : Server} {event : Event} {out : Outcomes}
  {circuit : Circuit} {ptr : Ptr}

theorem Owned.of_spared (owned : Owned circuit ptr server)
    (spared : Spared (server.woomera ptr) (next.woomera ptr))
    (dev : (server.processTable circuit).dev = some ptr →
      (next.processTable circuit).dev = some ptr) : Owned circuit ptr next := by
  rcases owned with entered | hangup | mediaEnd
  · exact Or.inl (dev entered)
  · exact Or.inr (Or.inl (spared.hangup hangup))
  · exact Or.inr (Or.inr (spared.mediaEnd mediaEnd))

/-- A session that is told to end may leave its slot. -/
theorem Owned.of_hangup (hangup : (next.woomera ptr).hangup = true) : Owned circuit ptr next :=
  Or.inr (Or.inl hangup)

theorem handleCallStart_dev (handled : handleCallStart config server event out = some next)
    (entered : (server.processTable event.circuit).dev = some ptr) :
    (next.processTable event.circuit).dev = some ptr := by
  rw [handleCallStart] at handled
  split at handled
  · obtain ⟨-, handled⟩ := atSlot_eq_some.mp handled
    rw [entered] at handled
    cases handled
    rw [answer, isupExecCommand_processTable, onWoomera_processTable, entered]
  · cases handled
    exact entered

theorem handleCallStop_dev (handled : handleCallStop config server event = some next)
    (entered : (server.processTable event.circuit).dev = some ptr) :
    (next.processTable event.circuit).dev = some ptr := by
  rw [handleCallStop] at handled
  obtain ⟨-, handled⟩ := atSlot_eq_some.mp handled
  simp only at handled
  split at handled
  · cases handled
    rw [onWoomera_processTable, onSlot_processTable, Function.update_self]
    exact entered
  · cases handled
    rw [answer, isupExecCommand_processTable, onSlot_processTable, Function.update_self]
    exact entered

/-- A call that boost accepts on a circuit in use ends the session that has it. -/
theorem handleCallStartAck_owned
    (handled : handleCallStartAck config server event out = some next)
    (entered : (server.processTable event.circuit).dev = some ptr) :
    Owned event.circuit ptr next := by
  rw [handleCallStartAck] at handled
  split at handled
  · cases handled
    left
    rw [answer, isupExecCommand_processTable, entered]
  · split at handled
    · cases handled
      exact Or.inl entered
    · obtain ⟨-, handled⟩ := atSlot_eq_some.mp handled
      rw [onWoomera_processTable, pullFromHoldingTank_table, entered] at handled
      cases handled
      apply Owned.of_hangup
      refine (onWoomera_spared endMedia_spared ptr).hangup ?_
      rw [onSlot_woomera, onWoomera_woomera, Function.update_self]
      rfl

/-- A release by boost leaves the session in its slot, or tells it to end. -/
theorem nackSession_owned {found : Option Ptr} {ack : Bool}
    (handled : nackSession config server event = some (found, ack, next))
    (entered : (server.processTable event.circuit).dev = some ptr) :
    Owned event.circuit ptr next := by
  rw [nackSession] at handled
  split at handled
  · split at handled
    · cases handled
      exact Or.inl entered
    · cases handled
      exact Or.inl entered
  · split at handled
    · split at handled
      · split at handled
        · next released =>
            cases handled
            rw [releasable, entered] at released
            obtain ⟨same, -⟩ := Option.filter_eq_some_iff.mp released
            cases same
            apply Owned.of_hangup
            rw [onWoomera_woomera, Function.update_self]
            rfl
        · cases handled
          left
          rw [onSlot_processTable, Function.update_self]
          exact entered
      · cases handled
    · cases handled
      exact Or.inl entered

theorem handleCallStartNack_owned (handled : handleCallStartNack config server event = some next)
    (entered : (server.processTable event.circuit).dev = some ptr) :
    Owned event.circuit ptr next := by
  obtain ⟨found, ack, told, session, answered⟩ := handleCallStartNack_cases handled
  have before := nackSession_owned session entered
  rw [answered, nackAnswer]
  split
  · split
    · apply before.of_spared
      · rw [isupExecCommand_woomera]
        exact Spared.refl _
      · rw [isupExecCommand_processTable]
        exact id
    · apply before.of_spared
      · rw [isupExecCommand_woomera]
        exact Spared.refl _
      · rw [isupExecCommand_processTable]
        exact id
  · exact before

theorem handleCallAnswer_dev (handled : handleCallAnswer config server event = some next) :
    next.processTable = server.processTable := by
  rw [handleCallAnswer] at handled
  split at handled
  · obtain ⟨-, handled⟩ := atSlot_eq_some.mp handled
    split at handled
    · cases handled
      rfl
    · simp only at handled
      split at handled
      · cases handled
        rfl
      · split at handled
        · cases handled
          rfl
        · split at handled
          · cases handled
            rfl
          · cases handled
            rfl
  · cases handled
    rfl

/-- An ack empties the slot of its circuit, whoever has it. -/
theorem handleCallStartNackAck_owned
    (handled : handleCallStartNackAck config server event = some next)
    (entered : (server.processTable event.circuit).dev = some ptr)
    (fits : event.callSetupId.toNat = 0 → event.valid config = true →
      (server.woomera ptr).hangup = true ∨ (server.woomera ptr).mediaEnd = true) :
    Owned event.circuit ptr next := by
  have told := handleCallStartNackAck_told handled
  by_cases own : event.callSetupId.toNat = 0 ∧ event.valid config = true
  · rcases fits own.1 own.2 with hangup | mediaEnd
    · exact Or.inr (Or.inl ((told.spared ptr).hangup hangup))
    · exact Or.inr (Or.inr ((told.spared ptr).mediaEnd mediaEnd))
  · left
    rw [handleCallStartNackAck] at handled
    simp only at handled
    split at handled
    · next found =>
        have table := pullFromHoldingTank_table server event.callSetupId.toNat (-1) (-1)
        rw [found] at table
        cases handled
        rw [clearFromHoldingTank_table, onWoomera_processTable, table, entered]
    · rw [if_neg own] at handled
      cases handled
      rw [clearFromHoldingTank_table, entered]

theorem handleCallStopAck_owned (handled : handleCallStopAck config server event = some next)
    (entered : (server.processTable event.circuit).dev = some ptr)
    (fits : event.valid config = true →
      (server.woomera ptr).hangup = true ∨ (server.woomera ptr).mediaEnd = true) :
    Owned event.circuit ptr next := by
  have told := handleCallStopAck_told handled
  by_cases valid : event.valid config = true
  · rcases fits valid with hangup | mediaEnd
    · exact Or.inr (Or.inl ((told.spared ptr).hangup hangup))
    · exact Or.inr (Or.inr ((told.spared ptr).mediaEnd mediaEnd))
  · rw [handleCallStopAck] at handled
    simp only [if_neg valid] at handled
    cases handled
    exact Or.inl entered

theorem handleRemoveLoop_owned (handled : handleRemoveLoop server event = some next)
    (entered : (server.processTable event.circuit).dev = some ptr) :
    Owned event.circuit ptr next := by
  rw [handleRemoveLoop] at handled
  obtain ⟨-, handled⟩ := atSlot_eq_some.mp handled
  rw [entered] at handled
  cases handled
  apply Owned.of_hangup
  rw [onWoomera_woomera, Function.update_self]
  rfl

theorem handleIncomingDigit_dev (handled : handleIncomingDigit config server event = some next)
    (entered : (server.processTable event.circuit).dev = some ptr) :
    (next.processTable event.circuit).dev = some ptr := by
  rw [handleIncomingDigit] at handled
  split at handled
  · obtain ⟨-, handled⟩ := atSlot_eq_some.mp handled
    obtain ⟨slot, added, handled⟩ := Option.bind_eq_some_iff.mp handled
    have kept : slot.dev = some ptr := by
      rw [addDigits] at added
      split at added
      · cases added
        exact entered
      · cases added
    have queued : ((server.setSlot event.circuit slot).processTable event.circuit).dev =
        some ptr := by
      rw [setSlot_processTable, Function.update_self]
      exact kept
    simp only at handled
    split at handled
    · cases handled
      exact queued
    · split at handled
      · obtain ⟨-, -, -, -, dev⟩ := woomeraCheckDigits_keeps handled
        rw [dev, queued]
      · cases handled
        exact queued
  · cases handled
    exact entered

/-- An event leaves a session in its slot or tells it to end, unless it is an ack that does not fit. -/
theorem parseSs7Event_owned (parsed : parseSs7Event config server event out = some next)
    (entered : (server.processTable event.circuit).dev = some ptr)
    (fits : event.isAck → event.valid config = true →
      (server.woomera ptr).hangup = true ∨ (server.woomera ptr).mediaEnd = true) :
    Owned event.circuit ptr next := by
  rw [parseSs7Event] at parsed
  cases id : event.id with
  | callStart =>
      rw [id] at parsed
      exact Or.inl (handleCallStart_dev parsed entered)
  | callStopped =>
      rw [id] at parsed
      exact Or.inl (handleCallStop_dev parsed entered)
  | callStartAck =>
      rw [id] at parsed
      exact handleCallStartAck_owned parsed entered
  | callStartNack =>
      rw [id] at parsed
      exact handleCallStartNack_owned parsed entered
  | callAnswered =>
      rw [id] at parsed
      left
      rw [handleCallAnswer_dev parsed, entered]
  | callStartNackAck =>
      rw [id] at parsed
      exact handleCallStartNackAck_owned parsed entered
        (fun zero => fits (Or.inr ⟨id, zero⟩))
  | callStoppedAck =>
      rw [id] at parsed
      exact handleCallStopAck_owned parsed entered (fits (Or.inl id))
  | insertCheckLoop =>
      rw [id] at parsed
      simp only [handleCallLoopStart, entered] at parsed
      obtain ⟨-, parsed⟩ := atSlot_eq_some.mp parsed
      cases parsed
      left
      rw [answer, isupExecCommand_processTable, entered]
  | removeCheckLoop =>
      rw [id] at parsed
      exact handleRemoveLoop_owned parsed entered
  | digitIn =>
      rw [id] at parsed
      exact Or.inl (handleIncomingDigit_dev parsed entered)
  | systemRestart =>
      rw [id, Option.some.injEq, handleRestart] at parsed
      left
      split at parsed
      · rw [← parsed, entered]
      · rw [← parsed, entered]
  | systemRestartAck =>
      rw [id, Option.some.injEq] at parsed
      left
      rw [← parsed, handleRestartAck, entered]
  | autoCallGapAbate =>
      rw [id] at parsed
      simp only [handleGapAbate, atTrunkGroup] at parsed
      split at parsed
      · cases parsed
        exact Or.inl entered
      · cases parsed
  | heartbeat =>
      rw [id, Option.some.injEq] at parsed
      left
      rw [← parsed, entered]
  | callProgress =>
      rw [id, Option.some.injEq] at parsed
      left
      rw [← parsed, entered]
  | unknown value =>
      rw [id, Option.some.injEq] at parsed
      left
      rw [← parsed, entered]

theorem loopStep_pc {choice : Choice} (loop : (server.woomera ptr).pc = .loop) :
    ((loopStep server ptr choice).woomera ptr).pc = .loop ∨
      ((loopStep server ptr choice).woomera ptr).pc = .close := by
  unfold loopStep
  simp only
  split
  · split
    · split
      · simp [goTo]
      · exact Or.inl loop
    · simp [goTo]
    · exact Or.inl loop
  · split
    · split
      · simp [goTo]
      · exact Or.inl loop
    · simp [goTo]
    · simp [loop]
    · split
      · split
        · simp [goTo]
        · simp [goTo]
      · exact Or.inl loop
    · exact Or.inl loop

theorem Moves.flagged {before after : Woomera} (moves : Moves before after)
    (hung : before.pc.hungUp = true → before.hangup = true) (late : after.pc.hungUp = true) :
    after.hangup = true := by
  cases moves with
  | endMedia pc => exact hung late
  | hungUp pc hangup => exact hangup
  | setHangup | hangupAckClear => rfl
  | close | toStop | toNack | toNeither | stop | stopSend | stopSent | nack | nackSend | nackSent =>
      cases late
  | _ pc => exact hung (by rw [pc]; rfl)

/-- A thread comes behind its hangup only with the flag. -/
theorem threadStep_hungUp {choice : Choice}
    (before : (server.woomera ptr).pc.hungUp = true → (server.woomera ptr).hangup = true)
    (stepped : threadStep config server ptr choice = some next)
    (late : (next.woomera ptr).pc.hungUp = true) : (next.woomera ptr).hangup = true := by
  have flagged := (threadStep_advanced stepped).hangup
  cases threadStep_stepped stepped with
  | loop pc =>
      rcases loopStep_pc pc with loop | close
      · rw [loop] at late
        cases late
      · rw [close] at late
        cases late
  | moves moves =>
      rw [speak_woomera, setWoomera_woomera, Function.update_self] at late ⊢
      exact moves.flagged before late
  | waitNackAck pc | waitStoppedAck pc | leave pc | tank pc =>
      apply flagged
      exact before (by rw [pc]; rfl)
  | gone pc => exact before late

theorem HungUp.of_spared (hung : HungUp server)
    (spared : ∀ ptr, Spared (server.woomera ptr) (next.woomera ptr)) : HungUp next := by
  intro ptr late
  rw [(spared ptr).pc] at late
  exact (spared ptr).hangup (hung ptr late)

/-- A session that is new is in its loop. -/
theorem HungUp.fresh (hung : HungUp server) (new : Ptr)
    (others : ∀ other, other ≠ new → next.woomera other = server.woomera other)
    (loop : (next.woomera new).pc = .loop) : HungUp next := by
  intro ptr late
  by_cases same : ptr = new
  · rw [same, loop] at late
    cases late
  · rw [others ptr same] at late ⊢
    exact hung ptr late

theorem step_hungUp {op : Op} (hung : HungUp server)
    (moved : step config server op = some next) : HungUp next := by
  cases op with
  | boost event out =>
      rw [step] at moved
      split at moved
      · rcases parseSs7Event_cases moved with told | ⟨new, -, -, -, made⟩
        · exact hung.of_spared told.spared
        · rw [made]
          refine hung.fresh new ?_ ?_
          · intro other apart
            simp [looped, apart]
          · simp [looped, loopWoomera]
      · cases moved
  | restartTimer =>
      cases moved
      intro ptr
      rw [restartTimer_woomera]
      exact hung ptr
  | accept new =>
      rw [step] at moved
      split at moved
      · cases moved
        refine hung.fresh new ?_ ?_
        · intro other apart
          simp [apart]
        · simp [acceptedWoomera]
      · cases moved
  | command caller command =>
      rcases sessionCommand_cases moved with served | ⟨-, index, called⟩
      · exact hung.of_spared served.spared
      · intro ptr late
        by_cases own : ptr = caller
        · rw [own] at late ⊢
          rw [called.own.pc] at late
          exact called.own.hangup (hung caller late)
        · rw [called.others ptr own] at late ⊢
          exact hung ptr late
  | thread own choice =>
      intro ptr late
      by_cases same : ptr = own
      · rw [same] at late ⊢
        exact threadStep_hungUp (hung own) moved late
      · have spared := (threadStep_advanced moved).others ptr same
        rw [spared.pc] at late
        exact spared.hangup (hung ptr late)
  | mediaExit own hangup =>
      rw [step] at moved
      split at moved
      · cases moved
        exact hung.of_spared (onWoomera_spared (mediaExit_spared hangup))
      · cases moved
        exact hung

/-- One step leaves a session that goes on in its slot, or it is told to end. -/
theorem step_owned {op : Op} (hung : HungUp server) (going : server.unfinished ptr)
    (fits : AckFits config server op) (owned : Owned circuit ptr server)
    (moved : step config server op = some next) : Owned circuit ptr next := by
  cases op with
  | boost event out =>
      rw [step] at moved
      split at moved
      · next free =>
          by_cases entered : event.circuit = circuit ∧
              (server.processTable circuit).dev = some ptr
          · obtain ⟨here, entered⟩ := entered
            rw [← here] at entered ⊢
            exact parseSs7Event_owned moved entered
              (fun ack valid => fits ack valid ptr entered going)
          · rcases parseSs7Event_cases moved with told | ⟨new, -, alloc, unused, made⟩
            · refine owned.of_spared (told.spared ptr) fun before => ?_
              rw [told.dev circuit fun here => entered ⟨here.symm, before⟩]
              exact before
            · have apart : ptr ≠ new := by
                intro same
                exact going (by rw [same]; exact free new alloc)
              rw [made]
              refine owned.of_spared ?_ fun before => ?_
              · simp only [looped, onWoomera_woomera, setWoomera_woomera, onSlot_woomera,
                  Function.update_of_ne apart]
                exact Spared.refl _
              · have elsewhere : circuit ≠ event.circuit := fun here => entered ⟨here.symm, before⟩
                simp only [looped, onWoomera_processTable, setWoomera_processTable,
                  onSlot_processTable, Function.update_of_ne elsewhere]
                exact before
      · cases moved
  | restartTimer =>
      cases moved
      rw [Owned, restartTimer_woomera, restartTimer_processTable]
      exact owned
  | accept new =>
      rw [step] at moved
      split at moved
      · next free =>
          cases moved
          have apart : ptr ≠ new := by
            intro same
            exact going (by rw [same]; exact free)
          refine owned.of_spared ?_ id
          rw [setWoomera_woomera, Function.update_of_ne apart]
          exact Spared.refl _
      · cases moved
  | command caller command =>
      rcases sessionCommand_cases moved with served | ⟨-, index, called⟩
      · refine owned.of_spared (served.spared ptr) fun before => ?_
        rcases served.dev circuit with same | ⟨free, -⟩
        · rw [same, before]
        · rw [free] at before
          cases before
      · rcases owned with entered | hangup | mediaEnd
        · left
          rw [called.dev, entered]
        · right
          left
          by_cases own : ptr = caller
          · rw [own] at hangup ⊢
            exact called.own.hangup hangup
          · rw [called.others ptr own, hangup]
        · right
          right
          by_cases own : ptr = caller
          · rw [own] at mediaEnd ⊢
            exact called.own.mediaEnd mediaEnd
          · rw [called.others ptr own, mediaEnd]
  | thread own choice =>
      have advanced := threadStep_advanced moved
      have monotone : ((server.woomera ptr).hangup = true → (next.woomera ptr).hangup = true) ∧
          ((server.woomera ptr).mediaEnd = true → (next.woomera ptr).mediaEnd = true) := by
        by_cases same : ptr = own
        · rw [same]
          exact ⟨advanced.hangup, advanced.mediaEnd⟩
        · exact ⟨(advanced.others ptr same).hangup, (advanced.others ptr same).mediaEnd⟩
      rcases owned with entered | hangup | mediaEnd
      · rcases advanced.dev circuit with same | ⟨left, table⟩
        · left
          rw [same, entered]
        · have same : ptr = own := Option.some.inj (entered.symm.trans left)
          right
          left
          refine monotone.1 (hung ptr ?_)
          rw [same, table]
          rfl
      · exact Or.inr (Or.inl (monotone.1 hangup))
      · exact Or.inr (Or.inr (monotone.2 mediaEnd))
  | mediaExit own hangup =>
      rw [step] at moved
      split at moved
      · cases moved
        exact owned.of_spared (onWoomera_spared (mediaExit_spared hangup) ptr) id
      · cases moved
        exact owned

/-- What a run keeps of the session of a circuit. -/
structure Keeps (circuit : Circuit) (ptr : Ptr) (server : Server) : Prop where
  hung : HungUp server
  owned : Owned circuit ptr server

theorem step_keeps {op : Op} (before : Keeps circuit ptr server) (going : server.unfinished ptr)
    (fits : AckFits config server op) (moved : step config server op = some next) :
    Keeps circuit ptr next where
  hung := step_hungUp before.hung moved
  owned := step_owned before.hung going fits before.owned moved

theorem idle_hungUp : HungUp idleServer := by
  intro ptr late
  cases late

theorem run_hungUp {ops : List Op} (hung : HungUp server)
    (ran : run (step config) server ops = some next) : HungUp next := by
  have any : Along (step config) (fun _ _ => True) server ops :=
    Along.of_forall server ops fun _ _ => trivial
  exact Along.kept (fun _ _ _ hung _ moved => step_hungUp hung moved) hung any ran

/-- A CALL_STOPPED gets to the session in the slot, unless that has released the circuit itself. -/
theorem handleCallStop_reaches (entered : (server.processTable event.circuit).dev = some ptr)
    (held : (server.woomera ptr).waitSent = false)
    (handled : handleCallStop config server event = some next) :
    (next.woomera ptr).hangup = true ∧ (next.woomera ptr).hangupAck = true := by
  have found : releasable server event = some ptr := by
    simp [releasable, entered, held]
  rw [handleCallStop, found] at handled
  obtain ⟨-, handled⟩ := atSlot_eq_some.mp handled
  cases handled
  rw [onWoomera_woomera, Function.update_self]
  exact ⟨rfl, rfl⟩

/-- A session that was entered for a circuit keeps it while it runs, where acks only come for
circuits whose session was told to end, and a CALL_STOPPED gets to it. -/
theorem circuit_owner (config : Config) (left right : List Op) (middle last : Server)
    (circuit : Circuit) (ptr : Ptr) (reached : run (step config) idleServer left = some middle)
    (entered : (middle.processTable circuit).dev = some ptr)
    (along : Along (step config)
      (fun server op => server.unfinished ptr ∧ AckFits config server op) middle right)
    (ran : run (step config) middle right = some last)
    (up : (last.woomera ptr).hangup = false) (goes : (last.woomera ptr).mediaEnd = false) :
    (last.processTable circuit).dev = some ptr ∧
      ∀ event next, event.circuit = circuit → (last.woomera ptr).waitSent = false →
        handleCallStop config last event = some next →
        (next.woomera ptr).hangup = true ∧ (next.woomera ptr).hangupAck = true := by
  have hung : HungUp middle := run_hungUp idle_hungUp reached
  have start : Keeps circuit ptr middle := ⟨hung, Or.inl entered⟩
  have kept : Keeps circuit ptr last :=
    Along.kept (fun _ _ _ before allowed moved => step_keeps before allowed.1 allowed.2 moved)
      start along ran
  have owned : (last.processTable circuit).dev = some ptr := by
    rcases kept.owned with owned | hangup | mediaEnd
    · exact owned
    · rw [up] at hangup
      cases hangup
    · rw [goes] at mediaEnd
      cases mediaEnd
  refine ⟨owned, fun event next here held handled => ?_⟩
  rw [← here] at owned
  exact handleCallStop_reaches owned held handled

/-- The daemon with the acks that have come so far. -/
structure Boosted where
  server : Server
  acks : List Event

def boostedStep (config : Config) (state : Boosted) (op : Op) : Option Boosted :=
  (step config state.server op).map fun next =>
    { server := next
      acks :=
        match op with
        | .boost event _ => if event.isAck then state.acks ++ [event] else state.acks
        | _ => state.acks }

/-- What an ack is for. -/
def EventId.request : EventId → EventId
  | .callStoppedAck => .callStopped
  | .callStartNackAck => .callStartNack
  | id => id

def requests (server : Server) (id : EventId) (circuit : Circuit) : Nat :=
  server.sent.countP fun msg =>
    msg.id == id && msg.callSetupId == 0 && msg.span == (circuit.1 : Int) &&
      msg.chan == (circuit.2 : Int)

/-- Boost acks what it was asked on this circuit. -/
def AckDue (state : Boosted) : Op → Prop
  | .boost event _ =>
      event.isAck →
        (state.acks.countP fun ack => ack.id == event.id && ack.circuit == event.circuit) <
          requests state.server event.id.request event.circuit
  | _ => True

instance AckDue.decidable (state : Boosted) : (op : Op) → Decidable (AckDue state op)
  | .boost _ _ => inferInstanceAs (Decidable (_ → _ < _))
  | .restartTimer | .accept _ | .command _ _ | .thread _ _ | .mediaExit _ _ => isTrue trivial

instance AckFits.decidable (config : Config) (server : Server) :
    (op : Op) → Decidable (AckFits config server op)
  | .boost event _ =>
      inferInstanceAs (Decidable (event.isAck → event.valid config = true →
        ∀ ptr ∈ (server.processTable event.circuit).dev, (server.woomera ptr).pc ≠ .gone →
          (server.woomera ptr).hangup = true ∨ (server.woomera ptr).mediaEnd = true))
  | .restartTimer | .accept _ | .command _ _ | .thread _ _ | .mediaExit _ _ => isTrue trivial

instance (server : Server) (ptr : Ptr) : Decidable (server.unfinished ptr) :=
  inferInstanceAs (Decidable (_ ≠ _))

def insertLoop : Event := { busyNack with id := .insertCheckLoop, span := 1#8, chan := 3#8 }

def loopOutcomes : Outcomes := { noOutcomes with alloc := some 1, thread := true }

/-- A loop test runs on a circuit. -/
def loopServer : Server := looped idleServer insertLoop [] 1

/-- A second loop test was refused there. -/
def refusedServer : Server := answer t1Config loopServer insertLoop .callStartNack 17

theorem loopServer_step :
    step t1Config idleServer (.boost insertLoop loopOutcomes) = some loopServer := by
  rfl

theorem refusedServer_step :
    step t1Config loopServer (.boost insertLoop noOutcomes) = some refusedServer := by
  rfl

theorem circuit_owner_loop :
    (refusedServer.processTable (1, 3)).dev = some 1 ∧
      ∀ event next, event.circuit = (1, 3) → (refusedServer.woomera 1).waitSent = false →
        handleCallStop t1Config refusedServer event = some next →
        (next.woomera 1).hangup = true ∧ (next.woomera 1).hangupAck = true := by
  refine circuit_owner t1Config [.boost insertLoop loopOutcomes] [.boost insertLoop noOutcomes]
    loopServer refusedServer (1, 3) 1 ?_ rfl ?_ ?_ rfl rfl
  · rw [run, loopServer_step]
    rfl
  · decide +kernel
  · rw [run, refusedServer_step]
    rfl

/-- The ack that boost owes for the refusal. -/
def refusalAck : Event := { insertLoop with id := .callStartNackAck }

def detachedServer : Server :=
  (refusedServer.onSlot (1, 3) emptySlot).onWoomera 1 fun woomera =>
    { woomera with waitForNackAck := false }

theorem detachedServer_step :
    step t1Config refusedServer (.boost refusalAck noOutcomes) = some detachedServer := by
  rfl

/-- Boost acks the refusal of a second loop test, and the first one has lost its circuit. -/
theorem circuit_owner_detached :
    ¬ ∀ (config : Config) (left right : List Op) (middle last : Server) (circuit : Circuit)
      (ptr : Ptr),
      Along (boostedStep config) AckDue { server := idleServer, acks := [] } (left ++ right) →
      run (step config) idleServer left = some middle →
      (middle.processTable circuit).dev = some ptr →
      Along (step config) (fun server _ => server.unfinished ptr) middle right →
      run (step config) middle right = some last →
      last.unfinished ptr → (last.woomera ptr).hangup = false →
      (last.woomera ptr).mediaEnd = false → (last.processTable circuit).dev = some ptr := by
  intro always
  have ran : run (step t1Config) loopServer
      [.boost insertLoop noOutcomes, .boost refusalAck noOutcomes] = some detachedServer := by
    rw [run, refusedServer_step, Option.bind_some, run, detachedServer_step]
    rfl
  have reached : run (step t1Config) idleServer [.boost insertLoop loopOutcomes] =
      some loopServer := by
    rw [run, loopServer_step]
    rfl
  have owned := always t1Config [.boost insertLoop loopOutcomes]
    [.boost insertLoop noOutcomes, .boost refusalAck noOutcomes] loopServer detachedServer (1, 3) 1
    (by decide +kernel) reached rfl (by decide +kernel) ran (by decide) rfl rfl
  cases owned

end Wanpipe.Mgd
