import Wanpipe.Mgd.BoostFrame
import Wanpipe.Mgd.Session

/-! What one step of a session thread can do. -/

namespace Wanpipe.Mgd

/-- What a session thread says to boost in its next step. -/
def spoken (config : Config) (woomera : Woomera) : Option Msg :=
  let valid := smgValidateSpanChan config woomera.localSpan woomera.localChan
  let say (cmd : EventId) (id : Nat) (span chan : Int) : Option Msg :=
    some ⟨cmd, span, chan, id, woomera.causeTosig⟩
  match woomera.pc with
  | .stopSend => say .callStopped 0 woomera.localSpan woomera.localChan
  | .nackSend => say .callStartNack 0 woomera.localSpan woomera.localChan
  | .hangupAckTest =>
      if woomera.hangupAck && valid then
        say .callStoppedAck 0 woomera.localSpan woomera.localChan
      else none
  | .nackAckTest =>
      if woomera.hangupNackAck then
        if valid then say .callStartNackAck 0 woomera.localSpan woomera.localChan
        else if woomera.index ≠ 0 then say .callStartNackAck woomera.index 0 0
        else none
      else none
  | .indexNackSend => say .callStartNack woomera.localIndex 0 0
  | _ => none

/-- A message on its way to boost, if there is one. -/
def speak (config : Config) (server : Server) : Option Msg → Server
  | some msg =>
      isupExecCommand config server msg.span msg.chan msg.callSetupId msg.id msg.releaseCause
  | none => server

section Speak

variable (config : Config) (server : Server) (msg : Option Msg)

@[simp] theorem speak_woomera : (speak config server msg).woomera = server.woomera := by
  cases msg with
  | none => rfl
  | some msg => exact isupExecCommand_woomera _ _ _ _ _ _ _

@[simp] theorem speak_holdingTank :
    (speak config server msg).holdingTank = server.holdingTank := by
  cases msg with
  | none => rfl
  | some msg => exact isupExecCommand_holdingTank _ _ _ _ _ _ _

@[simp] theorem speak_processTable :
    (speak config server msg).processTable = server.processTable := by
  cases msg with
  | none => rfl
  | some msg => exact isupExecCommand_processTable _ _ _ _ _ _ _

end Speak

/-- The steps of a thread behind its loop that change its session only. -/
inductive Moves (woomera : Woomera) : Woomera → Prop
  | endMedia (pc : woomera.pc = .close) : Moves woomera (endMedia woomera)
  | close (pc : woomera.pc = .close) :
      Moves woomera
        { goTo .hangupTest woomera with localSpan := woomera.span, localChan := woomera.chan }
  | hungUp (pc : woomera.pc = .hangupTest) (hangup : woomera.hangup = true) :
      Moves woomera (goTo .hangupAckTest woomera)
  | toStop (pc : woomera.pc = .hangupTest) (up : woomera.hangup = false) :
      Moves woomera (goTo .stop woomera)
  | toNack (pc : woomera.pc = .hangupTest) (up : woomera.hangup = false) :
      Moves woomera (goTo .nack woomera)
  | toNeither (pc : woomera.pc = .hangupTest) (up : woomera.hangup = false) :
      Moves woomera (goTo .setHangup woomera)
  | stop (pc : woomera.pc = .stop) :
      Moves woomera { goTo .stopSend woomera with waitForStoppedAck := true }
  | stopSend (pc : woomera.pc = .stopSend) : Moves woomera (goTo .stopSent woomera)
  | stopSent (pc : woomera.pc = .stopSent) :
      Moves woomera { goTo .setHangup woomera with waitForStoppedAckSent := true }
  | nack (pc : woomera.pc = .nack) :
      Moves woomera { goTo .nackSend woomera with waitForNackAck := true }
  | nackSend (pc : woomera.pc = .nackSend) : Moves woomera (goTo .nackSent woomera)
  | nackSent (pc : woomera.pc = .nackSent) :
      Moves woomera { goTo .setHangup woomera with waitForNackAckSent := true }
  | setHangup (pc : woomera.pc = .setHangup) : Moves woomera (goTo .hangupAckTest (hangUp woomera))
  | stopped (pc : woomera.pc = .hangupAckTest) (asked : woomera.hangupAck = true) :
      Moves woomera (goTo .hangupAckClear woomera)
  | notStopped (pc : woomera.pc = .hangupAckTest) (unasked : woomera.hangupAck = false) :
      Moves woomera (goTo .nackAckTest woomera)
  | hangupAckClear (pc : woomera.pc = .hangupAckClear) :
      Moves woomera { goTo .nackAckTest woomera with hangupAck := false, hangup := true }
  | nacked (pc : woomera.pc = .nackAckTest) (asked : woomera.hangupNackAck = true)
      (index : Nat) : Moves woomera { goTo .nackAckClear woomera with index := index }
  | notNacked (pc : woomera.pc = .nackAckTest) (unasked : woomera.hangupNackAck = false) :
      Moves woomera (goTo .indexTest woomera)
  | nackAckClear (pc : woomera.pc = .nackAckClear) :
      Moves woomera { goTo .indexTest woomera with hangupNackAck := false }
  | index (pc : woomera.pc = .indexTest) (held : woomera.index ≠ 0) :
      Moves woomera { goTo .indexPeek woomera with localIndex := woomera.index }
  | noIndex (pc : woomera.pc = .indexTest) (free : woomera.index = 0) :
      Moves woomera (goTo .waitNackAck woomera)
  | peeked (pc : woomera.pc = .indexPeek) : Moves woomera (goTo .indexNack woomera)
  | nothingPeeked (pc : woomera.pc = .indexPeek) : Moves woomera (goTo .waitNackAck woomera)
  | indexNack (pc : woomera.pc = .indexNack) :
      Moves woomera { goTo .indexNackSend woomera with waitForNackAck := true }
  | indexNackSend (pc : woomera.pc = .indexNackSend) : Moves woomera (goTo .indexNackSent woomera)
  | indexNackSent (pc : woomera.pc = .indexNackSent) :
      Moves woomera { goTo .waitNackAck woomera with waitForNackAckSent := true }
  | table (pc : woomera.pc = .table) : Moves woomera (goTo .retry woomera)
  | again (pc : woomera.pc = .retry)
      (asked : (woomera.hangupAck || woomera.hangupNackAck) = true) :
      Moves woomera (goTo .hangupAckTest woomera)
  | toTank (pc : woomera.pc = .retry)
      (unasked : (woomera.hangupAck || woomera.hangupNackAck) = false) :
      Moves woomera (goTo .tank woomera)

/-- A step of a thread, where the thread says what it has to say. -/
inductive Stepped (config : Config) (server : Server) (ptr : Ptr) (choice : Choice) :
    Server → Prop
  | loop (pc : (server.woomera ptr).pc = .loop) :
      Stepped config server ptr choice (loopStep server ptr choice)
  | moves {woomera : Woomera} (moves : Moves (server.woomera ptr) woomera) :
      Stepped config server ptr choice
        (speak config (server.setWoomera ptr woomera) (spoken config (server.woomera ptr)))
  | waitNackAck (pc : (server.woomera ptr).pc = .waitNackAck) :
      Stepped config server ptr choice
        (waitStep server ptr choice (server.woomera ptr).waitForNackAck
          (fun woomera => { woomera with waitForNackAck := false }) .waitStoppedAck)
  | waitStoppedAck (pc : (server.woomera ptr).pc = .waitStoppedAck) :
      Stepped config server ptr choice
        (waitStep server ptr choice (server.woomera ptr).waitForStoppedAck
          (fun woomera => { woomera with waitForStoppedAck := false }) .table)
  | leave {circuit : Circuit} (pc : (server.woomera ptr).pc = .table)
      (own : (server.processTable circuit).dev = some ptr) :
      Stepped config server ptr choice
        ((server.onSlot circuit fun slot =>
          { emptySlot slot with digitsLen := noDigits }).setWoomera ptr
            (goTo .retry (server.woomera ptr)))
  | tank (pc : (server.woomera ptr).pc = .tank) :
      Stepped config server ptr choice (tankStep server ptr)
  | gone (pc : (server.woomera ptr).pc = .gone) : Stepped config server ptr choice server

section Stepped

variable {config : Config} {server next : Server} {ptr : Ptr} {choice : Choice}
  {woomera : Woomera}

theorem Stepped.silent (silent : spoken config (server.woomera ptr) = none)
    (moves : Moves (server.woomera ptr) woomera) :
    Stepped config server ptr choice (server.setWoomera ptr woomera) := by
  have stepped : Stepped config server ptr choice _ := .moves moves
  rwa [silent, speak] at stepped

theorem Stepped.sends {cmd : EventId} {span chan : Int} {id : Nat}
    (speaks : spoken config (server.woomera ptr) =
      some ⟨cmd, span, chan, id, (server.woomera ptr).causeTosig⟩)
    (moves : Moves (server.woomera ptr) woomera) :
    Stepped config server ptr choice
      (isupExecCommand config (server.setWoomera ptr woomera) span chan id cmd
        (server.woomera ptr).causeTosig) := by
  have stepped : Stepped config server ptr choice _ := .moves moves
  rwa [speaks, speak] at stepped

/-- Every step of a thread is one of these. -/
theorem threadStep_stepped (stepped : threadStep config server ptr choice = some next) :
    Stepped config server ptr choice next := by
  cases pc : (server.woomera ptr).pc with
  | loop =>
      simp only [threadStep, pc, Option.some.injEq] at stepped
      rw [← stepped]
      exact .loop pc
  | close =>
      have silent : spoken config (server.woomera ptr) = none := by simp [spoken, pc]
      simp only [threadStep, pc] at stepped
      split at stepped
      · cases stepped
        exact .silent silent (.endMedia pc)
      · cases stepped
        exact .silent silent (.close pc)
  | hangupTest =>
      have silent : spoken config (server.woomera ptr) = none := by simp [spoken, pc]
      simp only [threadStep, pc] at stepped
      split at stepped
      · next hangup =>
          cases stepped
          exact .silent silent (.hungUp pc hangup)
      · next up =>
          have up := Bool.eq_false_iff.mpr up
          split at stepped
          · split at stepped
            · cases stepped
              exact .silent silent (.toStop pc up)
            · cases stepped
              exact .silent silent (.toNack pc up)
          · cases stepped
            exact .silent silent (.toNeither pc up)
  | stop =>
      simp only [threadStep, pc, Option.some.injEq] at stepped
      rw [← stepped]
      exact .silent (by simp [spoken, pc]) (.stop pc)
  | stopSend =>
      simp only [threadStep, pc, Option.some.injEq] at stepped
      rw [← stepped]
      exact .sends (by simp [spoken, pc]) (.stopSend pc)
  | stopSent =>
      simp only [threadStep, pc, Option.some.injEq] at stepped
      rw [← stepped]
      exact .silent (by simp [spoken, pc]) (.stopSent pc)
  | nack =>
      simp only [threadStep, pc, Option.some.injEq] at stepped
      rw [← stepped]
      exact .silent (by simp [spoken, pc]) (.nack pc)
  | nackSend =>
      simp only [threadStep, pc, Option.some.injEq] at stepped
      rw [← stepped]
      exact .sends (by simp [spoken, pc]) (.nackSend pc)
  | nackSent =>
      simp only [threadStep, pc, Option.some.injEq] at stepped
      rw [← stepped]
      exact .silent (by simp [spoken, pc]) (.nackSent pc)
  | setHangup =>
      simp only [threadStep, pc, Option.some.injEq] at stepped
      rw [← stepped]
      exact .silent (by simp [spoken, pc]) (.setHangup pc)
  | hangupAckTest =>
      simp only [threadStep, pc] at stepped
      split at stepped
      · next asked =>
          split at stepped
          · next valid =>
              cases stepped
              exact .sends (by simp [spoken, pc, asked, valid]) (.stopped pc asked)
          · next invalid =>
              cases stepped
              exact .silent (by simp [spoken, pc, invalid]) (.stopped pc asked)
      · next unasked =>
          have unasked := Bool.eq_false_iff.mpr unasked
          cases stepped
          exact .silent (by simp [spoken, pc, unasked]) (.notStopped pc unasked)
  | hangupAckClear =>
      simp only [threadStep, pc, Option.some.injEq] at stepped
      rw [← stepped]
      exact .silent (by simp [spoken, pc]) (.hangupAckClear pc)
  | nackAckTest =>
      simp only [threadStep, pc] at stepped
      split at stepped
      · next asked =>
          split at stepped
          · next valid =>
              cases stepped
              exact .sends (by simp [spoken, pc, asked, valid]) (.nacked pc asked 0)
          · next invalid =>
              split at stepped
              · next held =>
                  cases stepped
                  exact .sends (by simp [spoken, pc, asked, invalid, held]) (.nacked pc asked 0)
              · next free =>
                  cases stepped
                  exact .silent (by simp [spoken, pc, asked, invalid, free])
                    (.nacked pc asked (server.woomera ptr).index)
      · next unasked =>
          have unasked := Bool.eq_false_iff.mpr unasked
          cases stepped
          exact .silent (by simp [spoken, pc, unasked]) (.notNacked pc unasked)
  | nackAckClear =>
      simp only [threadStep, pc, Option.some.injEq] at stepped
      rw [← stepped]
      exact .silent (by simp [spoken, pc]) (.nackAckClear pc)
  | indexTest =>
      have silent : spoken config (server.woomera ptr) = none := by simp [spoken, pc]
      simp only [threadStep, pc] at stepped
      split at stepped
      · next held =>
          cases stepped
          exact .silent silent (.index pc held)
      · next free =>
          cases stepped
          exact .silent silent (.noIndex pc (not_not.mp free))
  | indexPeek =>
      have silent : spoken config (server.woomera ptr) = none := by simp [spoken, pc]
      simp only [threadStep, pc] at stepped
      split at stepped
      · cases stepped
        exact .silent silent (.peeked pc)
      · cases stepped
        exact .silent silent (.nothingPeeked pc)
  | indexNack =>
      simp only [threadStep, pc, Option.some.injEq] at stepped
      rw [← stepped]
      exact .silent (by simp [spoken, pc]) (.indexNack pc)
  | indexNackSend =>
      simp only [threadStep, pc, Option.some.injEq] at stepped
      rw [← stepped]
      exact .sends (by simp [spoken, pc]) (.indexNackSend pc)
  | indexNackSent =>
      simp only [threadStep, pc, Option.some.injEq] at stepped
      rw [← stepped]
      exact .silent (by simp [spoken, pc]) (.indexNackSent pc)
  | waitNackAck =>
      simp only [threadStep, pc, Option.some.injEq] at stepped
      rw [← stepped]
      exact .waitNackAck pc
  | waitStoppedAck =>
      simp only [threadStep, pc, Option.some.injEq] at stepped
      rw [← stepped]
      exact .waitStoppedAck pc
  | table =>
      have silent : spoken config (server.woomera ptr) = none := by simp [spoken, pc]
      simp only [threadStep, pc] at stepped
      split at stepped
      · obtain ⟨-, stepped⟩ := atSlot_eq_some.mp stepped
        split at stepped
        · next own =>
            cases stepped
            exact .leave pc own
        · cases stepped
          exact .silent silent (.table pc)
      · cases stepped
        exact .silent silent (.table pc)
  | retry =>
      have silent : spoken config (server.woomera ptr) = none := by simp [spoken, pc]
      simp only [threadStep, pc] at stepped
      split at stepped
      · next asked =>
          cases stepped
          exact .silent silent (.again pc asked)
      · next unasked =>
          cases stepped
          exact .silent silent (.toTank pc (Bool.eq_false_iff.mpr unasked))
  | tank =>
      simp only [threadStep, pc, Option.some.injEq] at stepped
      rw [← stepped]
      exact .tank pc
  | gone =>
      simp only [threadStep, pc, Option.some.injEq] at stepped
      rw [← stepped]
      exact .gone pc

end Stepped

section Moves

variable {before after : Woomera}

theorem Moves.going (moves : Moves before after) : before.pc ≠ .gone := by
  cases moves <;> simp_all

theorem Moves.indexHold (moves : Moves before after) : after.indexHold = before.indexHold := by
  cases moves <;> rfl

theorem Moves.hangup (moves : Moves before after) (hangup : before.hangup = true) :
    after.hangup = true := by
  cases moves with
  | setHangup | hangupAckClear => rfl
  | _ => exact hangup

theorem Moves.mediaEnd (moves : Moves before after) (mediaEnd : before.mediaEnd = true) :
    after.mediaEnd = true := by
  cases moves with
  | endMedia => rfl
  | _ => exact mediaEnd

end Moves

end Wanpipe.Mgd
