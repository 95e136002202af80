import Wanpipe.Mgd.CommandFrame
import Wanpipe.Mgd.Release
import Wanpipe.Mgd.ThreadFrame

/-! What the sessions say to boost. -/

namespace Wanpipe.Mgd

open Line

variable {config : Config} {server next : Server} {ptr : Ptr}

theorem ackCall_answered (server : Server) (ptr : Ptr) :
    answered (ackCall config server ptr) = answered server := by
  rw [ackCall]
  split
  · rfl
  · rw [answered_other rfl]
    rfl

theorem handleWoomeraMediaAcceptAnswer_answered (args : MediaArgs) (answer accept : Bool) :
    answered (handleWoomeraMediaAcceptAnswer config server ptr args answer accept) =
      answered server := by
  rw [handleWoomeraMediaAcceptAnswer]
  simp only
  split
  · split
    · rfl
    · next ready _ =>
        have accepted : answered
            (if accept then ackCall config (server.setWoomera ptr ready) ptr
              else server.setWoomera ptr ready) = answered server := by
          split
          · rw [ackCall_answered]
            rfl
          · rfl
        generalize (if accept then ackCall config (server.setWoomera ptr ready) ptr
          else server.setWoomera ptr ready) = reached at accepted ⊢
        split
        · split
          · rw [answered_other rfl, ← accepted]
            exact ackCall_answered reached ptr
          · exact accepted
        · exact accepted
  · rfl

theorem runCommand_answered (command : SessionCommand) :
    answered (runCommand config server ptr command) = answered server := by
  cases command with
  | hangup cause =>
      rw [runCommand]
      split
      · rfl
      · rfl
  | progress =>
      rw [runCommand]
      split
      · exact answered_other rfl
      · rfl
  | media args => exact handleWoomeraMediaAcceptAnswer_answered args false false
  | accept args => exact handleWoomeraMediaAcceptAnswer_answered args false true
  | answer args => exact handleWoomeraMediaAcceptAnswer_answered args true false
  | other => rfl

theorem findSession_answered {uniqueId : UniqueId} {command : SessionCommand}
    (looked : findSession config server ptr uniqueId command = some (.hungUp next) ∨
      findSession config server ptr uniqueId command = some (.found next)) :
    answered next = answered server := by
  rw [findSession] at looked
  simp only at looked
  split at looked
  · split at looked
    · rcases looked with looked | looked <;> cases looked
      rfl
    · rcases looked with looked | looked <;> cases looked
      rfl
  · split at looked
    · split at looked
      · split at looked
        · rcases looked with looked | looked <;> cases looked
          rfl
        · split at looked
          · rcases looked with looked | looked <;> cases looked
            rfl
          · split at looked
            · split at looked
              · rcases looked with looked | looked <;> cases looked
                rfl
              · rcases looked with looked | looked <;> cases looked
                rfl
            · rcases looked with looked | looked <;> cases looked
              rfl
      · rcases looked with looked | looked <;> cases looked
    · rcases looked with looked | looked <;> cases looked
      rfl

theorem handleWoomeraCallStart_answered (config : Config) (server : Server) (ptr : Ptr) (tg : Nat)
    (raw allBusy write : Bool) :
    answered (handleWoomeraCallStart config server ptr tg raw allBusy write).2 =
      answered server := by
  rw [handleWoomeraCallStart]
  have known : answered ((server.onWoomera ptr fun woomera =>
      { woomera with trunkGroup := tg }).onWoomera ptr fun woomera =>
        { woomera with raw := woomera.raw || raw }) = answered server := rfl
  simp only
  generalize ((server.onWoomera ptr fun woomera => { woomera with trunkGroup := tg }).onWoomera
    ptr fun woomera => { woomera with raw := woomera.raw || raw }) = reached at known ⊢
  have added : answered (addToHoldingTank reached ptr).2 = answered server := by
    rcases addToHoldingTank_cases reached ptr with ⟨index, -, added⟩ | ⟨index, -, added⟩
    · rw [added]
      exact known
    · rw [added]
      exact known
  split
  · rfl
  · split
    · rfl
    · split
      · exact added
      · split
        · simp only
          rw [answered_other rfl]
          exact added
        · exact added

theorem interpretCommand_answered {command : Command}
    (interpreted : interpretCommand config server ptr command = some next) :
    answered next = answered server := by
  cases command with
  | call tg raw allBusy write =>
      rw [interpretCommand] at interpreted
      split at interpreted
      · cases interpreted
        rfl
      · have started := handleWoomeraCallStart_answered config server ptr tg raw allBusy
          write
        simp only at interpreted
        split at interpreted
        · cases interpreted
          exact started
        · cases interpreted
          exact started
  | bye cause =>
      cases interpreted
      rfl
  | session uniqueId command =>
      cases uniqueId with
      | none =>
          cases interpreted
          rfl
      | some uniqueId =>
          rw [interpretCommand] at interpreted
          split at interpreted
          · cases interpreted
          · next found =>
              cases interpreted
              exact findSession_answered (Or.inl found)
          · next reached found =>
              cases interpreted
              rw [runCommand_answered]
              exact findSession_answered (Or.inr found)
  | noSession =>
      cases interpreted
      rfl

/-- A command answers no release. -/
theorem sessionCommand_answered {command : Command}
    (served : sessionCommand config server ptr command = some next) :
    answered next = answered server := by
  rw [sessionCommand] at served
  split at served
  · obtain ⟨reached, interpreted, rest⟩ := Option.bind_eq_some_iff.mp served
    have known := interpretCommand_answered interpreted
    split at rest
    · simp only at rest
      split at rest
      · obtain ⟨-, -, sent, -, -⟩ := woomeraCheckDigits_keeps rest
        rw [answered_of_sent sent]
        exact known
      · cases rest
        exact known
    · cases rest
      exact known
  · cases served
    rfl

/-- What boost hears of it. -/
def heard (config : Config) (woomera : Woomera) : List Msg :=
  match spoken config woomera with
  | some msg => if reaches config msg then [msg] else []
  | none => []

theorem heard_none {woomera : Woomera} (silent : spoken config woomera = none) :
    server.sent ++ heard config woomera = server.sent := by
  rw [heard, silent, List.append_nil]

theorem heard_some {woomera : Woomera} {msg : Msg} (speaks : spoken config woomera = some msg) :
    heard config woomera = if reaches config msg then [msg] else [] := by
  rw [heard, speaks]

theorem loopStep_sent (server : Server) (ptr : Ptr) (choice : Choice) :
    (loopStep server ptr choice).sent = server.sent := by
  unfold loopStep
  simp only
  split
  · split
    · split
      · rfl
      · rfl
    · rfl
    · rfl
  · split
    · split
      · rfl
      · rfl
    · rfl
    · rfl
    · split
      · split
        · rfl
        · rfl
      · rfl
    · rfl

theorem waitStep_sent (choice : Choice) (waits : Bool) (clear : Woomera → Woomera) (pc : Pc) :
    (waitStep server ptr choice waits clear pc).sent = server.sent := by
  unfold waitStep
  simp only
  split
  · split
    · rfl
    · split
      · rfl
      · rfl
    · rfl
  · rfl

theorem tankStep_sent : (tankStep server ptr).sent = server.sent := by
  rw [tankStep, onWoomera_sent]
  split
  · split
    · exact pullFromHoldingTank_sent _ _ _ _
    · exact clearFromHoldingTank_sent _ _ _
  · rfl

theorem speak_sent (up : server.systemReset = false) (woomera : Woomera) :
    (speak config server (spoken config woomera)).sent = server.sent ++ heard config woomera := by
  cases speaks : spoken config woomera with
  | none =>
      rw [heard_none speaks]
      rfl
  | some msg =>
      rw [heard_some speaks]
      exact isupExecCommand_sent up

/-- What a step of a session thread sends. -/
theorem threadStep_sent {choice : Choice} (up : server.systemReset = false)
    (stepped : threadStep config server ptr choice = some next) :
    next.sent = server.sent ++ heard config (server.woomera ptr) := by
  cases threadStep_stepped stepped with
  | loop pc => rw [heard_none (by simp [spoken, pc]), loopStep_sent]
  | moves moves =>
      rw [speak_sent (by rw [setWoomera_systemReset, up]), setWoomera_sent]
  | waitNackAck pc => rw [heard_none (by simp [spoken, pc]), waitStep_sent]
  | waitStoppedAck pc => rw [heard_none (by simp [spoken, pc]), waitStep_sent]
  | leave pc own =>
      rw [heard_none (by simp [spoken, pc])]
      rfl
  | tank pc => rw [heard_none (by simp [spoken, pc]), tankStep_sent]
  | gone pc => rw [heard_none (by simp [spoken, pc])]

end Wanpipe.Mgd
