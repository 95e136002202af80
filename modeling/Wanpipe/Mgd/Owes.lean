import Wanpipe.Mgd.Owner
import Wanpipe.Mgd.Spoken

/-! A release that is left to a session stays there until its thread answers it. -/

namespace Wanpipe.Mgd

open Line

/-- Where the thread looks for a release. -/
def ackTest (stop : Bool) : Pc := if stop then .hangupAckTest else .nackAckTest

/-- Where the thread has yet to look for a release once more, or for the first time. -/
def Pc.awaits (stop : Bool) : Pc → Bool
  | .gone | .tank => false
  | .hangupAckClear => !stop
  | .nackAckClear => stop
  | _ => true

/-- A session with a release that its thread has yet to answer. -/
structure Owes (stop : Bool) (woomera : Woomera) : Prop where
  awaits : woomera.pc.awaits stop = true
  pending : woomera.pending stop = true

variable {config : Config} {server next : Server} {ptr : Ptr} {stop : Bool}

theorem Owes.of_spared {before after : Woomera} (owes : Owes stop before)
    (spared : Spared before after) : Owes stop after where
  awaits := by
    rw [spared.pc]
    exact owes.awaits
  pending := by
    cases stop with
    | true => exact spared.hangupAck owes.pending
    | false => exact spared.hangupNackAck owes.pending

/-- A step of the thread to where it awaits releases. -/
theorem Owes.ahead {after : Woomera} (owes : Owes stop (server.woomera ptr))
    (pending : after.pending stop = (server.woomera ptr).pending stop)
    (awaits : after.pc.awaits stop = true) :
    Owes stop ((server.setWoomera ptr after).woomera ptr) := by
  rw [setWoomera_woomera, Function.update_self]
  exact ⟨awaits, pending.trans owes.pending⟩

theorem loopStep_pending {choice : Choice} :
    ((loopStep server ptr choice).woomera ptr).pending stop =
      (server.woomera ptr).pending stop := by
  have other (woomera : Woomera) (same : woomera.pending stop = (server.woomera ptr).pending stop) :
      ((server.setWoomera ptr woomera).woomera ptr).pending stop =
        (server.woomera ptr).pending stop := by
    rw [setWoomera_woomera, Function.update_self]
    exact same
  unfold loopStep
  simp only
  split
  · split
    · split
      · exact other _ rfl
      · rfl
    · exact other _ rfl
    · rfl
  · split
    · split
      · exact other _ rfl
      · rfl
    · exact other _ rfl
    · exact other _ rfl
    · split
      · split
        · exact other _ rfl
        · exact other _ rfl
      · rfl
    · rfl

theorem waitStep_owes {choice : Choice} {waits : Bool} {clear : Woomera → Woomera} {pc : Pc}
    (owes : Owes stop (server.woomera ptr))
    (cleared : (clear (server.woomera ptr)).pending stop = (server.woomera ptr).pending stop)
    (awaits : pc.awaits stop = true) :
    Owes stop ((waitStep server ptr choice waits clear pc).woomera ptr) := by
  unfold waitStep
  simp only
  split
  · split
    · exact owes.ahead cleared awaits
    · split
      · exact owes.ahead cleared awaits
      · exact owes
    · exact owes
  · exact owes.ahead rfl awaits

/-- The flag goes where the thread has answered, and the thread comes to the tank without it. -/
theorem Moves.owes {before after : Woomera} (moves : Moves before after) (owes : Owes stop before)
    (elsewhere : before.pc ≠ ackTest stop) : Owes stop after := by
  obtain ⟨awaits, pending⟩ := owes
  cases moves with
  | endMedia pc => exact ⟨awaits, pending⟩
  | stopped pc =>
      cases stop with
      | true => exact absurd pc elsewhere
      | false => exact ⟨rfl, pending⟩
  | hangupAckClear pc =>
      rw [pc] at awaits
      cases stop with
      | true => cases awaits
      | false => exact ⟨rfl, pending⟩
  | nacked pc =>
      cases stop with
      | true => exact ⟨rfl, pending⟩
      | false => exact absurd pc elsewhere
  | nackAckClear pc =>
      rw [pc] at awaits
      cases stop with
      | true => exact ⟨rfl, pending⟩
      | false => cases awaits
  | toTank pc unasked =>
      obtain ⟨noStop, noNack⟩ := Bool.or_eq_false_iff.mp unasked
      cases stop with
      | true => cases noStop.symm.trans pending
      | false => cases noNack.symm.trans pending
  | _ => exact ⟨rfl, pending⟩

/-- A thread comes to the end only with its releases answered. -/
theorem threadStep_owes {choice : Choice} (owes : Owes stop (server.woomera ptr))
    (elsewhere : (server.woomera ptr).pc ≠ ackTest stop)
    (stepped : threadStep config server ptr choice = some next) :
    Owes stop (next.woomera ptr) := by
  have awaits := owes.awaits
  cases threadStep_stepped stepped with
  | loop pc =>
      have pending : ((loopStep server ptr choice).woomera ptr).pending stop = true :=
        loopStep_pending.trans owes.pending
      rcases loopStep_pc pc with here | close
      · exact ⟨by rw [here]; rfl, pending⟩
      · exact ⟨by rw [close]; rfl, pending⟩
  | moves moves =>
      rw [speak_woomera, setWoomera_woomera, Function.update_self]
      exact moves.owes owes elsewhere
  | waitNackAck pc => exact waitStep_owes owes rfl rfl
  | waitStoppedAck pc => exact waitStep_owes owes rfl rfl
  | leave pc own => exact owes.ahead rfl rfl
  | tank pc =>
      rw [pc] at awaits
      cases awaits
  | gone pc =>
      rw [pc] at awaits
      cases awaits

end Wanpipe.Mgd
