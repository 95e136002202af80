import Wanpipe.Mgd.ThreadMoves

/-! What the steps of the session threads leave alone. -/

namespace Wanpipe.Mgd

/-- What the thread of `ptr` leaves alone: the other sessions as far as they are spared, the tank but
the index it holds, and the slots but its own. It ends with its index. -/
structure Advanced (ptr : Ptr) (server next : Server) : Prop where
  others : ∀ other, other ≠ ptr → Spared (server.woomera other) (next.woomera other)
  hold : (next.woomera ptr).indexHold = (server.woomera ptr).indexHold ∨
    (next.woomera ptr).pc = .gone
  hangup : (server.woomera ptr).hangup = true → (next.woomera ptr).hangup = true
  mediaEnd : (server.woomera ptr).mediaEnd = true → (next.woomera ptr).mediaEnd = true
  tank : ∀ index, index ≠ (server.woomera ptr).indexHold →
    next.holdingTank index = server.holdingTank index
  dev : ∀ circuit,
    (next.processTable circuit).dev = (server.processTable circuit).dev ∨
      (server.processTable circuit).dev = some ptr ∧ (server.woomera ptr).pc = .table
  gone : (server.woomera ptr).pc = .gone → next = server

section Advanced

variable {config : Config} {server next : Server} {ptr : Ptr} {choice : Choice}

/-- A step that changes the session only. -/
theorem advanced_setWoomera {woomera : Woomera} (going : (server.woomera ptr).pc ≠ .gone)
    (hold : woomera.indexHold = (server.woomera ptr).indexHold)
    (hangup : (server.woomera ptr).hangup = true → woomera.hangup = true)
    (mediaEnd : (server.woomera ptr).mediaEnd = true → woomera.mediaEnd = true) :
    Advanced ptr server (server.setWoomera ptr woomera) where
  others other apart := by
    rw [setWoomera_woomera, Function.update_of_ne apart]
    exact Spared.refl _
  hold := by
    rw [setWoomera_woomera, Function.update_self]
    exact Or.inl hold
  hangup := by
    rw [setWoomera_woomera, Function.update_self]
    exact hangup
  mediaEnd := by
    rw [setWoomera_woomera, Function.update_self]
    exact mediaEnd
  tank _ _ := rfl
  dev _ := Or.inl rfl
  gone ended := absurd ended going

theorem Advanced.speak {msg : Option Msg} (going : (server.woomera ptr).pc ≠ .gone)
    (advanced : Advanced ptr server next) : Advanced ptr server (speak config next msg) where
  others := by
    rw [speak_woomera]
    exact advanced.others
  hold := by
    rw [speak_woomera]
    exact advanced.hold
  hangup := by
    rw [speak_woomera]
    exact advanced.hangup
  mediaEnd := by
    rw [speak_woomera]
    exact advanced.mediaEnd
  tank := by
    rw [speak_holdingTank]
    exact advanced.tank
  dev := by
    rw [speak_processTable]
    exact advanced.dev
  gone ended := absurd ended going

theorem Advanced.refl : Advanced ptr server server where
  others _ _ := Spared.refl _
  hold := Or.inl rfl
  hangup := id
  mediaEnd := id
  tank _ _ := rfl
  dev _ := Or.inl rfl
  gone _ := rfl

theorem loopStep_advanced (going : (server.woomera ptr).pc ≠ .gone) :
    Advanced ptr server (loopStep server ptr choice) := by
  unfold loopStep
  simp only
  split
  · split
    · split
      · exact advanced_setWoomera going rfl id id
      · exact Advanced.refl
    · exact advanced_setWoomera going rfl (fun _ => rfl) (fun _ => rfl)
    · exact Advanced.refl
  · split
    · split
      · exact advanced_setWoomera going rfl id id
      · exact Advanced.refl
    · exact advanced_setWoomera going rfl id id
    · exact advanced_setWoomera going rfl id (fun _ => rfl)
    · split
      · split
        · exact advanced_setWoomera going rfl (fun _ => rfl) id
        · exact advanced_setWoomera going rfl id id
      · exact Advanced.refl
    · exact Advanced.refl

theorem waitStep_advanced {waits : Bool} {clear : Woomera → Woomera} {pc : Pc}
    (going : (server.woomera ptr).pc ≠ .gone)
    (spares : ∀ woomera, Spared woomera (clear woomera)) :
    Advanced ptr server (waitStep server ptr choice waits clear pc) := by
  have cleared := spares (server.woomera ptr)
  unfold waitStep
  simp only
  split
  · split
    · exact advanced_setWoomera going cleared.indexHold cleared.hangup cleared.mediaEnd
    · split
      · exact advanced_setWoomera going cleared.indexHold cleared.hangup cleared.mediaEnd
      · exact Advanced.refl
    · exact Advanced.refl
  · exact advanced_setWoomera going rfl id id

/-- What a change of one index of the tank leaves alone. -/
structure Taken (index : Nat) (server next : Server) : Prop where
  spared : ∀ ptr, Spared (server.woomera ptr) (next.woomera ptr)
  tank : ∀ other, other ≠ index → next.holdingTank other = server.holdingTank other
  table : next.processTable = server.processTable

theorem Taken.refl {index : Nat} : Taken index server server :=
  ⟨fun _ => Spared.refl _, fun _ _ => rfl, rfl⟩

theorem taken_setTank {index : Nat} {tank : Tank} : Taken index server (server.setTank index tank) where
  spared _ := Spared.refl _
  tank other apart := by rw [setTank_holdingTank, Function.update_of_ne apart]
  table := rfl

theorem clearFromHoldingTank_taken (server : Server) (index : Nat) (ptr : Option Ptr) :
    Taken index server (clearFromHoldingTank server index ptr) := by
  rw [clearFromHoldingTank]
  split
  · split
    · exact taken_setTank
    · split
      · exact taken_setTank
      · exact Taken.refl
    · exact Taken.refl
  · exact Taken.refl

theorem pullFromHoldingTank_taken (server : Server) (index : Nat) (span chan : Int) :
    Taken index server (pullFromHoldingTank server index span chan).2 := by
  rw [pullFromHoldingTank]
  split
  · exact Taken.refl
  · next held _ =>
      constructor
      · intro ptr
        rw [onWoomera_woomera, setTank_woomera]
        by_cases same : ptr = held
        · rw [same, Function.update_self]
          exact pulled_spared span chan _
        · rw [Function.update_of_ne same]
          exact Spared.refl _
      · exact taken_setTank.tank
      · rfl

/-- A session that leaves the tank does so at the index that it holds. -/
theorem tankStep_advanced (going : (server.woomera ptr).pc ≠ .gone) :
    Advanced ptr server (tankStep server ptr) := by
  have left : Taken (server.woomera ptr).indexHold server
      (if 1 ≤ (server.woomera ptr).indexHold then
        if (server.woomera ptr).waitForAckTimeout then
          (pullFromHoldingTank server (server.woomera ptr).indexHold (-1) (-1)).2
        else clearFromHoldingTank server (server.woomera ptr).indexHold (some ptr)
      else server) := by
    split
    · split
      · exact pullFromHoldingTank_taken _ _ _ _
      · exact clearFromHoldingTank_taken _ _ _
    · exact Taken.refl
  rw [tankStep]
  generalize (if 1 ≤ (server.woomera ptr).indexHold then
      if (server.woomera ptr).waitForAckTimeout then
        (pullFromHoldingTank server (server.woomera ptr).indexHold (-1) (-1)).2
      else clearFromHoldingTank server (server.woomera ptr).indexHold (some ptr)
    else server) = reached at left ⊢
  constructor
  · intro other apart
    rw [onWoomera_woomera, Function.update_of_ne apart]
    exact left.spared other
  · rw [onWoomera_woomera, Function.update_self]
    exact Or.inr rfl
  · rw [onWoomera_woomera, Function.update_self]
    exact (left.spared ptr).hangup
  · rw [onWoomera_woomera, Function.update_self]
    exact (left.spared ptr).mediaEnd
  · exact left.tank
  · intro circuit
    rw [onWoomera_processTable, left.table]
    exact Or.inl rfl
  · intro ended
    exact absurd ended going

/-- The step that takes a session out of its slot. -/
theorem table_advanced {circuit : Circuit} (pc : (server.woomera ptr).pc = .table)
    (own : (server.processTable circuit).dev = some ptr) (change : Slot → Slot) :
    Advanced ptr server
      ((server.onSlot circuit change).setWoomera ptr (goTo .retry (server.woomera ptr))) where
  others other apart := by
    rw [setWoomera_woomera, Function.update_of_ne apart]
    exact Spared.refl _
  hold := by
    rw [setWoomera_woomera, Function.update_self]
    exact Or.inl rfl
  hangup := by
    rw [setWoomera_woomera, Function.update_self]
    exact id
  mediaEnd := by
    rw [setWoomera_woomera, Function.update_self]
    exact id
  tank _ _ := rfl
  dev other := by
    rw [setWoomera_processTable, onSlot_processTable]
    by_cases same : other = circuit
    · rw [same]
      exact Or.inr ⟨own, pc⟩
    · rw [Function.update_of_ne same]
      exact Or.inl rfl
  gone ended := by
    rw [pc] at ended
    cases ended

theorem threadStep_advanced (stepped : threadStep config server ptr choice = some next) :
    Advanced ptr server next := by
  cases threadStep_stepped stepped with
  | loop pc => exact loopStep_advanced (by simp [pc])
  | moves moves =>
      apply Advanced.speak moves.going
      exact advanced_setWoomera moves.going moves.indexHold moves.hangup moves.mediaEnd
  | waitNackAck pc => exact waitStep_advanced (by simp [pc]) clearNackWait_spared
  | waitStoppedAck pc => exact waitStep_advanced (by simp [pc]) clearStoppedWait_spared
  | leave pc own => exact table_advanced pc own _
  | tank pc => exact tankStep_advanced (by simp [pc])
  | gone pc => exact Advanced.refl

theorem restartTimer_woomera : (restartTimer config server).woomera = server.woomera := by
  rw [restartTimer]
  split
  · split
    · rw [isupExecCommand_woomera]
    · split
      · rfl
      · rfl
  · rfl

theorem restartTimer_processTable :
    (restartTimer config server).processTable = server.processTable := by
  rw [restartTimer]
  split
  · split
    · rw [isupExecCommand_processTable]
    · split
      · rfl
      · rfl
  · rfl

/-- What the end of a media thread leaves alone. -/
theorem mediaExit_spared (hangup : Bool) (woomera : Woomera) :
    Spared woomera
      { woomera with
        mediaEnd := true, mediaRunning := false, hangup := woomera.hangup || hangup } := by
  constructor <;> simp +contextual

end Advanced

end Wanpipe.Mgd
