import Wanpipe.Mgd.BoostFrame
import Wanpipe.Mgd.Session

/-! What the commands of the clients leave alone. -/

namespace Wanpipe.Mgd

/-- What a command leaves alone: the other sessions, its own as far as it is spared, the tank, and
the sessions in the slots, where it may enter its own. -/
structure Served (ptr : Ptr) (server next : Server) : Prop where
  own : Spared (server.woomera ptr) (next.woomera ptr)
  others : ∀ other, other ≠ ptr → next.woomera other = server.woomera other
  tank : next.holdingTank = server.holdingTank
  dev : ∀ circuit,
    (next.processTable circuit).dev = (server.processTable circuit).dev ∨
      (server.processTable circuit).dev = none ∧ (next.processTable circuit).dev = some ptr

section Served

variable {config : Config} {server next : Server} {ptr : Ptr}

theorem Served.refl : Served ptr server server where
  own := Spared.refl _
  others _ _ := rfl
  tank := rfl
  dev _ := Or.inl rfl

theorem Served.setWoomera {woomera : Woomera} (served : Served ptr server next)
    (spares : Spared (next.woomera ptr) woomera) :
    Served ptr server (next.setWoomera ptr woomera) where
  own := by
    rw [setWoomera_woomera, Function.update_self]
    exact served.own.trans spares
  others other apart := by
    rw [setWoomera_woomera, Function.update_of_ne apart]
    exact served.others other apart
  tank := served.tank
  dev := served.dev

theorem Served.onWoomera {change : Woomera → Woomera} (served : Served ptr server next)
    (spares : ∀ woomera, Spared woomera (change woomera)) :
    Served ptr server (next.onWoomera ptr change) := served.setWoomera (spares _)

theorem Served.send {span chan : Int} {id : Nat} {cmd : EventId} {cause : Nat}
    (served : Served ptr server next) :
    Served ptr server (isupExecCommand config next span chan id cmd cause) where
  own := by
    rw [isupExecCommand_woomera]
    exact served.own
  others other apart := by
    rw [isupExecCommand_woomera]
    exact served.others other apart
  tank := by
    rw [isupExecCommand_holdingTank]
    exact served.tank
  dev circuit := by
    rw [isupExecCommand_processTable]
    exact served.dev circuit

theorem Served.keep {last : Server} (served : Served ptr server next)
    (woomera : last.woomera = next.woomera) (tank : last.holdingTank = next.holdingTank)
    (dev : ∀ circuit, (last.processTable circuit).dev = (next.processTable circuit).dev) :
    Served ptr server last where
  own := by
    rw [woomera]
    exact served.own
  others := by
    rw [woomera]
    exact served.others
  tank := tank.trans served.tank
  dev circuit := by
    rw [dev]
    exact served.dev circuit

/-- A slot that is changed but for its session. -/
theorem served_setSlot {circuit : Circuit} {slot : Slot}
    (kept : slot.dev = (server.processTable circuit).dev ∨
      (server.processTable circuit).dev = none ∧ slot.dev = some ptr) :
    Served ptr server (server.setSlot circuit slot) where
  own := Spared.refl _
  others _ _ := rfl
  tank := rfl
  dev other := by
    rw [setSlot_processTable]
    by_cases same : other = circuit
    · rw [same, Function.update_self]
      exact kept
    · rw [Function.update_of_ne same]
      exact Or.inl rfl

theorem hangUp_spared (woomera : Woomera) : Spared woomera (hangUp woomera) := by
  constructor <;> simp [hangUp]

theorem failMedia_spared (woomera : Woomera) : Spared woomera (failMedia woomera) := by
  constructor <;> simp [failMedia]

theorem woomeraSetCauseTosig_spared (cause : Nat) (woomera : Woomera) :
    Spared woomera (woomeraSetCauseTosig woomera cause) := by
  rw [woomeraSetCauseTosig]
  split
  · exact Spared.refl _
  · constructor <;> simp

theorem boundWoomera_spared (uniqueId : UniqueId) (circuit : Circuit) (woomera : Woomera) :
    Spared woomera (boundWoomera uniqueId circuit woomera) := by
  constructor <;> simp [boundWoomera]

theorem takeRaw_spared {args : MediaArgs} {woomera ready : Woomera}
    (taken : takeRaw args woomera = some ready) : Spared woomera ready := by
  rw [takeRaw] at taken
  split at taken
  · simp only at taken
    split at taken
    · cases taken
      constructor <;> simp
    · cases taken
  · cases taken
    exact Spared.refl _

theorem ackCall_served (served : Served ptr server next) :
    Served ptr server (ackCall config next ptr) := by
  rw [ackCall]
  split
  · exact served
  · exact (served.setWoomera (by constructor <;> simp)).send

theorem handleWoomeraMediaAcceptAnswer_served {args : MediaArgs} {answer accept : Bool}
    (served : Served ptr server next) :
    Served ptr server (handleWoomeraMediaAcceptAnswer config next ptr args answer accept) := by
  rw [handleWoomeraMediaAcceptAnswer]
  simp only
  split
  · split
    · exact served.setWoomera (by constructor <;> simp [failMedia])
    · next ready taken =>
        have took : Served ptr server (next.setWoomera ptr ready) :=
          served.setWoomera (takeRaw_spared taken)
        have accepted : Served ptr server
            (if accept then ackCall config (next.setWoomera ptr ready) ptr
              else next.setWoomera ptr ready) := by
          split
          · exact ackCall_served took
          · exact took
        generalize (if accept then ackCall config (next.setWoomera ptr ready) ptr
          else next.setWoomera ptr ready) = reached at accepted ⊢
        split
        · split
          · refine ((ackCall_served accepted).onWoomera ?_).send
            intro woomera
            constructor <;> simp
          · exact accepted.onWoomera failMedia_spared
        · exact accepted
  · exact served.setWoomera (by constructor <;> simp)

theorem runCommand_served (command : SessionCommand) (served : Served ptr server next) :
    Served ptr server (runCommand config next ptr command) := by
  cases command with
  | hangup cause =>
      have caused := served.onWoomera (woomeraSetCauseTosig_spared cause)
      rw [runCommand]
      split
      · exact caused.setWoomera (by constructor <;> simp)
      · exact caused
  | progress =>
      rw [runCommand]
      split
      · exact served.send
      · exact served
  | media args => exact handleWoomeraMediaAcceptAnswer_served served
  | accept args => exact handleWoomeraMediaAcceptAnswer_served served
  | answer args => exact handleWoomeraMediaAcceptAnswer_served served
  | other => exact served

theorem findSession_served {uniqueId : UniqueId} {command : SessionCommand}
    (looked : findSession config server ptr uniqueId command = some (.hungUp next) ∨
      findSession config server ptr uniqueId command = some (.found next)) :
    Served ptr server next := by
  have refused : Served ptr server (server.onWoomera ptr hangUp) :=
    Served.refl.onWoomera hangUp_spared
  rw [findSession] at looked
  simp only at looked
  split at looked
  · split at looked
    · rcases looked with looked | looked <;> cases looked
      exact Served.refl
    · rcases looked with looked | looked <;> cases looked
      exact refused
  · split at looked
    · split at looked
      · split at looked
        · rcases looked with looked | looked <;> cases looked
          exact refused
        · next free =>
            have entered (slot : Slot) (dev : slot.dev = some ptr) :
                Served ptr server ((server.setSlot (uniqueId.span.toNat, uniqueId.chan.toNat)
                  slot).onWoomera ptr (boundWoomera uniqueId
                    (uniqueId.span.toNat, uniqueId.chan.toNat))) := by
              refine (served_setSlot (Or.inr ⟨?_, dev⟩)).onWoomera (boundWoomera_spared _ _)
              exact Option.not_isSome_iff_eq_none.mp free
            split at looked
            · rcases looked with looked | looked <;> cases looked
              exact refused
            · split at looked
              · split at looked
                · rcases looked with looked | looked <;> cases looked
                  refine Served.onWoomera (served_setSlot ?_) hangUp_spared
                  exact Or.inl rfl
                · rcases looked with looked | looked <;> cases looked
                  exact entered _ rfl
              · rcases looked with looked | looked <;> cases looked
                exact entered _ rfl
      · rcases looked with looked | looked <;> cases looked
    · rcases looked with looked | looked <;> cases looked
      exact refused

end Served

/-- What a CALL does that takes an index of the tank. -/
structure Called (ptr : Ptr) (index : Fin coreTankLen) (server next : Server) : Prop where
  found : findTank server coreTankLen server.holdingTankIndex = (true, index)
  own : Spared { server.woomera ptr with indexHold := index.val } (next.woomera ptr)
  others : ∀ other, other ≠ ptr → next.woomera other = server.woomera other
  tank : next.holdingTank = Function.update server.holdingTank index.val (.held ptr)
  dev : ∀ circuit, (next.processTable circuit).dev = (server.processTable circuit).dev

/-- The CALLs that reach `add_to_holding_tank`. -/
def takesIndex (server : Server) (ptr : Ptr) : Command → Bool
  | .call tg _ allBusy _ =>
      let woomera := server.woomera ptr
      woomera.pc == .loop && !woomera.loopTdm && woomera.session.isNone && !server.systemReset &&
        decide (tg ≤ smgMaxTg) && !allBusy
  | _ => false

section Called

variable {config : Config} {server next : Server} {ptr : Ptr} {index : Fin coreTankLen}

theorem findTank_congr {other : Server} (same : other.holdingTank = server.holdingTank)
    (rounds : Nat) (index : Fin coreTankLen) :
    findTank other rounds index = findTank server rounds index := by
  induction rounds generalizing index with
  | zero => rfl
  | succ rounds ih => rw [findTank, findTank, same, ih]

theorem nextIndex_pos (index : Fin coreTankLen) : 1 ≤ (nextIndex index).val := by
  rw [nextIndex]
  split
  · exact Nat.le_add_left 1 _
  · exact Nat.le_refl 1

theorem findTank_pos {rounds : Nat} {start : Fin coreTankLen}
    (found : findTank server rounds start = (true, index)) : 1 ≤ index.val := by
  induction rounds generalizing start with
  | zero => cases found
  | succ rounds ih =>
      rw [findTank] at found
      split at found
      · cases found
        exact nextIndex_pos start
      · exact ih found

theorem Called.onWoomera {change : Woomera → Woomera} (called : Called ptr index server next)
    (spares : ∀ woomera, Spared woomera (change woomera)) :
    Called ptr index server (next.onWoomera ptr change) where
  found := called.found
  own := by
    rw [onWoomera_woomera, Function.update_self]
    exact called.own.trans (spares _)
  others other apart := by
    rw [onWoomera_woomera, Function.update_of_ne apart]
    exact called.others other apart
  tank := called.tank
  dev := called.dev

theorem Called.send {span chan : Int} {id : Nat} {cmd : EventId} {cause : Nat}
    (called : Called ptr index server next) :
    Called ptr index server (isupExecCommand config next span chan id cmd cause) where
  found := called.found
  own := by
    rw [isupExecCommand_woomera]
    exact called.own
  others other apart := by
    rw [isupExecCommand_woomera]
    exact called.others other apart
  tank := by
    rw [isupExecCommand_holdingTank]
    exact called.tank
  dev circuit := by
    rw [isupExecCommand_processTable]
    exact called.dev circuit

theorem Called.keep {last : Server} (called : Called ptr index server next)
    (woomera : last.woomera = next.woomera) (tank : last.holdingTank = next.holdingTank)
    (dev : ∀ circuit, (last.processTable circuit).dev = (next.processTable circuit).dev) :
    Called ptr index server last where
  found := called.found
  own := by
    rw [woomera]
    exact called.own
  others := by
    rw [woomera]
    exact called.others
  tank := tank.trans called.tank
  dev circuit := by
    rw [dev]
    exact called.dev circuit

/-- `add_to_holding_tank` takes the index that it finds, or returns 0. -/
theorem addToHoldingTank_cases (server : Server) (ptr : Ptr) :
    (∃ index, findTank server coreTankLen server.holdingTankIndex = (true, index) ∧
        addToHoldingTank server ptr =
          (index.val, (Server.setTank { server with holdingTankIndex := index } index.val
            (.held ptr)).onWoomera ptr fun woomera => { woomera with timeout := true })) ∨
      ∃ index, findTank server coreTankLen server.holdingTankIndex = (false, index) ∧
        addToHoldingTank server ptr = (0, { server with holdingTankIndex := index }) := by
  cases found : findTank server coreTankLen server.holdingTankIndex with
  | mk free index =>
      cases free with
      | true => exact Or.inl ⟨index, rfl, by simp [addToHoldingTank, found]⟩
      | false => exact Or.inr ⟨index, rfl, by simp [addToHoldingTank, found]⟩

theorem Spared.heldAt {before after : Woomera} (spared : Spared before after) (index : Nat) :
    Spared { before with indexHold := index } (heldAt index after) where
  pc := spared.pc
  indexHold := rfl
  localSpan := spared.localSpan
  localChan := spared.localChan
  localIndex := spared.localIndex
  loopTdm := spared.loopTdm
  nackSent := spared.nackSent
  stoppedSent := spared.stoppedSent
  hangup := spared.hangup
  mediaEnd := spared.mediaEnd
  hangupAck := spared.hangupAck
  hangupNackAck := spared.hangupNackAck

theorem timeout_spared (woomera : Woomera) : Spared woomera { woomera with timeout := true } := by
  constructor <;> simp

/-- What has changed only the session before leaves the tank as `add_to_holding_tank` takes it. -/
theorem Served.called {reached : Server} (known : Served ptr server reached)
    (start : reached.holdingTankIndex = server.holdingTankIndex)
    (table : reached.processTable = server.processTable)
    (found : findTank reached coreTankLen reached.holdingTankIndex = (true, index)) :
    Called ptr index server
      (((Server.setTank { reached with holdingTankIndex := index } index.val
        (.held ptr)).onWoomera ptr fun woomera => { woomera with timeout := true }).onWoomera ptr
          (heldAt index.val)) where
  found := by
    rw [← start, ← findTank_congr known.tank]
    exact found
  own := by
    simp only [onWoomera_woomera, setTank_woomera, Function.update_self]
    exact (known.own.trans (timeout_spared _)).heldAt index.val
  others other apart := by
    simp only [onWoomera_woomera, setTank_woomera, Function.update_of_ne apart]
    exact known.others other apart
  tank := by simp only [onWoomera_holdingTank, setTank_holdingTank, known.tank]
  dev circuit := by simp only [onWoomera_processTable, setTank_processTable, table]

/-- A CALL takes an index of the tank, or leaves the tank alone. -/
theorem handleWoomeraCallStart_cases (config : Config) (server : Server) (ptr : Ptr) (tg : Nat)
    (raw allBusy write : Bool) :
    Served ptr server (handleWoomeraCallStart config server ptr tg raw allBusy write).2 ∨
      (tg ≤ smgMaxTg ∧ allBusy = false ∧ server.systemReset = false) ∧
        ∃ index, Called ptr index server
          (handleWoomeraCallStart config server ptr tg raw allBusy write).2 := by
  rw [handleWoomeraCallStart]
  have grouped : Served ptr server
      (server.onWoomera ptr fun woomera => { woomera with trunkGroup := tg }) := by
    refine Served.refl.onWoomera ?_
    intro woomera
    constructor <;> simp
  have known : Served ptr server
      ((server.onWoomera ptr fun woomera => { woomera with trunkGroup := tg }).onWoomera ptr
        fun woomera => { woomera with raw := woomera.raw || raw }) := by
    refine grouped.onWoomera ?_
    intro woomera
    constructor <;> simp
  have table : ((server.onWoomera ptr fun woomera => { woomera with trunkGroup := tg }).onWoomera
    ptr fun woomera => { woomera with raw := woomera.raw || raw }).processTable =
      server.processTable := rfl
  have start : ((server.onWoomera ptr fun woomera => { woomera with trunkGroup := tg }).onWoomera
    ptr fun woomera => { woomera with raw := woomera.raw || raw }).holdingTankIndex =
      server.holdingTankIndex := rfl
  simp only
  generalize ((server.onWoomera ptr fun woomera => { woomera with trunkGroup := tg }).onWoomera
    ptr fun woomera => { woomera with raw := woomera.raw || raw }) = reached at known start table ⊢
  split
  · exact Or.inl grouped
  · next group =>
      split
      · exact Or.inl grouped
      · next idle =>
          rw [Bool.not_eq_true, Bool.or_eq_false_iff] at idle
          rcases addToHoldingTank_cases reached ptr with ⟨index, found, added⟩ | ⟨index, -, added⟩
          · right
            refine ⟨⟨Nat.le_of_not_lt group, idle⟩, index, ?_⟩
            have taken : ¬ index.val < 1 := Nat.not_lt.mpr (findTank_pos found)
            have held := known.called start table found
            simp only [added, if_neg taken]
            split
            · simp only
              exact held.send
            · exact held
          · left
            simp only [added, if_pos Nat.zero_lt_one]
            have moved : Served ptr server { reached with holdingTankIndex := index } :=
              ⟨known.own, known.others, known.tank, known.dev⟩
            refine moved.onWoomera ?_
            intro woomera
            constructor <;> simp

/-- A command serves its session, or takes an index of the tank for it. -/
theorem interpretCommand_cases {command : Command} (loop : (server.woomera ptr).pc = .loop)
    (tdm : (server.woomera ptr).loopTdm = false)
    (interpreted : interpretCommand config server ptr command = some next) :
    Served ptr server next ∨
      takesIndex server ptr command = true ∧ ∃ index, Called ptr index server next := by
  cases command with
  | call tg raw allBusy write =>
      rw [interpretCommand] at interpreted
      split at interpreted
      · cases interpreted
        exact Or.inl (Served.refl.onWoomera hangUp_spared)
      · next fresh =>
          rw [Bool.not_eq_true, Bool.or_eq_false_iff] at fresh
          have started := handleWoomeraCallStart_cases config server ptr tg raw allBusy write
          generalize handleWoomeraCallStart config server ptr tg raw allBusy write = result
            at started interpreted
          simp only at interpreted
          rcases started with served | ⟨⟨group, idle, up⟩, index, called⟩
          · split at interpreted
            · cases interpreted
              exact Or.inl served
            · cases interpreted
              exact Or.inl (served.onWoomera hangUp_spared)
          · have taken : takesIndex server ptr (.call tg raw allBusy write) = true := by
              have session : (server.woomera ptr).session.isNone = true := by
                rw [Option.isNone_iff_eq_none]
                exact Option.not_isSome_iff_eq_none.mp (by simp [fresh.1])
              simp [takesIndex, loop, tdm, up, idle, group, session]
            split at interpreted
            · cases interpreted
              exact Or.inr ⟨taken, index, called⟩
            · cases interpreted
              exact Or.inr ⟨taken, index, called.onWoomera hangUp_spared⟩
  | bye cause =>
      cases interpreted
      left
      refine Served.refl.onWoomera ?_
      intro woomera
      have caused := woomeraSetCauseTosig_spared cause woomera
      exact caused.trans (by constructor <;> simp)
  | session uniqueId command =>
      cases uniqueId with
      | none =>
          cases interpreted
          exact Or.inl (Served.refl.onWoomera hangUp_spared)
      | some uniqueId =>
          rw [interpretCommand] at interpreted
          split at interpreted
          · cases interpreted
          · next found =>
              cases interpreted
              exact Or.inl (findSession_served (Or.inl found))
          · next found =>
              cases interpreted
              exact Or.inl (runCommand_served command (findSession_served (Or.inr found)))
  | noSession =>
      cases interpreted
      exact Or.inl Served.refl

theorem sessionCommand_cases {command : Command}
    (served : sessionCommand config server ptr command = some next) :
    Served ptr server next ∨
      takesIndex server ptr command = true ∧ ∃ index, Called ptr index server next := by
  rw [sessionCommand] at served
  split at served
  · next loop =>
      obtain ⟨reached, interpreted, rest⟩ := Option.bind_eq_some_iff.mp served
      have known := interpretCommand_cases loop.1 loop.2 interpreted
      have checks (woomera : Woomera) : Spared woomera { woomera with checkDigits := false } := by
        constructor <;> simp
      split at rest
      · simp only at rest
        split at rest
        · obtain ⟨woomera, tank, -, -, dev⟩ := woomeraCheckDigits_keeps rest
          rcases known with served | ⟨takes, index, called⟩
          · exact Or.inl ((served.onWoomera checks).keep woomera tank dev)
          · exact Or.inr ⟨takes, index, (called.onWoomera checks).keep woomera tank dev⟩
        · cases rest
          rcases known with served | ⟨takes, index, called⟩
          · exact Or.inl (served.onWoomera checks)
          · exact Or.inr ⟨takes, index, called.onWoomera checks⟩
      · cases rest
        exact known
  · cases served
    exact Or.inl Served.refl

end Called

end Wanpipe.Mgd
