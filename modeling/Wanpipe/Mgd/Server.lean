import Mathlib.Logic.Function.Basic
import Wanpipe.Line.Octets
import Wanpipe.Runs

/-! The state of `sangoma_mgd`: its sessions, the table of the circuits and the holding tank of the
outgoing calls. -/

namespace Wanpipe.Mgd

open Line

def coreMaxSpans : Nat := 200

def coreMaxChanPerSpan : Nat := 32

def coreTankLen : Nat := coreMaxChanPerSpan * coreMaxSpans

theorem coreTankLen_pos : 0 < coreTankLen := by decide

theorem coreTankLen_one : 1 < coreTankLen := by decide

def woomeraMaxChan : Nat := 31

def smgMaxTg : Nat := 32

def maxDialedDigits : Nat := 31

structure Config where
  maxSpans : Nat
  maxChans : Nat
  autoacm : Bool
  deriving DecidableEq, Repr

/-- The address of a session. -/
abbrev Ptr := Nat

/-- `[span][chan]`. -/
abbrev Circuit := Nat × Nat

/-- A session string `s%dc%d-...`: what `sscanf` reads from it, less one, and the rest. -/
structure UniqueId where
  span : Int
  chan : Int
  rest : List Nat
  deriving DecidableEq, Repr

/-- Where a session thread is. -/
inductive Pc
  | loop
  | close
  | hangupTest
  | stop
  | stopSend
  | stopSent
  | nack
  | nackSend
  | nackSent
  | setHangup
  | hangupAckTest
  | hangupAckClear
  | nackAckTest
  | nackAckClear
  | indexTest
  | indexPeek
  | indexNack
  | indexNackSend
  | indexNackSent
  | waitNackAck
  | waitStoppedAck
  | table
  | retry
  | tank
  | gone
  deriving DecidableEq, Repr

/-- `struct woomera_interface` with the flags as members. `interface` is the circuit that its name
says, if it says one; `pc` and the locals belong to its thread. -/
structure Woomera where
  running : Bool
  mediaRunning : Bool
  mediaEnd : Bool
  hangup : Bool
  answer : Bool
  hangupAck : Bool
  hangupNackAck : Bool
  waitForNackAck : Bool
  waitForStoppedAck : Bool
  rawMediaStarted : Bool
  callAcked : Bool
  waitForNackAckSent : Bool
  waitForStoppedAckSent : Bool
  waitForAckTimeout : Bool
  raw : Bool
  interface : Option Circuit
  timeout : Bool
  index : Nat
  indexHold : Nat
  span : Int
  chan : Int
  trunkGroup : Nat
  causeTosig : Nat
  causeTopbx : Nat
  loopTdm : Bool
  session : Option UniqueId
  checkDigits : Bool
  pc : Pc
  localSpan : Int
  localChan : Int
  localIndex : Nat
  deriving DecidableEq, Repr

/-- `SIGBOOST_RELEASE_CAUSE_NORMAL`. -/
def releaseCauseNormal : Nat := 16

/-- `alloc_woomera`. -/
def allocWoomera : Woomera :=
  { running := false, mediaRunning := false, mediaEnd := false, hangup := false, answer := false
    hangupAck := false, hangupNackAck := false, waitForNackAck := false
    waitForStoppedAck := false, rawMediaStarted := false, callAcked := false
    waitForNackAckSent := false, waitForStoppedAckSent := false, waitForAckTimeout := false
    raw := false, interface := none, timeout := false, index := 0, indexHold := 0, span := -1
    chan := -1, trunkGroup := 0, causeTosig := releaseCauseNormal
    causeTopbx := releaseCauseNormal, loopTdm := false, session := none, checkDigits := false
    pc := .gone, localSpan := -1, localChan := -1, localIndex := 0 }

theorem maxDialedDigits_pos : 0 < maxDialedDigits + 2 := by decide

def noDigits : Fin (maxDialedDigits + 2) := ⟨0, maxDialedDigits_pos⟩

/-- `struct woomera_session`, an entry of the process table. The digits fit into their array. -/
structure Slot where
  dev : Option Ptr
  session : Option UniqueId
  digitsLen : Fin (maxDialedDigits + 2)
  clients : Nat
  deriving DecidableEq, Repr

/-- An entry of the holding tank; `dead` is the address of `woomera_dead_dev`. -/
inductive Tank
  | free
  | dead
  | held (woomera : Ptr)
  deriving DecidableEq, Repr

inductive EventId
  | callStart
  | callStartAck
  | callStartNack
  | callStartNackAck
  | callAnswered
  | callStopped
  | callStoppedAck
  | systemRestart
  | systemRestartAck
  | callProgress
  | heartbeat
  | insertCheckLoop
  | removeCheckLoop
  | autoCallGapAbate
  | digitIn
  | unknown (value : BitVec 32)
  deriving DecidableEq, Repr

/-- A message to boost. -/
structure Msg where
  id : EventId
  span : Int
  chan : Int
  callSetupId : Nat
  releaseCause : Nat
  deriving DecidableEq, Repr

structure Server where
  processTable : Circuit → Slot
  holdingTank : Nat → Tank
  holdingTankIndex : Fin coreTankLen
  woomera : Ptr → Woomera
  systemReset : Bool
  systemNeedResetAck : Bool
  systemNeedInResetAck : Bool
  sent : List Msg

def Server.setSlot (server : Server) (circuit : Circuit) (slot : Slot) : Server :=
  { server with processTable := Function.update server.processTable circuit slot }

def Server.setTank (server : Server) (index : Nat) (tank : Tank) : Server :=
  { server with holdingTank := Function.update server.holdingTank index tank }

def Server.setWoomera (server : Server) (ptr : Ptr) (woomera : Woomera) : Server :=
  { server with woomera := Function.update server.woomera ptr woomera }

/-- A change of one session. -/
def Server.onWoomera (server : Server) (ptr : Ptr) (change : Woomera → Woomera) : Server :=
  server.setWoomera ptr (change (server.woomera ptr))

def Server.onSlot (server : Server) (circuit : Circuit) (change : Slot → Slot) : Server :=
  server.setSlot circuit (change (server.processTable circuit))

section Updates

variable (server : Server) (circuit : Circuit) (slot : Slot) (index : Nat) (tank : Tank)
  (ptr other : Ptr) (woomera : Woomera) (change : Woomera → Woomera) (empty : Slot → Slot)

@[simp] theorem setSlot_woomera : (server.setSlot circuit slot).woomera = server.woomera := rfl

@[simp] theorem setSlot_holdingTank :
    (server.setSlot circuit slot).holdingTank = server.holdingTank := rfl

@[simp] theorem setSlot_sent : (server.setSlot circuit slot).sent = server.sent := rfl

@[simp] theorem setSlot_systemReset :
    (server.setSlot circuit slot).systemReset = server.systemReset := rfl

@[simp] theorem setSlot_processTable :
    (server.setSlot circuit slot).processTable =
      Function.update server.processTable circuit slot := rfl

@[simp] theorem onSlot_woomera : (server.onSlot circuit empty).woomera = server.woomera := rfl

@[simp] theorem onSlot_holdingTank :
    (server.onSlot circuit empty).holdingTank = server.holdingTank := rfl

@[simp] theorem onSlot_sent : (server.onSlot circuit empty).sent = server.sent := rfl

@[simp] theorem onSlot_systemReset :
    (server.onSlot circuit empty).systemReset = server.systemReset := rfl

@[simp] theorem onSlot_processTable :
    (server.onSlot circuit empty).processTable =
      Function.update server.processTable circuit (empty (server.processTable circuit)) := rfl

@[simp] theorem setTank_woomera : (server.setTank index tank).woomera = server.woomera := rfl

@[simp] theorem setTank_processTable :
    (server.setTank index tank).processTable = server.processTable := rfl

@[simp] theorem setTank_sent : (server.setTank index tank).sent = server.sent := rfl

@[simp] theorem setTank_systemReset :
    (server.setTank index tank).systemReset = server.systemReset := rfl

@[simp] theorem setTank_holdingTank :
    (server.setTank index tank).holdingTank = Function.update server.holdingTank index tank := rfl

@[simp] theorem setWoomera_processTable :
    (server.setWoomera ptr woomera).processTable = server.processTable := rfl

@[simp] theorem setWoomera_holdingTank :
    (server.setWoomera ptr woomera).holdingTank = server.holdingTank := rfl

@[simp] theorem setWoomera_sent : (server.setWoomera ptr woomera).sent = server.sent := rfl

@[simp] theorem setWoomera_systemReset :
    (server.setWoomera ptr woomera).systemReset = server.systemReset := rfl

@[simp] theorem setWoomera_woomera :
    (server.setWoomera ptr woomera).woomera = Function.update server.woomera ptr woomera := rfl

@[simp] theorem onWoomera_processTable :
    (server.onWoomera ptr change).processTable = server.processTable := rfl

@[simp] theorem onWoomera_holdingTank :
    (server.onWoomera ptr change).holdingTank = server.holdingTank := rfl

@[simp] theorem onWoomera_sent : (server.onWoomera ptr change).sent = server.sent := rfl

@[simp] theorem onWoomera_systemReset :
    (server.onWoomera ptr change).systemReset = server.systemReset := rfl

@[simp] theorem onWoomera_woomera :
    (server.onWoomera ptr change).woomera =
      Function.update server.woomera ptr (change (server.woomera ptr)) := rfl

end Updates

/-- `smg_validate_span_chan` returns 0. -/
def smgValidateSpanChan (config : Config) (span chan : Int) : Bool :=
  decide (0 ≤ span ∧ span ≤ config.maxSpans ∧ 0 ≤ chan ∧ chan ≤ woomeraMaxChan)

/-- `isup_exec_command`. The socket takes the message. -/
def isupExecCommand (config : Config) (server : Server) (span chan : Int) (id : Nat)
    (cmd : EventId) (cause : Nat) : Server :=
  if config.maxSpans < span ∨ config.maxChans < chan then server
  else if server.systemReset then server
  else { server with sent := server.sent ++ [⟨cmd, span, chan, id, cause⟩] }

section Commands

variable (config : Config) (server : Server) (span chan : Int) (id : Nat) (cmd : EventId)
  (cause : Nat)

/-- A message goes out, or nothing happens. -/
theorem isupExecCommand_cases :
    isupExecCommand config server span chan id cmd cause = server ∨
      isupExecCommand config server span chan id cmd cause =
        { server with sent := server.sent ++ [⟨cmd, span, chan, id, cause⟩] } := by
  rw [isupExecCommand]
  split
  · exact Or.inl rfl
  · split
    · exact Or.inl rfl
    · exact Or.inr rfl

@[simp] theorem isupExecCommand_woomera :
    (isupExecCommand config server span chan id cmd cause).woomera = server.woomera := by
  rcases isupExecCommand_cases config server span chan id cmd cause with same | sent
  · rw [same]
  · rw [sent]

@[simp] theorem isupExecCommand_processTable :
    (isupExecCommand config server span chan id cmd cause).processTable = server.processTable := by
  rcases isupExecCommand_cases config server span chan id cmd cause with same | sent
  · rw [same]
  · rw [sent]

@[simp] theorem isupExecCommand_holdingTank :
    (isupExecCommand config server span chan id cmd cause).holdingTank = server.holdingTank := by
  rcases isupExecCommand_cases config server span chan id cmd cause with same | sent
  · rw [same]
  · rw [sent]

@[simp] theorem isupExecCommand_holdingTankIndex :
    (isupExecCommand config server span chan id cmd cause).holdingTankIndex =
      server.holdingTankIndex := by
  rcases isupExecCommand_cases config server span chan id cmd cause with same | sent
  · rw [same]
  · rw [sent]

@[simp] theorem isupExecCommand_systemReset :
    (isupExecCommand config server span chan id cmd cause).systemReset = server.systemReset := by
  rcases isupExecCommand_cases config server span chan id cmd cause with same | sent
  · rw [same]
  · rw [sent]

end Commands

/-- An index that `pull_from_holding_tank`, `clear_from_holding_tank`, `peek_from_holding_tank` and
`check_tank_index` do not refuse. -/
def tankIndex (index : Nat) : Bool := decide (1 ≤ index ∧ index < coreTankLen)

def peekFromHoldingTank (server : Server) (index : Nat) : Option Ptr :=
  if tankIndex index then
    match server.holdingTank index with
    | .held ptr => some ptr
    | _ => none
  else none

def pullFromHoldingTank (server : Server) (index : Nat) (span chan : Int) :
    Option Ptr × Server :=
  match peekFromHoldingTank server index with
  | none => (none, server)
  | some ptr =>
      (some ptr,
        (server.setTank index .dead).onWoomera ptr fun woomera =>
          { woomera with index := 0, span := span, chan := chan })

def clearAllHoldingTank (server : Server) : Server :=
  { server with holdingTank := fun _ => .free }

def clearFromHoldingTank (server : Server) (index : Nat) (woomera : Option Ptr) : Server :=
  if tankIndex index then
    match server.holdingTank index with
    | .dead => server.setTank index .free
    | .held ptr => if woomera = some ptr then server.setTank index .free else server
    | .free => server
  else server

/-- The index after `index`, round the tank. -/
def nextIndex (index : Fin coreTankLen) : Fin coreTankLen :=
  if next : index.val + 1 < coreTankLen then ⟨index.val + 1, next⟩
  else ⟨1, coreTankLen_one⟩

/-- The loop of `add_to_holding_tank`: the index where it ends, and whether that was found free. -/
def findTank (server : Server) : Nat → Fin coreTankLen → Bool × Fin coreTankLen
  | 0, index => (false, index)
  | rounds + 1, index =>
      if server.holdingTank (nextIndex index).val = .free then (true, nextIndex index)
      else findTank server rounds (nextIndex index)

def addToHoldingTank (server : Server) (ptr : Ptr) : Nat × Server :=
  let found := findTank server coreTankLen server.holdingTankIndex
  let moved := { server with holdingTankIndex := found.2 }
  if found.1 then
    (found.2.val,
      (moved.setTank found.2.val (.held ptr)).onWoomera ptr fun woomera =>
        { woomera with timeout := true })
  else (0, moved)

end Wanpipe.Mgd
