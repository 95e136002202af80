import Wanpipe.Mgd.Server

/-! What `sangoma_mgd` does on each event from boost. A handler that follows a NULL session or reaches
past an array has no result. -/

namespace Wanpipe.Mgd

open Line

/-- The members of `short_signal_event_t` and `call_signal_event_t` that the handlers use. -/
structure Event where
  id : EventId
  span : Octet
  chan : Octet
  callSetupId : BitVec 16
  trunkGroup : BitVec 32
  releaseCause : Octet
  digitsCount : Octet
  deriving DecidableEq, Repr

/-- What the handlers get from elsewhere: the address of a new session, whether its thread and a
media thread can be started, how many listeners there are and what `rand` returns. -/
structure Outcomes where
  alloc : Option Ptr
  thread : Bool
  media : Bool
  clients : Nat
  rand : List Nat

def Event.circuit (event : Event) : Circuit := (event.span.toNat, event.chan.toNat)

/-- `process_table[span][chan]` is there. -/
def InTable (circuit : Circuit) : Prop :=
  circuit.1 < coreMaxSpans ∧ circuit.2 < coreMaxChanPerSpan + 1

instance (circuit : Circuit) : Decidable (InTable circuit) := inferInstanceAs (Decidable (_ ∧ _))

/-- An access to an entry of the process table. -/
def atSlot (circuit : Circuit) (next : Option Server) : Option Server :=
  if InTable circuit then next else none

/-- An access to the arrays of the trunk groups. -/
def atTrunkGroup (tg : Nat) (next : Option Server) : Option Server :=
  if tg ≤ smgMaxTg then next else none

def Event.valid (event : Event) (config : Config) : Bool :=
  smgValidateSpanChan config event.span.toNat event.chan.toNat

/-- `isup_exec_command(event->span, event->chan, -1, ...)`. -/
def answer (config : Config) (server : Server) (event : Event) (cmd : EventId) (cause : Nat) :
    Server :=
  isupExecCommand config server event.span.toNat event.chan.toNat 0 cmd cause

def hangupBusy (woomera : Woomera) : Woomera := { woomera with hangup := true, mediaEnd := true }

def endMedia (woomera : Woomera) : Woomera := { woomera with mediaEnd := true }

def sessionOf (event : Event) (rest : List Nat) : UniqueId :=
  ⟨event.span.toNat, event.chan.toNat, rest⟩

/-- `woomera_set_cause_topbx`. -/
def woomeraSetCauseTopbx (woomera : Woomera) (cause : Nat) : Woomera :=
  { woomera with
    causeTopbx := if cause = 0 then releaseCauseNormal else if cause = 117 then 34 else cause }

/-- `WFLAG_WAIT_FOR_NACK_ACK_SENT` or `WFLAG_WAIT_FOR_STOPPED_ACK_SENT`: the session has released the
circuit itself. -/
def Woomera.waitSent (woomera : Woomera) : Bool :=
  woomera.waitForNackAckSent || woomera.waitForStoppedAckSent

/-- The entry of the process table as a new call finds it. -/
def startSlot (event : Event) (rand : List Nat) (clients : Nat) (slot : Slot) : Slot :=
  { slot with
    dev := none, session := some (sessionOf event rand), digitsLen := noDigits
    clients := clients }

def emptySlot (slot : Slot) : Slot := { slot with dev := none, session := none }

def handleCallStart (config : Config) (server : Server) (event : Event) (out : Outcomes) :
    Option Server :=
  if event.valid config then
    atSlot event.circuit <|
      match (server.processTable event.circuit).dev with
      | some busy =>
          some (answer config (server.onWoomera busy hangupBusy) event .callStartNack 17)
      | none =>
          let started := server.onSlot event.circuit (startSlot event out.rand out.clients)
          let acked :=
            if config.autoacm then answer config started event .callStartAck 0 else started
          if out.clients = 0 then
            some (answer config (acked.onSlot event.circuit emptySlot) event
              (if config.autoacm then .callStopped else .callStartNack) 17)
          else some acked
  else some server

/-- The session in the slot of an event, unless it has released the circuit itself. -/
def releasable (server : Server) (event : Event) : Option Ptr :=
  (server.processTable event.circuit).dev.filter fun ptr => !(server.woomera ptr).waitSent

def clearSession (slot : Slot) : Slot := { slot with session := none }

def stopped (cause : Nat) (woomera : Woomera) : Woomera :=
  { woomeraSetCauseTopbx woomera cause with mediaEnd := true, hangup := true, hangupAck := true }

def handleCallStop (config : Config) (server : Server) (event : Event) : Option Server :=
  atSlot event.circuit <|
    let cleared := server.onSlot event.circuit clearSession
    match releasable server event with
    | some ptr => some (cleared.onWoomera ptr (stopped event.releaseCause.toNat))
    | none => some (answer config cleared event .callStoppedAck 0)

/-- The session that boost has accepted, in the slot of its circuit. -/
def ackedSlot (ptr : Ptr) (event : Event) (rand : List Nat) (slot : Slot) : Slot :=
  { slot with
    dev := some ptr
    session := some (sessionOf event (event.span.toNat :: event.chan.toNat :: rand))
    digitsLen := noDigits }

def ackedWoomera (event : Event) (rand : List Nat) (woomera : Woomera) : Woomera :=
  { woomera with
    callAcked := true
    interface := some event.circuit
    session := some (sessionOf event rand) }

/-- `launch_media_thread` of an accepted call. -/
def startMedia (media : Bool) (woomera : Woomera) : Woomera :=
  if media then { woomera with mediaRunning := true } else endMedia woomera

def handleCallStartAck (config : Config) (server : Server) (event : Event) (out : Outcomes) :
    Option Server :=
  match peekFromHoldingTank server event.callSetupId.toNat with
  | none => some (answer config server event .callStopped releaseCauseNormal)
  | some ptr =>
      if (server.woomera ptr).hangup then some (server.onWoomera ptr endMedia)
      else
        let pulled :=
          (pullFromHoldingTank server event.callSetupId.toNat event.span.toNat
            event.chan.toNat).2.onWoomera ptr (ackedWoomera event out.rand)
        atSlot event.circuit <|
          match (pulled.processTable event.circuit).dev with
          | some other =>
              some (((pulled.onWoomera other hangupBusy).onSlot event.circuit
                (ackedSlot ptr event out.rand)).onWoomera ptr endMedia)
          | none =>
              some ((pulled.onSlot event.circuit (ackedSlot ptr event out.rand)).onWoomera ptr
                (startMedia out.media))

def nackedById (cause : Nat) (woomera : Woomera) : Woomera :=
  { woomeraSetCauseTopbx woomera cause with
    hangup := true, hangupNackAck := true, running := false }

def nackedOnCircuit (cause : Nat) (woomera : Woomera) : Woomera :=
  let caused :=
    if woomera.hangup then woomera
    else woomeraSetCauseTopbx woomera (if cause = 200 ∨ cause = 117 then 17 else cause)
  { caused with hangup := true, mediaEnd := true, hangupNackAck := true }

/-- The session that a CALL_START_NACK is about, whether it is answered at once, and the state after
the session was told. -/
def nackSession (config : Config) (server : Server) (event : Event) :
    Option (Option Ptr × Bool × Server) :=
  let id := event.callSetupId.toNat
  match if 0 < id then peekFromHoldingTank server id else none with
  | some ptr =>
      if (server.woomera ptr).hangup then some (some ptr, true, server)
      else
        some (some ptr, false, server.onWoomera ptr (nackedById event.releaseCause.toNat))
  | none =>
      if id = 0 ∧ event.valid config = true then
        if InTable event.circuit then
          match releasable server event with
          | some ptr =>
              some (some ptr, false,
                (server.onSlot event.circuit emptySlot).onWoomera ptr
                  (nackedOnCircuit event.releaseCause.toNat))
          | none => some (none, true, server.onSlot event.circuit clearSession)
        else none
      else some (none, true, server)

/-- `SIGBOOST_CALL_SETUP_NACK_ALL_CKTS_BUSY`. -/
def allCktsBusy : Nat := 117

def handleCallStartNack (config : Config) (server : Server) (event : Event) : Option Server :=
  match nackSession config server event with
  | none => none
  | some (found, ack, told) =>
      let answered :=
        if ack then
          if event.valid config then
            isupExecCommand config told event.span.toNat event.chan.toNat
              event.callSetupId.toNat .callStartNackAck 0
          else isupExecCommand config told 0 0 event.callSetupId.toNat .callStartNackAck 0
        else told
      if event.releaseCause.toNat = allCktsBusy then
        match found with
        | none => none
        | some ptr => atTrunkGroup (server.woomera ptr).trunkGroup (some answered)
      else some answered

def handleCallAnswer (config : Config) (server : Server) (event : Event) : Option Server :=
  if event.valid config then
    atSlot event.circuit <|
      match (server.processTable event.circuit).dev with
      | none => some server
      | some ptr =>
          let woomera := { server.woomera ptr with timeout := false }
          if !woomera.raw || woomera.answer then
            some (server.setWoomera ptr (endMedia woomera))
          else
            let answered := { woomera with answer := true }
            if answered.span ≠ (event.span.toNat : Int) ∨
                answered.chan ≠ (event.chan.toNat : Int) then
              some (server.setWoomera ptr (endMedia answered))
            else if answered.hangup then some (server.setWoomera ptr (endMedia answered))
            else
              some (server.setWoomera ptr { answered with interface := some event.circuit })
  else some server

def handleCallStartNackAck (config : Config) (server : Server) (event : Event) :
    Option Server :=
  let id := event.callSetupId.toNat
  let clearWait (woomera : Woomera) : Woomera := { woomera with waitForNackAck := false }
  match pullFromHoldingTank server id (-1) (-1) with
  | (some ptr, pulled) => some (clearFromHoldingTank (pulled.onWoomera ptr clearWait) id none)
  | (none, _) =>
      if id = 0 ∧ event.valid config = true then
        atSlot event.circuit <|
          let emptied := server.onSlot event.circuit emptySlot
          match (server.processTable event.circuit).dev with
          | some ptr => some (emptied.onWoomera ptr clearWait)
          | none => some emptied
      else some (clearFromHoldingTank server id none)

def handleCallStopAck (config : Config) (server : Server) (event : Event) : Option Server :=
  let clearWait (woomera : Woomera) : Woomera := { woomera with waitForStoppedAck := false }
  if event.valid config then
    atSlot event.circuit <|
      let emptied := server.onSlot event.circuit emptySlot
      let told :=
        match (server.processTable event.circuit).dev with
        | some ptr => emptied.onWoomera ptr clearWait
        | none => emptied
      some (clearFromHoldingTank told event.callSetupId.toNat none)
  else some server

/-- The session of a loop test, with its thread. -/
def loopWoomera (event : Event) : Woomera :=
  { allocWoomera with
    span := event.span.toNat, chan := event.chan.toNat, loopTdm := true
    interface := some event.circuit, running := true, pc := .loop }

def loopSlot (ptr : Ptr) (event : Event) (rand : List Nat) (slot : Slot) : Slot :=
  { slot with dev := some ptr, session := some (sessionOf event rand) }

def handleCallLoopStart (config : Config) (server : Server) (event : Event) (out : Outcomes) :
    Option Server :=
  atSlot event.circuit <|
    match (server.processTable event.circuit).dev with
    | some _ => some (answer config server event .callStartNack 17)
    | none =>
        match out.alloc with
        | none => none
        | some ptr =>
            -- a thread that does not start leaves NULL for the flag that is set next
            if out.thread then
              some (((server.onSlot event.circuit (loopSlot ptr event out.rand)).setWoomera ptr
                (loopWoomera event)).onWoomera ptr fun woomera =>
                  { woomera with callAcked := true })
            else none

def handleRestart (server : Server) : Server :=
  if server.systemNeedResetAck then server
  else { server with systemNeedInResetAck := true, systemReset := true }

def handleRestartAck (server : Server) : Server := { server with systemNeedResetAck := false }

def handleRemoveLoop (server : Server) (event : Event) : Option Server :=
  atSlot event.circuit <|
    let emptied := server.onSlot event.circuit emptySlot
    match (server.processTable event.circuit).dev with
    | some ptr => some (emptied.onWoomera ptr hangupBusy)
    | none => some emptied

/-- `smg_clear_ckt_gap(event->trunk_group+1)`. -/
def handleGapAbate (server : Server) (event : Event) : Option Server :=
  atTrunkGroup (event.trunkGroup + 1#32).toNat (some server)

/-- `woomera_check_digits`: the queued digits go to the session. -/
def woomeraCheckDigits (config : Config) (server : Server) (ptr : Ptr) : Option Server :=
  match (server.woomera ptr).interface with
  | none => some server
  | some (span, chan) =>
      -- the name counts from one, and is validated so
      if smgValidateSpanChan config (span + 1 : Nat) (chan + 1 : Nat) then
        atSlot (span, chan)
          (some (server.onSlot (span, chan) fun slot =>
            { slot with digitsLen := noDigits }))
      else some server

/-- The digits behind those that are there, in the array of the slot. -/
def addDigits (slot : Slot) (count : Nat) : Option Slot :=
  if fits : slot.digitsLen.val + count < maxDialedDigits + 2 then
    some { slot with digitsLen := ⟨slot.digitsLen.val + count, fits⟩ }
  else none

def handleIncomingDigit (config : Config) (server : Server) (event : Event) : Option Server :=
  if event.valid config then
    atSlot event.circuit <|
      (addDigits (server.processTable event.circuit) event.digitsCount.toNat).bind fun slot =>
        let queued := server.setSlot event.circuit slot
        match slot.dev with
        | none => some queued
        | some ptr =>
            if (server.woomera ptr).session.isSome then woomeraCheckDigits config queued ptr
            else some queued
  else some server

def parseSs7Event (config : Config) (server : Server) (event : Event) (out : Outcomes) :
    Option Server :=
  match event.id with
  | .callStart => handleCallStart config server event out
  | .callStopped => handleCallStop config server event
  | .callStartAck => handleCallStartAck config server event out
  | .callStartNack => handleCallStartNack config server event
  | .callAnswered => handleCallAnswer config server event
  | .heartbeat => some server
  | .callStartNackAck => handleCallStartNackAck config server event
  | .callStoppedAck => handleCallStopAck config server event
  | .insertCheckLoop => handleCallLoopStart config server event out
  | .systemRestart => some (handleRestart server)
  | .removeCheckLoop => handleRemoveLoop server event
  | .systemRestartAck => some (handleRestartAck server)
  | .autoCallGapAbate => handleGapAbate server event
  | .digitIn => handleIncomingDigit config server event
  | .callProgress => some server
  | .unknown _ => some server

end Wanpipe.Mgd
