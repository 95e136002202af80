import Wanpipe.Mgd.Boost

/-! The sessions of `sangoma_mgd`: the commands of their clients and the steps of their threads, and
what all of the daemon does in one step. -/

namespace Wanpipe.Mgd

open Line

/-- The headers of MEDIA, ACCEPT and ANSWER, and whether the media thread can be started. -/
structure MediaArgs where
  raw : Bool
  launch : Bool
  deriving DecidableEq, Repr

inductive SessionCommand
  | hangup (cause : Nat)
  | progress
  | media (args : MediaArgs)
  | accept (args : MediaArgs)
  | answer (args : MediaArgs)
  | other
  deriving DecidableEq, Repr

/-- A message of a client. The trunk group of a CALL comes with what `smg_check_all_busy` says of it
and whether the socket to boost takes the CALL_START. -/
inductive Command
  | call (tg : Nat) (raw allBusy write : Bool)
  | bye (cause : Nat)
  | session (uniqueId : Option UniqueId) (command : SessionCommand)
  | noSession
  deriving DecidableEq, Repr

/-- `woomera_set_cause_tosig`, where the header has a cause. -/
def woomeraSetCauseTosig (woomera : Woomera) (cause : Nat) : Woomera :=
  if cause = 0 then woomera else { woomera with causeTosig := cause }

def hangUp (woomera : Woomera) : Woomera := { woomera with hangup := true }

def heldAt (index : Nat) (woomera : Woomera) : Woomera :=
  { woomera with index := index, indexHold := index }

/-- `handle_woomera_call_start`: whether it succeeds, and the state. -/
def handleWoomeraCallStart (config : Config) (server : Server) (ptr : Ptr)
    (tg : Nat) (raw allBusy write : Bool) : Bool × Server :=
  let grouped := server.onWoomera ptr fun woomera => { woomera with trunkGroup := tg }
  if smgMaxTg < tg then (false, grouped)
  else if allBusy || server.systemReset then (false, grouped)
  else
    let known :=
      grouped.onWoomera ptr fun woomera => { woomera with raw := woomera.raw || raw }
    let added := addToHoldingTank known ptr
    if added.1 < 1 then
      (false, added.2.onWoomera ptr fun woomera => { woomera with index := added.1 })
    else
      let held := added.2.onWoomera ptr (heldAt added.1)
      if write then (true, isupExecCommand config held 0 0 added.1 .callStart 0)
      else (false, held)

def Woomera.checkRunning (woomera : Woomera) : Bool :=
  woomera.running && !woomera.hangup && !woomera.mediaEnd

def failMedia (woomera : Woomera) : Woomera :=
  { woomera with mediaEnd := true, running := false, timeout := false }

/-- The media thread of a call is started once there is an address for it. -/
def takeRaw (args : MediaArgs) (woomera : Woomera) : Option Woomera :=
  if args.raw && !woomera.raw && !woomera.rawMediaStarted then
    let started := { woomera with rawMediaStarted := true, raw := true }
    if args.launch then some { started with mediaRunning := true } else none
  else some woomera

/-- The CALL_START_ACK of a call that is accepted for the first time. -/
def ackCall (config : Config) (server : Server) (ptr : Ptr) : Server :=
  let woomera := server.woomera ptr
  if config.autoacm || woomera.callAcked then server
  else
    isupExecCommand config (server.setWoomera ptr { woomera with callAcked := true })
      woomera.span woomera.chan 0 .callStartAck 0

/-- `handle_woomera_media_accept_answer`. -/
def handleWoomeraMediaAcceptAnswer (config : Config) (server : Server) (ptr : Ptr)
    (args : MediaArgs) (answer accept : Bool) : Server :=
  let woomera := server.woomera ptr
  if woomera.checkRunning then
    match takeRaw args woomera with
    | none =>
        server.setWoomera ptr (failMedia { woomera with rawMediaStarted := true, raw := true })
    | some ready =>
        let taken := server.setWoomera ptr ready
        let accepted := if accept then ackCall config taken ptr else taken
        if answer then
          -- a media session is there as long as its thread runs
          if (accepted.woomera ptr).mediaRunning then
            let acked := ackCall config accepted ptr
            let answered := acked.onWoomera ptr fun woomera => { woomera with answer := true }
            isupExecCommand config answered woomera.span woomera.chan 0 .callAnswered 0
          else accepted.onWoomera ptr failMedia
        else accepted
  else server.setWoomera ptr { woomera with timeout := false }

/-- A session that takes an incoming call. -/
def boundWoomera (uniqueId : UniqueId) (circuit : Circuit) (woomera : Woomera) : Woomera :=
  { woomera with
    session := some uniqueId, interface := some circuit, span := uniqueId.span
    chan := uniqueId.chan, checkDigits := true }

/-- How the session of a command is found: not at all, or in a state in which it may go on. -/
inductive Lookup
  | hungUp (server : Server)
  | found (server : Server)

/-- The part of `interpret_command` that finds the session of a command by its Unique-Call-Id. -/
def findSession (config : Config) (server : Server) (ptr : Ptr) (uniqueId : UniqueId)
    (command : SessionCommand) : Option Lookup :=
  let refused := Lookup.hungUp (server.onWoomera ptr hangUp)
  match (server.woomera ptr).session with
  | some own => if own = uniqueId then some (.found server) else some refused
  | none =>
      if smgValidateSpanChan config uniqueId.span uniqueId.chan then
        let circuit : Circuit := (uniqueId.span.toNat, uniqueId.chan.toNat)
        if InTable circuit then
          let slot := server.processTable circuit
          if slot.dev.isSome then some refused
          else if slot.session ≠ some uniqueId then some refused
          else
            match command with
            | .hangup _ =>
                if 1 < slot.clients then
                  some (.hungUp ((server.setSlot circuit
                    { slot with clients := slot.clients - 1 }).onWoomera ptr hangUp))
                else
                  some (.found ((server.setSlot circuit { slot with dev := some ptr }).onWoomera
                    ptr (boundWoomera uniqueId circuit)))
            | _ =>
                some (.found ((server.setSlot circuit { slot with dev := some ptr }).onWoomera
                  ptr (boundWoomera uniqueId circuit)))
        else none
      else some refused

/-- The part of `interpret_command` behind the look for the session. -/
def runCommand (config : Config) (server : Server) (ptr : Ptr) : SessionCommand → Server
  | .hangup cause =>
      let caused := server.onWoomera ptr fun woomera => woomeraSetCauseTosig woomera cause
      let woomera := caused.woomera ptr
      if smgValidateSpanChan config woomera.span woomera.chan then
        caused.setWoomera ptr { woomera with mediaEnd := true, running := false }
      else caused
  | .progress =>
      let woomera := server.woomera ptr
      if woomera.checkRunning && woomera.callAcked then
        isupExecCommand config server woomera.span woomera.chan woomera.index .callProgress 0
      else server
  | .media args => handleWoomeraMediaAcceptAnswer config server ptr args false false
  | .accept args => handleWoomeraMediaAcceptAnswer config server ptr args false true
  | .answer args => handleWoomeraMediaAcceptAnswer config server ptr args true false
  | .other => server

def interpretCommand (config : Config) (server : Server) (ptr : Ptr) :
    Command → Option Server
  | .call tg raw allBusy write =>
      if (server.woomera ptr).session.isSome || server.systemReset then
        some (server.onWoomera ptr hangUp)
      else
        let started := handleWoomeraCallStart config server ptr tg raw allBusy write
        if started.1 then some started.2 else some (started.2.onWoomera ptr hangUp)
  | .bye cause =>
      some (server.onWoomera ptr fun woomera =>
        { woomeraSetCauseTosig woomera cause with running := false })
  | .session none _ => some (server.onWoomera ptr hangUp)
  | .session (some uniqueId) command =>
      match findSession config server ptr uniqueId command with
      | none => none
      | some (.hungUp next) => some next
      | some (.found next) => some (runCommand config next ptr command)
  | .noSession => some server

/-- A command in the loop of a session, with the digits that wait for the session behind it. -/
def sessionCommand (config : Config) (server : Server) (ptr : Ptr) (command : Command) :
    Option Server :=
  if (server.woomera ptr).pc = .loop ∧ (server.woomera ptr).loopTdm = false then
    (interpretCommand config server ptr command).bind fun next =>
      if (next.woomera ptr).checkDigits then
        let checked := next.onWoomera ptr fun woomera => { woomera with checkDigits := false }
        if (next.woomera ptr).session.isSome then woomeraCheckDigits config checked ptr
        else some checked
      else some next
  else some server

/-- What a thread finds where it can go more than one way. -/
inductive Choice
  | go
  | readError
  | writeError
  | timedOut
  | systemReset
  deriving DecidableEq, Repr

def goTo (pc : Pc) (woomera : Woomera) : Woomera := { woomera with pc := pc }

/-- The loop of `woomera_thread_run`, or of `woomera_loop_thread_run`, and the ways out of it. -/
def loopStep (server : Server) (ptr : Ptr) (choice : Choice) : Server :=
  let woomera := server.woomera ptr
  let ends := woomera.mediaEnd || woomera.hangup
  if woomera.loopTdm then
    match choice with
    | .go =>
        if ends || server.systemReset then
          server.setWoomera ptr { goTo .close woomera with running := false }
        else server
    -- the media thread of the loop test cannot be started
    | .writeError =>
        server.setWoomera ptr { goTo .close (hangupBusy woomera) with running := false }
    | _ => server
  else
    match choice with
    | .go => if ends || !woomera.running then server.setWoomera ptr (goTo .close woomera) else server
    | .readError => server.setWoomera ptr (goTo .close woomera)
    | .writeError => server.setWoomera ptr { woomera with mediaEnd := true, running := false }
    | .timedOut =>
        if woomera.timeout then
          if woomera.index ≠ 0 then
            server.setWoomera ptr { goTo .close (hangUp woomera) with causeTosig := 19 }
          else server.setWoomera ptr (goTo .close woomera)
        else server
    | .systemReset => server

/-- The wait for an ack, which ends with it, with a timeout or with a reset of the system. -/
def waitStep (server : Server) (ptr : Ptr) (choice : Choice) (waits : Bool)
    (clear : Woomera → Woomera) (next : Pc) : Server :=
  let woomera := server.woomera ptr
  if waits then
    match choice with
    | .timedOut =>
        server.setWoomera ptr { goTo next (clear woomera) with waitForAckTimeout := true }
    | .systemReset =>
        if server.systemReset then server.setWoomera ptr (goTo next (clear woomera)) else server
    | _ => server
  else server.setWoomera ptr (goTo next woomera)

/-- The end of a session: its index leaves the tank. -/
def tankStep (server : Server) (ptr : Ptr) : Server :=
  let woomera := server.woomera ptr
  let left :=
    if 1 ≤ woomera.indexHold then
      if woomera.waitForAckTimeout then
        (pullFromHoldingTank server woomera.indexHold (-1) (-1)).2
      else clearFromHoldingTank server woomera.indexHold (some ptr)
    else server
  left.onWoomera ptr fun woomera => { goTo .gone woomera with indexHold := 0 }

/-- One step of the thread of a session. -/
def threadStep (config : Config) (server : Server) (ptr : Ptr) (choice : Choice) :
    Option Server :=
  let woomera := server.woomera ptr
  let valid := smgValidateSpanChan config woomera.localSpan woomera.localChan
  let local' : Circuit := (woomera.localSpan.toNat, woomera.localChan.toNat)
  let become (next : Woomera) : Option Server := some (server.setWoomera ptr next)
  let send (id : Nat) (span chan : Int) (cmd : EventId) (next : Woomera) : Option Server :=
    some (isupExecCommand config (server.setWoomera ptr next) span chan id cmd woomera.causeTosig)
  match woomera.pc with
  | .loop => some (loopStep server ptr choice)
  | .close =>
      if woomera.mediaRunning then become (endMedia woomera)
      else
        become { goTo .hangupTest woomera with
          localSpan := woomera.span, localChan := woomera.chan }
  | .hangupTest =>
      if woomera.hangup then become (goTo .hangupAckTest woomera)
      else if valid && woomera.index == 0 then
        if config.autoacm || woomera.callAcked then become (goTo .stop woomera)
        else become (goTo .nack woomera)
      else become (goTo .setHangup woomera)
  | .stop => become { goTo .stopSend woomera with waitForStoppedAck := true }
  | .stopSend =>
      send 0 woomera.localSpan woomera.localChan .callStopped (goTo .stopSent woomera)
  | .stopSent => become { goTo .setHangup woomera with waitForStoppedAckSent := true }
  | .nack => become { goTo .nackSend woomera with waitForNackAck := true }
  | .nackSend =>
      send 0 woomera.localSpan woomera.localChan .callStartNack (goTo .nackSent woomera)
  | .nackSent => become { goTo .setHangup woomera with waitForNackAckSent := true }
  | .setHangup => become (goTo .hangupAckTest (hangUp woomera))
  | .hangupAckTest =>
      if woomera.hangupAck then
        if valid then
          send 0 woomera.localSpan woomera.localChan .callStoppedAck
            (goTo .hangupAckClear woomera)
        else become (goTo .hangupAckClear woomera)
      else become (goTo .nackAckTest woomera)
  | .hangupAckClear =>
      become { goTo .nackAckTest woomera with hangupAck := false, hangup := true }
  | .nackAckTest =>
      if woomera.hangupNackAck then
        let cleared := { goTo .nackAckClear woomera with index := 0 }
        if valid then send 0 woomera.localSpan woomera.localChan .callStartNackAck cleared
        else if woomera.index ≠ 0 then send woomera.index 0 0 .callStartNackAck cleared
        else become (goTo .nackAckClear woomera)
      else become (goTo .indexTest woomera)
  | .nackAckClear => become { goTo .indexTest woomera with hangupNackAck := false }
  | .indexTest =>
      if woomera.index ≠ 0 then
        become { goTo .indexPeek woomera with localIndex := woomera.index }
      else become (goTo .waitNackAck woomera)
  | .indexPeek =>
      if (peekFromHoldingTank server woomera.localIndex).isSome then
        become (goTo .indexNack woomera)
      else become (goTo .waitNackAck woomera)
  | .indexNack => become { goTo .indexNackSend woomera with waitForNackAck := true }
  | .indexNackSend =>
      send woomera.localIndex 0 0 .callStartNack (goTo .indexNackSent woomera)
  | .indexNackSent => become { goTo .waitNackAck woomera with waitForNackAckSent := true }
  | .waitNackAck =>
      some (waitStep server ptr choice woomera.waitForNackAck
        (fun woomera => { woomera with waitForNackAck := false }) .waitStoppedAck)
  | .waitStoppedAck =>
      some (waitStep server ptr choice woomera.waitForStoppedAck
        (fun woomera => { woomera with waitForStoppedAck := false }) .table)
  | .table =>
      if valid then
        atSlot local' <|
          if (server.processTable local').dev = some ptr then
            some ((server.onSlot local' fun slot =>
              { emptySlot slot with digitsLen := noDigits }).setWoomera ptr
                (goTo .retry woomera))
          else become (goTo .retry woomera)
      else become (goTo .retry woomera)
  | .retry =>
      if woomera.hangupAck || woomera.hangupNackAck then become (goTo .hangupAckTest woomera)
      else become (goTo .tank woomera)
  | .tank => some (tankStep server ptr)
  | .gone => some server

/-- The restart timer of `monitor_thread_run`, once it has run out. -/
def restartTimer (config : Config) (server : Server) : Server :=
  if server.systemReset then
    if server.systemNeedResetAck then
      isupExecCommand config { server with systemNeedInResetAck := false } 0 0 0 .systemRestart 0
    else if server.systemNeedInResetAck then
      let cleared := clearAllHoldingTank server
      { cleared with
        systemReset := false
        sent := cleared.sent ++ [⟨.systemRestartAck, 0, 0, 0, 0⟩] }
    else server
  else server

/-- What can happen in the daemon. -/
inductive Op
  | boost (event : Event) (out : Outcomes)
  | restartTimer
  | accept (ptr : Ptr)
  | command (ptr : Ptr) (command : Command)
  | thread (ptr : Ptr) (choice : Choice)
  | mediaExit (ptr : Ptr) (hangup : Bool)

def acceptedWoomera : Woomera := { allocWoomera with running := true, pc := .loop }

/-- A step that crashes, or that cannot happen since an address is in use, has no result. -/
def step (config : Config) (server : Server) : Op → Option Server
  | .boost event out =>
      if ∀ ptr ∈ out.alloc, (server.woomera ptr).pc = .gone then
        parseSs7Event config server event out
      else none
  | .restartTimer => some (restartTimer config server)
  | .accept ptr =>
      if (server.woomera ptr).pc = .gone then some (server.setWoomera ptr acceptedWoomera)
      else none
  | .command ptr command => sessionCommand config server ptr command
  | .thread ptr choice => threadStep config server ptr choice
  | .mediaExit ptr hangup =>
      if (server.woomera ptr).mediaRunning then
        some (server.onWoomera ptr fun woomera =>
          { woomera with
            mediaEnd := true, mediaRunning := false, hangup := woomera.hangup || hangup })
      else some server

end Wanpipe.Mgd
