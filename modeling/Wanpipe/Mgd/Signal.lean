import Mathlib.Algebra.Group.Nat.Defs
import Mathlib.Data.List.Nodup
import Wanpipe.Mgd.Server

/-! The connection of `sangoma_mgd` to boost and the sequence numbers of its events. -/

namespace Wanpipe.Mgd.Signal

open Line Runs

/-- `sizeof(call_signal_event_t)`. -/
def callSignalEventSize : Nat := 1074

/-- `sizeof(short_signal_event_t)`. -/
def shortSignalEventSize : Nat := 27

def sizeCustom : Nat := 900

def minSizeCallstartMsg : Nat := callSignalEventSize - sizeCustom

def sigboostVersion : BitVec 16 := 103

def einval : Int := 22

def boostFullEvent : EventId → Bool
  | .callStart => true
  | .digitIn => true
  | .callProgress => true
  | _ => false

/-- `call_signal_event_t`. `rest` is what the connection only carries. -/
structure CallSignalEvent where
  version : BitVec 16
  eventId : EventId
  fseqno : BitVec 32
  bseqno : BitVec 32
  span : Octet
  chan : Octet
  rest : List Octet
  deriving DecidableEq, Repr

def CallSignalEvent.size (event : CallSignalEvent) : Nat :=
  if boostFullEvent event.eventId then callSignalEventSize else shortSignalEventSize

structure CallSignalConnection where
  event : CallSignalEvent
  txseq : BitVec 32
  rxseq : BitVec 32
  txwindow : BitVec 32
  deriving DecidableEq, Repr

inductive Log
  | noEvent
  | invalidSpanChan (id : EventId) (span chan : Octet)
  | inReset
  | invalidSequence (id : EventId) (expect rx : BitVec 32)
  | invalidLength (rxlen : Int)
  deriving DecidableEq, Repr

def Log.sequenceError : Log → Bool
  | .invalidSequence _ _ _ => true
  | _ => false

/-- What a write returns and leaves behind; `passed` is what `sendto` gets. -/
structure Written where
  connection : CallSignalConnection
  err : Int
  passed : Option CallSignalEvent
  log : List Log
  deriving DecidableEq, Repr

/-- The counters before the event is sent. -/
def advance (connection : CallSignalConnection) (id : EventId) : CallSignalConnection :=
  if id = .systemRestartAck then { connection with txseq := 0, rxseq := 0 }
  else { connection with txseq := connection.txseq + 1 }

def fseqnoOf (connection : CallSignalConnection) (id : EventId) : BitVec 32 :=
  if id = .systemRestartAck then 0 else connection.txseq

/-- The event as it is sent. -/
def stamp (connection : CallSignalConnection) (event : CallSignalEvent) : CallSignalEvent :=
  { event with
    fseqno := fseqnoOf connection event.eventId
    bseqno := (advance connection event.eventId).rxseq
    version := sigboostVersion }

/-- `mcon->txseq--`. -/
def retreat (connection : CallSignalConnection) : CallSignalConnection :=
  { connection with txseq := connection.txseq - 1 }

/-- The span and the channel pass the test of the write. -/
def Addressed (config : Config) (event : CallSignalEvent) : Prop :=
  event.span.toNat ≤ config.maxSpans ∧ event.chan.toNat ≤ config.maxChans

instance (config : Config) (event : CallSignalEvent) : Decidable (Addressed config event) :=
  inferInstanceAs (Decidable (_ ∧ _))

/-- `call_signal_connection_write`; `sendto` is what the call of that name returns and `systemReset`
is `WFLAG_SYSTEM_RESET`. -/
def callSignalConnectionWrite (config : Config) (systemReset : Bool)
    (connection : CallSignalConnection) (event : Option CallSignalEvent) (sendto : Int) :
    Written :=
  match event with
  | none => ⟨connection, -einval, none, [.noEvent]⟩
  | some event =>
      if ¬ Addressed config event then
        ⟨connection, -1, none, [.invalidSpanChan event.eventId event.span event.chan]⟩
      else if systemReset ∧ event.eventId ≠ .systemRestartAck then
        ⟨connection, 0, none, [.inReset]⟩
      else if sendto ≠ event.size then
        ⟨retreat (advance connection event.eventId), -1, some (stamp connection event), []⟩
      else ⟨advance connection event.eventId, 0, some (stamp connection event), []⟩

/-- What a read returns and leaves behind. -/
structure Heard where
  connection : CallSignalConnection
  event : Option CallSignalEvent
  log : List Log
  deriving DecidableEq, Repr

/-- `msg_ok`. -/
def msgOk (bytes : Int) (id : EventId) : Bool :=
  if bytes < 0 then false
  else if (minSizeCallstartMsg : Int) ≤ bytes ∧ boostFullEvent id then true
  else decide (bytes = shortSignalEventSize)

/-- `call_signal_connection_read`; `bytes` is what `recvfrom` returns and `event` what it leaves in
`mcon->event`. -/
def callSignalConnectionRead (connection : CallSignalConnection) (iteration bytes : Int)
    (event : CallSignalEvent) : Heard :=
  if msgOk bytes event.eventId then
    let expect := connection.rxseq + 1
    let txwindow := connection.txseq - event.bseqno
    if expect ≠ event.fseqno then
      ⟨⟨event, connection.txseq, event.fseqno, txwindow⟩, some event,
        [.invalidSequence event.eventId expect event.fseqno]⟩
    else ⟨⟨event, connection.txseq, expect, txwindow⟩, some event, []⟩
  else
    ⟨{ connection with event := event }, none,
      if iteration = 0 then [.invalidLength bytes] else []⟩

inductive Op
  | write (systemReset : Bool) (event : Option CallSignalEvent) (sendto : Int)
  | read (iteration bytes : Int) (event : CallSignalEvent)
  deriving DecidableEq, Repr

/-- A connection, the `fseqno` of the events that went out and that came in since the last
`SYSTEM_RESTART_ACK` went out, and all that was logged. -/
structure History where
  connection : CallSignalConnection
  sent : List (BitVec 32)
  heard : List (BitVec 32)
  log : List Log
  deriving DecidableEq, Repr

/-- The event that a write sent. -/
def Written.went (written : Written) : Option CallSignalEvent :=
  if written.err = 0 then written.passed else none

def History.wrote (history : History) (written : Written) : History :=
  match written.went with
  | none =>
      { history with connection := written.connection, log := history.log ++ written.log }
  | some event =>
      if event.eventId = .systemRestartAck then
        ⟨written.connection, [], [], history.log ++ written.log⟩
      else
        { history with
          connection := written.connection, sent := history.sent ++ [event.fseqno]
          log := history.log ++ written.log }

def History.got (history : History) (heard : Heard) : History :=
  { history with
    connection := heard.connection, log := history.log ++ heard.log
    heard := history.heard ++ (heard.event.map CallSignalEvent.fseqno).toList }

def step (config : Config) (history : History) : Op → History
  | .write systemReset event sendto =>
      history.wrote
        (callSignalConnectionWrite config systemReset history.connection event sendto)
  | .read iteration bytes event =>
      history.got (callSignalConnectionRead history.connection iteration bytes event)

/-- The connection in the cleared `server`. -/
def cleared : CallSignalConnection := ⟨⟨0, .unknown 0, 0, 0, 0, 0, []⟩, 0, 0, 0⟩

def opened : History := ⟨cleared, [], [], []⟩

def history (config : Config) (ops : List Op) : History := ops.foldl (step config) opened

/-- A write that fails leaves the sequence numbers. -/
def FailureKeeps (config : Config) (history : History) : Op → Prop
  | .write systemReset event sendto =>
      (callSignalConnectionWrite config systemReset history.connection event sendto).err ≠ 0 →
        (callSignalConnectionWrite config systemReset history.connection event
            sendto).connection.txseq = history.connection.txseq ∧
          (callSignalConnectionWrite config systemReset history.connection event
            sendto).connection.rxseq = history.connection.rxseq
  | .read _ _ _ => True

/-- The peer counts its events from 1 since the last restart. -/
def PeerCounts (history : History) : Op → Prop
  | .read _ bytes event =>
      msgOk bytes event.eventId → event.fseqno = BitVec.ofNat 32 (history.heard.length + 1)
  | .write _ _ _ => True

/-- The events that went out have the numbers 0, 1, 2 and so on, as long as a number has its 32 bits
no two of them the same. -/
structure Numbered (sent : List (BitVec 32)) : Prop where
  counts : sent = (List.range sent.length).map (BitVec.ofNat 32)
  once : sent.length ≤ 2 ^ 32 → sent.Nodup

/-- What the sequence numbers are for. -/
structure Sequenced (config : Config) (ops : List Op) : Prop where
  keeps : Along (fun state op => some (step config state op)) (FailureKeeps config) opened ops
  sent : Numbered (history config ops).sent
  heard : Along (fun state op => some (step config state op)) PeerCounts opened ops →
    ∀ log ∈ (history config ops).log, log.sequenceError = false

/-- No `SYSTEM_RESTART_ACK` is lost at the socket, unless the counters are then where the lost one
leaves them. -/
def RestartSent (config : Config) (history : History) : Op → Prop
  | .write _ (some event) sendto =>
      Addressed config event → event.eventId = .systemRestartAck → sendto ≠ event.size →
        history.connection.txseq = -1 ∧ history.connection.rxseq = 0
  | _ => True

@[simp] theorem retreat_rxseq (connection : CallSignalConnection) :
    (retreat connection).rxseq = connection.rxseq := rfl

@[simp] theorem retreat_txseq (connection : CallSignalConnection) :
    (retreat connection).txseq = connection.txseq - 1 := rfl

theorem advance_restart (connection : CallSignalConnection) :
    advance connection .systemRestartAck = { connection with txseq := 0, rxseq := 0 } :=
  if_pos rfl

theorem advance_other (connection : CallSignalConnection) {id : EventId}
    (other : id ≠ .systemRestartAck) :
    advance connection id = { connection with txseq := connection.txseq + 1 } :=
  if_neg other

/-- How a write ends. -/
inductive WriteEnds (config : Config) (connection : CallSignalConnection) (sendto : Int) :
    Option CallSignalEvent → Written → Prop
  | refused {event : Option CallSignalEvent} (err : Int) (log : Log)
      (quiet : log.sequenceError = false) :
      WriteEnds config connection sendto event ⟨connection, err, none, [log]⟩
  | lost (event : CallSignalEvent) (addressed : Addressed config event)
      (short : sendto ≠ event.size) :
      WriteEnds config connection sendto (some event)
        ⟨retreat (advance connection event.eventId), -1, some (stamp connection event), []⟩
  | went (event : CallSignalEvent) :
      WriteEnds config connection sendto (some event)
        ⟨advance connection event.eventId, 0, some (stamp connection event), []⟩

theorem write_ends (config : Config) (systemReset : Bool) (connection : CallSignalConnection)
    (event : Option CallSignalEvent) (sendto : Int) :
    WriteEnds config connection sendto event
      (callSignalConnectionWrite config systemReset connection event sendto) := by
  cases event with
  | none => exact WriteEnds.refused (-einval) .noEvent rfl
  | some event =>
      rw [callSignalConnectionWrite]
      split
      · exact WriteEnds.refused _ _ rfl
      next addressed =>
        split
        · exact WriteEnds.refused _ _ rfl
        · split
          next short => exact WriteEnds.lost event (not_not.mp addressed) short
          · exact WriteEnds.went event

theorem retreat_advance (connection : CallSignalConnection) (id : EventId)
    (kept : id = .systemRestartAck → connection.txseq = -1 ∧ connection.rxseq = 0) :
    retreat (advance connection id) = connection := by
  cases connection with
  | mk event txseq rxseq txwindow =>
    by_cases restart : id = .systemRestartAck
    · obtain ⟨full, zero⟩ := kept restart
      change txseq = -1 at full
      change rxseq = 0 at zero
      rw [restart, advance_restart, retreat, full, zero]
      rfl
    · rw [advance_other _ restart, retreat]
      simp only [BitVec.add_sub_cancel]

/-- A write of a restart that is lost. -/
theorem write_lost (config : Config) (systemReset : Bool) (connection : CallSignalConnection)
    (event : CallSignalEvent) (sendto : Int) (addressed : Addressed config event)
    (restart : event.eventId = .systemRestartAck) (short : sendto ≠ event.size) :
    callSignalConnectionWrite config systemReset connection (some event) sendto =
      ⟨retreat (advance connection event.eventId), -1, some (stamp connection event), []⟩ := by
  rw [callSignalConnectionWrite, if_neg (not_not.mpr addressed), if_neg (by simp [restart]),
    if_pos short]

theorem RestartSent.keeps {config : Config} {history : History} {op : Op}
    (allowed : RestartSent config history op) : FailureKeeps config history op := by
  cases op with
  | read iteration bytes event => trivial
  | write systemReset event sendto =>
      rw [FailureKeeps]
      generalize same : callSignalConnectionWrite config systemReset history.connection event
        sendto = written
      have ends := write_ends config systemReset history.connection event sendto
      rw [same] at ends
      intro failed
      cases ends with
      | refused err log quiet => exact ⟨rfl, rfl⟩
      | went event => exact absurd rfl failed
      | lost event addressed short =>
          rw [retreat_advance _ _ fun restart => allowed addressed restart short]
          exact ⟨rfl, rfl⟩

theorem FailureKeeps.restartSent {config : Config} {history : History} {op : Op}
    (keeps : FailureKeeps config history op) : RestartSent config history op := by
  cases op with
  | read iteration bytes event => trivial
  | write systemReset event sendto =>
      cases event with
      | none => trivial
      | some event =>
          intro addressed restart short
          rw [FailureKeeps, write_lost _ _ _ _ _ addressed restart short, restart,
            advance_restart] at keeps
          obtain ⟨txseq, rxseq⟩ := keeps (by simp)
          exact ⟨txseq.symm, rxseq.symm⟩

/-- The counter for the next event is the number of those that went out. -/
structure Counts (history : History) : Prop where
  txseq : history.connection.txseq = BitVec.ofNat 32 history.sent.length
  sent : history.sent = (List.range history.sent.length).map (BitVec.ofNat 32)

theorem counts_push {sent : List (BitVec 32)} {next : BitVec 32}
    (counts : sent = (List.range sent.length).map (BitVec.ofNat 32))
    (last : next = BitVec.ofNat 32 sent.length) :
    sent ++ [next] = (List.range (sent ++ [next]).length).map (BitVec.ofNat 32) := by
  rw [List.length_append, List.length_singleton, List.range_succ, List.map_append, ← counts, last]
  rfl

theorem ofNat_succ (count : Nat) :
    BitVec.ofNat 32 (count + 1) = BitVec.ofNat 32 count + 1 := by
  rw [BitVec.ofNat_add]
  rfl

section Went

variable (connection : CallSignalConnection) (passed : Option CallSignalEvent) (log : List Log)

theorem went_sent : (⟨connection, 0, passed, log⟩ : Written).went = passed := if_pos rfl

theorem went_failed : (⟨connection, -1, passed, log⟩ : Written).went = none :=
  if_neg (show ¬(-1 : Int) = 0 by decide)

theorem went_unsent (err : Int) : (⟨connection, err, none, log⟩ : Written).went = none := by
  rw [Written.went]
  split
  · rfl
  · rfl

end Went

theorem wrote_went {history : History} {written : Written} {event : CallSignalEvent}
    (went : written.went = some event) (other : event.eventId ≠ .systemRestartAck) :
    history.wrote written =
      { history with
        connection := written.connection, sent := history.sent ++ [event.fseqno]
        log := history.log ++ written.log } := by
  rw [History.wrote, went]
  exact if_neg other

theorem wrote_restart {history : History} {written : Written} {event : CallSignalEvent}
    (went : written.went = some event) (restart : event.eventId = .systemRestartAck) :
    history.wrote written = ⟨written.connection, [], [], history.log ++ written.log⟩ := by
  rw [History.wrote, went]
  exact if_pos restart

theorem wrote_none {history : History} {written : Written} (went : written.went = none) :
    history.wrote written =
      { history with connection := written.connection, log := history.log ++ written.log } := by
  rw [History.wrote, went]

theorem stamp_other (connection : CallSignalConnection) (event : CallSignalEvent)
    (other : event.eventId ≠ .systemRestartAck) :
    (stamp connection event).fseqno = connection.txseq := if_neg other

theorem stamp_eventId (connection : CallSignalConnection) (event : CallSignalEvent) :
    (stamp connection event).eventId = event.eventId := rfl

theorem stamp_ne_restart (connection : CallSignalConnection) {event : CallSignalEvent}
    (other : event.eventId ≠ .systemRestartAck) :
    (stamp connection event).eventId ≠ .systemRestartAck := other

theorem Counts.got {history : History} {heard : Heard} (counts : Counts history)
    (txseq : heard.connection.txseq = history.connection.txseq) :
    Counts (history.got heard) :=
  ⟨txseq.trans counts.txseq, counts.sent⟩

theorem read_txseq (connection : CallSignalConnection) (iteration bytes : Int)
    (event : CallSignalEvent) :
    (callSignalConnectionRead connection iteration bytes event).connection.txseq =
      connection.txseq := by
  rw [callSignalConnectionRead]
  split
  · dsimp only
    split
    · rfl
    · rfl
  · rfl

theorem Counts.step {config : Config} {history : History} {op : Op} (counts : Counts history)
    (allowed : RestartSent config history op) : Counts (step config history op) := by
  cases op with
  | read iteration bytes event => exact counts.got (read_txseq _ _ _ _)
  | write systemReset event sendto =>
      rw [Signal.step]
      generalize same : callSignalConnectionWrite config systemReset history.connection event
        sendto = written
      have ends := write_ends config systemReset history.connection event sendto
      rw [same] at ends
      cases ends with
      | refused err log quiet =>
          rw [wrote_none (went_unsent _ _ _)]
          exact ⟨counts.txseq, counts.sent⟩
      | lost event addressed short =>
          rw [retreat_advance _ _ fun restart => allowed addressed restart short,
            wrote_none (went_failed _ _ _)]
          exact ⟨counts.txseq, counts.sent⟩
      | went event =>
          by_cases restart : event.eventId = .systemRestartAck
          · rw [wrote_restart (went_sent _ _ _) ((stamp_eventId _ _).trans restart),
              restart, advance_restart]
            exact ⟨rfl, rfl⟩
          · rw [wrote_went (went_sent _ _ _) (stamp_ne_restart _ restart),
              advance_other _ restart]
            refine ⟨?_, counts_push counts.sent ?_⟩
            · change history.connection.txseq + 1 = _
              rw [List.length_append, List.length_singleton, ofNat_succ, counts.txseq]
            · rw [stamp_other _ _ restart, counts.txseq]

/-- The number of the last event from the peer is the count of those that came in. -/
structure Expects (history : History) : Prop where
  rxseq : history.connection.rxseq = BitVec.ofNat 32 history.heard.length
  quiet : ∀ log ∈ history.log, log.sequenceError = false

theorem Expects.log {history : History} {logged : List Log} (expects : Expects history)
    (quiet : ∀ log ∈ logged, log.sequenceError = false) :
    ∀ log ∈ history.log ++ logged, log.sequenceError = false := by
  intro log member
  rcases List.mem_append.mp member with before | now
  · exact expects.quiet log before
  · exact quiet log now

theorem quiet_singleton {log : Log} (quiet : log.sequenceError = false) :
    ∀ logged ∈ [log], logged.sequenceError = false := by
  intro logged member
  rw [List.mem_singleton.mp member]
  exact quiet

theorem quiet_nil : ∀ logged ∈ ([] : List Log), logged.sequenceError = false := by
  intro logged member
  exact absurd member List.not_mem_nil

theorem Expects.write {config : Config} {history : History} {systemReset : Bool}
    {event : Option CallSignalEvent} {sendto : Int} (expects : Expects history)
    (allowed : RestartSent config history (.write systemReset event sendto)) :
    Expects (Signal.step config history (.write systemReset event sendto)) := by
  rw [Signal.step]
  generalize same : callSignalConnectionWrite config systemReset history.connection event
    sendto = written
  have ends := write_ends config systemReset history.connection event sendto
  rw [same] at ends
  cases ends with
  | refused err log quiet =>
      rw [wrote_none (went_unsent _ _ _)]
      exact ⟨expects.rxseq, expects.log (quiet_singleton quiet)⟩
  | lost event addressed short =>
      rw [retreat_advance _ _ fun restart => allowed addressed restart short,
        wrote_none (went_failed _ _ _)]
      exact ⟨expects.rxseq, expects.log quiet_nil⟩
  | went event =>
      by_cases restart : event.eventId = .systemRestartAck
      · rw [wrote_restart (went_sent _ _ _) ((stamp_eventId _ _).trans restart), restart,
          advance_restart]
        exact ⟨rfl, expects.log quiet_nil⟩
      · rw [wrote_went (went_sent _ _ _) (stamp_ne_restart _ restart), advance_other _ restart]
        exact ⟨expects.rxseq, expects.log quiet_nil⟩

theorem Expects.read {config : Config} {history : History} {iteration bytes : Int}
    {event : CallSignalEvent} (expects : Expects history)
    (counts : PeerCounts history (.read iteration bytes event)) :
    Expects (Signal.step config history (.read iteration bytes event)) := by
  rw [Signal.step, callSignalConnectionRead]
  by_cases ok : msgOk bytes event.eventId
  · have expected : history.connection.rxseq + 1 = event.fseqno := by
      rw [counts ok, ofNat_succ, expects.rxseq]
    rw [if_pos ok]
    dsimp only
    rw [if_neg (not_not.mpr expected), expected]
    refine ⟨?_, expects.log quiet_nil⟩
    change event.fseqno = BitVec.ofNat 32 (history.heard ++ [event.fseqno]).length
    rw [List.length_append, List.length_singleton, counts ok]
  · rw [if_neg ok]
    refine ⟨?_, expects.log ?_⟩
    · change history.connection.rxseq = BitVec.ofNat 32 (history.heard ++ []).length
      rw [List.append_nil, expects.rxseq]
    · split
      · exact quiet_singleton rfl
      · exact quiet_nil

theorem numbered_once {sent : List (BitVec 32)}
    (counts : sent = (List.range sent.length).map (BitVec.ofNat 32))
    (few : sent.length ≤ 2 ^ 32) : sent.Nodup := by
  rw [counts]
  apply List.Nodup.map_on
  · intro first inFirst second inSecond same
    have left := List.mem_range.mp inFirst
    have right := List.mem_range.mp inSecond
    have values := congrArg BitVec.toNat same
    rwa [BitVec.toNat_ofNat, BitVec.toNat_ofNat, Nat.mod_eq_of_lt (by omega),
      Nat.mod_eq_of_lt (by omega)] at values
  · exact List.nodup_range

theorem counts_opened : Counts opened := ⟨rfl, rfl⟩

theorem expects_opened : Expects opened := ⟨rfl, quiet_nil⟩

/-- The sequence numbers hold together in exactly the runs in which no restart is lost. -/
theorem boost_sequence (config : Config) (ops : List Op) :
    Sequenced config ops ↔
      Along (fun state op => some (step config state op)) (RestartSent config) opened ops := by
  constructor
  · intro sequenced
    exact sequenced.keeps.mono fun _ _ keeps => keeps.restartSent
  · intro allowed
    have counts : Counts (history config ops) :=
      allowed.fold (fun _ _ counts op => counts.step op) counts_opened
    refine ⟨allowed.mono fun _ _ op => op.keeps, ⟨counts.sent, numbered_once counts.sent⟩, ?_⟩
    intro peer
    have expects : Expects (history config ops) := by
      refine (allowed.and peer).fold (fun state op expects both => ?_) expects_opened
      cases op with
      | write systemReset event sendto => exact expects.write both.1
      | read iteration bytes event => exact expects.read both.2
    exact expects.quiet

def restartAck : CallSignalEvent := ⟨0, .systemRestartAck, 0, 0, 0, 0, []⟩

def stopped (fseqno : BitVec 32) : CallSignalEvent :=
  ⟨sigboostVersion, .callStopped, fseqno, 0, 0, 0, []⟩

/-- A restart goes out, an event comes in, another restart is lost and the next event comes in. -/
def lostRestart : List Op :=
  [.write true (some restartAck) 27, .read 0 27 (stopped 1), .write true (some restartAck) (-1),
    .read 0 27 (stopped 2), .write false (some (stopped 0)) 27]

def twoSpans : Config := { maxSpans := 2, maxChans := 31, autoacm := false }

theorem boost_sequence_lost :
    ¬∀ config : Config, ∀ ops : List Op, Sequenced config ops := by
  intro all
  have sent := (all twoSpans lostRestart).sent.counts
  have wrong : ¬(history twoSpans lostRestart).sent =
      (List.range (history twoSpans lostRestart).sent.length).map (BitVec.ofNat 32) := by
    decide
  exact wrong sent

end Wanpipe.Mgd.Signal
