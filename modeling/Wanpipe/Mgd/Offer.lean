import Wanpipe.Mgd.CommandFrame

/-! An incoming call that is offered to several clients of `sangoma_mgd`. -/

namespace Wanpipe.Mgd

open Line Runs

/-- `handle_call_start` up to the event in the queues of the listeners. -/
def offerCall (config : Config) (server : Server) (event : Event) (rand : List Nat) : Server :=
  let started := server.onSlot event.circuit (startSlot event rand 0)
  if config.autoacm then answer config started event .callStartAck 0 else started

/-- The rest of `handle_call_start`, where there was a listener. -/
def storeClients (server : Server) (circuit : Circuit) (clients : Nat) : Server :=
  server.onSlot circuit fun slot => { slot with clients := clients }

theorem answer_onSlot (config : Config) (server : Server) (event : Event) (cmd : EventId)
    (cause : Nat) (circuit : Circuit) (change : Slot → Slot) :
    answer config (server.onSlot circuit change) event cmd cause =
      (answer config server event cmd cause).onSlot circuit change := by
  simp only [answer, isupExecCommand]
  split
  · rfl
  · split
    · next reset =>
        rw [onSlot_systemReset] at reset
        rw [if_pos reset]
    · next runs =>
        rw [onSlot_systemReset] at runs
        rw [if_neg runs]
        rfl

theorem onSlot_onSlot (server : Server) (circuit : Circuit) (first second : Slot → Slot) :
    (server.onSlot circuit first).onSlot circuit second =
      server.onSlot circuit fun slot => second (first slot) := by
  simp [Server.onSlot, Server.setSlot]

/-- Nothing comes between the two parts where nobody answers meanwhile. -/
theorem handleCallStart_offer {config : Config} {server : Server} {event : Event} {out : Outcomes}
    (valid : event.valid config = true) (inTable : InTable event.circuit)
    (idle : (server.processTable event.circuit).dev = none) (heard : out.clients ≠ 0) :
    handleCallStart config server event out =
      some (storeClients (offerCall config server event out.rand) event.circuit out.clients) := by
  have started : server.onSlot event.circuit (startSlot event out.rand out.clients) =
      storeClients (server.onSlot event.circuit (startSlot event out.rand 0)) event.circuit
        out.clients := by
    rw [storeClients, onSlot_onSlot]
    rfl
  simp only [handleCallStart, if_pos valid, atSlot, if_pos inTable, idle, if_neg heard, offerCall]
  split
  · rw [started, storeClients, answer_onSlot]
    rfl
  · rw [started]

/-- The commands with which a client takes a call. -/
def SessionCommand.takes : SessionCommand → Bool
  | .media _ => true
  | .accept _ => true
  | .answer _ => true
  | _ => false

def SessionCommand.hangsUp : SessionCommand → Bool
  | .hangup _ => true
  | _ => false

/-- What can happen once the event is in the queues. -/
inductive OfferOp
  | store
  | reply (ptr : Ptr) (command : SessionCommand)
  deriving DecidableEq, Repr

namespace OfferOp

def client : OfferOp → Option Ptr
  | .store => none
  | .reply ptr _ => some ptr

def takes : OfferOp → Bool
  | .store => false
  | .reply _ command => command.takes

def hangsUp : OfferOp → Bool
  | .store => false
  | .reply _ command => command.hangsUp

end OfferOp

/-- A call that `handle_call_start` offers, and the sessions of the listeners that can answer. -/
structure Offer where
  config : Config
  event : Event
  rand : List Nat
  clients : List Ptr
  distinct : clients.Nodup
  heard : clients ≠ []
  valid : event.valid config = true
  inTable : InTable event.circuit

namespace Offer

variable (offer : Offer)

def uniqueId : UniqueId := sessionOf offer.event offer.rand

def slot (server : Server) : Slot := server.processTable offer.event.circuit

def step (server : Server) : OfferOp → Option Server
  | .store => some (storeClients server offer.event.circuit offer.clients.length)
  | .reply ptr command =>
      interpretCommand offer.config server ptr (.session (some offer.uniqueId) command)

/-- Every client answers once, and the number of them is stored at some time. -/
structure Order (ops : List OfferOp) : Prop where
  replies : (ops.filterMap OfferOp.client).Perm offer.clients
  commands : ∀ op ∈ ops, op ≠ .store → op.takes = true ∨ op.hangsUp = true
  stored : ops.count .store = 1

/-- A hangup that is taken for the end of the call: its session is entered, and told to end. -/
def Releases (before after : Server) (ptr : Ptr) : Prop :=
  (offer.slot before).dev = none ∧ (offer.slot after).dev = some ptr ∧
    (after.woomera ptr).mediaEnd = true ∧ (after.woomera ptr).running = false

/-- A step behind the steps of `front`. -/
structure Fair (front : List OfferOp) (before after : Server) (op : OfferOp) : Prop where
  kept : ∀ ptr, (offer.slot before).dev = some ptr → (offer.slot after).dev = some ptr
  taken : ∀ ptr command, op = .reply ptr command → command.takes = true →
    (offer.slot before).dev = none →
      (offer.slot after).dev = some ptr ∧ (after.woomera ptr).session = some offer.uniqueId
  released : ∀ ptr command, op = .reply ptr command → command.hangsUp = true →
    offer.Releases before after ptr →
      (front.filterMap OfferOp.client).length + 1 = offer.clients.length ∧
        ∀ earlier ∈ front, earlier.takes = false

/-- The run of all steps returns, and each of its steps is fair. -/
structure Arbitrated (server : Server) (ops : List OfferOp) : Prop where
  returns : (run offer.step server ops).isSome = true
  fair : ∀ front op rest, ops = front ++ op :: rest → ∀ before after,
    run offer.step server front = some before → offer.step before op = some after →
      offer.Fair front before after op

end Offer

section Commands

variable {config : Config} {server : Server} {ptr : Ptr}

theorem ackCall_table : (ackCall config server ptr).processTable = server.processTable := by
  rw [ackCall]
  split
  · rfl
  · rw [isupExecCommand_processTable, setWoomera_processTable]

theorem ackCall_session :
    ((ackCall config server ptr).woomera ptr).session = (server.woomera ptr).session := by
  rw [ackCall]
  split
  · rfl
  · rw [isupExecCommand_woomera, setWoomera_woomera, Function.update_self]

theorem takeRaw_session {args : MediaArgs} {woomera ready : Woomera}
    (taken : takeRaw args woomera = some ready) : ready.session = woomera.session := by
  rw [takeRaw] at taken
  split at taken
  · simp only at taken
    split at taken
    · rw [← Option.some.inj taken]
    · contradiction
  · rw [← Option.some.inj taken]

/-- Neither the table nor the session string of the client. -/
structure Untouched (ptr : Ptr) (server next : Server) : Prop where
  table : next.processTable = server.processTable
  session : (next.woomera ptr).session = (server.woomera ptr).session

theorem Untouched.setWoomera {next : Server} {woomera : Woomera}
    (untouched : Untouched ptr server next) (same : woomera.session = (next.woomera ptr).session) :
    Untouched ptr server (next.setWoomera ptr woomera) where
  table := untouched.table
  session := by rw [setWoomera_woomera, Function.update_self, same, untouched.session]

theorem Untouched.onWoomera {next : Server} {change : Woomera → Woomera}
    (untouched : Untouched ptr server next)
    (same : ∀ woomera, (change woomera).session = woomera.session) :
    Untouched ptr server (next.onWoomera ptr change) :=
  untouched.setWoomera (same _)

theorem Untouched.send {next : Server} {span chan : Int} {id cause : Nat} {cmd : EventId}
    (untouched : Untouched ptr server next) :
    Untouched ptr server (isupExecCommand config next span chan id cmd cause) where
  table := by rw [isupExecCommand_processTable, untouched.table]
  session := by rw [isupExecCommand_woomera, untouched.session]

theorem Untouched.ack {next : Server} (untouched : Untouched ptr server next) :
    Untouched ptr server (ackCall config next ptr) where
  table := by rw [ackCall_table, untouched.table]
  session := by rw [ackCall_session, untouched.session]

theorem mediaAcceptAnswer_untouched (args : MediaArgs) (answer accept : Bool) :
    Untouched ptr server
      (handleWoomeraMediaAcceptAnswer config server ptr args answer accept) := by
  have same : Untouched ptr server server := ⟨rfl, rfl⟩
  rw [handleWoomeraMediaAcceptAnswer]
  simp only
  split
  · split
    · exact same.setWoomera rfl
    · next ready taken =>
        have took := same.setWoomera (takeRaw_session taken)
        have accepted : Untouched ptr server
            (if accept then ackCall config (server.setWoomera ptr ready) ptr
              else server.setWoomera ptr ready) := by
          split
          · exact took.ack
          · exact took
        generalize (if accept then ackCall config (server.setWoomera ptr ready) ptr
          else server.setWoomera ptr ready) = reached at accepted ⊢
        split
        · split
          · refine (accepted.ack.onWoomera ?_).send
            intro woomera
            rfl
          · exact accepted.onWoomera fun _ => rfl
        · exact accepted
  · exact same.setWoomera rfl

theorem runCommand_untouched (command : SessionCommand) :
    Untouched ptr server (runCommand config server ptr command) := by
  have same : Untouched ptr server server := ⟨rfl, rfl⟩
  cases command with
  | hangup cause =>
      have kept (woomera : Woomera) :
          (woomeraSetCauseTosig woomera cause).session = woomera.session := by
        rw [woomeraSetCauseTosig]
        split <;> rfl
      have caused := same.onWoomera kept
      rw [runCommand]
      split
      · exact caused.setWoomera rfl
      · exact caused
  | progress =>
      rw [runCommand]
      split
      · exact same.send
      · exact same
  | media args => exact mediaAcceptAnswer_untouched args false false
  | accept args => exact mediaAcceptAnswer_untouched args false true
  | answer args => exact mediaAcceptAnswer_untouched args true false
  | other => exact same

theorem hangup_ends {cause : Nat} (valid : smgValidateSpanChan config (server.woomera ptr).span
      (server.woomera ptr).chan = true) :
    let next := (runCommand config server ptr (.hangup cause)).woomera ptr
    next.mediaEnd = true ∧ next.running = false := by
  have kept (woomera : Woomera) : (woomeraSetCauseTosig woomera cause).span = woomera.span ∧
      (woomeraSetCauseTosig woomera cause).chan = woomera.chan := by
    rw [woomeraSetCauseTosig]
    split <;> exact ⟨rfl, rfl⟩
  have here : (server.onWoomera ptr fun woomera => woomeraSetCauseTosig woomera cause).woomera ptr =
      woomeraSetCauseTosig (server.woomera ptr) cause := by
    rw [onWoomera_woomera, Function.update_self]
  simp only [runCommand, here, kept, if_pos valid, setWoomera_woomera, Function.update_self,
    and_self]

end Commands

end Wanpipe.Mgd
