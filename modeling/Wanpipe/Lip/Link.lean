import Wanpipe.Ledger
import Mathlib.Logic.Function.Basic

/-! A LIP link with its interfaces, and the entry points by which protocols, interfaces and the
lower layer reach it. -/

namespace Wanpipe.Lip

def wanUnconfigured : BitVec 8 := 0
def wanDisconnected : BitVec 8 := 1
def wanConnected : BitVec 8 := 3
def maxTxBuf : Nat := 10
def maxRxQ : Nat := 32
def enobufs : Int := 105

/-- From `wplip_create_lipdev` to `wplip_free_lipdev`. -/
inductive Phase
  | absent
  | created
  | opening
  | listed
  | leaving
  | purged
  | removed
  deriving DecidableEq, Repr

structure Dev (Packet : Type) where
  phase : Phase
  txQueue : List Packet
  maxMtuSz : Nat

/-- The queues of a link. -/
inductive Lane
  | tx
  | rx
  | dev (id : Nat)
  deriving DecidableEq, Repr

/-- Where the bottom half is. -/
inductive Turn
  | receive
  | begin
  | link
  | devs
  | at (id : Nat)
  | after (id : Nat)
  | leave (cur : Option Nat)
  | linkLeave
  | retrigger
  deriving DecidableEq, Repr

structure Pass where
  turn : Turn
  timeoutCnt : BitVec 64
  deriving DecidableEq, Repr

/-- `pass` is the running bottom half; `history` is not in the source. -/
structure Link (Packet : Type) where
  state : BitVec 8
  carrierState : BitVec 8
  protState : BitVec 8
  ifdevs : List Nat
  devs : Nat → Dev Packet
  txQueue : List Packet
  rxQueue : List Packet
  curTx : Option Nat
  awaitingKick : Bool
  kick : Bool
  moreLinkTx : Bool
  scheduled : Bool
  pass : Option Pass
  history : List (Lane × Mark Packet)

variable {Packet : Type}

/-- WPLIP_DEV_UNREGISTER -/
@[simp] def Phase.unregister : Phase → Bool
  | .absent => false
  | .created => false
  | .opening => false
  | .listed => false
  | .leaving => true
  | .purged => true
  | .removed => true

def noDev : Dev Packet := ⟨.absent, [], 0⟩

def wplipCreateLink : Link Packet :=
  { state := wanDisconnected
    carrierState := wanUnconfigured
    protState := wanUnconfigured
    ifdevs := []
    devs := fun _ => noDev
    txQueue := []
    rxQueue := []
    curTx := none
    awaitingKick := false
    kick := false
    moreLinkTx := false
    scheduled := false
    pass := none
    history := [] }

namespace Link

def queue (link : Link Packet) : Lane → List Packet
  | .tx => link.txQueue
  | .rx => link.rxQueue
  | .dev id => (link.devs id).txQueue

/-- bh_lock is held while the bottom half receives and transmits. -/
def locked (link : Link Packet) : Bool :=
  match link.pass with
  | none => false
  | some pass => pass.turn != .retrigger

def setDev (link : Link Packet) (id : Nat) (dev : Dev Packet) : Link Packet :=
  { link with devs := Function.update link.devs id dev }

def setPhase (link : Link Packet) (id : Nat) (phase : Phase) : Link Packet :=
  link.setDev id { link.devs id with phase := phase }

def mark (link : Link Packet) (lane : Lane) (mark : Mark Packet) : Link Packet :=
  { link with history := link.history ++ [(lane, mark)] }

end Link

def wplipTriggerBh (link : Link Packet) : Link Packet :=
  if link.rxQueue.length ≠ 0 then { link with scheduled := true }
  else if link.awaitingKick then link
  else { link with scheduled := true }

theorem wplipTriggerBh_eq (link : Link Packet) :
    wplipTriggerBh link =
      { link with
        scheduled := link.scheduled || link.rxQueue.length != 0 || !link.awaitingKick } := by
  rw [wplipTriggerBh]
  by_cases heard : link.rxQueue.length = 0
  · rw [if_neg (not_not.mpr heard)]
    by_cases awaits : link.awaitingKick = true
    · have stays : (link.scheduled || link.rxQueue.length != 0 || !link.awaitingKick) =
          link.scheduled := by simp [heard, awaits]
      rw [if_pos awaits, stays]
    · rw [if_neg awaits]
      simp [awaits]
  · rw [if_pos heard]
    simp [heard]

def wplipKickTriggerBh (link : Link Packet) : Link Packet :=
  { link with awaitingKick := false, scheduled := true }

def wplipKick (link : Link Packet) : Link Packet :=
  wplipKickTriggerBh { link with awaitingKick := false, kick := true }

def wplipTxTimeout (link : Link Packet) : Link Packet :=
  wplipKickTriggerBh { link with awaitingKick := false }

def protConnects (link : Link Packet) : Link Packet :=
  if link.protState = wanConnected ∧ link.carrierState = wanConnected then
    { link with state := wanConnected }
  else link

def protDisconnects (link : Link Packet) : Link Packet :=
  if link.protState ≠ wanConnected then { link with state := wanDisconnected } else link

def wplipLinkProtChangeState (link : Link Packet) (state : BitVec 32) : Link Packet :=
  if link.protState.setWidth 32 ≠ state then
    protDisconnects (protConnects { link with protState := state.setWidth 8 })
  else link

/-- The queues of the link, purged under bh_lock. -/
def purgeQueues (link : Link Packet) : Link Packet :=
  { link with
    txQueue := []
    rxQueue := []
    history := link.history ++ [(.tx, .purged link.txQueue)] ++ [(.rx, .purged link.rxQueue)] }

def carrierConnects (link : Link Packet) : Link Packet :=
  if link.carrierState ≠ wanConnected then
    { wplipKick (purgeQueues link) with carrierState := wanConnected }
  else link

def wplipConnect (link : Link Packet) : Link Packet :=
  let link := carrierConnects link
  if link.protState = wanConnected then { link with state := wanConnected } else link

def wplipDisconnect (link : Link Packet) : Link Packet :=
  let link :=
    if link.carrierState ≠ wanDisconnected then { link with carrierState := wanDisconnected }
    else link
  if link.state ≠ wanDisconnected then { link with state := wanDisconnected } else link

/-- `common` is the state of the lower device, where it has one. -/
def wplipBindLink (link : Link Packet) (common : Option (BitVec 8)) : Link Packet :=
  if common = some wanConnected then { link with carrierState := wanConnected } else link

/-- `calls` are the states that the protocol reports while it is registered. -/
def wplipRegister (held : Option (Link Packet)) (calls : List (BitVec 32)) : Link Packet :=
  match held with
  | some link => link
  | none =>
      { calls.foldl wplipLinkProtChangeState wplipCreateLink with
        state := wanDisconnected
        carrierState := wanDisconnected }

theorem protChangeState_restated (link : Link Packet) (state : BitVec 32) :
    ∃ whole prot, wplipLinkProtChangeState link state =
      { link with state := whole, protState := prot } := by
  rw [wplipLinkProtChangeState]
  split
  · simp only [protDisconnects, protConnects]
    split
    · split
      · exact ⟨wanDisconnected, state.setWidth 8, rfl⟩
      · exact ⟨wanConnected, state.setWidth 8, rfl⟩
    · split
      · exact ⟨wanDisconnected, state.setWidth 8, rfl⟩
      · exact ⟨link.state, state.setWidth 8, rfl⟩
  · exact ⟨link.state, link.protState, rfl⟩

/-- A new link is empty whatever its protocol reports. -/
theorem wplipRegister_new (calls : List (BitVec 32)) :
    ∃ prot, wplipRegister (none : Option (Link Packet)) calls =
      { wplipCreateLink with carrierState := wanDisconnected, protState := prot } := by
  have fold (link : Link Packet) : ∃ state prot, calls.foldl wplipLinkProtChangeState link =
      { link with state := state, protState := prot } := by
    induction calls generalizing link with
    | nil => exact ⟨link.state, link.protState, rfl⟩
    | cons call calls ih =>
        obtain ⟨state, prot, first⟩ := protChangeState_restated link call
        obtain ⟨last, reported, rest⟩ := ih { link with state := state, protState := prot }
        refine ⟨last, reported, ?_⟩
        rw [List.foldl_cons, first]
        exact rest
  obtain ⟨state, prot, whole⟩ := fold wplipCreateLink
  refine ⟨prot, ?_⟩
  rw [wplipRegister, whole]
  rfl

def wplipLinkCallbackTxDown (link : Link Packet) (skb : Packet) : Int × Link Packet :=
  if link.carrierState ≠ wanConnected then (0, link)
  else if link.txQueue.length ≥ maxTxBuf then (1, wplipTriggerBh link)
  else
    (0, wplipTriggerBh
      ({ link with txQueue := link.txQueue ++ [skb] }.mark .tx (.took skb)))

def queueSkb (link : Link Packet) (id : Nat) (skb : Packet) : Link Packet :=
  (link.setDev id { link.devs id with txQueue := (link.devs id).txQueue ++ [skb] }).mark
    (.dev id) (.took skb)

def wplipCallbackTxDown (link : Link Packet) (id : Nat) (skb : Option Packet) :
    Int × Link Packet :=
  match skb with
  | none => (((link.devs id).maxMtuSz - (link.devs id).txQueue.length : Nat), link)
  | some skb =>
      if link.carrierState ≠ wanConnected then (0, link)
      else if (link.devs id).txQueue.length ≥ (link.devs id).maxMtuSz then (1, wplipTriggerBh link)
      else (0, wplipTriggerBh (queueSkb link id skb))

def wplipRx (link : Link Packet) (skb : Packet) : Int × Link Packet :=
  if link.rxQueue.length > maxRxQ then (-enobufs, wplipTriggerBh link)
  else
    (0, wplipTriggerBh
      ({ link with rxQueue := link.rxQueue ++ [skb] }.mark .rx (.took skb)))

def wplipCreateLipdev (link : Link Packet) (id maxMtuSz : Nat) : Link Packet :=
  link.setDev id ⟨.created, [], maxMtuSz⟩

def wplipInsertLipdev (link : Link Packet) (id : Nat) : Link Packet :=
  { link with ifdevs := id :: link.ifdevs }.setPhase id .opening

/-- The end of `wplip_if_reg`. -/
def ifRegistered (link : Link Packet) (id : Nat) : Link Packet :=
  let link := link.setPhase id .listed
  if link.state = wanConnected then wplipTriggerBh link else link

/-- What `wplip_if_unreg` does under bh_lock. -/
def purgeLipdev (link : Link Packet) (id : Nat) : Link Packet :=
  ({ link with curTx := none }.setDev id { link.devs id with phase := .purged, txQueue := [] }).mark
    (.dev id) (.purged (link.devs id).txQueue)

def wplipRemoveLipdev (link : Link Packet) (id : Nat) : Link Packet :=
  { link with ifdevs := link.ifdevs.erase id }.setPhase id .removed

/-- The queue of the interface goes with it. -/
def wplipFreeLipdev (link : Link Packet) (id : Nat) : Link Packet := link.setDev id noDev

end Wanpipe.Lip
