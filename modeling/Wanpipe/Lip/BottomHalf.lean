import Wanpipe.Lip.Link
import Wanpipe.RoundRobin

/-! The bottom half of a LIP link step by step, so that everything else can happen between two of
its steps, and the runs of a whole link. -/

namespace Wanpipe.Lip

open RoundRobin

variable {Packet : Type}

def Link.goto (link : Link Packet) (pass : Pass) (turn : Turn) : Link Packet :=
  { link with pass := some { pass with turn := turn } }

def lateAt (pass : Pass) (now : BitVec 64) : Bool := 10 < (now - pass.timeoutCnt).toNat

/-- `wplip_bh_receive` hands one packet to the protocol. -/
def bhReceive (link : Link Packet) (pass : Pass) : Link Packet :=
  match link.rxQueue with
  | [] => link.goto pass .begin
  | skb :: skbs => { link with rxQueue := skbs }.mark .rx (.sent skb)

def bhBegin (link : Link Packet) (now : BitVec 64) : Link Packet :=
  if link.awaitingKick ∧ ¬link.kick then link.goto ⟨.begin, now⟩ .retrigger
  else
    { link with kick := false, awaitingKick := false, moreLinkTx := false }.goto ⟨.begin, now⟩ .link

/-- A packet of the link goes to the lower device, or back to the head of the queue. -/
def bhLink (link : Link Packet) (pass : Pass) (now : BitVec 64) (accepted : Bool) : Link Packet :=
  match link.txQueue with
  | [] => link.goto pass .devs
  | skb :: skbs =>
      if accepted then
        ({ link with txQueue := skbs }.mark .tx (.sent skb)).goto pass
          (if lateAt pass now then .linkLeave else .link)
      else { link with awaitingKick := true }.goto pass .linkLeave

/-- An interface that is not on the list has no memory to read. -/
def bhDevs (link : Link Packet) (pass : Pass) : Option (Link Packet) :=
  match link.curTx with
  | some id => if id ∈ link.ifdevs then some (link.goto pass (.at id)) else none
  | none =>
      match link.ifdevs with
      | [] => some (link.goto pass (.leave none))
      | id :: _ => some ({ link with curTx := some id }.goto pass (.at id))

/-- `wplip_bh_transmit_skip` -/
def bhSkip (link : Link Packet) (pass : Pass) (id : Nat) : Option (Link Packet) :=
  let next := nextIn link.ifdevs id
  if next = link.curTx then some (link.goto pass (.leave next))
  else next.map fun next => link.goto pass (.at next)

def sendSkb (link : Link Packet) (id : Nat) (skb : Packet) (skbs : List Packet) : Link Packet :=
  (link.setDev id { link.devs id with txQueue := skbs }).mark (.dev id) (.sent skb)

def bhDev (link : Link Packet) (pass : Pass) (id : Nat) (accepted : Bool) : Link Packet :=
  match (link.devs id).txQueue with
  | [] => link.goto pass (.after id)
  | skb :: skbs =>
      if accepted then (sendSkb link id skb skbs).goto pass (.after id)
      else { link with awaitingKick := true }.goto pass (.leave (some id))

def bhAt (link : Link Packet) (pass : Pass) (id : Nat) (now : BitVec 64) (accepted : Bool) :
    Option (Link Packet) :=
  if lateAt pass now then some (link.goto pass (.leave (some id)))
  else if id ∉ link.ifdevs then none
  else if (link.devs id).phase.unregister then bhSkip link pass id
  else some (bhDev link pass id accepted)

def noteMore (link : Link Packet) (waiting : List Packet) : Link Packet :=
  if waiting.length ≠ 0 then { link with moreLinkTx := true } else link

theorem noteMore_eq (link : Link Packet) (waiting : List Packet) :
    noteMore link waiting =
      { link with moreLinkTx := link.moreLinkTx || waiting.length != 0 } := by
  rw [noteMore]
  by_cases empty : waiting.length = 0
  · have stays : (link.moreLinkTx || waiting.length != 0) = link.moreLinkTx := by simp [empty]
    rw [if_neg (not_not.mpr empty), stays]
  · rw [if_pos empty]
    simp [empty]

/-- What `wplip_prot_kick` sent is in the queue by now. -/
def bhAfter (link : Link Packet) (pass : Pass) (id : Nat) : Option (Link Packet) :=
  if id ∉ link.ifdevs then none
  else bhSkip (noteMore link (link.devs id).txQueue) pass id

/-- `wplip_bh_transmit_exit` -/
def bhLeave (link : Link Packet) (pass : Pass) (cur : Option Nat) : Link Packet :=
  { link with curTx := cur }.goto pass .linkLeave

/-- `wplip_bh_link_transmit_exit` -/
def bhLinkLeave (link : Link Packet) (pass : Pass) : Link Packet :=
  (noteMore link link.txQueue).goto pass .retrigger

def wplipRetriggerBh (link : Link Packet) : Link Packet :=
  if link.moreLinkTx ∨ link.rxQueue.length ≠ 0 then wplipTriggerBh link else link

theorem wplipRetriggerBh_eq (link : Link Packet) :
    ∃ scheduled, wplipRetriggerBh link = { link with scheduled := scheduled } := by
  rw [wplipRetriggerBh]
  split
  · rw [wplipTriggerBh_eq]
    exact ⟨_, rfl⟩
  · exact ⟨link.scheduled, rfl⟩

def bhRetrigger (link : Link Packet) : Link Packet :=
  { wplipRetriggerBh link with pass := none }

/-- One step of `wplip_link_bh`: `now` is the clock and `accepted` the answer of the lower
device, where the step asks for them. -/
def wplipLinkBh (link : Link Packet) (now : BitVec 64) (accepted : Bool) : Option (Link Packet) :=
  match link.pass with
  | none =>
      if link.scheduled then
        some { link with scheduled := false, pass := some ⟨.receive, 0⟩ }
      else none
  | some pass =>
      match pass.turn with
      | .receive => some (bhReceive link pass)
      | .begin => some (bhBegin link now)
      | .link => some (bhLink link pass now accepted)
      | .devs => bhDevs link pass
      | .at id => bhAt link pass id now accepted
      | .after id => bhAfter link pass id
      | .leave cur => some (bhLeave link pass cur)
      | .linkLeave => some (bhLinkLeave link pass)
      | .retrigger => some (bhRetrigger link)

inductive Op (Packet : Type)
  | register (calls : List (BitVec 32))
  | bindLink (common : Option (BitVec 8))
  | connect
  | disconnect
  | protChangeState (state : BitVec 32)
  | kick
  | txTimeout
  | trigger
  | linkTx (skb : Packet)
  | devTx (id : Nat) (skb : Option Packet)
  | rx (skb : Packet)
  | createLipdev (id maxMtuSz : Nat)
  | setMaxMtuSz (id maxMtuSz : Nat)
  | insertLipdev (id : Nat)
  | ifRegistered (id : Nat)
  | unregister (id : Nat)
  | purgeLipdev (id : Nat)
  | removeLipdev (id : Nat)
  | freeLipdev (id : Nat)
  | bh (now : BitVec 64) (accepted : Bool)

/-- A step that waits for bh_lock or for an earlier step of its interface returns nothing. -/
def step (link : Link Packet) : Op Packet → Option (Link Packet)
  | .register calls => some (wplipRegister (some link) calls)
  | .bindLink common => some (wplipBindLink link common)
  | .connect =>
      if link.locked ∧ link.carrierState ≠ wanConnected then none else some (wplipConnect link)
  | .disconnect => some (wplipDisconnect link)
  | .protChangeState state => some (wplipLinkProtChangeState link state)
  | .kick => some (wplipKick link)
  | .txTimeout => some (wplipTxTimeout link)
  | .trigger => some (wplipTriggerBh link)
  | .linkTx skb => some (wplipLinkCallbackTxDown link skb).2
  | .devTx id skb =>
      if (link.devs id).phase = .absent then none else some (wplipCallbackTxDown link id skb).2
  | .rx skb => some (wplipRx link skb).2
  | .createLipdev id maxMtuSz =>
      if (link.devs id).phase = .absent then some (wplipCreateLipdev link id maxMtuSz) else none
  | .setMaxMtuSz id maxMtuSz =>
      if (link.devs id).phase = .absent then none
      else some (link.setDev id { link.devs id with maxMtuSz := maxMtuSz })
  | .insertLipdev id =>
      if (link.devs id).phase = .created then some (wplipInsertLipdev link id) else none
  | .ifRegistered id =>
      if (link.devs id).phase = .opening then some (Lip.ifRegistered link id) else none
  | .unregister id =>
      if (link.devs id).phase = .listed then some (link.setPhase id .leaving) else none
  | .purgeLipdev id =>
      if (link.devs id).phase = .leaving ∧ link.locked = false then some (Lip.purgeLipdev link id)
      else none
  | .removeLipdev id =>
      if (link.devs id).phase = .opening ∨ (link.devs id).phase = .purged then
        some (wplipRemoveLipdev link id)
      else none
  | .freeLipdev id =>
      if (link.devs id).phase = .created ∨ (link.devs id).phase = .removed then
        some (wplipFreeLipdev link id)
      else none
  | .bh now accepted => wplipLinkBh link now accepted

end Wanpipe.Lip
