import Wanpipe.Lip.BottomHalf
import Wanpipe.Runs

/-! The state of a LIP link against its carrier and its protocol, over every run of the link. -/

namespace Wanpipe.Lip

open Runs

variable {Packet : Type}

/-- state = carrier_state & prot_state -/
def Link.Agrees (link : Link Packet) : Prop :=
  link.state = wanConnected ↔ link.carrierState = wanConnected ∧ link.protState = wanConnected

/-- How often a queue was purged. -/
def Link.purges (link : Link Packet) (lane : Lane) : Nat :=
  (entriesOf link.history lane).countP Mark.isPurge

def Rises (link next : Link Packet) : Prop :=
  link.carrierState ≠ wanConnected ∧ next.carrierState = wanConnected

instance (link next : Link Packet) : Decidable (Rises link next) :=
  inferInstanceAs (Decidable (_ ∧ _))

/-- The queues of the link are purged when the carrier rises, and only then. -/
structure PurgesOnRise (link next : Link Packet) : Prop where
  tx : next.purges .tx = link.purges .tx + if Rises link next then 1 else 0
  rx : next.purges .rx = link.purges .rx + if Rises link next then 1 else 0
  emptied : Rises link next → next.txQueue = [] ∧ next.rxQueue = []

def Lawful (link : Link Packet) (op : Op Packet) : Prop :=
  ∀ next, step link op = some next → next.Agrees ∧ PurgesOnRise link next

/-- A connected lower device is only bound where the carrier is connected already. -/
def BindsConnected (link : Link Packet) : Op Packet → Prop
  | .bindLink common => common = some wanConnected → link.carrierState = wanConnected
  | _ => True

/-- Neither the states nor the purges of the link's own queues move. -/
structure Quiet (link next : Link Packet) : Prop where
  state : next.state = link.state
  carrier : next.carrierState = link.carrierState
  prot : next.protState = link.protState
  tx : next.purges .tx = link.purges .tx
  rx : next.purges .rx = link.purges .rx

theorem purges_mark (link : Link Packet) (lane other : Lane) (mark : Mark Packet) :
    (link.mark lane mark).purges other =
      link.purges other + if other = lane ∧ mark.isPurge = true then 1 else 0 := by
  by_cases same : other = lane
  · rw [Link.purges, Link.mark, same, entriesOf_mark, List.countP_append]
    cases mark <;> simp [Link.purges, List.countP_cons]
  · rw [Link.purges, Link.mark, entriesOf_other _ _ same]
    simp [Link.purges, same]

namespace Quiet

variable {link middle next : Link Packet}

theorem refl (link : Link Packet) : Quiet link link := ⟨rfl, rfl, rfl, rfl, rfl⟩

theorem trans (first : Quiet link middle) (second : Quiet middle next) : Quiet link next where
  state := second.state.trans first.state
  carrier := second.carrier.trans first.carrier
  prot := second.prot.trans first.prot
  tx := second.tx.trans first.tx
  rx := second.rx.trans first.rx

/-- A mark that is no purge of one of the link's own queues. -/
theorem mark (quiet : Quiet link next) {lane : Lane} {mark : Mark Packet}
    (calm : mark.isPurge = true → ∃ id, lane = .dev id) : Quiet link (next.mark lane mark) where
  state := quiet.state
  carrier := quiet.carrier
  prot := quiet.prot
  tx := by
    rw [purges_mark, quiet.tx, if_neg]
    · rfl
    · rintro ⟨same, purge⟩
      obtain ⟨id, dev⟩ := calm purge
      rw [dev] at same
      contradiction
  rx := by
    rw [purges_mark, quiet.rx, if_neg]
    · rfl
    · rintro ⟨same, purge⟩
      obtain ⟨id, dev⟩ := calm purge
      rw [dev] at same
      contradiction

theorem purgesOnRise (quiet : Quiet link next) : PurgesOnRise link next := by
  have still : ¬Rises link next := by
    rintro ⟨down, up⟩
    exact down (quiet.carrier ▸ up)
  refine ⟨?_, ?_, fun rises => absurd rises still⟩
  · rw [if_neg still, quiet.tx, Nat.add_zero]
  · rw [if_neg still, quiet.rx, Nat.add_zero]

theorem agrees (quiet : Quiet link next) (agrees : link.Agrees) : next.Agrees := by
  rw [Link.Agrees, quiet.state, quiet.carrier, quiet.prot]
  exact agrees

end Quiet

section Parts

variable (link : Link Packet)

theorem triggerBh_quiet : Quiet link (wplipTriggerBh link) := by
  rw [wplipTriggerBh_eq]
  exact ⟨rfl, rfl, rfl, rfl, rfl⟩

theorem goto_quiet (pass : Pass) (turn : Turn) : Quiet link (link.goto pass turn) :=
  ⟨rfl, rfl, rfl, rfl, rfl⟩

theorem noteMore_quiet (waiting : List Packet) : Quiet link (noteMore link waiting) := by
  rw [noteMore]
  split
  · exact ⟨rfl, rfl, rfl, rfl, rfl⟩
  · exact .refl link

theorem linkTx_quiet (skb : Packet) : Quiet link (wplipLinkCallbackTxDown link skb).2 := by
  rw [wplipLinkCallbackTxDown]
  split
  · exact .refl link
  · split
    · exact triggerBh_quiet link
    · have queued : Quiet link { link with txQueue := link.txQueue ++ [skb] } :=
        ⟨rfl, rfl, rfl, rfl, rfl⟩
      exact (queued.mark (by intro purge; contradiction)).trans (triggerBh_quiet _)

theorem setDev_quiet (id : Nat) (dev : Dev Packet) : Quiet link (link.setDev id dev) :=
  ⟨rfl, rfl, rfl, rfl, rfl⟩

theorem queueSkb_quiet (id : Nat) (skb : Packet) : Quiet link (queueSkb link id skb) :=
  (setDev_quiet link id _).mark (by intro purge; contradiction)

theorem sendSkb_quiet (id : Nat) (skb : Packet) (skbs : List Packet) :
    Quiet link (sendSkb link id skb skbs) :=
  (setDev_quiet link id _).mark (by intro purge; contradiction)

theorem devTx_quiet (id : Nat) (skb : Option Packet) :
    Quiet link (wplipCallbackTxDown link id skb).2 := by
  cases skb with
  | none => exact .refl link
  | some skb =>
      rw [wplipCallbackTxDown]
      split
      · exact .refl link
      · split
        · exact triggerBh_quiet link
        · exact (queueSkb_quiet link id skb).trans (triggerBh_quiet _)

theorem rx_quiet (skb : Packet) : Quiet link (wplipRx link skb).2 := by
  rw [wplipRx]
  split
  · exact triggerBh_quiet link
  · have queued : Quiet link { link with rxQueue := link.rxQueue ++ [skb] } :=
      ⟨rfl, rfl, rfl, rfl, rfl⟩
    exact (queued.mark (by intro purge; contradiction)).trans (triggerBh_quiet _)

theorem ifRegistered_quiet (id : Nat) : Quiet link (ifRegistered link id) := by
  have listed : Quiet link (link.setPhase id .listed) := ⟨rfl, rfl, rfl, rfl, rfl⟩
  rw [ifRegistered]
  split
  · exact listed.trans (triggerBh_quiet _)
  · exact listed

theorem purgeLipdev_quiet (id : Nat) : Quiet link (purgeLipdev link id) := by
  have dropped : Quiet link { link with curTx := none } := ⟨rfl, rfl, rfl, rfl, rfl⟩
  exact (dropped.trans (setDev_quiet _ id _)).mark fun _ => ⟨id, rfl⟩

theorem bhReceive_quiet (pass : Pass) : Quiet link (bhReceive link pass) := by
  rw [bhReceive]
  split
  · exact goto_quiet link pass .begin
  · next skb skbs _ =>
      have heard : Quiet link { link with rxQueue := skbs } := ⟨rfl, rfl, rfl, rfl, rfl⟩
      exact heard.mark (by intro purge; contradiction)

theorem bhBegin_quiet (now : BitVec 64) : Quiet link (bhBegin link now) := by
  rw [bhBegin]
  split <;> exact ⟨rfl, rfl, rfl, rfl, rfl⟩

theorem bhLink_quiet (pass : Pass) (now : BitVec 64) (accepted : Bool) :
    Quiet link (bhLink link pass now accepted) := by
  rw [bhLink]
  split
  · exact goto_quiet link pass .devs
  · next skb skbs _ =>
      split
      · have sent : Quiet link { link with txQueue := skbs } := ⟨rfl, rfl, rfl, rfl, rfl⟩
        exact (sent.mark (by intro purge; contradiction)).trans (goto_quiet _ pass _)
      · exact ⟨rfl, rfl, rfl, rfl, rfl⟩

theorem bhDev_quiet (pass : Pass) (id : Nat) (accepted : Bool) :
    Quiet link (bhDev link pass id accepted) := by
  rw [bhDev]
  split
  · exact goto_quiet link pass (.after id)
  · next skb skbs _ =>
      split
      · exact (sendSkb_quiet link id skb skbs).trans (goto_quiet _ pass _)
      · exact ⟨rfl, rfl, rfl, rfl, rfl⟩

variable {link} {next : Link Packet}

theorem bhDevs_quiet {pass : Pass} (moved : bhDevs link pass = some next) : Quiet link next := by
  rw [bhDevs] at moved
  split at moved
  · split at moved
    · rw [← Option.some.inj moved]
      exact goto_quiet link pass _
    · contradiction
  · split at moved
    · rw [← Option.some.inj moved]
      exact goto_quiet link pass _
    · rw [← Option.some.inj moved]
      exact ⟨rfl, rfl, rfl, rfl, rfl⟩

theorem bhSkip_quiet {pass : Pass} {id : Nat} (moved : bhSkip link pass id = some next) :
    Quiet link next := by
  simp only [bhSkip] at moved
  split at moved
  · rw [← Option.some.inj moved]
    exact goto_quiet link pass _
  · obtain ⟨other, _, moved⟩ := Option.map_eq_some_iff.mp moved
    rw [← moved]
    exact goto_quiet link pass _

theorem wplipLinkBh_quiet {now : BitVec 64} {accepted : Bool}
    (moved : wplipLinkBh link now accepted = some next) : Quiet link next := by
  rw [wplipLinkBh] at moved
  split at moved
  · split at moved
    · rw [← Option.some.inj moved]
      exact ⟨rfl, rfl, rfl, rfl, rfl⟩
    · contradiction
  · next pass _ =>
      split at moved
      · rw [← Option.some.inj moved]
        exact bhReceive_quiet link pass
      · rw [← Option.some.inj moved]
        exact bhBegin_quiet link now
      · rw [← Option.some.inj moved]
        exact bhLink_quiet link pass now accepted
      · exact bhDevs_quiet moved
      · next id _ =>
          rw [bhAt] at moved
          split at moved
          · rw [← Option.some.inj moved]
            exact goto_quiet link pass _
          · split at moved
            · contradiction
            · split at moved
              · exact bhSkip_quiet moved
              · rw [← Option.some.inj moved]
                exact bhDev_quiet link pass id accepted
      · rw [bhAfter] at moved
        split at moved
        · contradiction
        · exact (noteMore_quiet link _).trans (bhSkip_quiet moved)
      · rw [← Option.some.inj moved]
        exact ⟨rfl, rfl, rfl, rfl, rfl⟩
      · rw [← Option.some.inj moved]
        exact (noteMore_quiet link _).trans (goto_quiet _ pass _)
      · rw [← Option.some.inj moved, bhRetrigger, wplipRetriggerBh]
        split
        · have triggered := triggerBh_quiet link
          exact ⟨triggered.state, triggered.carrier, triggered.prot, triggered.tx, triggered.rx⟩
        · exact ⟨rfl, rfl, rfl, rfl, rfl⟩

end Parts

theorem carrierConnects_fields (link : Link Packet) :
    (carrierConnects link).state = link.state ∧ (carrierConnects link).protState = link.protState ∧
      (carrierConnects link).carrierState = wanConnected := by
  rw [carrierConnects]
  split
  · exact ⟨rfl, rfl, rfl⟩
  · next up => exact ⟨rfl, rfl, not_not.mp up⟩

theorem wplipConnect_agrees {link : Link Packet} (agrees : link.Agrees) :
    (wplipConnect link).Agrees := by
  obtain ⟨state, prot, carrier⟩ := carrierConnects_fields link
  simp only [wplipConnect, Link.Agrees]
  split
  · next up => exact ⟨fun _ => ⟨carrier, up⟩, fun _ => rfl⟩
  · next down =>
      constructor
      · intro connected
        rw [state] at connected
        rw [prot] at down
        exact absurd (agrees.mp connected).2 down
      · intro both
        exact absurd both.2 down

theorem purgeQueues_purges (link : Link Packet) (lane : Lane) :
    (purgeQueues link).purges lane =
      link.purges lane + (if lane = .tx then 1 else 0) + if lane = .rx then 1 else 0 := by
  have marked : (purgeQueues link).purges lane =
      ((link.mark .tx (.purged link.txQueue)).mark .rx (.purged link.rxQueue)).purges lane := rfl
  rw [marked, purges_mark, purges_mark]
  simp

theorem wplipConnect_purges (link : Link Packet) : PurgesOnRise link (wplipConnect link) := by
  obtain ⟨_, _, carrier⟩ := carrierConnects_fields link
  have same : (wplipConnect link).carrierState = wanConnected ∧
      (wplipConnect link).history = (carrierConnects link).history ∧
      (wplipConnect link).txQueue = (carrierConnects link).txQueue ∧
      (wplipConnect link).rxQueue = (carrierConnects link).rxQueue := by
    simp only [wplipConnect]
    split <;> exact ⟨carrier, rfl, rfl, rfl⟩
  obtain ⟨up, history, tx, rx⟩ := same
  have counts (lane : Lane) :
      (wplipConnect link).purges lane = (carrierConnects link).purges lane := by
    rw [Link.purges, history, Link.purges]
  by_cases rises : Rises link (wplipConnect link)
  · have purged : carrierConnects link =
        { wplipKick (purgeQueues link) with carrierState := wanConnected } := if_pos rises.1
    have count (lane : Lane) : (wplipConnect link).purges lane = (purgeQueues link).purges lane := by
      rw [counts, purged]
      rfl
    refine ⟨?_, ?_, fun _ => ?_⟩
    · rw [count, purgeQueues_purges, if_pos rises]
      rfl
    · rw [count, purgeQueues_purges, if_pos rises]
      rfl
    · rw [tx, rx, purged]
      exact ⟨rfl, rfl⟩
  · have up_ : link.carrierState = wanConnected := by
      by_contra down
      exact rises ⟨down, up⟩
    have quiet : carrierConnects link = link := if_neg (not_not.mpr up_)
    refine ⟨?_, ?_, fun rise => absurd rise rises⟩
    · rw [counts, quiet, if_neg rises, Nat.add_zero]
    · rw [counts, quiet, if_neg rises, Nat.add_zero]

theorem wplipDisconnect_fields (link : Link Packet) :
    (wplipDisconnect link).state = wanDisconnected ∧
      (wplipDisconnect link).carrierState = wanDisconnected ∧
      (wplipDisconnect link).history = link.history := by
  by_cases down : link.carrierState = wanDisconnected
  · by_cases off : link.state = wanDisconnected
    · simp [wplipDisconnect, down, off]
    · simp [wplipDisconnect, down, off]
  · by_cases off : link.state = wanDisconnected
    · simp [wplipDisconnect, down, off]
    · simp [wplipDisconnect, down, off]

/-- The carrier does not rise and nothing is purged. -/
theorem purgesOnRise_of_still {link next : Link Packet} (still : ¬Rises link next)
    (history : next.history = link.history) : PurgesOnRise link next := by
  have counts (lane : Lane) : next.purges lane = link.purges lane := by
    rw [Link.purges, history, Link.purges]
  refine ⟨?_, ?_, fun rises => absurd rises still⟩
  · rw [if_neg still, counts, Nat.add_zero]
  · rw [if_neg still, counts, Nat.add_zero]

theorem wplipDisconnect_lawful (link : Link Packet) :
    (wplipDisconnect link).Agrees ∧ PurgesOnRise link (wplipDisconnect link) := by
  obtain ⟨state, carrier, history⟩ := wplipDisconnect_fields link
  have apart : wanDisconnected ≠ wanConnected := by decide
  refine ⟨?_, purgesOnRise_of_still (fun rises => apart (carrier ▸ rises.2)) history⟩
  rw [Link.Agrees, state, carrier]
  exact ⟨fun up => absurd up apart, fun both => absurd both.1 apart⟩

theorem wplipBindLink_quiet {link : Link Packet} {common : Option (BitVec 8)}
    (binds : common = some wanConnected → link.carrierState = wanConnected) :
    Quiet link (wplipBindLink link common) := by
  rw [wplipBindLink]
  split
  · next up => exact ⟨rfl, (binds up).symm, rfl, rfl, rfl⟩
  · exact .refl link

/-- What a change of the protocol's state makes of the link. -/
structure ProtMoves (link next : Link Packet) : Prop where
  carrier : next.carrierState = link.carrierState
  prot : next.protState = link.protState
  history : next.history = link.history
  up : link.protState = wanConnected → link.carrierState = wanConnected →
    next.state = wanConnected
  same : link.protState = wanConnected → link.carrierState ≠ wanConnected →
    next.state = link.state
  down : link.protState ≠ wanConnected → next.state = wanDisconnected

theorem protMoves (link : Link Packet) : ProtMoves link (protDisconnects (protConnects link)) := by
  by_cases prot : link.protState = wanConnected
  · by_cases carrier : link.carrierState = wanConnected
    · have moved : protDisconnects (protConnects link) = { link with state := wanConnected } := by
        simp [protDisconnects, protConnects, prot, carrier]
      rw [moved]
      exact ⟨rfl, rfl, rfl, fun _ _ => rfl, fun _ down => absurd carrier down,
        fun down => absurd prot down⟩
    · have moved : protDisconnects (protConnects link) = link := by
        simp [protDisconnects, protConnects, prot, carrier]
      rw [moved]
      exact ⟨rfl, rfl, rfl, fun _ up => absurd up carrier, fun _ _ => rfl,
        fun down => absurd prot down⟩
  · have moved : protDisconnects (protConnects link) = { link with state := wanDisconnected } := by
      simp [protDisconnects, protConnects, prot]
    rw [moved]
    exact ⟨rfl, rfl, rfl, fun up => absurd up prot, fun up => absurd up prot, fun _ => rfl⟩

theorem protChangeState_lawful {link : Link Packet} (agrees : link.Agrees) (state : BitVec 32) :
    (wplipLinkProtChangeState link state).Agrees ∧
      PurgesOnRise link (wplipLinkProtChangeState link state) := by
  by_cases changed : link.protState.setWidth 32 ≠ state
  · have moves := protMoves { link with protState := state.setWidth 8 }
    have carrier := moves.carrier
    rw [wplipLinkProtChangeState, if_pos changed]
    constructor
    · rw [Link.Agrees, moves.carrier, moves.prot]
      by_cases prot : state.setWidth 8 = wanConnected
      · by_cases up : link.carrierState = wanConnected
        · exact ⟨fun _ => ⟨up, prot⟩, fun _ => moves.up prot up⟩
        · rw [moves.same prot up]
          exact ⟨fun on => absurd (agrees.mp on).1 up, fun both => absurd both.1 up⟩
      · have apart : wanDisconnected ≠ wanConnected := by decide
        rw [moves.down prot]
        exact ⟨fun on => absurd on apart, fun both => absurd both.2 prot⟩
    · exact purgesOnRise_of_still (fun rises => rises.1 (carrier ▸ rises.2)) moves.history
  · rw [wplipLinkProtChangeState, if_neg changed]
    exact ⟨agrees, (Quiet.refl link).purgesOnRise⟩

theorem Quiet.lawful {link next : Link Packet} (quiet : Quiet link next) (agrees : link.Agrees) :
    next.Agrees ∧ PurgesOnRise link next :=
  ⟨quiet.agrees agrees, quiet.purgesOnRise⟩

theorem step_lawful {link : Link Packet} {op : Op Packet} (agrees : link.Agrees)
    (binds : BindsConnected link op) : Lawful link op := by
  intro next moved
  cases op with
  | register calls =>
      rw [← Option.some.inj moved]
      exact (Quiet.refl link).lawful agrees
  | bindLink common =>
      rw [← Option.some.inj moved]
      exact (wplipBindLink_quiet binds).lawful agrees
  | connect =>
      obtain ⟨_, moved⟩ := Option.ite_none_left_eq_some.mp moved
      rw [← Option.some.inj moved]
      exact ⟨wplipConnect_agrees agrees, wplipConnect_purges link⟩
  | disconnect =>
      rw [← Option.some.inj moved]
      exact wplipDisconnect_lawful link
  | protChangeState state =>
      rw [← Option.some.inj moved]
      exact protChangeState_lawful agrees state
  | kick =>
      rw [← Option.some.inj moved]
      have quiet : Quiet link (wplipKick link) := ⟨rfl, rfl, rfl, rfl, rfl⟩
      exact quiet.lawful agrees
  | txTimeout =>
      rw [← Option.some.inj moved]
      have quiet : Quiet link (wplipTxTimeout link) := ⟨rfl, rfl, rfl, rfl, rfl⟩
      exact quiet.lawful agrees
  | trigger =>
      rw [← Option.some.inj moved]
      exact (triggerBh_quiet link).lawful agrees
  | linkTx skb =>
      rw [← Option.some.inj moved]
      exact (linkTx_quiet link skb).lawful agrees
  | devTx id skb =>
      obtain ⟨_, moved⟩ := Option.ite_none_left_eq_some.mp moved
      rw [← Option.some.inj moved]
      exact (devTx_quiet link id skb).lawful agrees
  | rx skb =>
      rw [← Option.some.inj moved]
      exact (rx_quiet link skb).lawful agrees
  | createLipdev id maxMtuSz =>
      obtain ⟨_, moved⟩ := Option.ite_none_right_eq_some.mp moved
      rw [← Option.some.inj moved]
      exact (setDev_quiet link id _).lawful agrees
  | setMaxMtuSz id maxMtuSz =>
      obtain ⟨_, moved⟩ := Option.ite_none_left_eq_some.mp moved
      rw [← Option.some.inj moved]
      exact (setDev_quiet link id _).lawful agrees
  | insertLipdev id =>
      obtain ⟨_, moved⟩ := Option.ite_none_right_eq_some.mp moved
      rw [← Option.some.inj moved]
      have quiet : Quiet link (wplipInsertLipdev link id) := ⟨rfl, rfl, rfl, rfl, rfl⟩
      exact quiet.lawful agrees
  | ifRegistered id =>
      obtain ⟨_, moved⟩ := Option.ite_none_right_eq_some.mp moved
      rw [← Option.some.inj moved]
      exact (ifRegistered_quiet link id).lawful agrees
  | unregister id =>
      obtain ⟨_, moved⟩ := Option.ite_none_right_eq_some.mp moved
      rw [← Option.some.inj moved]
      exact (setDev_quiet link id _).lawful agrees
  | purgeLipdev id =>
      obtain ⟨_, moved⟩ := Option.ite_none_right_eq_some.mp moved
      rw [← Option.some.inj moved]
      exact (purgeLipdev_quiet link id).lawful agrees
  | removeLipdev id =>
      obtain ⟨_, moved⟩ := Option.ite_none_right_eq_some.mp moved
      rw [← Option.some.inj moved]
      have quiet : Quiet link (wplipRemoveLipdev link id) := ⟨rfl, rfl, rfl, rfl, rfl⟩
      exact quiet.lawful agrees
  | freeLipdev id =>
      obtain ⟨_, moved⟩ := Option.ite_none_right_eq_some.mp moved
      rw [← Option.some.inj moved]
      exact (setDev_quiet link id _).lawful agrees
  | bh now accepted => exact (wplipLinkBh_quiet moved).lawful agrees

/-- Where a connected lower device is bound to a link without a carrier, the carrier rises and
nothing is purged. -/
theorem bindsConnected_of_lawful {link : Link Packet} {op : Op Packet} (lawful : Lawful link op) :
    BindsConnected link op := by
  cases op with
  | bindLink common =>
      intro connected
      by_contra down
      have purges := (lawful (wplipBindLink link common) rfl).2.tx
      have moved : wplipBindLink link common = { link with carrierState := wanConnected } :=
        if_pos connected
      have rises : Rises link (wplipBindLink link common) := ⟨down, by rw [moved]⟩
      have same : (wplipBindLink link common).purges .tx = link.purges .tx := by
        rw [moved]
        rfl
      rw [if_pos rises, same] at purges
      omega
  | register | connect | disconnect | protChangeState | kick | txTimeout | trigger | linkTx
  | devTx | rx | createLipdev | setMaxMtuSz | insertLipdev | ifRegistered | unregister
  | purgeLipdev | removeLipdev | freeLipdev | bh => trivial

theorem registered_agrees (calls : List (BitVec 32)) :
    (wplipRegister (none : Option (Link Packet)) calls).Agrees := by
  have apart : wanDisconnected ≠ wanConnected := by decide
  exact ⟨fun up => absurd up apart, fun both => absurd both.1 apart⟩

/-- The state of a link and the purges of its queues follow the carrier and the protocol in
exactly the runs that bind no connected lower device to a link without a carrier. -/
theorem wplip_link_state (calls : List (BitVec 32)) (ops : List (Op Packet)) :
    (wplipRegister (none : Option (Link Packet)) calls).Agrees ∧
      (Along step Lawful (wplipRegister (none : Option (Link Packet)) calls) ops ↔
        Along step BindsConnected (wplipRegister (none : Option (Link Packet)) calls) ops) := by
  refine ⟨registered_agrees calls, ?_, ?_⟩
  · apply Along.mono
    intro link op lawful
    exact bindsConnected_of_lawful lawful
  · apply Along.strengthen ?_ ?_ (registered_agrees calls)
    · intro link op next agrees binds moved
      exact (step_lawful agrees binds next moved).1
    · intro link op agrees binds
      exact step_lawful agrees binds

/-- A protocol that is up, and then a lower device that is up: the link stays down. -/
theorem wplip_link_state_bind :
    ¬∀ (calls : List (BitVec 32)) (ops : List (Op Unit)),
      Along step Lawful (wplipRegister (none : Option (Link Unit)) calls) ops := by
  intro always
  have lawful := always [] [.protChangeState 3, .bindLink (some wanConnected)]
  have bound := ((lawful.2 _ rfl).1 _ rfl).1
  have both : wanDisconnected = wanConnected := bound.mpr ⟨rfl, rfl⟩
  exact absurd both (by decide)

end Wanpipe.Lip
