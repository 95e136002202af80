import Wanpipe.Lip.BottomHalf

/-! What a step of a link can make of it. -/

namespace Wanpipe.Lip

open RoundRobin

variable {Packet : Type}

/-- What `wplip_bh_transmit_skip` comes to. -/
inductive Skips (link : Link Packet) (pass : Pass) (id : Nat) : Link Packet → Prop
  | ends (round : nextIn link.ifdevs id = link.curTx) :
      Skips link pass id (link.goto pass (.leave link.curTx))
  | goes (next : Nat) (found : nextIn link.ifdevs id = some next) (other : some next ≠ link.curTx) :
      Skips link pass id (link.goto pass (.at next))

theorem bhSkip_skips {link next : Link Packet} {pass : Pass} {id : Nat}
    (moved : bhSkip link pass id = some next) : Skips link pass id next := by
  simp only [bhSkip] at moved
  split at moved
  · next round =>
      rw [← Option.some.inj moved, round]
      exact .ends round
  · next other =>
      obtain ⟨following, found, moved⟩ := Option.map_eq_some_iff.mp moved
      rw [found] at other
      rw [← moved]
      exact .goes following found other

/-- The steps of the bottom half. -/
inductive Moves (link : Link Packet) (now : BitVec 64) (accepted : Bool) : Link Packet → Prop
  | start (idle : link.pass = none) (due : link.scheduled = true) :
      Moves link now accepted { link with scheduled := false, pass := some ⟨.receive, 0⟩ }
  | heard (pass : Pass) (running : link.pass = some pass) (turn : pass.turn = .receive)
      (empty : link.rxQueue = []) : Moves link now accepted (link.goto pass .begin)
  | hears (pass : Pass) (skb : Packet) (skbs : List Packet) (running : link.pass = some pass)
      (turn : pass.turn = .receive) (queued : link.rxQueue = skb :: skbs) :
      Moves link now accepted ({ link with rxQueue := skbs }.mark .rx (.sent skb))
  | blocked (pass : Pass) (running : link.pass = some pass) (turn : pass.turn = .begin)
      (awaits : link.awaitingKick = true) :
      Moves link now accepted (link.goto ⟨.begin, now⟩ .retrigger)
  | begins (pass : Pass) (running : link.pass = some pass) (turn : pass.turn = .begin) :
      Moves link now accepted
        ({ link with kick := false, awaitingKick := false, moreLinkTx := false }.goto
          ⟨.begin, now⟩ .link)
  | linkEmpty (pass : Pass) (running : link.pass = some pass) (turn : pass.turn = .link)
      (empty : link.txQueue = []) : Moves link now accepted (link.goto pass .devs)
  | linkSent (pass : Pass) (skb : Packet) (skbs : List Packet) (running : link.pass = some pass)
      (turn : pass.turn = .link) (queued : link.txQueue = skb :: skbs) (taken : accepted = true) :
      Moves link now accepted
        (({ link with txQueue := skbs }.mark .tx (.sent skb)).goto pass
          (if lateAt pass now then .linkLeave else .link))
  | linkRefused (pass : Pass) (running : link.pass = some pass) (turn : pass.turn = .link) :
      Moves link now accepted ({ link with awaitingKick := true }.goto pass .linkLeave)
  | resumes (pass : Pass) (id : Nat) (running : link.pass = some pass) (turn : pass.turn = .devs)
      (cur : link.curTx = some id) : Moves link now accepted (link.goto pass (.at id))
  | noDevs (pass : Pass) (running : link.pass = some pass) (turn : pass.turn = .devs)
      (empty : link.ifdevs = []) : Moves link now accepted (link.goto pass (.leave none))
  | first (pass : Pass) (id : Nat) (ids : List Nat) (running : link.pass = some pass)
      (turn : pass.turn = .devs) (listed : link.ifdevs = id :: ids) :
      Moves link now accepted ({ link with curTx := some id }.goto pass (.at id))
  | late (pass : Pass) (id : Nat) (running : link.pass = some pass) (turn : pass.turn = .at id)
      (late : lateAt pass now = true) : Moves link now accepted (link.goto pass (.leave (some id)))
  | skips (pass : Pass) (id : Nat) {next : Link Packet} (running : link.pass = some pass)
      (turn : pass.turn = .at id) (leaves : (link.devs id).phase.unregister = true)
      (skips : Skips link pass id next) : Moves link now accepted next
  | devEmpty (pass : Pass) (id : Nat) (running : link.pass = some pass) (turn : pass.turn = .at id)
      (empty : (link.devs id).txQueue = []) : Moves link now accepted (link.goto pass (.after id))
  | devSent (pass : Pass) (id : Nat) (skb : Packet) (skbs : List Packet)
      (running : link.pass = some pass) (turn : pass.turn = .at id)
      (queued : (link.devs id).txQueue = skb :: skbs) (taken : accepted = true) :
      Moves link now accepted ((sendSkb link id skb skbs).goto pass (.after id))
  | devRefused (pass : Pass) (id : Nat) (running : link.pass = some pass)
      (turn : pass.turn = .at id) :
      Moves link now accepted ({ link with awaitingKick := true }.goto pass (.leave (some id)))
  | kicked (pass : Pass) (id : Nat) {next : Link Packet} (running : link.pass = some pass)
      (turn : pass.turn = .after id)
      (skips : Skips (noteMore link (link.devs id).txQueue) pass id next) :
      Moves link now accepted next
  | leaves (pass : Pass) (cur : Option Nat) (running : link.pass = some pass)
      (turn : pass.turn = .leave cur) :
      Moves link now accepted ({ link with curTx := cur }.goto pass .linkLeave)
  | linkLeaves (pass : Pass) (running : link.pass = some pass) (turn : pass.turn = .linkLeave) :
      Moves link now accepted ((noteMore link link.txQueue).goto pass .retrigger)
  | ends (pass : Pass) (running : link.pass = some pass) (turn : pass.turn = .retrigger) :
      Moves link now accepted { wplipRetriggerBh link with pass := none }

theorem wplipLinkBh_moves {link next : Link Packet} {now : BitVec 64} {accepted : Bool}
    (moved : wplipLinkBh link now accepted = some next) : Moves link now accepted next := by
  rw [wplipLinkBh] at moved
  split at moved
  · next idle =>
      split at moved
      · next due =>
          rw [← Option.some.inj moved]
          exact .start idle due
      · contradiction
  · next pass running =>
      split at moved
      · next turn =>
          rw [← Option.some.inj moved, bhReceive]
          split
          · next empty => exact .heard pass running turn empty
          · next skb skbs queued => exact .hears pass skb skbs running turn queued
      · next turn =>
          rw [← Option.some.inj moved, bhBegin]
          split
          · next awaits => exact .blocked pass running turn awaits.1
          · exact .begins pass running turn
      · next turn =>
          rw [← Option.some.inj moved, bhLink]
          split
          · next empty => exact .linkEmpty pass running turn empty
          · next skb skbs queued =>
              split
              · next taken => exact .linkSent pass skb skbs running turn queued taken
              · exact .linkRefused pass running turn
      · next turn =>
          rw [bhDevs] at moved
          split at moved
          · next id cur =>
              split at moved
              · rw [← Option.some.inj moved]
                exact .resumes pass id running turn cur
              · contradiction
          · split at moved
            · next empty =>
                rw [← Option.some.inj moved]
                exact .noDevs pass running turn empty
            · next id ids listed =>
                rw [← Option.some.inj moved]
                exact .first pass id ids running turn listed
      · next id turn =>
          rw [bhAt] at moved
          split at moved
          · next late =>
              rw [← Option.some.inj moved]
              exact .late pass id running turn late
          · split at moved
            · contradiction
            · split at moved
              · next leaves => exact .skips pass id running turn leaves (bhSkip_skips moved)
              · rw [← Option.some.inj moved, bhDev]
                split
                · next empty => exact .devEmpty pass id running turn empty
                · next skb skbs queued =>
                    split
                    · next taken => exact .devSent pass id skb skbs running turn queued taken
                    · exact .devRefused pass id running turn
      · next id turn =>
          rw [bhAfter] at moved
          split at moved
          · contradiction
          · exact .kicked pass id running turn (bhSkip_skips moved)
      · next cur turn =>
          rw [← Option.some.inj moved]
          exact .leaves pass cur running turn
      · next turn =>
          rw [← Option.some.inj moved]
          exact .linkLeaves pass running turn
      · next turn =>
          rw [← Option.some.inj moved]
          exact .ends pass running turn

/-- The steps of a link: what matters of it beside its states. -/
inductive Outcome (link : Link Packet) : Op Packet → Link Packet → Prop
  | restated {op : Op Packet} (state carrier prot : BitVec 8) :
      Outcome link op
        { link with state := state, carrierState := carrier, protState := prot }
  | woken {op : Op Packet} (awaiting kick scheduled : Bool)
      (due : scheduled = true ∨ awaiting = true) :
      Outcome link op
        { link with awaitingKick := awaiting, kick := kick, scheduled := scheduled }
  | risen {op : Op Packet} (state carrier : BitVec 8) (unlocked : link.locked = false) :
      Outcome link op
        { wplipKick (purgeQueues link) with state := state, carrierState := carrier }
  | queuedTx {op : Op Packet} (skb : Packet) :
      Outcome link op
        (wplipTriggerBh ({ link with txQueue := link.txQueue ++ [skb] }.mark .tx (.took skb)))
  | queuedRx {op : Op Packet} (skb : Packet) :
      Outcome link op
        (wplipTriggerBh ({ link with rxQueue := link.rxQueue ++ [skb] }.mark .rx (.took skb)))
  | queuedDev {op : Op Packet} (id : Nat) (skb : Packet)
      (there : (link.devs id).phase ≠ .absent) :
      Outcome link op (wplipTriggerBh (queueSkb link id skb))
  | create (id maxMtuSz : Nat) (phase : (link.devs id).phase = .absent) :
      Outcome link (.createLipdev id maxMtuSz) (wplipCreateLipdev link id maxMtuSz)
  | resized {op : Op Packet} (id maxMtuSz : Nat) :
      Outcome link op (link.setDev id { link.devs id with maxMtuSz := maxMtuSz })
  | insert (id : Nat) (phase : (link.devs id).phase = .created) :
      Outcome link (.insertLipdev id) (wplipInsertLipdev link id)
  | registered (id : Nat) (phase : (link.devs id).phase = .opening) :
      Outcome link (.ifRegistered id) (ifRegistered link id)
  | unregister (id : Nat) (phase : (link.devs id).phase = .listed) :
      Outcome link (.unregister id) (link.setPhase id .leaving)
  | purge (id : Nat) (phase : (link.devs id).phase = .leaving) (unlocked : link.locked = false) :
      Outcome link (.purgeLipdev id) (purgeLipdev link id)
  | remove (id : Nat)
      (phase : (link.devs id).phase = .opening ∨ (link.devs id).phase = .purged) :
      Outcome link (.removeLipdev id) (wplipRemoveLipdev link id)
  | free (id : Nat) (phase : (link.devs id).phase = .created ∨ (link.devs id).phase = .removed) :
      Outcome link (.freeLipdev id) (wplipFreeLipdev link id)
  | bh {next : Link Packet} (now : BitVec 64) (accepted : Bool)
      (moves : Moves link now accepted next) : Outcome link (.bh now accepted) next

namespace Outcome

variable (link : Link Packet) {op : Op Packet}

theorem same : Outcome link op link := .restated link.state link.carrierState link.protState

theorem triggered : Outcome link op (wplipTriggerBh link) := by
  rw [wplipTriggerBh_eq]
  apply Outcome.woken link.awaitingKick link.kick
  cases link.awaitingKick <;> simp

theorem connect (free : ¬(link.locked = true ∧ link.carrierState ≠ wanConnected)) :
    Outcome link op (wplipConnect link) := by
  simp only [wplipConnect, carrierConnects]
  by_cases down : link.carrierState ≠ wanConnected
  · have unlocked : link.locked = false := by
      rw [← Bool.not_eq_true]
      exact fun locked => free ⟨locked, down⟩
    rw [if_pos down]
    split
    · exact .risen wanConnected wanConnected unlocked
    · exact .risen link.state wanConnected unlocked
  · rw [if_neg down]
    split
    · exact .restated wanConnected link.carrierState link.protState
    · exact same link

theorem disconnect : Outcome link op (wplipDisconnect link) := by
  simp only [wplipDisconnect]
  split
  · split
    · exact .restated wanDisconnected wanDisconnected link.protState
    · exact .restated link.state wanDisconnected link.protState
  · split
    · exact .restated wanDisconnected link.carrierState link.protState
    · exact same link

theorem bindLink (common : Option (BitVec 8)) : Outcome link op (wplipBindLink link common) := by
  rw [wplipBindLink]
  split
  · exact .restated link.state wanConnected link.protState
  · exact same link

theorem protChangeState (state : BitVec 32) :
    Outcome link op (wplipLinkProtChangeState link state) := by
  obtain ⟨whole, prot, moved⟩ := protChangeState_restated link state
  rw [moved]
  exact .restated whole link.carrierState prot

theorem linkTx (skb : Packet) : Outcome link op (wplipLinkCallbackTxDown link skb).2 := by
  rw [wplipLinkCallbackTxDown]
  split
  · exact same link
  · split
    · exact triggered link
    · exact .queuedTx skb

theorem devTx (id : Nat) (skb : Option Packet) (there : (link.devs id).phase ≠ .absent) :
    Outcome link op (wplipCallbackTxDown link id skb).2 := by
  cases skb with
  | none => exact same link
  | some skb =>
      rw [wplipCallbackTxDown]
      split
      · exact same link
      · split
        · exact triggered link
        · exact .queuedDev id skb there

theorem rx (skb : Packet) : Outcome link op (wplipRx link skb).2 := by
  rw [wplipRx]
  split
  · exact triggered link
  · exact .queuedRx skb

end Outcome

theorem step_outcome {link next : Link Packet} {op : Op Packet} (moved : step link op = some next) :
    Outcome link op next := by
  cases op with
  | register calls =>
      rw [← Option.some.inj moved]
      exact .same link
  | bindLink common =>
      rw [← Option.some.inj moved]
      exact .bindLink link common
  | connect =>
      obtain ⟨free, moved⟩ := Option.ite_none_left_eq_some.mp moved
      rw [← Option.some.inj moved]
      exact .connect link free
  | disconnect =>
      rw [← Option.some.inj moved]
      exact .disconnect link
  | protChangeState state =>
      rw [← Option.some.inj moved]
      exact .protChangeState link state
  | kick =>
      rw [← Option.some.inj moved]
      exact .woken false true true (.inl rfl)
  | txTimeout =>
      rw [← Option.some.inj moved]
      exact .woken false link.kick true (.inl rfl)
  | trigger =>
      rw [← Option.some.inj moved]
      exact .triggered link
  | linkTx skb =>
      rw [← Option.some.inj moved]
      exact .linkTx link skb
  | devTx id skb =>
      obtain ⟨there, moved⟩ := Option.ite_none_left_eq_some.mp moved
      rw [← Option.some.inj moved]
      exact .devTx link id skb there
  | rx skb =>
      rw [← Option.some.inj moved]
      exact .rx link skb
  | createLipdev id maxMtuSz =>
      obtain ⟨phase, moved⟩ := Option.ite_none_right_eq_some.mp moved
      rw [← Option.some.inj moved]
      exact .create id maxMtuSz phase
  | setMaxMtuSz id maxMtuSz =>
      obtain ⟨_, moved⟩ := Option.ite_none_left_eq_some.mp moved
      rw [← Option.some.inj moved]
      exact .resized id maxMtuSz
  | insertLipdev id =>
      obtain ⟨phase, moved⟩ := Option.ite_none_right_eq_some.mp moved
      rw [← Option.some.inj moved]
      exact .insert id phase
  | ifRegistered id =>
      obtain ⟨phase, moved⟩ := Option.ite_none_right_eq_some.mp moved
      rw [← Option.some.inj moved]
      exact .registered id phase
  | unregister id =>
      obtain ⟨phase, moved⟩ := Option.ite_none_right_eq_some.mp moved
      rw [← Option.some.inj moved]
      exact .unregister id phase
  | purgeLipdev id =>
      obtain ⟨phase, moved⟩ := Option.ite_none_right_eq_some.mp moved
      rw [← Option.some.inj moved]
      exact .purge id phase.1 phase.2
  | removeLipdev id =>
      obtain ⟨phase, moved⟩ := Option.ite_none_right_eq_some.mp moved
      rw [← Option.some.inj moved]
      exact .remove id phase
  | freeLipdev id =>
      obtain ⟨phase, moved⟩ := Option.ite_none_right_eq_some.mp moved
      rw [← Option.some.inj moved]
      exact .free id phase
  | bh now accepted => exact .bh now accepted (wplipLinkBh_moves moved)

end Wanpipe.Lip
