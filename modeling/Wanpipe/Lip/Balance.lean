import Wanpipe.Lip.Outcome

/-! Every packet that a link took is queued, handed on or purged, and in order. -/

namespace Wanpipe.Lip

variable {Packet : Type}

structure Accounted (link : Link Packet) : Prop where
  balanced : Tallied link.history link.queue
  unused : ∀ id, (link.devs id).phase = .absent → (link.devs id).txQueue = []

theorem queue_setDev (link : Link Packet) (id : Nat) (dev : Dev Packet) (lane : Lane) :
    (link.setDev id dev).queue lane = if lane = .dev id then dev.txQueue else link.queue lane := by
  cases lane with
  | tx => rfl
  | rx => rfl
  | dev other =>
      by_cases here : other = id
      · rw [here]
        simp [Link.queue, Link.setDev]
      · simp [Link.queue, Link.setDev, here]

theorem queue_ne_dev (link : Link Packet) {id : Nat} {dev : Dev Packet} (lane : Lane)
    (other : lane ≠ .dev id) : (link.setDev id dev).queue lane = link.queue lane := by
  rw [queue_setDev, if_neg other]

namespace Accounted

variable {link next : Link Packet}

theorem register (calls : List (BitVec 32)) :
    Accounted (wplipRegister (none : Option (Link Packet)) calls) := by
  obtain ⟨prot, whole⟩ := @wplipRegister_new Packet calls
  rw [whole]
  constructor
  · apply Tallied.start
    intro lane
    cases lane <;> rfl
  · intro id _
    rfl

theorem same (accounted : Accounted link) (history : next.history = link.history)
    (queue : ∀ lane, next.queue lane = link.queue lane)
    (phase : ∀ id, (next.devs id).phase = .absent → (link.devs id).phase = .absent) :
    Accounted next where
  balanced := by
    intro lane
    rw [history, queue]
    exact accounted.balanced lane
  unused := by
    intro id absent
    have here := queue (.dev id)
    rw [Link.queue, Link.queue] at here
    rw [here]
    exact accounted.unused id (phase id absent)

theorem triggerBh (accounted : Accounted link) : Accounted (wplipTriggerBh link) := by
  rw [wplipTriggerBh_eq]
  exact accounted.same rfl (fun _ => rfl) (fun _ absent => absent)

/-- A change of an interface that keeps its queue. -/
theorem setDev (accounted : Accounted link) {id : Nat} {dev : Dev Packet}
    (queue : dev.txQueue = (link.devs id).txQueue)
    (phase : dev.phase = .absent → (link.devs id).txQueue = []) :
    Accounted (link.setDev id dev) where
  balanced := by
    intro lane
    have same : (link.setDev id dev).queue lane = link.queue lane := by
      rw [queue_setDev]
      split
      · next here =>
          rw [here, queue]
          rfl
      · rfl
    rw [same]
    exact accounted.balanced lane
  unused := by
    intro other absent
    by_cases here : other = id
    · rw [here] at absent ⊢
      simp only [Link.setDev, Function.update_self] at absent ⊢
      rw [queue]
      exact phase absent
    · simp only [Link.setDev, Function.update_of_ne here] at absent ⊢
      exact accounted.unused other absent

theorem queueSkb (accounted : Accounted link) {id : Nat} (skb : Packet)
    (there : (link.devs id).phase ≠ .absent) : Accounted (queueSkb link id skb) where
  balanced := by
    apply accounted.balanced.take (.dev id)
    · rw [Lip.queueSkb]
      exact (queue_setDev link id _ _).trans (if_pos rfl)
    · intro other apart
      exact queue_ne_dev link other apart
  unused := by
    intro other absent
    by_cases here : other = id
    · rw [here] at absent
      simp [Lip.queueSkb, Link.setDev, Link.mark, there] at absent
    · simp only [Lip.queueSkb, Link.mark, Link.setDev, Function.update_of_ne here] at absent ⊢
      exact accounted.unused other absent

theorem sendSkb (accounted : Accounted link) {id : Nat} {skb : Packet} {skbs : List Packet}
    (queued : (link.devs id).txQueue = skb :: skbs) : Accounted (sendSkb link id skb skbs) where
  balanced := by
    apply accounted.balanced.send (.dev id)
    · have rest : (Lip.sendSkb link id skb skbs).queue (.dev id) = skbs :=
        (queue_setDev link id _ _).trans (if_pos rfl)
      rw [rest]
      exact queued
    · intro other apart
      exact queue_ne_dev link other apart
  unused := by
    intro other absent
    by_cases here : other = id
    · rw [here] at absent
      simp only [Lip.sendSkb, Link.mark, Link.setDev, Function.update_self] at absent
      rw [accounted.unused id absent] at queued
      contradiction
    · simp only [Lip.sendSkb, Link.mark, Link.setDev, Function.update_of_ne here] at absent ⊢
      exact accounted.unused other absent

theorem purgeQueues (accounted : Accounted link) : Accounted (purgeQueues link) where
  balanced := by
    have tx : Tallied (link.history ++ [(.tx, .purged link.txQueue)])
        ({ link with txQueue := [] } : Link Packet).queue := by
      apply accounted.balanced.purge .tx rfl
      intro other apart
      cases other with
      | tx => contradiction
      | rx => rfl
      | dev id => rfl
    apply tx.purge .rx rfl
    intro other apart
    cases other with
    | tx => rfl
    | rx => contradiction
    | dev id => rfl
  unused := accounted.unused

theorem purgeLipdev (accounted : Accounted link) (id : Nat) : Accounted (purgeLipdev link id) where
  balanced := by
    apply accounted.balanced.purge (.dev id)
    · exact (queue_setDev _ id _ _).trans (if_pos rfl)
    · intro other apart
      exact queue_ne_dev { link with curTx := none } other apart
  unused := by
    intro other absent
    by_cases here : other = id
    · rw [here] at absent
      simp [Lip.purgeLipdev, Link.setDev, Link.mark] at absent
    · simp only [Lip.purgeLipdev, Link.mark, Link.setDev, Function.update_of_ne here] at absent ⊢
      exact accounted.unused other absent

theorem goto (accounted : Accounted link) (pass : Pass) (turn : Turn) :
    Accounted (link.goto pass turn) :=
  accounted.same rfl (fun _ => rfl) (fun _ absent => absent)

theorem skips (accounted : Accounted link) {pass : Pass} {id : Nat}
    (skips : Skips link pass id next) : Accounted next := by
  cases skips with
  | ends _ => exact accounted.goto pass _
  | goes following _ _ => exact accounted.goto pass _

theorem moves (accounted : Accounted link) {now : BitVec 64} {accepted : Bool}
    (moves : Moves link now accepted next) : Accounted next := by
  cases moves with
  | start | heard | blocked | begins | linkEmpty | linkRefused | resumes | noDevs | first | late
  | devEmpty | devRefused | leaves =>
      exact accounted.same rfl (fun _ => rfl) (fun _ absent => absent)
  | hears pass skb skbs running turn queued =>
      refine ⟨?_, accounted.unused⟩
      apply accounted.balanced.send .rx
      · exact queued
      · intro other apart
        cases other with
        | tx => rfl
        | rx => contradiction
        | dev id => rfl
  | linkSent pass skb skbs running turn queued taken =>
      refine ⟨?_, accounted.unused⟩
      apply accounted.balanced.send .tx
      · exact queued
      · intro other apart
        cases other with
        | tx => contradiction
        | rx => rfl
        | dev id => rfl
  | skips pass id running turn leaves skips => exact accounted.skips skips
  | devSent pass id skb skbs running turn queued taken =>
      exact (accounted.sendSkb queued).goto pass _
  | kicked pass id running turn skips =>
      rw [noteMore_eq] at skips
      have same : Accounted
          { link with
            moreLinkTx := link.moreLinkTx || (link.devs id).txQueue.length != 0 } :=
        accounted.same rfl (fun _ => rfl) (fun _ absent => absent)
      exact same.skips skips
  | linkLeaves pass running turn =>
      rw [noteMore_eq]
      exact accounted.same rfl (fun _ => rfl) (fun _ absent => absent)
  | ends pass running turn =>
      obtain ⟨scheduled, same⟩ := wplipRetriggerBh_eq link
      rw [same]
      exact accounted.same rfl (fun _ => rfl) (fun _ absent => absent)

/-- An interface is freed when its queue is empty. -/
theorem outcome (accounted : Accounted link) {op : Op Packet}
    (frees : ∀ id, op = .freeLipdev id → (link.devs id).txQueue = [])
    (outcome : Outcome link op next) : Accounted next := by
  cases outcome with
  | restated | woken => exact accounted.same rfl (fun _ => rfl) (fun _ absent => absent)
  | risen state carrier unlocked =>
      exact accounted.purgeQueues.same rfl (fun _ => rfl) (fun _ absent => absent)
  | queuedTx skb =>
      apply triggerBh
      refine ⟨?_, accounted.unused⟩
      apply accounted.balanced.take .tx rfl
      intro other apart
      cases other with
      | tx => contradiction
      | rx => rfl
      | dev id => rfl
  | queuedRx skb =>
      apply triggerBh
      refine ⟨?_, accounted.unused⟩
      apply accounted.balanced.take .rx rfl
      intro other apart
      cases other with
      | tx => rfl
      | rx => contradiction
      | dev id => rfl
  | queuedDev id skb there => exact (accounted.queueSkb skb there).triggerBh
  | create id maxMtuSz phase =>
      have empty := accounted.unused id phase
      exact accounted.setDev empty.symm (fun _ => empty)
  | resized id maxMtuSz => exact accounted.setDev rfl (accounted.unused id)
  | insert id phase =>
      have longer : Accounted { link with ifdevs := id :: link.ifdevs } :=
        accounted.same rfl (fun _ => rfl) (fun _ absent => absent)
      exact longer.setDev rfl (by intro absent; contradiction)
  | registered id phase =>
      have known : Accounted (link.setPhase id .listed) :=
        accounted.setDev rfl (by intro absent; contradiction)
      simp only [ifRegistered]
      split
      · exact known.triggerBh
      · exact known
  | unregister id phase => exact accounted.setDev rfl (by intro absent; contradiction)
  | purge id phase unlocked => exact accounted.purgeLipdev id
  | remove id phase =>
      have shorter : Accounted { link with ifdevs := link.ifdevs.erase id } :=
        accounted.same rfl (fun _ => rfl) (fun _ absent => absent)
      exact shorter.setDev rfl (by intro absent; contradiction)
  | free id phase =>
      have empty := frees id rfl
      exact accounted.setDev empty.symm (fun _ => empty)
  | bh now accepted moves => exact accounted.moves moves

end Accounted

end Wanpipe.Lip
