import Wanpipe.Lip.Outcome

/-! The interfaces that a link and its bottom half point to are on the list of the link. -/

namespace Wanpipe.Lip

open RoundRobin

variable {Packet : Type}

@[simp] def Phase.onList : Phase → Bool
  | .absent => false
  | .created => false
  | .opening => true
  | .listed => true
  | .leaving => true
  | .purged => true
  | .removed => false

/-- The interfaces that a turn of the bottom half points to. -/
@[simp] def Turn.entries : Turn → List Nat
  | .receive => []
  | .begin => []
  | .link => []
  | .devs => []
  | .at id => [id]
  | .after id => [id]
  | .leave cur => cur.toList
  | .linkLeave => []
  | .retrigger => []

/-- In the round-robin loop. -/
@[simp] def Turn.loops : Turn → Bool
  | .receive => false
  | .begin => false
  | .link => false
  | .devs => false
  | .at _ => true
  | .after _ => true
  | .leave _ => false
  | .linkLeave => false
  | .retrigger => false

structure Listed (link : Link Packet) : Prop where
  nodup : link.ifdevs.Nodup
  phase : ∀ id, id ∈ link.ifdevs ↔ (link.devs id).phase.onList = true
  cur : ∀ id, link.curTx = some id → id ∈ link.ifdevs
  turn : ∀ pass, link.pass = some pass → ∀ id ∈ pass.turn.entries, id ∈ link.ifdevs
  loops : ∀ pass, link.pass = some pass → pass.turn.loops = true → link.curTx ≠ none

/-- The link or its bottom half points to the interface. -/
def Link.Holds (link : Link Packet) (id : Nat) : Prop :=
  link.curTx = some id ∨ ∃ pass ∈ link.pass, id ∈ pass.turn.entries

theorem turn_of_unlocked {link : Link Packet} {pass : Pass} (unlocked : link.locked = false)
    (running : link.pass = some pass) : pass.turn = .retrigger := by
  rw [Link.locked, running] at unlocked
  simpa using unlocked

namespace Listed

variable {link next : Link Packet}

theorem same (listed : Listed link) (ifdevs : next.ifdevs = link.ifdevs)
    (phase : ∀ id, (next.devs id).phase.onList = (link.devs id).phase.onList)
    (curTx : next.curTx = link.curTx) (pass : next.pass = link.pass) : Listed next where
  nodup := by
    rw [ifdevs]
    exact listed.nodup
  phase := by
    intro id
    rw [ifdevs, phase]
    exact listed.phase id
  cur := by
    rw [ifdevs, curTx]
    exact listed.cur
  turn := by
    rw [ifdevs, pass]
    exact listed.turn
  loops := by
    rw [curTx, pass]
    exact listed.loops

/-- The bottom half goes on to another turn. -/
theorem goto (listed : Listed link) (pass : Pass) {turn : Turn}
    (entries : ∀ id ∈ turn.entries, id ∈ link.ifdevs)
    (loops : turn.loops = true → link.curTx ≠ none) : Listed (link.goto pass turn) where
  nodup := listed.nodup
  phase := listed.phase
  cur := listed.cur
  turn := by
    intro other same id member
    rw [← Option.some.inj same] at member
    exact entries id member
  loops := by
    intro other same looping
    rw [← Option.some.inj same] at looping
    exact loops looping

theorem setDev (listed : Listed link) {id : Nat} {dev : Dev Packet}
    (phase : dev.phase.onList = (link.devs id).phase.onList) : Listed (link.setDev id dev) := by
  refine listed.same rfl ?_ rfl rfl
  intro other
  by_cases here : other = id
  · rw [here]
    simpa [Link.setDev] using phase
  · simp [Link.setDev, here]

theorem mark (listed : Listed link) (lane : Lane) (mark : Mark Packet) :
    Listed (link.mark lane mark) :=
  listed.same rfl (fun _ => rfl) rfl rfl

theorem triggerBh (listed : Listed link) : Listed (wplipTriggerBh link) := by
  rw [wplipTriggerBh_eq]
  exact listed.same rfl (fun _ => rfl) rfl rfl

theorem noteMore (listed : Listed link) (waiting : List Packet) :
    Listed (noteMore link waiting) := by
  rw [noteMore_eq]
  exact listed.same rfl (fun _ => rfl) rfl rfl

/-- `cur_tx` is set again, between two turns. -/
theorem setCur (listed : Listed link) {cur : Option Nat}
    (inside : ∀ id, cur = some id → id ∈ link.ifdevs) :
    Listed { link with curTx := cur, pass := none } where
  nodup := listed.nodup
  phase := listed.phase
  cur := inside
  turn := by
    intro pass running
    contradiction
  loops := by
    intro pass running
    contradiction

theorem not_mem (listed : Listed link) {id : Nat} (phase : (link.devs id).phase.onList = false) :
    id ∉ link.ifdevs := by
  intro member
  rw [listed.phase, phase] at member
  contradiction

theorem at_mem (listed : Listed link) {pass : Pass} {id : Nat} (running : link.pass = some pass)
    (turn : pass.turn = .at id ∨ pass.turn = .after id) : id ∈ link.ifdevs := by
  apply listed.turn pass running
  rcases turn with here | here <;> rw [here] <;> exact List.mem_singleton_self id

theorem skips (listed : Listed link) {pass : Pass} {id : Nat} (here : id ∈ link.ifdevs)
    (looping : link.curTx ≠ none) (skips : Skips link pass id next) : Listed next := by
  obtain ⟨cur, found⟩ := Option.ne_none_iff_exists'.mp looping
  have inside := listed.cur cur found
  cases skips with
  | ends _ =>
      apply listed.goto pass
      · intro other member
        rw [Turn.entries, found, Option.toList_some, List.mem_singleton] at member
        rwa [member]
      · intro impossible
        contradiction
  | goes following walked _ =>
      apply listed.goto pass
      · intro other member
        rw [Turn.entries, List.mem_singleton] at member
        rw [nextIn_todo listed.nodup inside here, Option.some.injEq] at walked
        rw [member, ← walked]
        cases coming : todo link.ifdevs cur id with
        | nil => exact inside
        | cons first rest =>
            have member : first ∈ todo link.ifdevs cur id := by
              rw [coming]
              exact List.mem_cons_self
            exact todo_subset inside member
      · exact fun _ => looping

theorem register (calls : List (BitVec 32)) :
    Listed (wplipRegister (none : Option (Link Packet)) calls) := by
  obtain ⟨prot, whole⟩ := @wplipRegister_new Packet calls
  rw [whole]
  refine ⟨List.nodup_nil, ?_, ?_, ?_, ?_⟩
  · intro id
    exact ⟨fun member => absurd member List.not_mem_nil, fun inside => by contradiction⟩
  · intro id cur
    contradiction
  · intro pass running
    contradiction
  · intro pass running
    contradiction

theorem moves (listed : Listed link) {now : BitVec 64} {accepted : Bool}
    (moves : Moves link now accepted next) : Listed next := by
  have none_ : ∀ id ∈ ([] : List Nat), id ∈ link.ifdevs := by
    intro id member
    exact absurd member List.not_mem_nil
  cases moves with
  | start idle due =>
      have same : Listed { link with scheduled := false } := listed.same rfl (fun _ => rfl) rfl rfl
      exact same.goto ⟨.receive, 0⟩ none_ (by intro impossible; contradiction)
  | heard pass running turn empty => exact listed.goto _ none_ (by intro impossible; contradiction)
  | hears pass skb skbs running turn queued => exact listed.same rfl (fun _ => rfl) rfl rfl
  | blocked pass running turn awaits => exact listed.goto _ none_ (by intro impossible; contradiction)
  | begins pass running turn =>
      have same : Listed
          { link with kick := false, awaitingKick := false, moreLinkTx := false } :=
        listed.same rfl (fun _ => rfl) rfl rfl
      exact same.goto _ none_ (by intro impossible; contradiction)
  | linkEmpty pass running turn empty =>
      exact listed.goto _ none_ (by intro impossible; contradiction)
  | linkSent pass skb skbs running turn queued taken =>
      have same : Listed ({ link with txQueue := skbs }.mark .tx (.sent skb)) :=
        listed.same rfl (fun _ => rfl) rfl rfl
      split
      · exact same.goto _ none_ (by intro impossible; contradiction)
      · exact same.goto _ none_ (by intro impossible; contradiction)
  | linkRefused pass running turn =>
      have same : Listed { link with awaitingKick := true } :=
        listed.same rfl (fun _ => rfl) rfl rfl
      exact same.goto _ none_ (by intro impossible; contradiction)
  | resumes pass id running turn cur =>
      apply listed.goto pass
      · intro other member
        rw [Turn.entries, List.mem_singleton] at member
        rw [member]
        exact listed.cur id cur
      · intro _ nothing
        rw [cur] at nothing
        contradiction
  | noDevs pass running turn empty => exact listed.goto _ none_ (by intro impossible; contradiction)
  | first pass id ids running turn found =>
      have inside : id ∈ link.ifdevs := by
        rw [found]
        exact List.mem_cons_self
      have same : Listed { link with curTx := some id, pass := none } := by
        apply listed.setCur
        intro other same
        rwa [← Option.some.inj same]
      apply same.goto pass
      · intro other member
        rw [Turn.entries, List.mem_singleton] at member
        rwa [member]
      · intro _ nothing
        contradiction
  | late pass id running turn late =>
      apply listed.goto pass
      · intro other member
        apply listed.turn pass running
        rw [turn]
        exact member
      · intro impossible
        contradiction
  | skips pass id running turn leaves skips =>
      have here := listed.at_mem running (.inl turn)
      exact listed.skips here (listed.loops pass running (by rw [turn]; rfl)) skips
  | devEmpty pass id running turn empty =>
      apply listed.goto pass
      · intro other member
        apply listed.turn pass running
        rw [turn]
        exact member
      · intro _
        exact listed.loops pass running (by rw [turn]; rfl)
  | devSent pass id skb skbs running turn queued taken =>
      have sent : Listed (sendSkb link id skb skbs) := by
        apply Listed.mark
        exact listed.setDev rfl
      apply sent.goto pass
      · intro other member
        apply listed.turn pass running
        rw [turn]
        exact member
      · intro _
        exact listed.loops pass running (by rw [turn]; rfl)
  | devRefused pass id running turn =>
      have same : Listed { link with awaitingKick := true } :=
        listed.same rfl (fun _ => rfl) rfl rfl
      apply same.goto pass
      · intro other member
        apply listed.turn pass running
        rw [turn]
        exact member
      · intro impossible
        contradiction
  | kicked pass id running turn skips =>
      have here := listed.at_mem running (.inr turn)
      have looping := listed.loops pass running (by rw [turn]; rfl)
      rw [noteMore_eq] at skips
      have same := listed.noteMore (link.devs id).txQueue
      rw [noteMore_eq] at same
      exact same.skips here looping skips
  | leaves pass cur running turn =>
      have same : Listed { link with curTx := cur, pass := none } := by
        apply listed.setCur
        intro id found
        apply listed.turn pass running
        rw [turn, found]
        exact List.mem_singleton_self id
      exact same.goto _ none_ (by intro impossible; contradiction)
  | linkLeaves pass running turn =>
      have same := listed.noteMore link.txQueue
      rw [noteMore_eq] at same ⊢
      exact same.goto _ none_ (by intro impossible; contradiction)
  | ends pass running turn =>
      obtain ⟨scheduled, same⟩ := wplipRetriggerBh_eq link
      rw [same]
      have dropped : Listed { link with pass := none } := listed.setCur listed.cur
      exact dropped.same rfl (fun _ => rfl) rfl rfl

theorem insert (listed : Listed link) {id : Nat}
    (phase : (link.devs id).phase.onList = false) : Listed (wplipInsertLipdev link id) where
  nodup := List.nodup_cons.mpr ⟨listed.not_mem phase, listed.nodup⟩
  phase := by
    intro other
    by_cases here : other = id
    · rw [here]
      simp [wplipInsertLipdev, Link.setPhase, Link.setDev]
    · have before := listed.phase other
      simpa [wplipInsertLipdev, Link.setPhase, Link.setDev, here] using before
  cur := fun other cur => List.mem_cons_of_mem id (listed.cur other cur)
  turn := fun pass running other entry =>
    List.mem_cons_of_mem id (listed.turn pass running other entry)
  loops := listed.loops

theorem remove (listed : Listed link) {id : Nat} (free : ¬link.Holds id) :
    Listed (wplipRemoveLipdev link id) where
  nodup := listed.nodup.erase id
  phase := by
    intro other
    have before := listed.phase other
    by_cases here : other = id
    · rw [here]
      simp [wplipRemoveLipdev, Link.setPhase, Link.setDev, listed.nodup.mem_erase_iff]
    · simpa [wplipRemoveLipdev, Link.setPhase, Link.setDev, here, listed.nodup.mem_erase_iff]
        using before
  cur := by
    intro other cur
    have apart : other ≠ id := fun same => free (.inl (same ▸ cur))
    exact listed.nodup.mem_erase_iff.mpr ⟨apart, listed.cur other cur⟩
  turn := by
    intro pass running other entry
    have apart : other ≠ id := fun same => free (.inr ⟨pass, running, same ▸ entry⟩)
    exact listed.nodup.mem_erase_iff.mpr ⟨apart, listed.turn pass running other entry⟩
  loops := listed.loops

theorem dropCur (listed : Listed link) (unlocked : link.locked = false) :
    Listed { link with curTx := none } where
  nodup := listed.nodup
  phase := listed.phase
  cur := by
    intro id cur
    contradiction
  turn := listed.turn
  loops := by
    intro pass running looping
    rw [turn_of_unlocked unlocked running] at looping
    contradiction

/-- The interfaces are added and removed off the turn of the bottom half. -/
theorem outcome (listed : Listed link) {op : Op Packet}
    (removes : ∀ id, op = .removeLipdev id → ¬link.Holds id) (outcome : Outcome link op next) :
    Listed next := by
  cases outcome with
  | restated state carrier prot => exact listed.same rfl (fun _ => rfl) rfl rfl
  | woken awaiting kick scheduled due => exact listed.same rfl (fun _ => rfl) rfl rfl
  | risen state carrier unlocked => exact listed.same rfl (fun _ => rfl) rfl rfl
  | queuedTx skb | queuedRx skb =>
      apply triggerBh
      exact listed.same rfl (fun _ => rfl) rfl rfl
  | queuedDev id skb there =>
      apply triggerBh
      apply mark
      exact listed.setDev rfl
  | create id maxMtuSz phase =>
      apply listed.setDev
      rw [phase]
      rfl
  | resized id maxMtuSz => exact listed.setDev rfl
  | insert id phase => exact listed.insert (by rw [phase]; rfl)
  | registered id phase =>
      have known : Listed (link.setPhase id .listed) := by
        apply listed.setDev
        rw [phase]
        rfl
      simp only [ifRegistered]
      split
      · exact known.triggerBh
      · exact known
  | unregister id phase =>
      apply listed.setDev
      rw [phase]
      rfl
  | purge id phase unlocked =>
      apply mark
      exact (listed.dropCur unlocked).setDev (by simp [phase])
  | remove id phase => exact listed.remove (removes id rfl)
  | free id phase =>
      apply listed.setDev
      rcases phase with created | removed
      · rw [created]
        rfl
      · rw [removed]
        rfl
  | bh now accepted moves => exact listed.moves moves

end Listed

end Wanpipe.Lip
