import Wanpipe.Lip.Listed
import Wanpipe.Lip.Balance
import Wanpipe.Runs

/-! The transmit scheduler of a LIP link over every interleaving of its callers with its bottom
half. -/

namespace Wanpipe.Lip

open RoundRobin Runs

variable {Packet : Type}

/-- A live interface with packets. -/
def Link.Waits (link : Link Packet) (id : Nat) : Prop :=
  id ∈ link.ifdevs ∧ (link.devs id).phase.unregister = false ∧ (link.devs id).txQueue ≠ []

/-- Another run of the bottom half follows, or waits for a kick. -/
def Link.Covered (link : Link Packet) : Prop :=
  link.scheduled = true ∨ link.awaitingKick = true ∨ link.moreLinkTx = true ∨ link.rxQueue ≠ []

/-- The bottom half still comes to the interface in this run. -/
@[simp] def Turn.Comes (link : Link Packet) (id : Nat) : Turn → Prop
  | .receive => True
  | .begin => True
  | .link => True
  | .devs => True
  | .at here => ∃ cur ∈ link.curTx, id ∈ here :: todo link.ifdevs cur here
  | .after here => ∃ cur ∈ link.curTx, id ∈ here :: todo link.ifdevs cur here
  | .leave _ => False
  | .linkLeave => False
  | .retrigger => False

@[simp] def Turn.leaves : Turn → Bool
  | .receive => false
  | .begin => false
  | .link => false
  | .devs => false
  | .at _ => false
  | .after _ => false
  | .leave _ => true
  | .linkLeave => true
  | .retrigger => false

@[simp] def Turn.visits : Turn → Bool
  | .receive => false
  | .begin => false
  | .link => false
  | .devs => false
  | .at _ => true
  | .after _ => false
  | .leave _ => false
  | .linkLeave => false
  | .retrigger => false

def Link.Ahead (link : Link Packet) (id : Nat) : Prop :=
  ∀ pass ∈ link.pass, pass.turn.Comes link id

/-- The bottom half is on its way out and will find packets on the link. -/
def Link.Leaves (link : Link Packet) : Prop :=
  link.txQueue ≠ [] ∧ ∃ pass ∈ link.pass, pass.turn.leaves = true

def Link.Idle (link : Link Packet) : Prop := ∀ id ∈ link.ifdevs, ¬link.Waits id

/-- Where the clock makes the bottom half leave, something brings it back if it has to; an
interface leaves the list when nothing points to it, and is freed when it holds no packet. -/
def Sound (link : Link Packet) : Op Packet → Prop
  | .bh now accepted =>
      ∀ pass ∈ link.pass, lateAt pass now = true →
        (pass.turn = .link → accepted = true → link.txQueue ≠ [] →
          link.Covered ∨ 1 < link.txQueue.length ∨ link.Idle) ∧
        (pass.turn.visits = true → link.Covered ∨ link.txQueue ≠ [] ∨ link.Idle)
  | .insertLipdev id =>
      (link.devs id).txQueue = [] ∨ link.Covered ∨ link.Leaves ∨
        (wplipInsertLipdev link id).Ahead id
  | .removeLipdev id => ¬link.Holds id
  | .freeLipdev id => (link.devs id).txQueue = []
  | _ => True

section Decide

variable (link : Link Packet)

instance (id : Nat) : Decidable (link.Waits id) := inferInstanceAs (Decidable (_ ∧ _ ∧ _))

instance : Decidable link.Covered := inferInstanceAs (Decidable (_ ∨ _ ∨ _ ∨ _))

instance (id : Nat) : (turn : Turn) → Decidable (turn.Comes link id)
  | .receive => isTrue trivial
  | .begin => isTrue trivial
  | .link => isTrue trivial
  | .devs => isTrue trivial
  | .at here =>
      inferInstanceAs (Decidable (∃ cur ∈ link.curTx, id ∈ here :: todo link.ifdevs cur here))
  | .after here =>
      inferInstanceAs (Decidable (∃ cur ∈ link.curTx, id ∈ here :: todo link.ifdevs cur here))
  | .leave _ => isFalse not_false
  | .linkLeave => isFalse not_false
  | .retrigger => isFalse not_false

instance (id : Nat) : Decidable (link.Ahead id) :=
  inferInstanceAs (Decidable (∀ pass ∈ link.pass, pass.turn.Comes link id))

instance : Decidable link.Leaves :=
  inferInstanceAs (Decidable (_ ∧ ∃ pass ∈ link.pass, pass.turn.leaves = true))

instance : Decidable link.Idle :=
  inferInstanceAs (Decidable (∀ id ∈ link.ifdevs, ¬link.Waits id))

instance (id : Nat) : Decidable (link.Holds id) :=
  inferInstanceAs (Decidable (_ ∨ ∃ pass ∈ link.pass, id ∈ pass.turn.entries))

instance : (op : Op Packet) → Decidable (Sound link op)
  | .bh now accepted =>
      inferInstanceAs (Decidable (∀ pass ∈ link.pass, lateAt pass now = true →
        (pass.turn = .link → accepted = true → link.txQueue ≠ [] →
          link.Covered ∨ 1 < link.txQueue.length ∨ link.Idle) ∧
        (pass.turn.visits = true → link.Covered ∨ link.txQueue ≠ [] ∨ link.Idle)))
  | .insertLipdev id =>
      inferInstanceAs (Decidable ((link.devs id).txQueue = [] ∨ link.Covered ∨ link.Leaves ∨
        (wplipInsertLipdev link id).Ahead id))
  | .removeLipdev id => inferInstanceAs (Decidable (¬link.Holds id))
  | .freeLipdev id => inferInstanceAs (Decidable ((link.devs id).txQueue = []))
  | .register _ | .bindLink _ | .connect | .disconnect | .protChangeState _ | .kick | .txTimeout
  | .trigger | .linkTx _ | .devTx _ _ | .rx _ | .createLipdev _ _ | .setMaxMtuSz _ _
  | .ifRegistered _ | .unregister _ | .purgeLipdev _ => isTrue trivial

end Decide

/-- No packet of the link or of a live interface is left behind. -/
structure Served (link : Link Packet) : Prop where
  devs : ∀ id, link.Waits id → link.Covered ∨ link.Leaves ∨ link.Ahead id
  tx : ∀ pass ∈ link.pass, pass.turn = .retrigger → link.txQueue ≠ [] → link.Covered

theorem covered_triggerBh (link : Link Packet) : (wplipTriggerBh link).Covered := by
  rw [wplipTriggerBh_eq]
  cases awaits : link.awaitingKick with
  | false =>
      left
      simp
  | true => exact .inr (.inl rfl)

theorem covered_noteMore {link : Link Packet} (waiting : List Packet) (covered : link.Covered) :
    (noteMore link waiting).Covered := by
  rw [noteMore_eq]
  rcases covered with due | awaits | more | heard
  · exact .inl due
  · exact .inr (.inl awaits)
  · right; right; left
    simp [more]
  · exact .inr (.inr (.inr heard))

theorem noteMore_covered (link : Link Packet) {waiting : List Packet} (queued : waiting ≠ []) :
    (noteMore link waiting).Covered := by
  rw [noteMore_eq]
  right; right; left
  simp [queued]

namespace Served

variable {link next : Link Packet}

theorem of_covered (covered : link.Covered) : Served link :=
  ⟨fun _ _ => .inl covered, fun _ _ _ _ => covered⟩

/-- Nothing waits that did not, and the bottom half stands where it stood. -/
theorem mono (served : Served link) (waits : ∀ id, next.Waits id → link.Waits id)
    (covered : link.Covered → next.Covered) (pass : next.pass = link.pass)
    (curTx : next.curTx = link.curTx) (ifdevs : next.ifdevs = link.ifdevs)
    (txQueue : next.txQueue = link.txQueue) : Served next where
  devs := by
    intro id waiting
    rcases served.devs id (waits id waiting) with here | leaves | ahead
    · exact .inl (covered here)
    · right; left
      rw [Link.Leaves, txQueue, pass]
      exact leaves
    · right; right
      intro run running
      rw [pass] at running
      have comes := ahead run running
      cases turn : run.turn <;> simp_all
  tx := by
    intro run running turn queued
    rw [pass] at running
    rw [txQueue] at queued
    exact covered (served.tx run running turn queued)

theorem goto (pass : Pass) {turn : Turn}
    (devs : ∀ id, link.Waits id →
      link.Covered ∨ (link.txQueue ≠ [] ∧ turn.leaves = true) ∨ turn.Comes link id)
    (tx : turn = .retrigger → link.txQueue ≠ [] → link.Covered) :
    Served (link.goto pass turn) where
  devs := by
    intro id waiting
    rcases devs id waiting with covered | leaves | comes
    · exact .inl covered
    · exact .inr (.inl ⟨leaves.1, { pass with turn := turn }, rfl, leaves.2⟩)
    · right; right
      intro run running
      rw [← Option.some.inj running]
      cases turn <;> exact comes
  tx := by
    intro run running here queued
    rw [← Option.some.inj running] at here
    exact tx here queued

/-- A turn after which the whole round still follows. -/
theorem early (pass : Pass) {turn : Turn} (comes : ∀ id, turn.Comes link id) :
    Served (link.goto pass turn) := by
  apply goto
  · exact fun id _ => .inr (.inr (comes id))
  · intro late
    have impossible := comes 0
    rw [late] at impossible
    exact absurd impossible not_false

theorem skips (listed : Listed link) {pass : Pass} {cur id : Nat} (curTx : link.curTx = some cur)
    (here : id ∈ link.ifdevs)
    (devs : ∀ other, link.Waits other → link.Covered ∨ other ∈ todo link.ifdevs cur id)
    (skips : Skips link pass id next) : Served next := by
  have inside := listed.cur cur curTx
  have walk := nextIn_todo listed.nodup inside here
  cases skips with
  | ends round =>
      apply goto
      · intro other waiting
        rcases devs other waiting with covered | coming
        · exact .inl covered
        · rw [walk, curTx, Option.some.injEq] at round
          cases rest : todo link.ifdevs cur id with
          | nil =>
              rw [rest] at coming
              exact absurd coming List.not_mem_nil
          | cons first later =>
              rw [rest, List.headD_cons] at round
              have back : cur ∈ todo link.ifdevs cur id := by
                rw [rest, round]
                exact List.mem_cons_self
              exact absurd back (start_not_todo id listed.nodup inside)
      · intro impossible
        contradiction
  | goes following found apart =>
      apply goto
      · intro other waiting
        rcases devs other waiting with covered | coming
        · exact .inl covered
        · rw [walk, Option.some.injEq] at found
          cases rest : todo link.ifdevs cur id with
          | nil =>
              rw [rest] at coming
              exact absurd coming List.not_mem_nil
          | cons first later =>
              rw [rest, List.headD_cons] at found
              rw [rest, found] at coming
              have goesOn := todo_next listed.nodup inside rest
              rw [found] at goesOn
              rw [← goesOn] at coming
              exact .inr (.inr ⟨cur, curTx, coming⟩)
      · intro impossible
        contradiction

/-- In the loop every packet that waits is covered or still comes. -/
theorem coming (served : Served link) (listed : Listed link) {pass : Pass} {id : Nat}
    (running : link.pass = some pass) (turn : pass.turn = .at id ∨ pass.turn = .after id) :
    ∃ cur, link.curTx = some cur ∧ ∀ other, link.Waits other →
      link.Covered ∨ other = id ∨ other ∈ todo link.ifdevs cur id := by
  have looping : pass.turn.loops = true := by
    rcases turn with here | here <;> rw [here] <;> rfl
  obtain ⟨cur, curTx⟩ := Option.ne_none_iff_exists'.mp (listed.loops pass running looping)
  refine ⟨cur, curTx, fun other waiting => ?_⟩
  rcases served.devs other waiting with covered | leaving | ahead
  · exact .inl covered
  · obtain ⟨_, run, same, leaves⟩ := leaving
    rw [← Option.some.inj (running.symm.trans same)] at leaves
    rcases turn with here | here <;> rw [here] at leaves <;> contradiction
  · have comes : ∃ first ∈ link.curTx, other ∈ id :: todo link.ifdevs first id := by
      have now := ahead pass running
      rcases turn with here | here <;> rw [here] at now <;> exact now
    obtain ⟨first, same, member⟩ := comes
    rw [← Option.some.inj (curTx.symm.trans same)] at member
    exact .inr (List.mem_cons.mp member)

theorem moves (served : Served link) (listed : Listed link) {now : BitVec 64} {accepted : Bool}
    (sound : Sound link (.bh now accepted)) (moves : Moves link now accepted next) :
    Served next := by
  cases moves with
  | start idle due =>
      have begun : Served ({ link with scheduled := false }.goto ⟨.receive, 0⟩ .receive) :=
        early _ (fun _ => trivial)
      exact begun
  | heard pass running turn empty => exact early pass (fun _ => trivial)
  | hears pass skb skbs running turn queued =>
      refine ⟨fun id _ => .inr (.inr ?_), ?_⟩
      · intro run same
        rw [← Option.some.inj (running.symm.trans same), turn]
        trivial
      · intro run same late
        rw [← Option.some.inj (running.symm.trans same), turn] at late
        contradiction
  | blocked pass running turn awaits => exact of_covered (.inr (.inl awaits))
  | begins pass running turn => exact early _ (fun _ => trivial)
  | linkEmpty pass running turn empty => exact early pass (fun _ => trivial)
  | linkSent pass skb skbs running turn queued taken =>
      split
      · next late =>
          have leaving := (sound pass running late).1 turn taken (by simp [queued])
          apply goto
          · intro id waiting
            rcases leaving with covered | more | idle
            · exact .inl covered
            · right; left
              rw [queued, List.length_cons] at more
              have some_ : skbs ≠ [] := by
                intro none_
                rw [none_, List.length_nil] at more
                omega
              exact ⟨some_, rfl⟩
            · exact absurd waiting (idle id waiting.1)
          · intro impossible
            contradiction
      · exact early pass (fun _ => trivial)
  | linkRefused pass running turn => exact of_covered (.inr (.inl rfl))
  | resumes pass id running turn cur =>
      apply goto
      · intro other waiting
        right; right
        refine ⟨id, cur, ?_⟩
        rw [mem_todo_start (listed.cur id cur)]
        exact waiting.1
      · intro impossible
        contradiction
  | noDevs pass running turn empty =>
      apply goto
      · intro other waiting
        have impossible := waiting.1
        rw [empty] at impossible
        exact absurd impossible List.not_mem_nil
      · intro impossible
        contradiction
  | first pass id ids running turn found =>
      have inside : id ∈ link.ifdevs := by
        rw [found]
        exact List.mem_cons_self
      apply goto
      · intro other waiting
        right; right
        refine ⟨id, rfl, ?_⟩
        rw [mem_todo_start inside]
        exact waiting.1
      · intro impossible
        contradiction
  | late pass id running turn late =>
      have leaving := (sound pass running late).2 (by rw [turn]; rfl)
      apply goto
      · intro other waiting
        rcases leaving with covered | more | idle
        · exact .inl covered
        · exact .inr (.inl ⟨more, rfl⟩)
        · exact absurd waiting (idle other waiting.1)
      · intro impossible
        contradiction
  | skips pass id running turn leaves skips =>
      obtain ⟨cur, curTx, coming⟩ := served.coming listed running (.inl turn)
      refine Served.skips listed curTx (listed.at_mem running (.inl turn)) ?_ skips
      intro other waiting
      rcases coming other waiting with covered | same | later
      · exact .inl covered
      · have live := waiting.2.1
        rw [same, leaves] at live
        contradiction
      · exact .inr later
  | devEmpty pass id running turn empty =>
      obtain ⟨cur, curTx, coming⟩ := served.coming listed running (.inl turn)
      apply goto
      · intro other waiting
        exact (coming other waiting).imp_right fun later =>
          .inr ⟨cur, curTx, List.mem_cons.mpr later⟩
      · intro impossible
        contradiction
  | devSent pass id skb skbs running turn queued taken =>
      obtain ⟨cur, curTx, coming⟩ := served.coming listed running (.inl turn)
      apply goto
      · intro other waiting
        have before : link.Waits other := by
          refine ⟨waiting.1, ?_⟩
          have live := waiting.2
          by_cases here : other = id
          · rw [here] at live ⊢
            refine ⟨?_, by simp [queued]⟩
            simpa [sendSkb, Link.setDev, Link.mark] using live.1
          · simpa [sendSkb, Link.setDev, Link.mark, here] using live
        exact (coming other before).imp_right fun later =>
          .inr ⟨cur, curTx, List.mem_cons.mpr later⟩
      · intro impossible
        contradiction
  | devRefused pass id running turn => exact of_covered (.inr (.inl rfl))
  | kicked pass id running turn skips =>
      obtain ⟨cur, curTx, coming⟩ := served.coming listed running (.inr turn)
      have noted := listed.noteMore (link.devs id).txQueue
      rw [noteMore_eq] at skips noted
      refine Served.skips noted curTx (listed.at_mem running (.inr turn)) ?_ skips
      intro other waiting
      rcases coming other waiting with covered | same | later
      · left
        have still := covered_noteMore (link.devs id).txQueue covered
        rwa [noteMore_eq] at still
      · left
        have queued := waiting.2.2
        rw [same] at queued
        have found := noteMore_covered link queued
        rwa [noteMore_eq] at found
      · exact .inr later
  | leaves pass cur running turn =>
      apply goto
      · intro other waiting
        rcases served.devs other waiting with covered | leaving | ahead
        · exact .inl covered
        · exact .inr (.inl ⟨leaving.1, rfl⟩)
        · have comes := ahead pass running
          rw [turn] at comes
          exact absurd comes not_false
      · intro impossible
        contradiction
  | linkLeaves pass running turn =>
      apply goto
      · intro other waiting
        rw [noteMore_eq] at waiting
        left
        rcases served.devs other waiting with covered | leaving | ahead
        · exact covered_noteMore _ covered
        · exact noteMore_covered link leaving.1
        · have comes := ahead pass running
          rw [turn] at comes
          exact absurd comes not_false
      · intro _ queued
        rw [noteMore_eq] at queued
        exact noteMore_covered link queued
  | ends pass running turn =>
      refine ⟨fun id _ => .inr (.inr ?_), ?_⟩
      · intro run impossible
        contradiction
      · intro run impossible
        contradiction

theorem waits_setDev {link : Link Packet} {id other : Nat} {dev : Dev Packet}
    (keeps : dev.phase.unregister = false → dev.txQueue ≠ [] →
      (link.devs id).phase.unregister = false ∧ (link.devs id).txQueue ≠ [])
    (waiting : (link.setDev id dev).Waits other) : link.Waits other := by
  refine ⟨waiting.1, ?_⟩
  have live := waiting.2
  by_cases here : other = id
  · rw [here] at live ⊢
    simp only [Link.setDev, Function.update_self] at live
    exact keeps live.1 live.2
  · simpa [Link.setDev, here] using live

theorem waits_off_list {link : Link Packet} {id other : Nat} {dev : Dev Packet}
    (off : id ∉ link.ifdevs) (waiting : (link.setDev id dev).Waits other) : link.Waits other := by
  have apart : other ≠ id := fun same => off (same ▸ waiting.1)
  refine ⟨waiting.1, ?_⟩
  simpa [Link.setDev, apart] using waiting.2

/-- What the turn of the bottom half comes to is found in the changed list too. -/
theorem ahead_of_round {link next : Link Packet} {other : Nat} (ahead : link.Ahead other)
    (pass : next.pass = link.pass) (curTx : next.curTx = link.curTx)
    (round : ∀ run ∈ link.pass, ∀ cur ∈ link.curTx, ∀ here ∈ run.turn.entries,
      other ∈ here :: todo link.ifdevs cur here → other ∈ here :: todo next.ifdevs cur here) :
    next.Ahead other := by
  intro run running
  rw [pass] at running
  have comes := ahead run running
  have rounds := round run running
  cases turn : run.turn with
  | «at» here | after here =>
      rw [turn] at comes rounds
      obtain ⟨cur, first, member⟩ := comes
      exact ⟨cur, curTx ▸ first, rounds cur first here (List.mem_singleton_self here) member⟩
  | receive | begin | link | devs => trivial
  | leave | linkLeave | retrigger =>
      rw [turn] at comes
      exact absurd comes not_false

theorem insert (served : Served link) (listed : Listed link) {id : Nat}
    (phase : (link.devs id).phase = .created)
    (sound : Sound link (.insertLipdev id)) : Served (wplipInsertLipdev link id) where
  devs := by
    intro other waiting
    by_cases here : other = id
    · rw [here] at waiting ⊢
      have queued := waiting.2.2
      rcases sound with empty | covered | leaves | ahead
      · simp [wplipInsertLipdev, Link.setPhase, Link.setDev, empty] at queued
      · exact .inl covered
      · exact .inr (.inl leaves)
      · exact .inr (.inr ahead)
    · have before : link.Waits other := by
        refine ⟨(List.mem_cons.mp waiting.1).resolve_left here, ?_⟩
        simpa [wplipInsertLipdev, Link.setPhase, Link.setDev, here] using waiting.2
      rcases served.devs other before with covered | leaves | ahead
      · exact .inl covered
      · exact .inr (.inl leaves)
      · right; right
        refine ahead_of_round ahead rfl rfl ?_
        intro run running cur first entry inside member
        have fresh := listed.not_mem (by rw [phase]; rfl : (link.devs id).phase.onList = false)
        have longer := todo_insert (listed.cur cur first) fresh
          (listed.turn run running entry inside)
        rcases List.mem_cons.mp member with same | later
        · exact List.mem_cons.mpr (.inl same)
        · exact List.mem_cons.mpr (.inr (longer.1.subset later))
  tx := served.tx

theorem remove (served : Served link) (listed : Listed link) {id : Nat} (free : ¬link.Holds id) :
    Served (wplipRemoveLipdev link id) where
  devs := by
    intro other waiting
    have member := listed.nodup.mem_erase_iff.mp waiting.1
    have before : link.Waits other := by
      refine ⟨member.2, ?_⟩
      simpa [wplipRemoveLipdev, Link.setPhase, Link.setDev, member.1] using waiting.2
    rcases served.devs other before with covered | leaves | ahead
    · exact .inl covered
    · exact .inr (.inl leaves)
    · right; right
      refine ahead_of_round ahead rfl rfl ?_
      intro run running cur first entry inside coming
      have apart : id ≠ cur := fun same => free (.inl (same ▸ first))
      have clear : id ≠ entry := fun same => free (.inr ⟨run, running, same ▸ inside⟩)
      have shorter : (wplipRemoveLipdev link id).ifdevs = link.ifdevs.filter (· ≠ id) :=
        erase_filter id listed.nodup
      rw [shorter, todo_filter apart clear]
      rcases List.mem_cons.mp coming with same | later
      · exact List.mem_cons.mpr (.inl same)
      · exact List.mem_cons.mpr (.inr (List.mem_filter.mpr ⟨later, decide_eq_true member.1⟩))
  tx := served.tx

theorem purge (served : Served link) {id : Nat} (unlocked : link.locked = false) :
    Served (purgeLipdev link id) where
  devs := by
    intro other waiting
    have before : link.Waits other := by
      have emptied : (link.setDev id
          { link.devs id with phase := .purged, txQueue := [] }).Waits other := waiting
      refine waits_setDev ?_ emptied
      intro live
      contradiction
    rcases served.devs other before with covered | leaves | ahead
    · exact .inl covered
    · exact .inr (.inl leaves)
    · right; right
      intro run running
      have comes := ahead run running
      rw [turn_of_unlocked unlocked running] at comes
      exact absurd comes not_false
  tx := served.tx

theorem outcome (served : Served link) (listed : Listed link) {op : Op Packet}
    (sound : Sound link op) (outcome : Outcome link op next) : Served next := by
  cases outcome with
  | restated state carrier prot =>
      exact served.mono (fun _ waiting => waiting) (fun covered => covered) rfl rfl rfl rfl
  | woken awaiting kick scheduled due =>
      rcases due with due | awaits
      · exact of_covered (.inl due)
      · exact of_covered (.inr (.inl awaits))
  | risen state carrier unlocked => exact of_covered (.inl rfl)
  | queuedTx | queuedRx | queuedDev => exact of_covered (covered_triggerBh _)
  | create id maxMtuSz phase =>
      have off := listed.not_mem (by rw [phase]; rfl : (link.devs id).phase.onList = false)
      exact served.mono (fun _ => waits_off_list off) (fun covered => covered) rfl rfl rfl rfl
  | resized id maxMtuSz =>
      refine served.mono (fun _ => waits_setDev ?_) (fun covered => covered) rfl rfl rfl rfl
      exact fun live queued => ⟨live, queued⟩
  | insert id phase => exact served.insert listed phase sound
  | registered id phase =>
      have known : Served (link.setPhase id .listed) := by
        refine served.mono (fun _ => waits_setDev ?_) (fun covered => covered) rfl rfl rfl rfl
        exact fun _ queued => ⟨by rw [phase]; rfl, queued⟩
      simp only [ifRegistered]
      split
      · exact of_covered (covered_triggerBh _)
      · exact known
  | unregister id phase =>
      refine served.mono (fun _ => waits_setDev ?_) (fun covered => covered) rfl rfl rfl rfl
      intro live
      contradiction
  | purge id phase unlocked => exact served.purge unlocked
  | remove id phase => exact served.remove listed sound
  | free id phase =>
      have off : id ∉ link.ifdevs := by
        apply listed.not_mem
        rcases phase with created | removed
        · rw [created]
          rfl
        · rw [removed]
          rfl
      exact served.mono (fun _ => waits_off_list off) (fun covered => covered) rfl rfl rfl rfl
  | bh now accepted moves => exact served.moves listed sound moves

theorem register (calls : List (BitVec 32)) :
    Served (wplipRegister (none : Option (Link Packet)) calls) := by
  obtain ⟨prot, whole⟩ := @wplipRegister_new Packet calls
  rw [whole]
  constructor
  · intro id waiting
    exact absurd waiting.1 List.not_mem_nil
  · intro pass running
    contradiction

end Served

end Wanpipe.Lip
