import Wanpipe.Lip.Scheduler

/-! What holds of the packets of a LIP link in every state of a run, and where a run can lose
them. -/

namespace Wanpipe.Lip

open RoundRobin Runs

variable {Packet : Type}

structure Kept (link : Link Packet) : Prop where
  listed : Listed link
  accounted : Accounted link
  served : Served link

theorem kept_register (calls : List (BitVec 32)) :
    Kept (wplipRegister (none : Option (Link Packet)) calls) :=
  ⟨.register calls, .register calls, .register calls⟩

theorem step_kept {link next : Link Packet} {op : Op Packet} (kept : Kept link)
    (sound : Sound link op) (moved : step link op = some next) : Kept next := by
  have outcome := step_outcome moved
  refine ⟨kept.listed.outcome ?_ outcome, kept.accounted.outcome ?_ outcome,
    kept.served.outcome kept.listed sound outcome⟩
  · intro id removes
    rw [removes] at sound
    exact sound
  · intro id frees
    rw [frees] at sound
    exact sound

/-- The steps of the bottom half, each with its clock and its answer of the lower device. -/
def asked (asks : List (BitVec 64 × Bool)) : List (Op Packet) :=
  asks.map fun ask => .bh ask.1 ask.2

/-- How many steps of the loop are left: two for each interface of the round. -/
@[simp] def Turn.toGo (ids : List Nat) (cur : Nat) : Turn → Nat
  | .receive => 0
  | .begin => 0
  | .link => 0
  | .devs => 0
  | .at here => 2 * (todo ids cur here).length + 2
  | .after here => 2 * (todo ids cur here).length + 1
  | .leave _ => 0
  | .linkLeave => 0
  | .retrigger => 0

/-- The bottom half has left the loop, or less of the round is left. -/
def Nearer (link next : Link Packet) (cur : Nat) (turn : Turn) : Prop :=
  next.ifdevs = link.ifdevs ∧ next.curTx = link.curTx ∧ ∃ pass, next.pass = some pass ∧
    (pass.turn.leaves = true ∨ pass.turn.loops = true ∧
      pass.turn.toGo link.ifdevs cur < turn.toGo link.ifdevs cur)

theorem bhSkip_nearer {link : Link Packet} (listed : Listed link) (pass : Pass) {cur here : Nat}
    (curTx : link.curTx = some cur) (inside : here ∈ link.ifdevs) {turn : Turn}
    (round : turn = .at here ∨ turn = .after here) :
    ∃ next, bhSkip link pass here = some next ∧ Nearer link next cur turn := by
  have start := listed.cur cur curTx
  have walk := nextIn_todo listed.nodup start inside
  cases coming : todo link.ifdevs cur here with
  | nil =>
      rw [coming, List.headD_nil, ← curTx] at walk
      refine ⟨link.goto pass (.leave (nextIn link.ifdevs here)), if_pos walk, rfl, rfl, _, rfl, ?_⟩
      exact .inl rfl
  | cons first rest =>
      have apart : some first ≠ link.curTx := by
        intro back
        rw [curTx, Option.some.injEq] at back
        apply start_not_todo here listed.nodup start
        rw [coming, ← back]
        exact List.mem_cons_self
      have fewer := todo_next listed.nodup start coming
      rw [coming, List.headD_cons] at walk
      refine ⟨link.goto pass (.at first), ?_, rfl, rfl, _, rfl, .inr ⟨rfl, ?_⟩⟩
      · rw [bhSkip, walk]
        exact if_neg apart
      · rcases round with here_ | here_
        · rw [here_]
          simp only [Turn.toGo, fewer, coming, List.length_cons]
          omega
        · rw [here_]
          simp only [Turn.toGo, fewer, coming, List.length_cons]
          omega

theorem wplipLinkBh_at {link : Link Packet} {pass : Pass} {here : Nat}
    (running : link.pass = some pass) (turn : pass.turn = .at here) (now : BitVec 64)
    (accepted : Bool) : wplipLinkBh link now accepted = bhAt link pass here now accepted := by
  simp only [wplipLinkBh, running, turn]

theorem wplipLinkBh_after {link : Link Packet} {pass : Pass} {here : Nat}
    (running : link.pass = some pass) (turn : pass.turn = .after here) (now : BitVec 64)
    (accepted : Bool) : wplipLinkBh link now accepted = bhAfter link pass here := by
  simp only [wplipLinkBh, running, turn]

theorem bhDev_nearer (link : Link Packet) (pass : Pass) (cur here : Nat) (accepted : Bool) :
    Nearer link (bhDev link pass here accepted) cur (.at here) := by
  rw [bhDev]
  split
  · exact ⟨rfl, rfl, _, rfl, .inr ⟨rfl, Nat.lt_succ_self _⟩⟩
  · split
    · exact ⟨rfl, rfl, _, rfl, .inr ⟨rfl, Nat.lt_succ_self _⟩⟩
    · exact ⟨rfl, rfl, _, rfl, .inl rfl⟩

theorem bh_nearer {link : Link Packet} (listed : Listed link) {pass : Pass} {cur : Nat}
    (running : link.pass = some pass) (looping : pass.turn.loops = true)
    (curTx : link.curTx = some cur) (now : BitVec 64) (accepted : Bool) :
    ∃ next, step link (.bh now accepted) = some next ∧ Nearer link next cur pass.turn := by
  rw [step]
  cases turn : pass.turn with
  | «at» here =>
      have inside := listed.at_mem running (.inl turn)
      rw [wplipLinkBh_at running turn, bhAt]
      by_cases late : lateAt pass now = true
      · rw [if_pos late]
        exact ⟨_, rfl, rfl, rfl, _, rfl, .inl rfl⟩
      · rw [if_neg late, if_neg (not_not.mpr inside)]
        by_cases leaves : (link.devs here).phase.unregister = true
        · rw [if_pos leaves]
          exact bhSkip_nearer listed pass curTx inside (.inl rfl)
        · rw [if_neg leaves]
          exact ⟨_, rfl, bhDev_nearer link pass cur here accepted⟩
  | after here =>
      have inside := listed.at_mem running (.inr turn)
      have noted := listed.noteMore (link.devs here).txQueue
      rw [wplipLinkBh_after running turn, bhAfter, if_neg (not_not.mpr inside)]
      rw [noteMore_eq] at noted ⊢
      exact bhSkip_nearer noted pass curTx inside (.inr rfl)
  | receive | begin | link | devs | leave | linkLeave | retrigger =>
      rw [turn] at looping
      contradiction

/-- From any point of the loop the bottom half leaves it within what is left of the round,
whatever the clock and the lower device say. -/
theorem loop_ends {link : Link Packet} (listed : Listed link) {pass : Pass} {cur : Nat}
    (running : link.pass = some pass) (looping : pass.turn.loops = true)
    (curTx : link.curTx = some cur) (asks : List (BitVec 64 × Bool))
    (enough : pass.turn.toGo link.ifdevs cur ≤ asks.length) :
    ∃ n ≤ pass.turn.toGo link.ifdevs cur, ∃ last, run step link (asked (asks.take n)) = some last ∧
      ∃ left ∈ last.pass, left.turn.leaves = true := by
  induction asks generalizing link pass with
  | nil =>
      cases turn : pass.turn <;> rw [turn] at looping enough <;> simp at looping enough
  | cons ask asks ih =>
      obtain ⟨next, moved, ifdevs, same, later, goes, out⟩ :=
        bh_nearer listed running looping curTx ask.1 ask.2
      have known := listed.moves (wplipLinkBh_moves moved)
      rcases out with leaves | ⟨loops, fewer⟩
      · have one : 1 ≤ pass.turn.toGo link.ifdevs cur := by
          cases turn : pass.turn <;> rw [turn] at looping <;> simp at looping ⊢
        refine ⟨1, one, next, ?_, later, goes, leaves⟩
        simp only [asked, List.take_succ_cons, List.take_zero, List.map_cons, List.map_nil, run,
          moved, Option.bind_some]
      · rw [List.length_cons] at enough
        rw [← ifdevs] at fewer enough ⊢
        obtain ⟨n, small, last, ran, left⟩ := ih known goes loops (same.trans curTx) (by omega)
        refine ⟨n + 1, by omega, last, ?_, left⟩
        rw [List.take_succ_cons, asked, List.map_cons, run, moved]
        exact ran

theorem toGo_le {link : Link Packet} (listed : Listed link) {cur : Nat}
    (curTx : link.curTx = some cur) (turn : Turn) :
    turn.toGo link.ifdevs cur ≤ 2 * link.ifdevs.length := by
  have start := listed.cur cur curTx
  cases turn with
  | «at» here | after here =>
      have shorter := todo_length here start
      simp only [Turn.toGo]
      omega
  | receive | begin | link | devs | leave | linkLeave | retrigger => exact Nat.zero_le _

/-- The round-robin loop ends after one turn of the list: each interface takes two steps. -/
def OneTurn (link : Link Packet) : Prop :=
  ∀ pass ∈ link.pass, pass.turn.loops = true → ∀ asks : List (BitVec 64 × Bool),
    2 * link.ifdevs.length ≤ asks.length → ∃ n ≤ 2 * link.ifdevs.length, ∃ last,
      run step link (asked (asks.take n)) = some last ∧
        ∃ left ∈ last.pass, left.turn.leaves = true

/-- A run of the bottom half that ends with packets queued is followed by another one, or waits
for a kick. -/
def Resumes (link : Link Packet) : Prop :=
  ∀ (now : BitVec 64) (accepted : Bool) (next : Link Packet), link.pass ≠ none →
    step link (.bh now accepted) = some next → next.pass = none →
    (next.txQueue ≠ [] ∨ ∃ id, next.Waits id) →
    next.scheduled = true ∨ next.awaitingKick = true

structure Orderly (link : Link Packet) : Prop where
  order : ∀ lane, ((entriesOf link.history lane).filterMap Mark.handed ++ link.queue lane).Sublist
    ((entriesOf link.history lane).filterMap Mark.taken)
  conserved : ∀ lane, ((entriesOf link.history lane).filterMap Mark.handed ++
    (link.queue lane ++ (entriesOf link.history lane).flatMap Mark.thrown)).Perm
      ((entriesOf link.history lane).filterMap Mark.taken)
  cur : ∀ id, link.curTx = some id → id ∈ link.ifdevs
  oneTurn : OneTurn link
  resumes : Resumes link

theorem retrigger_due {link : Link Packet} (covered : link.Covered) :
    (wplipRetriggerBh link).scheduled = true ∨ (wplipRetriggerBh link).awaitingKick = true := by
  rw [wplipRetriggerBh]
  split
  · rw [wplipTriggerBh_eq]
    cases link.awaitingKick with
    | false =>
        left
        simp
    | true => exact .inr rfl
  · next quiet =>
      rw [not_or] at quiet
      rcases covered with due | awaits | more | heard
      · exact .inl due
      · exact .inr awaits
      · exact absurd more quiet.1
      · exact absurd (fun empty => heard (List.length_eq_zero_iff.mp empty)) quiet.2

theorem Skips.pass {link next : Link Packet} {pass : Pass} {id : Nat}
    (skips : Skips link pass id next) : next.pass ≠ none := by
  cases skips <;> exact Option.some_ne_none _

theorem Kept.resumes {link : Link Packet} (kept : Kept link) : Resumes link := by
  intro now accepted next running_ moved ended queued
  cases wplipLinkBh_moves moved with
  | start idle due => exact absurd idle running_
  | hears pass skb skbs running turn heard =>
      have still := running.symm.trans ended
      contradiction
  | skips pass id running turn leaves skips => exact absurd ended skips.pass
  | kicked pass id running turn skips => exact absurd ended skips.pass
  | heard | blocked | begins | linkEmpty | linkSent | linkRefused | resumes | noDevs | first | late
  | devEmpty | devSent | devRefused | leaves | linkLeaves => contradiction
  | ends pass running turn =>
      have covered : link.Covered := by
        obtain ⟨scheduled, same⟩ := wplipRetriggerBh_eq link
        rw [same] at queued
        rcases queued with left | ⟨id, waiting⟩
        · exact kept.served.tx pass running turn left
        · rcases kept.served.devs id waiting with covered | leaving | ahead
          · exact covered
          · obtain ⟨_, run, other, leaves⟩ := leaving
            rw [← Option.some.inj (running.symm.trans other), turn] at leaves
            contradiction
          · have comes := ahead pass running
            rw [turn] at comes
            exact absurd comes not_false
      exact retrigger_due covered

theorem Kept.orderly {link : Link Packet} (kept : Kept link) : Orderly link where
  order := fun lane => (kept.accounted.balanced lane).order
  conserved := fun lane => (kept.accounted.balanced lane).conserved
  cur := kept.listed.cur
  oneTurn := by
    intro pass running looping asks enough
    obtain ⟨cur, curTx⟩ := Option.ne_none_iff_exists'.mp (kept.listed.loops pass running looping)
    have bound := toGo_le kept.listed curTx pass.turn
    obtain ⟨n, small, last, ran, left⟩ :=
      loop_ends kept.listed running looping curTx asks (bound.trans enough)
    exact ⟨n, small.trans bound, last, ran, left⟩
  resumes := kept.resumes

/-- Every packet taken in a run is handed down once and in order, waits or was purged, no packet
is left behind, and the round robin ends, in every run where no time limit leaves waiting
packets uncovered and where an interface leaves the list unheld and is freed empty. -/
theorem wplip_scheduler (calls : List (BitVec 32)) (ops : List (Op Packet)) {link : Link Packet}
    (sound : Along step Sound (wplipRegister none calls) ops)
    (ran : run step (wplipRegister none calls) ops = some link) : Orderly link := by
  have kept := Along.kept (fun _ _ _ kept sound moved => step_kept kept sound moved)
    (kept_register calls) sound ran
  exact kept.orderly

/-- An interface comes up. -/
def attach (id : Nat) : List (Op Nat) :=
  [.createLipdev id maxTxBuf, .insertLipdev id, .ifRegistered id]

/-- The lower device refuses a packet, takes it after a kick, and an interface goes. -/
def busyRun : List (Op Nat) :=
  .connect :: attach 0 ++ attach 1 ++
    [.linkTx 9, .devTx 0 (some 1), .devTx 1 (some 2), .devTx 1 (some 3)] ++
    asked ([0, 0, 0, 0, 0, 0].map fun now => (now, true)) ++ asked [(0, false)] ++
    asked ([0, 0, 0].map fun now => (now, true)) ++ .kick ::
    asked ([0, 0, 0, 0, 0, 0, 0, 0, 0, 0, 0, 0].map fun now => (now, true)) ++
    [.unregister 0, .purgeLipdev 0, .removeLipdev 0, .freeLipdev 0]

theorem wplip_scheduler_busy :
    ∃ link, run step (wplipRegister none []) busyRun = some link ∧ link.txQueue = [] ∧
      (link.devs 1).txQueue = [3] ∧ link.scheduled = true ∧ link.ifdevs = [1] ∧
      Orderly link := by
  have shape : (run step (wplipRegister none []) busyRun).map (fun link =>
      (link.txQueue, (link.devs 1).txQueue, link.scheduled, link.ifdevs)) =
        some ([], [3], true, [1]) := by
    decide +kernel
  obtain ⟨link, ran, same⟩ := Option.map_eq_some_iff.mp shape
  rw [Prod.mk.injEq, Prod.mk.injEq, Prod.mk.injEq] at same
  obtain ⟨tx, dev, scheduled, ifdevs⟩ := same
  exact ⟨link, ran, tx, dev, scheduled, ifdevs,
    wplip_scheduler [] busyRun (by decide +kernel) ran⟩

/-- The time limit runs out with the last packet of the link, before the round. -/
def strandingRun : List (Op Nat) :=
  .connect :: attach 0 ++ [.devTx 0 (some 1), .linkTx 9] ++
    asked [(0, true), (0, true), (0, true), (11, true), (11, true)]

theorem wplip_scheduler_strands :
    ¬∀ (ops : List (Op Nat)) (link : Link Nat),
      run step (wplipRegister none []) ops = some link → Orderly link := by
  intro always
  have shape : (run step (wplipRegister none []) strandingRun).map (fun link =>
      (link.pass.isSome, (step link (.bh 11 true)).map fun next =>
        (next.pass, decide (next.Waits 0), next.scheduled, next.awaitingKick))) =
        some (true, some (none, true, false, false)) := by
    decide +kernel
  obtain ⟨link, ran, same⟩ := Option.map_eq_some_iff.mp shape
  rw [Prod.mk.injEq] at same
  obtain ⟨next, moved, ended⟩ := Option.map_eq_some_iff.mp same.2
  rw [Prod.mk.injEq, Prod.mk.injEq, Prod.mk.injEq] at ended
  obtain ⟨pass, waiting, scheduled, awaits⟩ := ended
  have running : link.pass ≠ none := by
    intro nothing
    rw [nothing] at same
    exact absurd same.1 (by decide)
  have resumes := (always strandingRun link ran).resumes 11 true next running moved pass
    (.inr ⟨0, of_decide_eq_true waiting⟩)
  rw [scheduled, awaits] at resumes
  exact absurd resumes (by decide)

/-- The bottom half runs between the two locked parts of a removal. -/
def danglingRun : List (Op Nat) :=
  .connect :: attach 0 ++ [.unregister 0, .purgeLipdev 0] ++
    asked ([0, 0, 0, 0, 0, 0, 0, 0, 0].map fun now => (now, true)) ++ [.removeLipdev 0]

theorem wplip_cur_tx_dangles :
    ∃ link, run step (wplipRegister none []) danglingRun = some link ∧ link.curTx = some 0 ∧
      link.ifdevs = [] := by
  have shape : (run step (wplipRegister none []) danglingRun).map (fun link =>
      (link.curTx, link.ifdevs)) = some (some 0, []) := by
    decide +kernel
  obtain ⟨link, ran, same⟩ := Option.map_eq_some_iff.mp shape
  rw [Prod.mk.injEq] at same
  exact ⟨link, ran, same.1, same.2⟩

/-- A packet queued behind the purge of its interface goes with it. -/
def leakingRun : List (Op Nat) :=
  .connect :: attach 0 ++ [.unregister 0, .purgeLipdev 0, .devTx 0 (some 1), .removeLipdev 0,
    .freeLipdev 0]

theorem wplip_packet_leaks :
    ∃ link, run step (wplipRegister none []) leakingRun = some link ∧
      link.queue (.dev 0) = [] ∧
      entriesOf link.history (.dev 0) = [.purged [], .took 1] := by
  have shape : (run step (wplipRegister none []) leakingRun).map (fun link =>
      (link.queue (.dev 0), entriesOf link.history (.dev 0))) =
        some ([], [.purged [], .took 1]) := by
    decide +kernel
  obtain ⟨link, ran, same⟩ := Option.map_eq_some_iff.mp shape
  rw [Prod.mk.injEq] at same
  exact ⟨link, ran, same.1, same.2⟩

end Wanpipe.Lip
