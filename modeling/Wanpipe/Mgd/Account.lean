import Wanpipe.Debts
import Wanpipe.Mgd.Owes
import Wanpipe.Mgd.Quiet

/-! Each release of boost is answered once. -/

namespace Wanpipe.Mgd

open Line Runs Debts

variable {config : Config} {server next : Server} {ptr : Ptr}

/-- The daemon with the releases that came, those that are left to sessions, how many releases each
session has sent itself, and whether boost released it while it was in its loop. -/
structure Account where
  server : Server
  received : List Release
  owed : List (Ptr × Release)
  said : Ptr → Nat
  early : Ptr → Bool

/-- The release that a thread looks at in its next step. -/
def due (config : Config) (woomera : Woomera) : Option Release :=
  match woomera.pc with
  | .hangupAckTest =>
      if woomera.hangupAck then some (.stopped woomera.localSpan woomera.localChan) else none
  | .nackAckTest =>
      if woomera.hangupNackAck then
        if smgValidateSpanChan config woomera.localSpan woomera.localChan then
          some (.nackOn woomera.localSpan woomera.localChan)
        else some (.nackOf woomera.index)
      else none
  | _ => none

/-- The session that a loop test starts. -/
def begins (server : Server) (event : Event) (out : Outcomes) : Option Ptr :=
  if event.id = .insertCheckLoop ∧ (server.processTable event.circuit).dev = none then out.alloc
  else none

def Account.begin (account : Account) (ptr : Ptr) (next : Server) : Account :=
  { account with
    server := next
    said := Function.update account.said ptr 0
    early := Function.update account.early ptr false }

/-- A release that is left to `ptr`. -/
def Account.leave (account : Account) (ptr : Ptr) (release : Release) (next : Server) : Account :=
  { account with
    server := next
    received := account.received ++ [release]
    owed := account.owed ++ [(ptr, release)]
    early :=
      if (account.server.woomera ptr).pc = .loop then Function.update account.early ptr true
      else account.early }

def Account.thread (config : Config) (account : Account) (ptr : Ptr) (next : Server) : Account :=
  let woomera := account.server.woomera ptr
  { account with
    server := next
    owed :=
      match due config woomera with
      | some release => account.owed.erase (ptr, release)
      | none => account.owed
    said := Function.update account.said ptr
      (account.said ptr + spokenReleases config woomera) }

def Account.after (config : Config) (account : Account) (next : Server) : Op → Account
  | .boost event out =>
      match event.release with
      | some release =>
          match handed config account.server event with
          | some ptr => account.leave ptr release next
          | none => { account with server := next, received := account.received ++ [release] }
      | none =>
          match begins account.server event out with
          | some ptr => account.begin ptr next
          | none => { account with server := next }
  | .accept ptr => account.begin ptr next
  | .thread ptr _ => account.thread config ptr next
  | .restartTimer | .command _ _ | .mediaExit _ _ => { account with server := next }

def Account.step (config : Config) (account : Account) (op : Op) : Option Account :=
  (Mgd.step config account.server op).map fun next => account.after config next op

/-- The answer that the daemon sends itself gets to boost, for what it answers. -/
def answersItself (config : Config) (event : Event) : Bool :=
  match event.id with
  | .callStopped =>
      decide (event.span.toNat ≤ config.maxSpans ∧ event.chan.toNat ≤ config.maxChans)
  | .callStartNack =>
      if event.valid config then decide (event.chan.toNat ≤ config.maxChans)
      else decide (event.callSetupId.toNat ≠ 0)
  | _ => true

/-- The release that a thread looks at is for the circuit or the setup id that it has, and the answer
gets to boost. -/
def AnswersDue (config : Config) (account : Account) (ptr : Ptr) : Prop :=
  let woomera := account.server.woomera ptr
  ∀ release ∈ due config woomera, (ptr, release) ∈ account.owed ∧
    if smgValidateSpanChan config woomera.localSpan woomera.localChan = true then
      woomera.localChan ≤ config.maxChans
    else release.isStop = false ∧ woomera.index ≠ 0

/-- No restart goes on. A release finds its session with the last one answered and before its end; a
release without a session, and one that a thread looks at, can be answered; and a session that gives
up its setup id has not released a circuit and was not released. -/
def Answerable (config : Config) (account : Account) (op : Op) : Prop :=
  account.server.systemReset = false ∧
    match op with
    | .boost event _ =>
        ∀ release ∈ event.release,
          (∀ ptr ∈ handed config account.server event,
            (account.server.woomera ptr).pc.awaits release.isStop = true ∧
              (account.server.woomera ptr).pending release.isStop = false) ∧
          (handed config account.server event = none → answersItself config event = true)
    | .thread ptr _ =>
        AnswersDue config account ptr ∧
          ((account.server.woomera ptr).pc = .indexNackSend →
            account.said ptr = 0 ∧ account.early ptr = false)
    | _ => True

/-- What is known of the releases and their answers in each state. -/
structure AnsweredOnce (account : Account) : Prop where
  bounded : ∀ release,
    (answered account.server).count release ≤ account.received.count release
  settled : (∀ ptr, account.server.unfinished ptr →
      (account.server.woomera ptr).hangupAck = false ∧
        (account.server.woomera ptr).hangupNackAck = false) →
    ∀ release, (answered account.server).count release = account.received.count release
  once : ∀ ptr, account.said ptr ≤ 1
  silent : ∀ ptr, account.early ptr = true → account.said ptr = 0

structure Account.Kept (account : Account) : Prop where
  balance : Balanced account.received (answered account.server) account.owed
  one : OneEach Release.isStop account.owed
  owes : ∀ ptr release, (ptr, release) ∈ account.owed →
    Owes release.isStop (account.server.woomera ptr)
  quiet : ∀ ptr, Quiet (account.server.woomera ptr) (account.said ptr) (account.early ptr)

variable {account : Account} {event : Event} {out : Outcomes}

theorem Account.Kept.answeredOnce (kept : account.Kept) : AnsweredOnce account where
  bounded := kept.balance.count_le
  settled clear := by
    apply kept.balance.count_eq_of_nil
    cases owed : account.owed with
    | nil => rfl
    | cons entry rest =>
        obtain ⟨ptr, release⟩ := entry
        have owes := kept.owes ptr release (by rw [owed]; exact List.mem_cons_self)
        have going : account.server.unfinished ptr := by
          intro gone
          have awaits := owes.awaits
          rw [gone] at awaits
          cases awaits
        obtain ⟨stop, nack⟩ := clear ptr going
        have pending := owes.pending
        rw [Woomera.pending, stop, nack, ite_self] at pending
        cases pending
  once ptr := (kept.quiet ptr).once
  silent ptr := (kept.quiet ptr).silent

/-- Sessions that go on with what they owe and what they have sent. -/
theorem Account.Kept.carry (kept : account.Kept)
    (owes : ∀ ptr stop, Owes stop (account.server.woomera ptr) → Owes stop (next.woomera ptr))
    (quiet : ∀ ptr said early, Quiet (account.server.woomera ptr) said early →
      Quiet (next.woomera ptr) said early)
    (same : answered next = answered account.server) :
    Account.Kept { account with server := next } where
  balance := by
    rw [same]
    exact kept.balance
  one := kept.one
  owes ptr release member := owes ptr release.isStop (kept.owes ptr release member)
  quiet ptr := quiet ptr _ _ (kept.quiet ptr)

theorem Account.Kept.of_spared (kept : account.Kept)
    (spared : ∀ ptr, Spared (account.server.woomera ptr) (next.woomera ptr))
    (same : answered next = answered account.server) :
    Account.Kept { account with server := next } :=
  kept.carry (fun ptr _ owes => owes.of_spared (spared ptr))
    (fun ptr _ _ quiet => quiet.of_spared (spared ptr)) same

/-- A session begins at an address that is free. -/
theorem Account.Kept.begin (kept : account.Kept) (ptr : Ptr)
    (free : (account.server.woomera ptr).pc = .gone)
    (others : ∀ other, other ≠ ptr → next.woomera other = account.server.woomera other)
    (same : answered next = answered account.server)
    (speaks : (next.woomera ptr).pc.speaks = false) : (account.begin ptr next).Kept where
  balance := by
    rw [Account.begin, same]
    exact kept.balance
  one := kept.one
  owes other release member := by
    have owes := kept.owes other release member
    have apart : other ≠ ptr := by
      intro this
      have awaits := owes.awaits
      rw [this, free] at awaits
      cases awaits
    rw [Account.begin, others other apart]
    exact owes
  quiet other := by
    rw [Account.begin]
    by_cases new : other = ptr
    · simp only [new, Function.update_self]
      exact ⟨Nat.zero_le 1, fun _ => rfl, fun _ => ⟨rfl, fun was => (by cases was)⟩,
        fun speak => (by rw [speaks] at speak; cases speak)⟩
    · simp only [Function.update_of_ne new, others other new]
      exact kept.quiet other

/-- A release is left to a session that owes no other of its kind. -/
theorem Account.Kept.leave (kept : account.Kept) {ptr : Ptr} {release : Release}
    (spared : ∀ ptr, Spared (account.server.woomera ptr) (next.woomera ptr))
    (same : answered next = answered account.server)
    (left : Handed release.isStop (next.woomera ptr))
    (awaits : (account.server.woomera ptr).pc.awaits release.isStop = true)
    (nothing : (account.server.woomera ptr).pending release.isStop = false) :
    (account.leave ptr release next).Kept where
  balance := by
    rw [Account.leave, same]
    exact kept.balance.owe ptr release
  one := by
    refine kept.one.owe ?_
    intro entry member debtor kind
    have pending := (kept.owes entry.1 entry.2 member).pending
    rw [debtor, kind, nothing] at pending
    cases pending
  owes other release' member := by
    rw [Account.leave] at member ⊢
    simp only [List.mem_append, List.mem_singleton, Prod.mk.injEq] at member
    rcases member with before | ⟨same, alike⟩
    · exact (kept.owes other release' before).of_spared (spared other)
    · rw [same, alike]
      refine ⟨?_, left.pending⟩
      rw [(spared ptr).pc]
      exact awaits
  quiet other := by
    have before := (kept.quiet other).of_spared (spared other)
    rw [Account.leave]
    split
    · next loop =>
        by_cases own : other = ptr
        · have nothing : account.said ptr = 0 := (kept.quiet ptr).opens (by rw [loop]; rfl) |>.1
          rw [own] at before ⊢
          simp only [Function.update_self]
          refine ⟨before.once, fun _ => nothing, fun _ => ⟨nothing, fun _ => left.hangup⟩, ?_⟩
          intro speaks
          rw [(spared ptr).pc, loop] at speaks
          cases speaks
        · simp only [Function.update_of_ne own]
          exact before
    · exact before

theorem answered_append {msgs : List Msg} (sent : next.sent = server.sent ++ msgs) :
    answered next = answered server ++ msgs.filterMap Msg.answers := by
  rw [answered, answered, sent, List.filterMap_append]

/-- The answer that the daemon sends itself is for the release that came. -/
theorem ownAnswer_answers {release : Release} {msg : Msg} (came : event.release = some release)
    (own : ownAnswer config event = some msg) (fits : answersItself config event = true) :
    reaches config msg = true ∧ msg.answers = some release := by
  cases id : event.id with
  | callStopped =>
      simp only [Event.release, id, Option.some.injEq] at came
      simp only [ownAnswer, id, Option.some.injEq] at own
      simp only [answersItself, id, decide_eq_true_eq] at fits
      rw [← own, ← came]
      refine ⟨?_, rfl⟩
      simp only [reaches, decide_eq_true_eq]
      omega
  | callStartNack =>
      simp only [Event.release, id, Option.some.injEq] at came
      simp only [ownAnswer, id] at own
      simp only [answersItself, id] at fits
      split at own
      · next valid =>
          rw [if_pos valid, decide_eq_true_eq] at fits
          rw [Event.valid, smgValidateSpanChan, decide_eq_true_eq] at valid
          cases own
          refine ⟨?_, congrArg some came⟩
          simp only [reaches, decide_eq_true_eq]
          omega
      · next invalid =>
          rw [if_neg invalid, decide_eq_true_eq] at fits
          cases own
          refine ⟨?_, ?_⟩
          · simp only [reaches, decide_eq_true_eq]
            omega
          · rw [← came, nackRelease, if_neg fits]
            simp only [Msg.answers, nackRelease, if_neg fits]
  | _ => simp [Event.release, id] at came

theorem begins_told (parsed : parseSs7Event config server event out = some next)
    (none : begins server event out = none) : Told event server next := by
  rcases parseSs7Event_cases parsed with told | ⟨ptr, id, alloc, free, -⟩
  · exact told
  · rw [begins, if_pos ⟨id, free⟩, alloc] at none
    cases none

theorem begins_looped (parsed : parseSs7Event config server event out = some next)
    (new : begins server event out = some ptr) :
    out.alloc = some ptr ∧ next = looped server event out.rand ptr := by
  rw [begins] at new
  split at new
  · next started =>
      rw [parseSs7Event, started.1] at parsed
      simp only [handleCallLoopStart, started.2, new] at parsed
      obtain ⟨-, parsed⟩ := atSlot_eq_some.mp parsed
      split at parsed
      · cases parsed
        exact ⟨new, rfl⟩
      · cases parsed
  · cases new

theorem event_kept (kept : account.Kept) (free : ∀ ptr ∈ out.alloc,
      (account.server.woomera ptr).pc = .gone)
    (fits : Answerable config account (.boost event out))
    (parsed : parseSs7Event config account.server event out = some next) :
    (account.after config next (.boost event out)).Kept := by
  obtain ⟨up, fits⟩ := fits
  rw [Account.after]
  cases came : event.release with
  | none =>
      have same := parseSs7Event_answered parsed came
      cases new : begins account.server event out with
      | none =>
          have told := begins_told parsed new
          exact kept.of_spared told.spared same
      | some ptr =>
          obtain ⟨alloc, made⟩ := begins_looped parsed new
          simp only
          refine kept.begin ptr (free ptr alloc) ?_ same ?_
          · intro other apart
            rw [made]
            simp [looped, apart]
          · rw [made]
            simp [looped, loopWoomera, Pc.speaks]
  | some release =>
      have told : Told event account.server next := by
        rcases parseSs7Event_cases parsed with told | ⟨ptr, id, -, -, -⟩
        · exact told
        · rw [Event.release, id] at came
          cases came
      have release' := fits release came
      rcases parseSs7Event_release up parsed came with
        ⟨ptr, found, same, left⟩ | ⟨found, msg, own, sent⟩
      · obtain ⟨awaits, nothing⟩ := release'.1 ptr found
        simp only [found]
        exact kept.leave told.spared same left awaits nothing
      · obtain ⟨goes, answers⟩ := ownAnswer_answers came own (release'.2 found)
        rw [if_pos goes] at sent
        have settled : answered next = answered account.server ++ [release] := by
          rw [answered_append sent]
          simp [answers]
        simp only [found]
        constructor
        · rw [settled]
          exact kept.balance.settle release
        · exact kept.one
        · intro ptr release' member
          exact (kept.owes ptr release' member).of_spared (told.spared ptr)
        · intro ptr
          exact (kept.quiet ptr).of_spared (told.spared ptr)

theorem heard_silent {woomera : Woomera}
    (silent : ∀ msg, spoken config woomera = some msg → msg.answers = none) :
    (heard config woomera).filterMap Msg.answers = [] := by
  rw [heard]
  split
  · next msg speaks =>
      split
      · simp [silent msg speaks]
      · rfl
  · rfl

theorem heard_speaks {woomera : Woomera} {msg : Msg} {release : Release}
    (speaks : spoken config woomera = some msg) (goes : reaches config msg = true)
    (answers : msg.answers = some release) :
    (heard config woomera).filterMap Msg.answers = [release] := by
  rw [heard_some speaks, if_pos goes]
  simp [answers]

theorem reaches_local {woomera : Woomera}
    (valid : smgValidateSpanChan config woomera.localSpan woomera.localChan = true)
    (fits : woomera.localChan ≤ config.maxChans) (cmd : EventId) :
    reaches config ⟨cmd, woomera.localSpan, woomera.localChan, 0, woomera.causeTosig⟩ = true := by
  rw [smgValidateSpanChan, decide_eq_true_eq] at valid
  simp only [reaches, decide_eq_true_eq]
  exact ⟨valid.2.1, fits⟩

/-- A thread answers the release that it looks at. -/
theorem heard_answers (fits : AnswersDue config account ptr) :
    (heard config (account.server.woomera ptr)).filterMap Msg.answers =
      (due config (account.server.woomera ptr)).toList := by
  rw [AnswersDue] at fits
  generalize account.server.woomera ptr = woomera at fits ⊢
  cases pc : woomera.pc with
  | hangupAckTest =>
      by_cases asked : woomera.hangupAck = true
      · have looks : due config woomera =
            some (.stopped woomera.localSpan woomera.localChan) := by
          simp [due, pc, asked]
        have goes := (fits _ looks).2
        rw [looks, Option.toList_some]
        by_cases valid :
            smgValidateSpanChan config woomera.localSpan woomera.localChan = true
        · rw [if_pos valid] at goes
          exact heard_speaks (by simp [spoken, pc, asked, valid])
            (reaches_local valid goes .callStoppedAck) rfl
        · rw [if_neg valid] at goes
          cases goes.1
      · have looks : due config woomera = none := by simp [due, pc, asked]
        rw [looks, Option.toList_none]
        apply heard_silent
        intro msg speaks
        simp [spoken, pc, asked] at speaks
  | nackAckTest =>
      by_cases asked : woomera.hangupNackAck = true
      · by_cases valid :
            smgValidateSpanChan config woomera.localSpan woomera.localChan = true
        · have looks : due config woomera =
              some (.nackOn woomera.localSpan woomera.localChan) := by
            simp [due, pc, asked, valid]
          have goes := (fits _ looks).2
          rw [if_pos valid] at goes
          rw [looks, Option.toList_some]
          exact heard_speaks (by simp [spoken, pc, asked, valid])
            (reaches_local valid goes .callStartNackAck) rfl
        · have looks : due config woomera = some (.nackOf woomera.index) := by
            simp [due, pc, asked, valid]
          have goes := (fits _ looks).2
          rw [if_neg valid] at goes
          rw [looks, Option.toList_some]
          have speaks : spoken config woomera =
              some ⟨.callStartNackAck, 0, 0, woomera.index, woomera.causeTosig⟩ := by
            simp [spoken, pc, asked, valid, goes.2]
          refine heard_speaks speaks ?_ ?_
          · simp only [reaches, decide_eq_true_eq]
            omega
          · simp [Msg.answers, nackRelease, goes.2]
      · have looks : due config woomera = none := by simp [due, pc, asked]
        rw [looks, Option.toList_none]
        apply heard_silent
        intro msg speaks
        simp [spoken, pc, asked] at speaks
  | stopSend | nackSend | indexNackSend =>
      have looks : due config woomera = none := by simp [due, pc]
      rw [looks, Option.toList_none]
      apply heard_silent
      intro msg speaks
      simp only [spoken, pc, Option.some.injEq] at speaks
      rw [← speaks]
      rfl
  | _ =>
      have looks : due config woomera = none := by simp [due, pc]
      rw [looks, Option.toList_none]
      apply heard_silent
      intro msg speaks
      simp [spoken, pc] at speaks

theorem due_pc {woomera : Woomera} {release : Release}
    (looks : due config woomera = some release) : woomera.pc = ackTest release.isStop := by
  rw [due] at looks
  split at looks
  · next pc =>
      split at looks
      · cases looks
        exact pc
      · cases looks
  · next pc =>
      split at looks
      · split at looks
        · cases looks
          exact pc
        · cases looks
          exact pc
      · cases looks
  · cases looks

/-- A thread that owes a release looks at it where it tests for one of this kind. -/
theorem due_none {woomera : Woomera} (looks : due config woomera = none)
    (owes : Owes stop woomera) : woomera.pc ≠ ackTest stop := by
  intro here
  have pending := owes.pending
  cases stop with
  | true =>
      have asked : woomera.hangupAck = true := pending
      have pc : woomera.pc = .hangupAckTest := here
      simp [due, pc, asked] at looks
  | false =>
      have asked : woomera.hangupNackAck = true := pending
      have pc : woomera.pc = .nackAckTest := here
      simp only [due, pc, asked, if_true] at looks
      split at looks <;> cases looks

/-- A step of a thread keeps the account: what it looks at it answers. -/
theorem thread_kept {choice : Choice} (kept : account.Kept)
    (fits : Answerable config account (.thread ptr choice))
    (stepped : threadStep config account.server ptr choice = some next) :
    (account.thread config ptr next).Kept := by
  obtain ⟨up, answers, held⟩ := fits
  have others := (threadStep_advanced stepped).others
  have same : answered next =
      answered account.server ++ (due config (account.server.woomera ptr)).toList := by
    rw [answered_append (threadStep_sent up stepped), heard_answers answers]
  have quiet (other : Ptr) : Quiet (next.woomera other)
      (Function.update account.said ptr
        (account.said ptr + spokenReleases config (account.server.woomera ptr)) other)
      (account.early other) := by
    by_cases own : other = ptr
    · rw [own, Function.update_self]
      exact threadStep_quiet (kept.quiet ptr) held stepped
    · rw [Function.update_of_ne own]
      exact (kept.quiet other).of_spared (others other own)
  cases looks : due config (account.server.woomera ptr) with
  | none =>
      rw [looks, Option.toList_none, List.append_nil] at same
      constructor
      · simp only [Account.thread, looks, same]
        exact kept.balance
      · simp only [Account.thread, looks]
        exact kept.one
      · intro other release member
        simp only [Account.thread, looks] at member ⊢
        have owes := kept.owes other release member
        by_cases own : other = ptr
        · rw [own] at owes ⊢
          exact threadStep_owes owes (due_none looks owes) stepped
        · exact owes.of_spared (others other own)
      · exact quiet
  | some release =>
      obtain ⟨owed, -⟩ := answers release looks
      rw [looks, Option.toList_some] at same
      have here := due_pc looks
      constructor
      · simp only [Account.thread, looks, same]
        exact kept.balance.pay owed
      · simp only [Account.thread, looks]
        exact kept.one.erase _
      · intro other release' member
        simp only [Account.thread, looks] at member ⊢
        have owes := kept.owes other release' (List.mem_of_mem_erase member)
        by_cases own : other = ptr
        · have kind : release'.isStop ≠ release.isStop := kept.one.left owed member own
          rw [own] at owes ⊢
          refine threadStep_owes owes ?_ stepped
          rw [here]
          intro alike
          apply kind
          cases one : release'.isStop <;> cases two : release.isStop <;>
            simp [one, two, ackTest] at alike ⊢
        · exact owes.of_spared (others other own)
      · exact quiet

/-- A CALL takes an index for a session, and leaves its releases alone. -/
theorem called_kept {index : Fin coreTankLen} (kept : account.Kept)
    (called : Called ptr index account.server next)
    (same : answered next = answered account.server) :
    Account.Kept { account with server := next } := by
  refine kept.carry ?_ ?_ same
  · intro other stop owes
    by_cases own : other = ptr
    · rw [own] at owes ⊢
      have held : Owes stop { account.server.woomera ptr with indexHold := index.val } :=
        ⟨owes.awaits, owes.pending⟩
      exact held.of_spared called.own
    · rw [called.others other own]
      exact owes
  · intro other said early quiet
    by_cases own : other = ptr
    · rw [own] at quiet ⊢
      have held : Quiet { account.server.woomera ptr with indexHold := index.val } said early :=
        ⟨quiet.once, quiet.silent, quiet.opens, quiet.speaks⟩
      exact held.of_spared called.own
    · rw [called.others other own]
      exact quiet

/-- The releases and their answers after one step. -/
theorem step_kept {op : Op} {after : Account} (kept : account.Kept)
    (fits : Answerable config account op) (moved : account.step config op = some after) :
    after.Kept := by
  obtain ⟨next, stepped, made⟩ := Option.map_eq_some_iff.mp moved
  rw [← made]
  cases op with
  | boost event out =>
      rw [Mgd.step] at stepped
      split at stepped
      · next free => exact event_kept kept free fits stepped
      · cases stepped
  | restartTimer =>
      cases stepped
      refine kept.of_spared ?_ ?_
      · intro ptr
        rw [restartTimer_woomera]
        exact Spared.refl _
      · rw [restartTimer, fits.1, if_neg Bool.false_ne_true]
  | accept ptr =>
      rw [Mgd.step] at stepped
      split at stepped
      · next free =>
          cases stepped
          refine kept.begin ptr free ?_ rfl ?_
          · intro other apart
            simp [apart]
          · simp [acceptedWoomera, Pc.speaks]
      · cases stepped
  | command ptr command =>
      have same := sessionCommand_answered stepped
      rcases sessionCommand_cases stepped with served | ⟨-, index, called⟩
      · exact kept.of_spared served.spared same
      · exact called_kept kept called same
  | thread ptr choice => exact thread_kept kept fits stepped
  | mediaExit ptr hangup =>
      rw [Mgd.step] at stepped
      split at stepped
      · cases stepped
        exact kept.of_spared (onWoomera_spared (mediaExit_spared hangup)) rfl
      · cases stepped
        exact kept

def idleAccount : Account :=
  { server := idleServer, received := [], owed := [], said := fun _ => 0, early := fun _ => false }

theorem idleAccount_kept : idleAccount.Kept where
  balance := balanced_nil
  one := List.nodup_nil
  owes _ _ member := absurd member List.not_mem_nil
  quiet _ := ⟨Nat.zero_le 1, fun _ => rfl, fun _ => ⟨rfl, fun was => (by cases was)⟩,
    fun _ => ⟨rfl, rfl⟩⟩

/-- Where releases find sessions that can still answer, and those have the circuit or setup id that
the release was for, each release of boost is answered once and no session releases its call twice or
after boost. -/
theorem releases_answered (config : Config) (ops : List Op) (last : Account)
    (fits : Along (Account.step config) (Answerable config) idleAccount ops)
    (ran : run (Account.step config) idleAccount ops = some last) : AnsweredOnce last := by
  have kept : last.Kept :=
    Along.kept (fun _ _ _ kept fits moved => step_kept kept fits moved) idleAccount_kept fits ran
  exact kept.answeredOnce

instance AnswersDue.decidable (config : Config) (account : Account) (ptr : Ptr) :
    Decidable (AnswersDue config account ptr) :=
  inferInstanceAs (Decidable (∀ release ∈ due config (account.server.woomera ptr), _ ∧ ite _ _ _))

instance Answerable.decidable (config : Config) (account : Account) :
    (op : Op) → Decidable (Answerable config account op)
  | .boost event _ =>
      inferInstanceAs (Decidable (_ ∧ ∀ release ∈ event.release,
        (∀ ptr ∈ handed config account.server event, _ = true ∧ _ = false) ∧ (_ → _ = true)))
  | .thread ptr _ => inferInstanceAs (Decidable (_ ∧ AnswersDue config account ptr ∧ (_ → _ ∧ _)))
  | .restartTimer | .accept _ | .command _ _ | .mediaExit _ _ =>
      inferInstanceAs (Decidable (_ ∧ True))

/-- An outgoing call that boost accepts on a circuit. -/
def acceptOne : Event := { busyNack with id := .callStartAck, callSetupId := 1#16 }

/-- The release of this call. -/
def stopOne : Event := { busyNack with id := .callStopped, releaseCause := 16#8 }

def mediaOutcomes : Outcomes := { noOutcomes with media := true }

/-- A call that boost accepts and releases, and the end of its thread up to the answer. -/
def releasedOps : List Op :=
  [.accept 1, .command 1 outgoing, .boost acceptOne mediaOutcomes, .boost stopOne noOutcomes,
    .thread 1 .go, .mediaExit 1 false, .thread 1 .go, .thread 1 .go, .thread 1 .go, .thread 1 .go]

theorem releases_answered_call :
    ∃ last, run (Account.step t1Config) idleAccount releasedOps = some last ∧
      AnsweredOnce last := by
  have returns : (run (Account.step t1Config) idleAccount releasedOps).isSome = true := by
    decide +kernel
  obtain ⟨last, ran⟩ := Option.isSome_iff_exists.mp returns
  exact ⟨last, ran, releases_answered t1Config releasedOps last (by decide +kernel) ran⟩

/-- A session that has gone stays so until one begins at its address. -/
def Op.startsAt (ptr : Ptr) : Op → Bool
  | .boost _ out => out.alloc == some ptr
  | .accept other => other == ptr
  | _ => false

theorem step_gone {op : Op} {ptr : Ptr} (gone : (server.woomera ptr).pc = .gone)
    (nothing : op.startsAt ptr = false) (moved : step config server op = some next) :
    (next.woomera ptr).pc = .gone := by
  cases op with
  | boost event out =>
      rw [step] at moved
      split at moved
      · rcases parseSs7Event_cases moved with told | ⟨new, -, alloc, -, made⟩
        · rw [(told.spared ptr).pc, gone]
        · have apart : ptr ≠ new := by
            intro same
            simp [Op.startsAt, alloc, same] at nothing
          rw [made]
          simp [looped, apart, gone]
      · cases moved
  | restartTimer =>
      cases moved
      rw [restartTimer_woomera, gone]
  | accept other =>
      rw [step] at moved
      split at moved
      · cases moved
        have apart : ptr ≠ other := by
          intro same
          simp [Op.startsAt, same] at nothing
        rw [setWoomera_woomera, Function.update_of_ne apart, gone]
      · cases moved
  | command caller command =>
      rcases sessionCommand_cases moved with served | ⟨-, index, called⟩
      · rw [(served.spared ptr).pc, gone]
      · by_cases own : ptr = caller
        · rw [own] at gone ⊢
          exact called.own.pc.trans gone
        · rw [called.others ptr own, gone]
  | thread other choice =>
      have advanced := threadStep_advanced moved
      by_cases own : ptr = other
      · rw [own] at gone ⊢
        rw [advanced.gone gone, gone]
      · rw [(advanced.others ptr own).pc, gone]
  | mediaExit other hangup =>
      rw [step] at moved
      split at moved
      · cases moved
        rw [(onWoomera_spared (mediaExit_spared hangup) ptr).pc, gone]
      · cases moved
        exact gone

theorem after_server (config : Config) (account : Account) (next : Server) (op : Op) :
    (account.after config next op).server = next := by
  cases op with
  | boost event out =>
      rw [Account.after]
      split
      · split <;> rfl
      · split <;> rfl
  | restartTimer => rfl
  | accept ptr => rfl
  | command ptr command => rfl
  | thread ptr choice => rfl
  | mediaExit ptr hangup => rfl

def GoneAt (ptr : Ptr) (account : Account) : Prop := (account.server.woomera ptr).pc = .gone

theorem account_gone {ops : List Op} {last : Account} {ptr : Ptr}
    (gone : GoneAt ptr account) (nothing : ∀ op ∈ ops, op.startsAt ptr = false)
    (ran : run (Account.step config) account ops = some last) : GoneAt ptr last := by
  have along : Along (Account.step config) (fun _ op => op.startsAt ptr = false) account ops :=
    Along.of_forall account ops nothing
  refine Along.kept ?_ gone along ran
  intro before op after gone nothing moved
  obtain ⟨next, stepped, made⟩ := Option.map_eq_some_iff.mp moved
  rw [← made, GoneAt, after_server]
  exact step_gone gone nothing stepped

/-- A call that its client hangs up, and that boost accepts and releases while its thread ends. -/
def missedOps : List Op :=
  [.accept 1, .command 1 outgoing, .command 1 (.bye 16), .thread 1 .go, .thread 1 .go,
    .boost acceptOne mediaOutcomes, .thread 1 .go, .thread 1 .go, .boost stopOne noOutcomes,
    .thread 1 .go, .thread 1 .go]

theorem missedOps_run :
    ((run (Account.step t1Config) idleAccount missedOps).map fun last =>
      (last.received, answered last.server, (last.server.woomera 1).hangupAck,
        (last.server.woomera 1).hangupNackAck)) =
      some ([.stopped 0 0], [], false, false) := by
  decide +kernel

/-- The one release of a run goes without an answer. -/
theorem releases_missed :
    ¬ ∀ (config : Config) (ops : List Op) (last : Account),
      (∀ event out, Op.boost event out ∈ ops → event.id ≠ .systemRestart) →
      run (Account.step config) idleAccount ops = some last → last.received.length ≤ 1 →
      AnsweredOnce last := by
  intro always
  obtain ⟨last, ran, seen⟩ := Option.map_eq_some_iff.mp missedOps_run
  simp only [Prod.mk.injEq] at seen
  obtain ⟨received, nothing, stop, nack⟩ := seen
  have up (event : Event) (out : Outcomes) (member : Op.boost event out ∈ missedOps) :
      event.id ≠ .systemRestart := by
    simp only [missedOps, List.mem_cons, reduceCtorEq, Op.boost.injEq, false_or, or_false,
      List.not_mem_nil] at member
    rcases member with ⟨same, -⟩ | ⟨same, -⟩
    · rw [same]
      decide
    · rw [same]
      decide
  have once := always t1Config missedOps last up ran (by rw [received]; decide)
  have clear (ptr : Ptr) (going : last.server.unfinished ptr) :
      (last.server.woomera ptr).hangupAck = false ∧
        (last.server.woomera ptr).hangupNackAck = false := by
    by_cases one : ptr = 1
    · rw [one]
      exact ⟨stop, nack⟩
    · have elsewhere : ∀ op ∈ missedOps, op.startsAt ptr = false := by
        simp [missedOps, Op.startsAt, noOutcomes, mediaOutcomes, Ne.symm one]
      have idle : GoneAt ptr idleAccount := rfl
      exact absurd (account_gone idle elsewhere ran) going
  have counts := once.settled clear (.stopped 0 0)
  rw [received, nothing] at counts
  cases counts

end Wanpipe.Mgd
