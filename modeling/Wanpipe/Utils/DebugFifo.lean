import Wanpipe.Runs
import Wanpipe.Utils.DebugLoop

/-! What the reads of the debug log return are the messages that were accepted, in order. -/

namespace Wanpipe.Utils.DebugLog

open Line Store Words Runs

section Reads

variable {log : Log} {gone : List Octet} {waiting : List Message} {request : Request}

theorem Filled.ahead (filled : Filled log gone waiting) (short : ∀ message ∈ waiting, Short message)
    (refused : Bool) :
    Ahead log (info log).totalLen ⟨log.currentOffset, 0, fun _ => 0, 0, refused⟩ waiting := by
  have total := filled.total
  have inside := filled.inside
  have stored := filled.stored
  rw [total, load_append] at stored
  have whole := (List.append_inj stored (load_length _ _ _)).2
  rw [← filled.current] at whole
  rw [filled.record]
  refine ⟨short, whole, ?_, inside, ?_⟩
  · dsimp only
    rw [filled.current, total, Nat.add_assoc]
  · dsimp only
    omega

/-- `is_more` is told from what is waiting, less a header. -/
theorem Filled.moreThan (filled : Filled log gone waiting) (maxLen : Nat) :
    moreThan log maxLen = decide (maxLen + hdrSize < (octets waiting).length) := by
  have total := filled.total
  have inside := filled.inside
  have some := octets_some filled.some
  have rest : ((info log).totalLen : Int) - log.currentOffset =
      ((octets waiting).length - hdrSize : Nat) := by
    rw [filled.record, filled.current]
    change (log.totalLen : Int) - _ = _
    unfold infoSize hdrSize at *
    omega
  rw [DebugLog.moreThan, rest, ulong_small (by omega)]
  apply decide_eq_decide.mpr
  omega

/-- What the loop leaves for the copy to the user. -/
theorem Filled.readStored (filled : Filled log gone waiting) (request : Request)
    (short : ∀ message ∈ waiting, Short message) :
    (Overruns request.maxLen 0 waiting → readStored log request = none) ∧
      (¬ Overruns request.maxLen 0 waiting →
        readStored log request = readDone
          { log with currentOffset := log.currentOffset +
              (octets (waiting.take (fitting request.maxLen 0 waiting))).length }
          request (octets (waiting.take (fitting request.maxLen 0 waiting)))
          (waiting.take (fitting request.maxLen 0 waiting)).length
          (decide (request.maxLen + hdrSize < (octets waiting).length))) := by
  have rounds : request.maxLen < request.maxLen + 1 + 0 := Nat.lt_succ_self _
  obtain ⟨overruns, goes⟩ := (filled.ahead short log.refused).readLoop filled.some rounds
  refine ⟨fun beyond => ?_, fun fine => ?_⟩
  · rw [DebugLog.readStored, overruns beyond]
  · obtain ⟨next, ran, copies⟩ := goes fine
    have data := copies.buffer
    have num := copies.num
    rw [load_zero, List.nil_append] at data
    rw [Nat.zero_add] at num
    rw [DebugLog.readStored, ran]
    dsimp only
    rw [data, num, copies.nextOffset, copies.refused, filled.moreThan]

theorem cleared_refused (log : Log) : (cleared log).refused = log.refused := by
  unfold cleared
  rw [poke_inside (infoOctets_inside _)]

theorem readDone_eq {data : List Octet} {num : Nat} {isMore : Bool}
    (dataFault : data ≠ [] → request.dataFault = false) (replyFault : request.replyFault = false) :
    readDone log request data num isMore =
      some (if isMore then log else cleared log, ⟨none, data, num, isMore⟩) := by
  have copied : ¬ (data ≠ [] ∧ request.dataFault = true) := by
    rintro ⟨some, fault⟩
    rw [dataFault some] at fault
    cases fault
  rw [readDone, if_neg copied, replyFault]
  rfl

theorem readDone_some {data : List Octet} {num : Nat} {isMore : Bool} {outcome : Log × Reply}
    (done : readDone log request data num isMore = some outcome) :
    (data ≠ [] → request.dataFault = false) ∧ request.replyFault = false ∧
      outcome = (if isMore then log else cleared log, ⟨none, data, num, isMore⟩) := by
  unfold readDone at done
  split at done
  · cases done
  · rename_i copied
    split at done
    · cases done
    · rename_i told
      rw [Option.some.injEq] at done
      refine ⟨fun some => ?_, Bool.eq_false_iff.mpr told, done.symm⟩
      exact Bool.eq_false_iff.mpr fun fault => copied ⟨some, fault⟩

/-- The buffer takes all messages, or there is more than a header too much; then it takes one, and
another header behind those that it takes. -/
def Passes (maxLen : Nat) (waiting : List Message) : Prop :=
  (octets waiting).length < maxLen ∨
    maxLen + hdrSize < (octets waiting).length ∧ 0 < fitting maxLen 0 waiting ∧
      (octets (waiting.take (fitting maxLen 0 waiting))).length + hdrSize ≤ maxLen

theorem Passes.fine {maxLen : Nat} (passes : Passes maxLen waiting) : ¬ Overruns maxLen 0 waiting := by
  rintro ⟨fewer, beyond⟩
  rcases passes with all | ⟨-, -, header⟩
  · rw [fitting_all (by rw [Nat.zero_add]; exact all)] at fewer
    exact Nat.lt_irrefl _ fewer
  · omega

/-- All of the messages fit when they are below the limit. -/
theorem fitting_full {maxLen : Nat} (some : waiting ≠ [])
    (all : fitting maxLen 0 waiting = waiting.length) : (octets waiting).length < maxLen := by
  have below : 0 + (octets (waiting.take (fitting maxLen 0 waiting))).length < maxLen :=
    fitting_below (by rw [all]; exact List.length_pos_iff.mpr some)
  rwa [all, List.take_length, Nat.zero_add] at below

end Reads

section Session

def waiting (session : Session) : List Message := session.accepted.drop session.taken

/-- The log holds what has been accepted and not been reported. -/
structure Level (session : Session) : Prop where
  kept : session.log.refused = false
  few : session.taken ≤ session.accepted.length
  returned : session.returned = octets (session.accepted.take session.taken)
  short : ∀ message ∈ session.accepted, Short message
  held : Held session.log (waiting session)

/-- What the caller is told: a read that does not report more has returned everything, and one that
does has returned something and keeps something. -/
def Tells (session next : Session) : Op → Prop
  | .trigger _ => True
  | .write message => accepts session.log message.text = true → Complete next.log message
  | .read _ => next.reply.err = none →
      (next.reply.isMore = false → next.taken = next.accepted.length) ∧
        (next.reply.isMore = true →
          session.taken < next.taken ∧ next.taken < next.accepted.length)

/-- The call comes back, with each access inside, and what has been returned are the first of the
messages that were accepted, as a whole. -/
def Fifo (session : Session) (op : Op) : Prop :=
  ∃ next, step session op = some next ∧ next.log.refused = false ∧
    next.taken ≤ next.accepted.length ∧
    next.returned = octets (next.accepted.take next.taken) ∧ Tells session next op

/-- The step does not go wrong. -/
def Sound (session : Session) : Op → Prop
  | .trigger _ => True
  | .write message => accepts session.log message.text = true → Room session.log message
  | .read request => request.early = none → request.replyFault = false ∧
      (waiting session ≠ [] →
        request.dataFault = false ∧ Passes request.maxLen (waiting session))

variable {session next : Session}

theorem start_level (blank : Blank) : Level (start blank) where
  kept := rfl
  few := Nat.le_refl _
  returned := rfl
  short _ member := absurd member List.not_mem_nil
  held := Or.inl ⟨⟨rfl, blank.none⟩, rfl⟩

theorem Level.waiting_short (level : Level session) : ∀ message ∈ waiting session, Short message :=
  fun message member => level.short message (List.mem_of_mem_drop member)

/-- What is held depends on the memory and on the two offsets only. -/
theorem Held.same {log other : Log} {waiting : List Message} (held : Held log waiting)
    (memory : other.memory = log.memory) (totalLen : other.totalLen = log.totalLen)
    (currentOffset : other.currentOffset = log.currentOffset) : Held other waiting := by
  have record : info other = info log := by rw [info, memory, info]
  rcases held with ⟨bare, none⟩ | ⟨gone, filled⟩
  · refine Or.inl ⟨⟨totalLen.trans bare.1, ?_⟩, none⟩
    rw [record]
    exact bare.2
  · refine Or.inr ⟨gone, ?_, ?_, currentOffset.trans filled.current, ?_, filled.some⟩
    · rw [record, totalLen]
      exact filled.record
    · rw [memory, totalLen]
      exact filled.stored
    · rw [totalLen]
      exact filled.inside

theorem Level.trigger (level : Level session) (flag : Bool) :
    Fifo session (.trigger flag) ∧
      ∀ next, step session (.trigger flag) = some next → Level next := by
  refine ⟨⟨_, rfl, level.kept, level.few, level.returned, trivial⟩, ?_⟩
  intro next moved
  rw [step, Option.some.injEq] at moved
  rw [← moved]
  exact ⟨level.kept, level.few, level.returned, level.short, level.held.same rfl rfl rfl⟩

section Write

theorem Level.write (level : Level session) {message : Message}
    (sound : Sound session (.write message)) :
    Fifo session (.write message) ∧
      ∀ next, step session (.write message) = some next → Level next := by
  cases accepted : accepts session.log message.text with
  | false =>
      have moved : step session (.write message) =
          some { session with log := wanDebugWrite session.log message } := by
        rw [step, accepted]
        rfl
      have kept := (rejected_refused accepted).trans level.kept
      refine ⟨⟨_, moved, kept, level.few, level.returned, fun yes => ?_⟩, ?_⟩
      · rw [accepted] at yes
        cases yes
      · intro next same
        rw [moved, Option.some.injEq] at same
        rw [← same]
        exact ⟨kept, level.few, level.returned, level.short, level.held.rejected accepted⟩
  | true =>
      have room := sound accepted
      have moved : step session (.write message) =
          some { session with
            log := wanDebugWrite session.log message
            accepted := session.accepted ++ [message] } := by
        rw [step, accepted]
        rfl
      obtain ⟨gone, filled⟩ := level.held.accepted accepted room
      have kept := (accepted_refused level.held accepted room).trans level.kept
      have few : session.taken ≤ (session.accepted ++ [message]).length := by
        rw [List.length_append]
        exact Nat.le_add_right_of_le level.few
      have returned : session.returned =
          octets ((session.accepted ++ [message]).take session.taken) := by
        rw [List.take_append_of_le_length level.few]
        exact level.returned
      refine ⟨⟨_, moved, kept, few, returned, fun _ => filled.complete⟩, ?_⟩
      intro next same
      rw [moved, Option.some.injEq] at same
      rw [← same]
      refine ⟨kept, few, returned, ?_, Or.inr ⟨gone, ?_⟩⟩
      · intro other member
        rcases List.mem_append.mp member with early | last
        · exact level.short other early
        · rw [List.mem_singleton.mp last]
          refine ⟨accepts_some accepted, ?_⟩
          unfold Room at room
          omega
      · have behind : waiting { session with
            log := wanDebugWrite session.log message
            accepted := session.accepted ++ [message] } = waiting session ++ [message] :=
          List.drop_append_of_le_length level.few
        rw [behind]
        exact filled

theorem Level.write_sound (level : Level session) {message : Message}
    (fifo : Fifo session (.write message)) : Sound session (.write message) := by
  intro accepted
  obtain ⟨next, moved, kept, -, -, complete⟩ := fifo
  rw [step, Option.some.injEq] at moved
  rw [← moved] at kept complete
  exact level.held.room accepted kept (complete accepted)

end Write

section Read

variable {request : Request}

theorem returned_take (level : Level session) {count : Nat} (few : count ≤ (waiting session).length) :
    session.returned ++ octets ((waiting session).take count) =
      octets (session.accepted.take (session.taken + ((waiting session).take count).length)) := by
  rw [List.length_take, Nat.min_eq_left few, List.take_add, octets_append, level.returned, waiting]

theorem taken_le (level : Level session) {count : Nat} (few : count ≤ (waiting session).length) :
    session.taken + ((waiting session).take count).length ≤ session.accepted.length := by
  have rest := level.few
  rw [waiting, List.length_drop] at few
  rw [List.length_take, waiting, List.length_drop]
  omega

theorem Level.read_early (level : Level session) {errno : Errno} (early : request.early = some errno) :
    Fifo session (.read request) ∧
      ∀ next, step session (.read request) = some next → Level next := by
  have moved : step session (.read request) =
      some (report session ({ session.log with reading := false }, ⟨some errno, [], 0, false⟩)) := by
    rw [step, wanDebugRead, early]
    rfl
  have returned : session.returned ++ [] = octets (session.accepted.take (session.taken + 0)) := by
    rw [List.append_nil, Nat.add_zero]
    exact level.returned
  refine ⟨⟨_, moved, level.kept, level.few, returned, fun none => by cases none⟩, ?_⟩
  intro next same
  rw [moved, Option.some.injEq] at same
  rw [← same]
  exact ⟨level.kept, level.few, returned, level.short, level.held.same rfl rfl rfl⟩

theorem wanDebugRead_bare {log : Log} (bare : Bare log) (early : request.early = none) :
    wanDebugRead log request = readDone { log with reading := true } request [] 0 false := by
  rw [wanDebugRead, early]
  dsimp only
  rw [if_pos (Or.symm bare.2)]

theorem Filled.read {log : Log} {gone : List Octet} {waiting : List Message}
    (filled : Filled log gone waiting) (early : request.early = none) :
    wanDebugRead log request = DebugLog.readStored { log with reading := true } request := by
  have many := octets_some filled.some
  have total := filled.total
  have record := filled.record
  unfold hdrSize at many
  rw [wanDebugRead, early]
  dsimp only
  rw [if_neg]
  rw [record]
  rintro (none | other)
  · dsimp only at none
    omega
  · exact other rfl

theorem Filled.reading {log : Log} {gone : List Octet} {waiting : List Message}
    (filled : Filled log gone waiting) : Filled { log with reading := true } gone waiting :=
  ⟨filled.record, filled.stored, filled.current, filled.inside, filled.some⟩

/-- Messages behind those that have been taken are still waiting. -/
theorem Filled.advance {log : Log} {gone : List Octet} {waiting : List Message}
    (filled : Filled log gone waiting) {count : Nat} (fewer : count < waiting.length) :
    Filled { log with currentOffset := log.currentOffset + (octets (waiting.take count)).length }
      (gone ++ octets (waiting.take count)) (waiting.drop count) := by
  refine ⟨filled.record, ?_, ?_, filled.inside, ?_⟩
  · rw [List.append_assoc, ← octets_append, List.take_append_drop]
    exact filled.stored
  · dsimp only
    rw [filled.current, List.length_append, Nat.add_assoc]
  · exact List.ne_nil_of_length_pos (by rw [List.length_drop]; omega)

theorem waiting_report {outcome : Log × Reply} {count : Nat} (num : outcome.2.num = count) :
    waiting (report session outcome) = (waiting session).drop count := by
  rw [waiting, waiting, report, num, List.drop_drop]

theorem Level.read_bare (level : Level session) (bare : Bare session.log)
    (none : waiting session = []) (early : request.early = .none)
    (told : request.replyFault = false) :
    Fifo session (.read request) ∧
      ∀ next, step session (.read request) = some next → Level next := by
  have moved : step session (.read request) = some (report session
      (cleared { session.log with reading := true }, ⟨.none, [], 0, false⟩)) := by
    rw [step, wanDebugRead_bare bare early, readDone_eq (fun some => absurd rfl some) told]
    rfl
  have all : session.taken = session.accepted.length := by
    have rest := List.drop_eq_nil_iff.mp none
    have few := level.few
    omega
  have returned : session.returned ++ [] = octets (session.accepted.take (session.taken + 0)) := by
    rw [List.append_nil, Nat.add_zero]
    exact level.returned
  have kept : (cleared { session.log with reading := true }).refused = false :=
    (cleared_refused _).trans level.kept
  refine ⟨⟨_, moved, kept, level.few, returned, fun _ => ⟨fun _ => all, fun more => ?_⟩⟩, ?_⟩
  · cases more
  · intro next same
    rw [moved, Option.some.injEq] at same
    rw [← same]
    exact ⟨kept, level.few, returned, level.short, Or.inl ⟨cleared_bare _, none⟩⟩

theorem Level.read_filled (level : Level session) {gone : List Octet}
    (filled : Filled session.log gone (waiting session)) (early : request.early = .none)
    (told : request.replyFault = false) (copied : request.dataFault = false)
    (passes : Passes request.maxLen (waiting session)) :
    Fifo session (.read request) ∧
      ∀ next, step session (.read request) = some next → Level next := by
  have few := fitting_le request.maxLen 0 (waiting session)
  have returned := returned_take level few
  have within := taken_le level few
  have ran := (filled.reading.readStored request level.waiting_short).2 passes.fine
  rw [readDone_eq (fun _ => copied) told] at ran
  have moved := congrArg (Option.map (report session)) ran
  rw [← filled.read early] at moved
  change step session (.read request) = some _ at moved
  rcases passes with all | ⟨more, one, header⟩
  · have count : fitting request.maxLen 0 (waiting session) = (waiting session).length :=
      fitting_all (by rw [Nat.zero_add]; exact all)
    have last : ¬ request.maxLen + hdrSize < (octets (waiting session)).length := by omega
    rw [count, List.take_length] at moved returned within
    rw [decide_eq_false last] at moved
    have every : session.taken + (waiting session).length = session.accepted.length := by
      have rest := level.few
      rw [waiting, List.length_drop]
      omega
    refine ⟨⟨_, moved, (cleared_refused _).trans level.kept, within, returned, fun _ => ?_⟩, ?_⟩
    · exact ⟨fun _ => every, fun more => Bool.noConfusion more⟩
    · intro next same
      rw [moved, Option.some.injEq] at same
      rw [← same]
      refine ⟨(cleared_refused _).trans level.kept, within, returned, level.short,
        Or.inl ⟨cleared_bare _, ?_⟩⟩
      rw [waiting_report rfl, List.drop_length]
  · have below : 0 + (octets ((waiting session).take
        (fitting request.maxLen 0 (waiting session)))).length < request.maxLen := fitting_below one
    have fewer : fitting request.maxLen 0 (waiting session) < (waiting session).length := by
      refine Nat.lt_of_le_of_ne few fun same => ?_
      rw [same, List.take_length] at below
      omega
    have size : ((waiting session).take (fitting request.maxLen 0 (waiting session))).length =
        fitting request.maxLen 0 (waiting session) := List.length_take_of_le few
    have early : session.taken + ((waiting session).take
        (fitting request.maxLen 0 (waiting session))).length < session.accepted.length := by
      have rest := level.few
      have count : (waiting session).length = session.accepted.length - session.taken :=
        List.length_drop
      omega
    rw [decide_eq_true more] at moved
    refine ⟨⟨_, moved, level.kept, within, returned, fun _ => ?_⟩, ?_⟩
    · refine ⟨fun none => Bool.noConfusion none, fun _ => ⟨?_, early⟩⟩
      change session.taken < session.taken + ((waiting session).take
        (fitting request.maxLen 0 (waiting session))).length
      omega
    · intro next same
      rw [moved, Option.some.injEq] at same
      rw [← same]
      refine ⟨level.kept, within, returned, level.short, Or.inr ⟨gone ++ octets
        ((waiting session).take (fitting request.maxLen 0 (waiting session))), ?_⟩⟩
      rw [waiting_report size]
      exact filled.reading.advance fewer

theorem Level.read (level : Level session) (sound : Sound session (.read request)) :
    Fifo session (.read request) ∧
      ∀ next, step session (.read request) = some next → Level next := by
  cases early : request.early with
  | some errno => exact level.read_early early
  | none =>
      obtain ⟨told, rest⟩ := sound early
      rcases level.held with ⟨bare, none⟩ | ⟨gone, filled⟩
      · exact level.read_bare bare none early told
      · obtain ⟨copied, passes⟩ := rest filled.some
        exact level.read_filled filled early told copied passes

/-- In every other case the call does not come back, or something is lost or not passed on. -/
theorem Level.read_sound (level : Level session) (fifo : Fifo session (.read request)) :
    Sound session (.read request) := by
  intro early
  obtain ⟨next, moved, -, -, -, tells⟩ := fifo
  obtain ⟨outcome, ran, rfl⟩ := Option.map_eq_some_iff.mp moved
  rcases level.held with ⟨bare, none⟩ | ⟨gone, filled⟩
  · rw [wanDebugRead_bare bare early] at ran
    exact ⟨(readDone_some ran).2.1, fun some => absurd none some⟩
  · obtain ⟨overruns, fine⟩ := filled.reading.readStored request level.waiting_short
    rw [filled.read early] at ran
    have within : ¬ Overruns request.maxLen 0 (waiting session) := by
      intro beyond
      rw [overruns beyond] at ran
      cases ran
    rw [fine within] at ran
    obtain ⟨copied, told, rfl⟩ := readDone_some ran
    have few := fitting_le request.maxLen 0 (waiting session)
    have size : ((waiting session).take (fitting request.maxLen 0 (waiting session))).length =
        fitting request.maxLen 0 (waiting session) := List.length_take_of_le few
    have every : (waiting session).length = session.accepted.length - session.taken :=
      List.length_drop
    have rest := level.few
    have some := List.length_pos_iff.mpr filled.some
    obtain ⟨last, more⟩ := tells rfl
    by_cases many : request.maxLen + hdrSize < (octets (waiting session)).length
    · obtain ⟨later, fewer⟩ := more (decide_eq_true many)
      change session.taken < session.taken + ((waiting session).take
        (fitting request.maxLen 0 (waiting session))).length at later
      change session.taken + ((waiting session).take
        (fitting request.maxLen 0 (waiting session))).length < session.accepted.length at fewer
      have one : 0 < fitting request.maxLen 0 (waiting session) := by omega
      refine ⟨told, fun _ => ⟨copied ?_, Or.inr ⟨many, one, ?_⟩⟩⟩
      · refine List.ne_nil_of_length_pos (Nat.lt_of_lt_of_le (Nat.succ_pos 15) (octets_some ?_))
        exact List.ne_nil_of_length_pos (by omega)
      · by_contra header
        exact within ⟨by omega, by omega⟩
    · have all := last (decide_eq_false many)
      change session.taken + ((waiting session).take
        (fitting request.maxLen 0 (waiting session))).length = session.accepted.length at all
      have count : fitting request.maxLen 0 (waiting session) = (waiting session).length := by omega
      rw [count, List.take_length] at copied
      refine ⟨told, fun _ => ⟨copied ?_, Or.inl (fitting_full filled.some count)⟩⟩
      exact List.ne_nil_of_length_pos (Nat.lt_of_lt_of_le (Nat.succ_pos 15) (octets_some filled.some))

end Read

theorem Level.step (level : Level session) {op : Op} (sound : Sound session op) :
    Fifo session op ∧ ∀ next, DebugLog.step session op = some next → Level next := by
  cases op with
  | trigger flag => exact level.trigger flag
  | write message => exact level.write sound
  | read request => exact level.read sound

theorem Level.sound (level : Level session) {op : Op} (fifo : Fifo session op) :
    Sound session op := by
  cases op with
  | trigger flag => trivial
  | write message => exact level.write_sound fifo
  | read request => exact level.read_sound fifo

/-- A read that reports more. -/
def Repeats (session : Session) (op : Op) : Prop :=
  ∃ request, op = .read request ∧ ∀ next, DebugLog.step session op = some next →
    next.reply.err = none ∧ next.reply.isMore = true

/-- Each of them takes a message. -/
theorem reads_end {reads : List Op}
    (along : Along DebugLog.step (fun session op => Fifo session op ∧ Repeats session op) session
      reads) : reads.length ≤ (waiting session).length := by
  induction reads generalizing session with
  | nil => exact Nat.zero_le _
  | cons op reads ih =>
      obtain ⟨⟨fifo, repeated⟩, rest⟩ := along
      obtain ⟨request, rfl, more⟩ := repeated
      obtain ⟨next, moved, -, -, -, tells⟩ := fifo
      obtain ⟨fine, reports⟩ := more next moved
      have later := ih (rest next moved)
      have fewer := (tells fine).2 reports
      obtain ⟨outcome, -, rfl⟩ := Option.map_eq_some_iff.mp moved
      have kept : (report session outcome).accepted = session.accepted := rfl
      rw [kept] at fewer
      rw [waiting, List.length_drop, kept] at later
      rw [waiting, List.length_drop, List.length_cons]
      omega

theorem debug_log (blank : Blank) (ops : List Op) :
    (Along DebugLog.step Fifo (start blank) ops ↔ Along DebugLog.step Sound (start blank) ops) ∧
      ∀ session reads, run DebugLog.step (start blank) ops = some session →
        Along DebugLog.step (fun session op => Fifo session op ∧ Repeats session op) session reads →
          reads.length ≤ (waiting session).length := by
  refine ⟨?_, fun session reads _ along => reads_end along⟩
  apply Along.iff _ _ (start_level blank)
  · intro session op next level fifo moved
    exact (level.step (level.sound fifo)).2 next moved
  · intro session op level
    exact ⟨level.sound, fun sound => (level.step sound).1⟩

/-- A message that fills the buffer exactly is not copied, and it is dropped as nothing more is
reported. -/
theorem debug_log_full :
    ¬ Along DebugLog.step Fifo (start ⟨fun _ => 0, Or.inr rfl⟩)
      [.trigger true,
        .write ⟨[0x6C, 0x6F, 0x73, 0x74], ⟨[0, 0, 0, 0, 0, 0, 0, 0, 0, 0, 0, 0], rfl⟩⟩,
        .read ⟨20, none, false, false⟩] := by
  intro along
  obtain ⟨next, moved, -, -, -, tells⟩ := ((along.2 _ rfl).2 _ rfl).1
  have told : next.reply.err = none ∧ next.reply.isMore = false ∧ next.taken = 0 ∧
      next.accepted.length = 1 := by
    cases moved
    exact ⟨rfl, by decide +kernel, by decide +kernel, rfl⟩
  have lost := (tells told.1).1 told.2.1
  rw [told.2.2.1, told.2.2.2] at lost
  cases lost

end Session

end Wanpipe.Utils.DebugLog
