import Mathlib.Data.List.Basic
import Wanpipe.Runs

/-! The events of a `sangoma_mgd` session: any thread enqueues them, the thread of the session writes
them to its client. -/

namespace Wanpipe.Mgd.EventQueue

open Runs

/-- Where the loop of `woomera_thread_run` is; `writing` has the string of an event in hand. -/
inductive LoopPc (Event : Type)
  | top
  | parse
  | test
  | dequeue
  | writing (event : Event)
  | clear
  | done
  deriving DecidableEq, Repr

/-- A session as its event queue sees it. `flag` is `WFLAG_EVENT`, `running` is false once a write
failed, `unflagged` counts the calls of `enqueue_event` that have linked their event and not yet set
the flag. `linked` and `delivered` are not in the source. -/
structure Session (Event : Type) where
  eventQueue : List Event
  flag : Bool
  running : Bool
  unflagged : Nat
  pc : LoopPc Event
  linked : List Event
  delivered : List Event
  deriving DecidableEq, Repr

/-- What `woomera_message_parse` returns: a message, nothing, or an error. -/
inductive Parsed
  | message
  | nothing
  | error
  deriving DecidableEq, Repr

/-- The critical sections of the threads. `loop` is the next step of the session's own thread, with
what it finds: whether the loop is to end, what is parsed and whether the client takes a write. -/
inductive Op (Event : Type)
  | link (event : Event)
  | setFlag
  | loop (ends : Bool) (parsed : Parsed) (written : Bool)
  deriving DecidableEq, Repr

variable {Event : Type}

def linkEvent (session : Session Event) (event : Event) : Session Event :=
  { session with
    eventQueue := session.eventQueue ++ [event], unflagged := session.unflagged + 1
    linked := session.linked ++ [event] }

def setFlag (session : Session Event) : Session Event :=
  { session with flag := true, unflagged := session.unflagged - 1 }

def goTo (session : Session Event) (pc : LoopPc Event) : Session Event := { session with pc := pc }

def dequeueEvent (session : Session Event) : Session Event :=
  match session.eventQueue with
  | [] => goTo session .clear
  | event :: events => { goTo session (.writing event) with eventQueue := events }

def loopStep (session : Session Event) (ends : Bool) (parsed : Parsed) (written : Bool) :
    Session Event :=
  match session.pc with
  | .top => goTo session (if ends || !session.running then .done else .parse)
  | .parse =>
      match parsed with
      | .message => goTo session .top
      | .nothing => goTo session .test
      | .error => goTo session .done
  | .test => goTo session (if session.flag then .dequeue else .top)
  | .dequeue => dequeueEvent session
  | .writing event =>
      if written then
        { goTo session .dequeue with delivered := session.delivered ++ [event] }
      else { goTo session .clear with running := false }
  | .clear => { goTo session .top with flag := false }
  | .done => session

/-- A step that no thread is at has no result. -/
def step (session : Session Event) : Op Event → Option (Session Event)
  | .link event => some (linkEvent session event)
  | .setFlag => if session.unflagged = 0 then none else some (setFlag session)
  | .loop ends parsed written => some (loopStep session ends parsed written)

/-- A session as `woomera_thread_run` finds it. -/
def startSession : Session Event :=
  { eventQueue := [], flag := false, running := true, unflagged := 0, pc := .top, linked := []
    delivered := [] }

/-- An event waits and the thread is about to wait for its client without knowing. -/
def Stranded (session : Session Event) : Prop :=
  session.unflagged = 0 ∧ session.pc = .parse ∧ session.eventQueue ≠ [] ∧ session.flag = false

/-- The event in hand. -/
def LoopPc.hand : LoopPc Event → List Event
  | .writing event => [event]
  | _ => []

/-- What was delivered came first in the order of linking; as long as the session runs, what was
linked and not delivered is in hand or in the queue. -/
structure Ordered (session : Session Event) : Prop where
  delivered : session.delivered <+: session.linked
  rest : session.running = true →
    session.delivered ++ session.pc.hand ++ session.eventQueue = session.linked

/-- The flag is not cleared over an event whose producer has set it already. -/
def ClearsEmpty (session : Session Event) : Op Event → Prop
  | .loop _ _ _ => session.pc = .clear → session.running = true →
      session.eventQueue = [] ∨ 0 < session.unflagged
  | _ => True

/-- The thread of a session that does not run any more is on its way out. -/
def Leaves (session : Session Event) : Prop :=
  session.running = false → session.pc = .clear ∨ session.pc = .top ∨ session.pc = .done

/-- Whoever linked an event that waits has set the flag, or is about to. -/
def Flagged (session : Session Event) : Prop :=
  session.running = true → session.eventQueue ≠ [] → session.flag = true ∨ 0 < session.unflagged

/-- What a step of the session's own thread does. -/
inductive Turn (session : Session Event) : Session Event → Prop
  | goes (pc : LoopPc Event) (free : session.pc.hand = []) (empty : pc.hand = [])
      (busy : session.pc ≠ .clear)
      (leaves : session.running = false → session.pc = .top ∨ session.pc = .done → pc = .done) :
      Turn session (goTo session pc)
  | takes (event : Event) (events : List Event) (free : session.pc.hand = [])
      (pc : session.pc = .dequeue) (queue : session.eventQueue = event :: events) :
      Turn session { goTo session (.writing event) with eventQueue := events }
  | writes (event : Event) (pc : session.pc = .writing event) :
      Turn session { goTo session .dequeue with delivered := session.delivered ++ [event] }
  | fails (event : Event) (pc : session.pc = .writing event) :
      Turn session { goTo session .clear with running := false }
  | clears (pc : session.pc = .clear) : Turn session { goTo session .top with flag := false }

/-- Inside the loop the thread goes on as it likes. -/
theorem Turn.inside {session : Session Event} {pc : LoopPc Event}
    (here : session.pc = .parse ∨ session.pc = .test ∨ session.pc = .dequeue)
    (empty : pc.hand = []) : Turn session (goTo session pc) := by
  apply Turn.goes pc _ empty
  · rcases here with here | here | here <;> rw [here] <;> nofun
  · rintro _ (top | done)
    · rcases here with here | here | here <;> rw [here] at top <;> contradiction
    · rcases here with here | here | here <;> rw [here] at done <;> contradiction
  · rcases here with here | here | here <;> rw [here] <;> rfl

theorem loopStep_turn (session : Session Event) (ends : Bool) (parsed : Parsed) (written : Bool) :
    Turn session (loopStep session ends parsed written) := by
  cases pc : session.pc with
  | top =>
      simp only [loopStep, pc]
      apply Turn.goes
      · rw [pc]
        rfl
      · split <;> rfl
      · rw [pc]
        nofun
      · intro ended _
        rw [ended, Bool.not_false, Bool.or_true, if_pos rfl]
  | parse =>
      simp only [loopStep, pc]
      cases parsed with
      | message => exact .inside (.inl pc) rfl
      | nothing => exact .inside (.inl pc) rfl
      | error => exact .inside (.inl pc) rfl
  | test =>
      simp only [loopStep, pc]
      apply Turn.inside (.inr (.inl pc))
      split <;> rfl
  | dequeue =>
      simp only [loopStep, pc, dequeueEvent]
      cases queue : session.eventQueue with
      | nil => exact .inside (.inr (.inr pc)) rfl
      | cons event events => exact .takes event events (by rw [pc]; rfl) pc queue
  | writing event =>
      simp only [loopStep, pc]
      cases written with
      | true => exact .writes event pc
      | false => exact .fails event pc
  | clear =>
      simp only [loopStep, pc]
      exact .clears pc
  | done =>
      have same : loopStep session ends parsed written = goTo session .done := by
        simp only [loopStep, pc]
        rw [goTo, ← pc]
      rw [same]
      exact .goes .done (by rw [pc]; rfl) rfl (by rw [pc]; nofun) fun _ _ => rfl

/-- Whatever moves: the queue of a session is in order and its thread leaves once a write failed. -/
structure Sound (session : Session Event) : Prop where
  ordered : Ordered session
  leaves : Leaves session

theorem start_sound : Sound (startSession : Session Event) where
  ordered := ⟨List.prefix_rfl, fun _ => rfl⟩
  leaves := nofun

theorem Leaves.runs {session : Session Event} (leaves : Leaves session)
    (clear : session.pc ≠ .clear) (top : session.pc ≠ .top) (done : session.pc ≠ .done) :
    session.running = true := by
  by_contra ended
  rcases leaves (Bool.eq_false_iff.mpr ended) with here | here | here
  · exact clear here
  · exact top here
  · exact done here

theorem Turn.ordered {session next : Session Event} (turn : Turn session next)
    (sound : Sound session) : Ordered next := by
  have before := sound.ordered
  cases turn with
  | goes pc free empty =>
      refine ⟨before.delivered, fun running => ?_⟩
      have rest := before.rest running
      rw [free] at rest
      calc
        session.delivered ++ pc.hand ++ session.eventQueue =
            session.delivered ++ [] ++ session.eventQueue := by rw [empty]
        _ = session.linked := rest
  | takes event events free pc queue =>
      refine ⟨before.delivered, fun running => ?_⟩
      have rest := before.rest running
      rw [free, queue, List.append_nil] at rest
      calc
        session.delivered ++ [event] ++ events = session.delivered ++ event :: events :=
          List.append_assoc _ _ _
        _ = session.linked := rest
  | writes event pc =>
      have running := sound.leaves.runs (by rw [pc]; nofun) (by rw [pc]; nofun) (by rw [pc]; nofun)
      have rest := before.rest running
      rw [pc] at rest
      refine ⟨⟨session.eventQueue, rest⟩, fun _ => ?_⟩
      calc
        session.delivered ++ [event] ++ [] ++ session.eventQueue =
            session.delivered ++ [event] ++ session.eventQueue := by rw [List.append_nil]
        _ = session.linked := rest
  | fails => exact ⟨before.delivered, nofun⟩
  | clears pc =>
      refine ⟨before.delivered, fun running => ?_⟩
      have rest := before.rest running
      rw [pc] at rest
      exact rest

theorem Turn.leaves {session next : Session Event} (turn : Turn session next)
    (before : Leaves session) : Leaves next := by
  cases turn with
  | goes pc free empty busy ends =>
      intro ended
      rcases before ended with clear | top | done
      · exact absurd clear busy
      · exact .inr (.inr (ends ended (.inl top)))
      · exact .inr (.inr (ends ended (.inr done)))
  | takes event events free pc =>
      have running := before.runs (by rw [pc]; nofun) (by rw [pc]; nofun) (by rw [pc]; nofun)
      exact fun ended => absurd (running.symm.trans ended) nofun
  | writes event pc =>
      have running := before.runs (by rw [pc]; nofun) (by rw [pc]; nofun) (by rw [pc]; nofun)
      exact fun ended => absurd (running.symm.trans ended) nofun
  | fails => exact fun _ => .inl rfl
  | clears => exact fun _ => .inr (.inl rfl)

theorem step_sound {session next : Session Event} {op : Op Event} (sound : Sound session)
    (moved : step session op = some next) : Sound next := by
  cases op with
  | link event =>
      cases moved
      refine ⟨⟨sound.ordered.delivered.trans (List.prefix_append _ _), fun running => ?_⟩,
        sound.leaves⟩
      calc
        session.delivered ++ session.pc.hand ++ (session.eventQueue ++ [event]) =
            session.delivered ++ session.pc.hand ++ session.eventQueue ++ [event] :=
          (List.append_assoc _ _ _).symm
        _ = session.linked ++ [event] := by rw [sound.ordered.rest running]
  | setFlag =>
      rw [step, Option.ite_none_left_eq_some] at moved
      rw [← Option.some.inj moved.2]
      exact ⟨⟨sound.ordered.delivered, sound.ordered.rest⟩, sound.leaves⟩
  | loop ends parsed written =>
      cases moved
      have turn := loopStep_turn session ends parsed written
      exact ⟨turn.ordered sound, turn.leaves sound.leaves⟩

theorem Turn.flagged {session next : Session Event} (turn : Turn session next)
    (before : Flagged session)
    (empty : session.pc = .clear → session.running = true →
      session.eventQueue = [] ∨ 0 < session.unflagged) : Flagged next := by
  cases turn with
  | goes => exact before
  | takes event events free pc queue =>
      intro running _
      apply before running
      rw [queue]
      nofun
  | writes => exact before
  | fails => nofun
  | clears pc =>
      intro running waits
      rcases empty pc running with nothing | producing
      · exact absurd nothing waits
      · exact .inr producing

theorem step_flagged {session next : Session Event} {op : Op Event} (flagged : Flagged session)
    (clears : ClearsEmpty session op) (moved : step session op = some next) : Flagged next := by
  cases op with
  | link event =>
      cases moved
      exact fun _ _ => .inr (Nat.succ_pos _)
  | setFlag =>
      rw [step, Option.ite_none_left_eq_some] at moved
      rw [← Option.some.inj moved.2]
      exact fun _ _ => .inl rfl
  | loop ends parsed written =>
      cases moved
      exact (loopStep_turn session ends parsed written).flagged flagged clears

theorem not_stranded {session : Session Event} (sound : Sound session)
    (flagged : Flagged session) : ¬ Stranded session := by
  rintro ⟨settled, pc, waits, unset⟩
  have running := sound.leaves.runs (by rw [pc]; nofun) (by rw [pc]; nofun) (by rw [pc]; nofun)
  rcases flagged running waits with set | producing
  · rw [unset] at set
    contradiction
  · exact absurd settled (Nat.ne_of_gt producing)

/-- The thread clears the flag over an event, and two steps later it waits for its client. -/
theorem strands {session : Session Event} (pc : session.pc = .clear)
    (running : session.running = true) (waits : session.eventQueue ≠ [])
    (settled : session.unflagged = 0) (parsed : Parsed) (written : Bool) :
    Stranded (loopStep (loopStep session false parsed written) false parsed written) := by
  have cleared : loopStep session false parsed written =
      { goTo session .top with flag := false } := by
    simp only [loopStep, pc]
  have here : ({ goTo session .top with flag := false } : Session Event).running = true := running
  rw [cleared]
  simp only [loopStep, goTo, running]
  exact ⟨settled, rfl, waits, rfl⟩

/-- In every run the events come out in the order they went in. No event is stranded as long as the
flag is not cleared over one; wherever it is, the thread's next steps strand it. -/
theorem smg_event_queue (Event : Type) (ops : List (Op Event)) (last : Session Event)
    (ran : run step startSession ops = some last) :
    Ordered last ∧ (Along step ClearsEmpty startSession ops → ¬ Stranded last) ∧
      ∀ parsed written, ¬ ClearsEmpty last (.loop false parsed written) →
        ∃ next, run step last [.loop false parsed written, .loop false parsed written] = some next ∧
          Stranded next := by
  have free : Along step (fun _ _ => True) startSession ops := Along.of_forall _ _ fun _ _ => trivial
  have sound : Sound last :=
    free.kept (fun session op next kept _ moved => step_sound kept moved) start_sound ran
  refine ⟨sound.ordered, ?_, ?_⟩
  · intro along
    have start : Flagged (startSession : Session Event) := fun _ waits => absurd rfl waits
    have flagged : Flagged last :=
      along.kept (fun session op next kept clears moved => step_flagged kept clears moved) start ran
    exact not_stranded sound flagged
  · intro parsed written bad
    simp only [ClearsEmpty, Classical.not_imp, not_or, Nat.not_lt, Nat.le_zero] at bad
    obtain ⟨pc, running, waits, settled⟩ := bad
    exact ⟨_, rfl, strands pc running waits settled parsed written⟩

/-- One event is delivered and the thread has found the queue empty behind it. -/
def oneDelivered : List (Op Nat) :=
  [.link 7, .setFlag] ++ List.replicate 6 (.loop false .nothing true)

/-- A second event is linked and flagged before the thread clears the flag. -/
def secondStranded : List (Op Nat) :=
  oneDelivered ++ [.link 8, .setFlag] ++ List.replicate 2 (.loop false .nothing true)

def emptied : Session Nat :=
  { eventQueue := [], flag := true, running := true, unflagged := 0, pc := .clear, linked := [7]
    delivered := [7] }

theorem smg_event_queue_emptied :
    Ordered emptied ∧ (Along step ClearsEmpty startSession oneDelivered → ¬ Stranded emptied) ∧
      ∀ parsed written, ¬ ClearsEmpty emptied (.loop false parsed written) →
        ∃ next,
          run step emptied [.loop false parsed written, .loop false parsed written] = some next ∧
            Stranded next :=
  smg_event_queue Nat oneDelivered emptied rfl

theorem smg_event_queue_strands :
    ¬ ∀ (ops : List (Op Nat)) (last : Session Nat),
      run step startSession ops = some last → ¬ Stranded last := by
  intro never
  exact never secondStranded _ rfl ⟨rfl, rfl, nofun, rfl⟩

end Wanpipe.Mgd.EventQueue
