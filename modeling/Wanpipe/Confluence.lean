import Wanpipe.Runs

/-! Runs whose different steps commute, and two machines that answer one another over channels
which lose nothing. -/

namespace Wanpipe.Confluence

open Runs

section Commuting

variable {State Op : Type} {step : State → Op → Option State}

/-- Two different steps from one state can follow each other, and come to the same in either order. -/
def Commutes (step : State → Op → Option State) : Prop :=
  ∀ state first second one other, first ≠ second →
    step state first = some one → step state second = some other →
      ∃ both, step one second = some both ∧ step other first = some both

def Finished (step : State → Op → Option State) (state : State) : Prop :=
  ∀ op, step state op = none

/-- A step brings every finishing run nearer to its end. -/
theorem Commutes.advance (commutes : Commutes step) {state next last : State} {op : Op}
    {ops : List Op} (ran : run step state ops = some last) (ends : Finished step last)
    (moved : step state op = some next) :
    ∃ rest, run step next rest = some last ∧ rest.length + 1 = ops.length := by
  induction ops generalizing state next with
  | nil =>
      rw [run, Option.some.injEq] at ran
      rw [ran, ends op] at moved
      cases moved
  | cons first ops ih =>
      obtain ⟨other, stepped, after⟩ := Option.bind_eq_some_iff.mp ran
      by_cases same : first = op
      · rw [same, moved, Option.some.injEq] at stepped
        rw [← stepped] at after
        exact ⟨ops, after, rfl⟩
      · obtain ⟨both, left, right⟩ := commutes state first op other next same stepped moved
        obtain ⟨rest, finishes, count⟩ := ih after left
        refine ⟨first :: rest, ?_, congrArg (· + 1) count⟩
        rw [run, right]
        exact finishes

/-- Whatever steps are made, a run that can finish finishes in as many steps. -/
theorem Commutes.complete (commutes : Commutes step) {state reached last : State}
    {ops others : List Op} (ran : run step state ops = some last) (ends : Finished step last)
    (went : run step state others = some reached) :
    ∃ rest, run step reached rest = some last ∧ others.length + rest.length = ops.length := by
  induction others generalizing state ops with
  | nil =>
      rw [run, Option.some.injEq] at went
      rw [← went]
      exact ⟨ops, ran, Nat.zero_add _⟩
  | cons op others ih =>
      obtain ⟨next, moved, after⟩ := Option.bind_eq_some_iff.mp went
      obtain ⟨shorter, finishes, count⟩ := commutes.advance ran ends moved
      obtain ⟨rest, completes, total⟩ := ih finishes after
      refine ⟨rest, completes, ?_⟩
      rw [List.length_cons]
      omega

theorem Finished.run_nil {state last : State} {ops : List Op} (ends : Finished step state)
    (ran : run step state ops = some last) : ops = [] ∧ last = state := by
  cases ops with
  | nil =>
      rw [run, Option.some.injEq] at ran
      exact ⟨rfl, ran.symm⟩
  | cons op ops =>
      rw [run, ends op] at ran
      cases ran

/-- All runs that go on until nothing can be done end in the same state, after as many steps. -/
theorem Commutes.unique (commutes : Commutes step) {state reached last : State}
    {ops others : List Op} (ran : run step state ops = some last) (ends : Finished step last)
    (went : run step state others = some reached) (stuck : Finished step reached) :
    reached = last ∧ others.length = ops.length := by
  obtain ⟨rest, completes, count⟩ := commutes.complete ran ends went
  obtain ⟨none, same⟩ := stuck.run_nil completes
  rw [none] at count
  exact ⟨same.symm, count⟩

end Commuting

section Parties

variable {Left Right Message : Type}

inductive Side
  | left
  | right
  deriving DecidableEq, Repr

/-- Two parties and what is under way to each of them, the oldest first. -/
structure Network (Left Right Message : Type) where
  left : Left
  right : Right
  toLeft : List Message
  toRight : List Message

variable (answerLeft : Left → Message → Option (Left × List Message))
  (answerRight : Right → Message → Option (Right × List Message))

/-- The next message for a party is delivered, and what it answers is sent. -/
def deliver (net : Network Left Right Message) : Side → Option (Network Left Right Message)
  | .left =>
      match net.toLeft with
      | [] => none
      | message :: rest =>
          (answerLeft net.left message).map fun answer =>
            { net with left := answer.1, toLeft := rest, toRight := net.toRight ++ answer.2 }
  | .right =>
      match net.toRight with
      | [] => none
      | message :: rest =>
          (answerRight net.right message).map fun answer =>
            { net with right := answer.1, toRight := rest, toLeft := net.toLeft ++ answer.2 }

variable {answerLeft answerRight} {net next : Network Left Right Message}

theorem deliver_left_iff :
    deliver answerLeft answerRight net .left = some next ↔
      ∃ message rest left out, net.toLeft = message :: rest ∧
        answerLeft net.left message = some (left, out) ∧
        next = { net with left := left, toLeft := rest, toRight := net.toRight ++ out } := by
  unfold deliver
  constructor
  · intro moved
    dsimp only at moved
    split at moved
    · cases moved
    · next message rest waiting =>
        obtain ⟨⟨left, out⟩, answers, rfl⟩ := Option.map_eq_some_iff.mp moved
        exact ⟨message, rest, left, out, waiting, answers, rfl⟩
  · rintro ⟨message, rest, left, out, waiting, answers, rfl⟩
    dsimp only
    rw [waiting]
    dsimp only
    rw [answers]
    rfl

theorem deliver_right_iff :
    deliver answerLeft answerRight net .right = some next ↔
      ∃ message rest right out, net.toRight = message :: rest ∧
        answerRight net.right message = some (right, out) ∧
        next = { net with right := right, toRight := rest, toLeft := net.toLeft ++ out } := by
  unfold deliver
  constructor
  · intro moved
    dsimp only at moved
    split at moved
    · cases moved
    · next message rest waiting =>
        obtain ⟨⟨right, out⟩, answers, rfl⟩ := Option.map_eq_some_iff.mp moved
        exact ⟨message, rest, right, out, waiting, answers, rfl⟩
  · rintro ⟨message, rest, right, out, waiting, answers, rfl⟩
    dsimp only
    rw [waiting]
    dsimp only
    rw [answers]
    rfl

theorem deliver_both {one other : Network Left Right Message}
    (first : deliver answerLeft answerRight net .left = some one)
    (second : deliver answerLeft answerRight net .right = some other) :
    ∃ both, deliver answerLeft answerRight one .right = some both ∧
      deliver answerLeft answerRight other .left = some both := by
  obtain ⟨mine, left, now, out, waits, answers, rfl⟩ := deliver_left_iff.mp first
  obtain ⟨theirs, right, then', back, stands, replies, rfl⟩ := deliver_right_iff.mp second
  refine ⟨⟨now, then', left ++ back, right ++ out⟩, ?_, ?_⟩
  · apply deliver_right_iff.mpr
    exact ⟨theirs, right ++ out, then', back, by rw [stands]; rfl, replies, rfl⟩
  · apply deliver_left_iff.mpr
    exact ⟨mine, left ++ back, now, out, by rw [waits]; rfl, answers, rfl⟩

theorem deliver_commutes : Commutes (deliver answerLeft answerRight) := by
  intro net first second one other differ moved stepped
  cases first with
  | left =>
      cases second with
      | left => exact absurd rfl differ
      | right => exact deliver_both moved stepped
  | right =>
      cases second with
      | left =>
          obtain ⟨both, right, left⟩ := deliver_both stepped moved
          exact ⟨both, left, right⟩
      | right => exact absurd rfl differ

/-- Nothing is under way any more. -/
theorem deliver_finished (left : net.toLeft = []) (right : net.toRight = []) :
    Finished (deliver answerLeft answerRight) net := by
  intro side
  cases side with
  | left =>
      unfold deliver
      dsimp only
      rw [left]
  | right =>
      unfold deliver
      dsimp only
      rw [right]

end Parties

end Wanpipe.Confluence
