import Mathlib.Tactic.Common

/-! Runs of a step function that may fail to return. -/

namespace Wanpipe.Runs

variable {State Op : Type} (step : State → Op → Option State)

def run : State → List Op → Option State
  | state, [] => some state
  | state, op :: ops => (step state op).bind fun next => run next ops

/-- Every step of the run from `state` starts where it is allowed. -/
def Along (allowed : State → Op → Prop) : State → List Op → Prop
  | _, [] => True
  | state, op :: ops =>
      allowed state op ∧ ∀ next, step state op = some next → Along allowed next ops

theorem run_append (state : State) (left right : List Op) :
    run step state (left ++ right) =
      (run step state left).bind fun next => run step next right := by
  induction left generalizing state with
  | nil => rfl
  | cons op left ih =>
      cases moved : step state op with
      | none => simp [run, moved]
      | some next => simp [run, moved, ih]

variable {step}

instance Along.decidable {allowed : State → Op → Prop}
    [∀ state op, Decidable (allowed state op)] :
    (state : State) → (ops : List Op) → Decidable (Along step allowed state ops)
  | _, [] => isTrue trivial
  | state, op :: ops =>
      match moved : step state op with
      | none => decidable_of_iff (allowed state op) (by simp [Along, moved])
      | some next =>
          have : Decidable (Along step allowed next ops) := Along.decidable next ops
          decidable_of_iff (allowed state op ∧ Along step allowed next ops)
            (by simp [Along, moved])

theorem Along.of_forall {allowed : Op → Prop} (state : State) (ops : List Op)
    (each : ∀ op ∈ ops, allowed op) : Along step (fun _ => allowed) state ops := by
  induction ops generalizing state with
  | nil => trivial
  | cons op ops ih =>
      refine ⟨each op (by simp), fun next _ => ih next ?_⟩
      intro later member
      exact each later (List.mem_cons_of_mem op member)

theorem Along.and {left right : State → Op → Prop} {state : State} {ops : List Op}
    (first : Along step left state ops) (second : Along step right state ops) :
    Along step (fun state op => left state op ∧ right state op) state ops := by
  induction ops generalizing state with
  | nil => trivial
  | cons op ops ih =>
      exact ⟨⟨first.1, second.1⟩, fun next moved => ih (first.2 next moved) (second.2 next moved)⟩

theorem Along.mono {allowed wanted : State → Op → Prop} {state : State} {ops : List Op}
    (gives : ∀ state op, allowed state op → wanted state op)
    (along : Along step allowed state ops) : Along step wanted state ops := by
  induction ops generalizing state with
  | nil => trivial
  | cons op ops ih =>
      exact ⟨gives state op along.1, fun next moved => ih (along.2 next moved)⟩

theorem Along.take {allowed : State → Op → Prop} {state : State} {left right : List Op}
    (along : Along step allowed state (left ++ right)) : Along step allowed state left := by
  induction left generalizing state with
  | nil => trivial
  | cons op left ih => exact ⟨along.1, fun next moved => ih (along.2 next moved)⟩

theorem Along.drop {allowed : State → Op → Prop} {state next : State} {left right : List Op}
    (along : Along step allowed state (left ++ right)) (ran : run step state left = some next) :
    Along step allowed next right := by
  induction left generalizing state with
  | nil =>
      rw [run, Option.some.injEq] at ran
      rwa [← ran]
  | cons op left ih =>
      obtain ⟨middle, moved, rest⟩ := Option.bind_eq_some_iff.mp ran
      exact ih (along.2 middle moved) rest

theorem Along.append {allowed : State → Op → Prop} {state : State} {left right : List Op}
    (first : Along step allowed state left)
    (second : ∀ next, run step state left = some next → Along step allowed next right) :
    Along step allowed state (left ++ right) := by
  induction left generalizing state with
  | nil => exact second state rfl
  | cons op left ih =>
      refine ⟨first.1, fun next moved => ih (first.2 next moved) ?_⟩
      intro last ran
      apply second
      rw [run, moved]
      exact ran

theorem Along.cons {allowed : State → Op → Prop} {state next : State} {op : Op} {ops : List Op}
    (first : allowed state op) (moved : step state op = some next)
    (rest : Along step allowed next ops) : Along step allowed state (op :: ops) := by
  refine ⟨first, fun other same => ?_⟩
  rw [moved, Option.some.injEq] at same
  rwa [← same]

/-- A run returns and keeps an invariant when each allowed step does. -/
theorem Along.run {allowed : State → Op → Prop} {kept : State → Prop} {state : State}
    {ops : List Op}
    (steps : ∀ state op, kept state → allowed state op →
      ∃ next, step state op = some next ∧ kept next)
    (start : kept state) (along : Along step allowed state ops) :
    ∃ last, run step state ops = some last ∧ kept last := by
  induction ops generalizing state with
  | nil => exact ⟨state, rfl, start⟩
  | cons op ops ih =>
      obtain ⟨next, moved, keeps⟩ := steps state op start along.1
      obtain ⟨last, ran, ends⟩ := ih keeps (along.2 next moved)
      refine ⟨last, ?_, ends⟩
      rw [Runs.run, moved]
      exact ran

/-- A run of steps that always return. -/
theorem Along.fold {next : State → Op → State} {allowed : State → Op → Prop}
    {kept : State → Prop} {state : State} {ops : List Op}
    (steps : ∀ state op, kept state → allowed state op → kept (next state op))
    (start : kept state) (along : Along (fun state op => some (next state op)) allowed state ops) :
    kept (ops.foldl next state) := by
  induction ops generalizing state with
  | nil => exact start
  | cons op ops ih => exact ih (steps state op start along.1) (along.2 _ rfl)

/-- A run that returns keeps an invariant when each allowed step that returns does. -/
theorem Along.kept {allowed : State → Op → Prop} {kept : State → Prop} {state last : State}
    {ops : List Op}
    (steps : ∀ state op next, kept state → allowed state op → step state op = some next → kept next)
    (start : kept state) (along : Along step allowed state ops)
    (ran : Runs.run step state ops = some last) : kept last := by
  induction ops generalizing state with
  | nil =>
      rw [Runs.run, Option.some.injEq] at ran
      rwa [← ran]
  | cons op ops ih =>
      obtain ⟨next, moved, rest⟩ := Option.bind_eq_some_iff.mp ran
      exact ih (steps state op next start along.1 moved) (along.2 next moved) rest

/-- A step condition that follows from an invariant and from another one holds all along. -/
theorem Along.strengthen {allowed wanted : State → Op → Prop} {kept : State → Prop}
    {state : State} {ops : List Op}
    (steps : ∀ state op next, kept state → allowed state op → step state op = some next → kept next)
    (gives : ∀ state op, kept state → allowed state op → wanted state op)
    (start : kept state) (along : Along step allowed state ops) :
    Along step wanted state ops := by
  induction ops generalizing state with
  | nil => trivial
  | cons op ops ih =>
      refine ⟨gives state op start along.1, ?_⟩
      intro next moved
      exact ih (steps state op next start along.1 moved) (along.2 next moved)

/-- Two step conditions that say the same under an invariant hold along the same runs. -/
theorem Along.iff {left right : State → Op → Prop} {kept : State → Prop} {state : State}
    {ops : List Op}
    (steps : ∀ state op next, kept state → left state op → step state op = some next → kept next)
    (same : ∀ state op, kept state → (left state op ↔ right state op)) (start : kept state) :
    Along step left state ops ↔ Along step right state ops := by
  constructor
  · exact Along.strengthen steps (fun state op keeps => (same state op keeps).mp) start
  · apply Along.strengthen _ (fun state op keeps => (same state op keeps).mpr) start
    intro state op next keeps held moved
    exact steps state op next keeps ((same state op keeps).mpr held) moved

end Wanpipe.Runs
