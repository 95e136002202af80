import Mathlib.Data.ZMod.Defs
import Mathlib.Logic.Function.Iterate
import Mathlib.Tactic.Common

/-! Two places in a circle of values: a runner that moves on with each step, and one that follows it
by moving on only while it stands on the value the runner stands on. -/

namespace Wanpipe.Chase

variable {n : Nat} [NeZero n] {Value : Type} [DecidableEq Value] (value : Fin n → Value)

/-- The places of the runner and of its follower. -/
def step (places : Fin n × Fin n) : Fin n × Fin n :=
  (places.1 + 1, if value places.1 = value places.2 then places.2 + 1 else places.2)

/-- The steps from the runner to its follower. -/
def lag (places : Fin n × Fin n) : Nat := (places.2 - places.1).val

/-- No two places show the same value and the same value behind it. -/
def Telling : Prop := ∀ i j, value i = value j → value (i + 1) = value (j + 1) → i = j

variable {value} {places : Fin n × Fin n}

theorem lag_eq_zero : lag places = 0 ↔ places.1 = places.2 := by
  rw [lag, Fin.val_eq_zero_iff, sub_eq_zero, eq_comm]

theorem lag_match (same : value places.1 = value places.2) :
    lag (step value places) = lag places := by
  rw [lag, step, if_pos same, add_sub_add_right_eq_sub, lag]

theorem lag_wait (other : value places.1 ≠ value places.2) :
    lag (step value places) + 1 = lag places := by
  have apart : places.2 - places.1 ≠ 0 := by
    intro same
    exact other (congrArg value (sub_eq_zero.mp same).symm)
  have behind : (places.2 - places.1).val ≠ 0 := Fin.val_ne_zero_iff.mpr apart
  rw [lag, step, if_neg other, ← sub_sub, lag, Fin.val_sub_one_of_ne_zero apart]
  omega

theorem lag_step_le (places : Fin n × Fin n) : lag (step value places) ≤ lag places := by
  by_cases same : value places.1 = value places.2
  · exact (lag_match same).le
  · have waits := lag_wait same
    omega

/-- Out of phase a match is not followed by another one. -/
theorem Telling.match_once (telling : Telling value) (apart : places.1 ≠ places.2)
    (same : value places.1 = value places.2) :
    value (step value places).1 ≠ value (step value places).2 := by
  intro again
  rw [step, if_pos same] at again
  exact apart (telling _ _ same again)

theorem Telling.lag_two (telling : Telling value) (apart : places.1 ≠ places.2) :
    lag (step value (step value places)) < lag places := by
  by_cases same : value places.1 = value places.2
  · have waits := lag_wait (telling.match_once apart same)
    have first := lag_match same
    omega
  · have waits := lag_wait same
    have second : lag (step value (step value places)) ≤ lag (step value places) :=
      lag_step_le (step value places)
    omega

theorem step_together (together : places.1 = places.2) :
    (step value places).1 = (step value places).2 := by
  rw [step, if_pos (congrArg value together), together]

theorem iterate_together (together : places.1 = places.2) (k : Nat) :
    ((step value)^[k] places).1 = ((step value)^[k] places).2 := by
  induction k with
  | zero => exact together
  | succ k ih =>
      rw [Function.iterate_succ_apply']
      exact step_together ih

/-- The follower waits for the runner at every second step at least. -/
theorem Telling.together (telling : Telling value) {k : Nat} (near : lag places ≤ k) :
    ((step value)^[2 * k] places).1 = ((step value)^[2 * k] places).2 := by
  induction k generalizing places with
  | zero => exact lag_eq_zero.mp (Nat.le_zero.mp near)
  | succ k ih =>
      have later : 2 * (k + 1) = 2 * k + 1 + 1 := rfl
      rw [later, Function.iterate_succ_apply, Function.iterate_succ_apply]
      by_cases together : places.1 = places.2
      · exact iterate_together (step_together (step_together together)) (2 * k)
      · have nearer := telling.lag_two together
        exact ih (by omega)

end Wanpipe.Chase
