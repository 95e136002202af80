import Wanpipe.Mtp1.Collected

/-! The ones in a row that the receiver has counted, and those it still sees. -/

namespace Wanpipe.Mtp1

open Line

theorem leadOnes_append_short (left right : List Bool) (short : leadOnes left < left.length) :
    leadOnes (left ++ right) = leadOnes left := by
  induction left with
  | nil => exact absurd short (Nat.lt_irrefl 0)
  | cons bit left ih =>
      cases bit with
      | false => rfl
      | true =>
          simp only [leadOnes, List.length_cons] at short
          simp only [List.cons_append, leadOnes, ih (by omega)]

private theorem seven_ones_bits :
    ∀ b c d e f g h i : Bool, ¬ tooManyOnes (accumOf [false, b, c, d, e, f, g, h]) →
      leadOnes [b, c, d, e, f, g, h, i] ≤ 6 := by
  decide +kernel

/-- A register without an abort has at most six ones behind a zero. -/
theorem leadOnes_behind_zero (window : List Bool) (bit : Bool) (seven : window.length = 7)
    (quiet : ¬ tooManyOnes (accumOf (false :: window))) : leadOnes (window ++ [bit]) ≤ 6 := by
  match window, seven with
  | [b, c, d, e, f, g, h], _ => exact seven_ones_bits b c d e f g h bit quiet

/-- In `DAEDRX_2` seven ones in a row are those right behind the flag, or the abort that they are
was seen before they reach the end of the accumulator. -/
structure Running (link : Link) (window : List Bool) : Prop where
  size : window.length = 8
  accum : link.rFlagAccum = accumOf window
  quiet : link.stateDaedr = .daedrx2 → ¬ tooManyOnes link.rFlagAccum
  ones : link.stateDaedr = .daedrx2 → link.r1sBitCount + leadOnes window ≤ 6 ∨
    link.r1sBitCount ≤ 6 ∧ 8 * link.rxBuf.length + link.rOctetBitCount ≤ 2 * link.r1sBitCount

theorem Running.of_state {link : Link} {window : List Bool} (size : window.length = 8)
    (accum : link.rFlagAccum = accumOf window) (other : link.stateDaedr ≠ .daedrx2) :
    Running link window :=
  ⟨size, accum, fun state => absurd state other, fun state => absurd state other⟩

theorem abortFound_running {link : Link} {window : List Bool} (size : window.length = 8)
    (accum : link.rFlagAccum = accumOf window) : Running (abortFound link) window := by
  have state := octetCountStart_state (suAccept link (1 <<< abortErrorBit))
  have kept := (suAccept_kept link (1 <<< abortErrorBit)).2
  exact Running.of_state size (state.2.2.trans (kept.trans accum)) (by simp [abortFound, state.1])

theorem Opened.running {before after : Link} {window : List Bool} (opened : Opened before after)
    (size : window.length = 8) (accum : before.rFlagAccum = accumOf window)
    (ones : before.stateDaedr = .daedrx2 → before.r1sBitCount + leadOnes window ≤ 6 ∨
      before.r1sBitCount ≤ 6 ∧
        8 * before.rxBuf.length + before.rOctetBitCount ≤ 2 * before.r1sBitCount) :
    Running after window := by
  cases opened with
  | found step =>
      subst step
      exact Running.of_state size accum (by simp [flagFound])
  | abort _ step _ =>
      rw [step]
      exact abortFound_running size accum
  | plain quiet step =>
      rw [step]
      exact ⟨size, accum, fun _ => quiet, ones⟩

theorem bail_short {link : Link} {window : List Bool} (running : Running link window)
    (state : link.stateDaedr = .daedrx2) (low : link.rFlagAccum.getLsbD 0 = true)
    (many : 7 ≤ link.r1sBitCount + 1) : link.rxBuf.length < 3 := by
  rcases running.ones state with few | ⟨bound, short⟩
  · obtain ⟨oldest, rest, rfl⟩ := List.exists_cons_of_length_eq_add_one running.size
    have first : oldest = true := by
      rw [← accumOf_low oldest rest (Nat.succ.inj running.size), ← running.accum]
      exact low
    rw [first, leadOnes] at few
    omega
  · omega

theorem checked_ones {link next : Link} {oldest bit : Bool} {rest : List Bool}
    (running : Running link (oldest :: rest)) (state : link.stateDaedr = .daedrx2)
    (collecting : next.stateDaedr = .daedrx2) (checked : Checked link next bit) :
    next.r1sBitCount + leadOnes (rest ++ [bit]) ≤ 6 ∨
      next.r1sBitCount ≤ 6 ∧
        8 * next.rxBuf.length + next.rOctetBitCount ≤ 2 * next.r1sBitCount := by
  have seven : rest.length = 7 := Nat.succ.inj running.size
  have low := accumOf_low oldest rest seven
  rw [← running.accum] at low
  have count := checked.ones
  cases oldest with
  | false =>
      have quiet := running.quiet state
      rw [running.accum] at quiet
      rw [low, if_neg Bool.false_ne_true] at count
      rw [count, Nat.zero_add]
      exact Or.inl (leadOnes_behind_zero rest bit seven quiet)
  | true =>
      rw [if_pos low] at count
      have bound := checked.few low
      rcases running.ones state with few | ⟨_, short⟩
      · rw [leadOnes] at few
        rw [count, leadOnes_append_short rest [bit] (by omega)]
        exact Or.inl (by omega)
      · rcases checked.state with init | ⟨_, more⟩
        · rw [init] at collecting
          contradiction
        · have grown := more low
          exact Or.inr (by omega)

theorem rxBitToSu_running {link : Link} {oldest : Bool} {rest : List Bool} (bit : Bool)
    (running : Running link (oldest :: rest)) :
    ∃ window, Running (rxBitToSu link bit) window := by
  have seven : rest.length = 7 := Nat.succ.inj running.size
  have size : (rest ++ [bit]).length = 8 := by rw [List.length_append, seven]; rfl
  have shift := accumOf_shift oldest bit rest seven
  rw [← running.accum] at shift
  cases state : link.stateDaedr with
  | init =>
      have step : rxBitToSu link bit = openCheckFlag (shiftFlagAccum { link with
          rFlagAccum := 0, rOctetCountingMode := false, stateDaedr := .daedrx0 } bit) := by
        simp [rxBitToSu, state, daedrx0, octetCountMode]
      have clear : ∀ bit, (0#32 >>> 1) ||| rxBit bit = accumOf (List.replicate 7 false ++ [bit]) := by
        decide
      rw [step]
      exact ⟨_, (openCheckFlag_opened _).running rfl (clear bit) (by simp [shiftFlagAccum])⟩
  | daedrx0 =>
      have ticked := (octetCountMode_ticked link).1
      have step : rxBitToSu link bit = openCheckFlag (shiftFlagAccum (octetCountMode link) bit) := by
        simp [rxBitToSu, state, daedrx0]
      rw [step]
      refine ⟨_, (openCheckFlag_opened _).running size ?_ ?_⟩
      · rw [← shift, ← ticked.accum]
        rfl
      · simp [shiftFlagAccum, ticked.state, state]
  | daedrx1 =>
      have ticked := (octetCountMode_ticked (shiftFlagAccum link bit)).1
      have accum : (octetCountMode (shiftFlagAccum link bit)).rFlagAccum = accumOf (rest ++ [bit]) :=
        ticked.accum.trans shift
      have step : rxBitToSu link bit = daedrx1 link bit := by simp [rxBitToSu, state]
      rw [step, daedrx1]
      split
      · refine ⟨_, Running.of_state size accum ?_⟩
        have same := ticked.state.trans state
        simp [same]
      · exact ⟨_, (openCheckFlag_opened _).running size accum
          (fun _ => Or.inr ⟨Nat.zero_le 6, Nat.le_refl 0⟩)⟩
  | daedrx2 =>
      cases daedrx2_collect link bit state with
      | bail next step _ _ _ accum =>
          have starts := octetCountStart_state next
          rw [step]
          exact ⟨_, Running.of_state running.size (starts.2.2.trans (accum.trans running.accum))
            (by simp [starts.1])⟩
      | overflow next step _ _ _ accum =>
          have starts := octetCountStart_state { next with rxBuf := [] }
          rw [step]
          exact ⟨_, Running.of_state running.size (starts.2.2.trans (accum.trans running.accum))
            (by simp [starts.1])⟩
      | check next step checked =>
          have accum : next.rFlagAccum = accumOf (rest ++ [bit]) := checked.accum.trans shift
          rw [step]
          refine ⟨rest ++ [bit], ?_⟩
          cases closeCheckFlag_closed next with
          | found _ closed _ kept after =>
              rw [after]
              exact Running.of_state size (kept.trans accum) (by simp [flagFound])
          | abort _ after _ =>
              rw [after]
              exact abortFound_running size accum
          | plain quiet after =>
              rw [after]
              refine ⟨size, accum, fun _ => quiet, fun collecting => ?_⟩
              exact checked_ones running state collecting checked

end Wanpipe.Mtp1
