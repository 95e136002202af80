import Wanpipe.Mtp1.Recovery

/-! What a received bit does to `rx_buf` and hands to `rx_data`. -/

namespace Wanpipe.Mtp1

open Line Runs

def Indication.unit : Indication → Option (List Octet × Nat)
  | .rxData data errCode => some (data, errCode)
  | .rxSuerm => none

/-- The calls of `rx_data`, oldest first. -/
def handed (link : Link) : List (List Octet × Nat) := link.indications.filterMap Indication.unit

/-- What `su_accept` hands up of a buffer. -/
def told (reg : Reg) (buf : List Octet) (errCode : Nat) : List (List Octet × Nat) :=
  if reg.rxData = true ∧ 3 ≤ buf.length then [(buf, errCode)] else []

def storeIndex (link : Link) : Option Nat :=
  if bump link.rOctetBitCount = 8 ∧ link.rxBuf.length ≤ link.cfg.maxMru then
    some link.rxBuf.length
  else none

/-- The index at which the next bit makes `DAEDRX_2` write to `rx_buf`, if it does. -/
def storesAt (link : Link) : Option Nat :=
  match link.stateDaedr with
  | .daedrx2 =>
      let link := octetCountMode link
      if link.rFlagAccum.getLsbD 0 then
        if 7 ≤ link.r1sBitCount + 1 then none else storeIndex link
      else if link.r1sBitCount = 5 then none
      else storeIndex link
  | _ => none

/-- The octet that a write would take from the accumulator. -/
def nextOctet (link : Link) : Octet :=
  ((link.rAccum >>> 1) ||| rxBit (link.rFlagAccum.getLsbD 0)).setWidth 8

/-- `rx_buf` with the octet that the next bit completes. -/
def held (link : Link) : List Octet :=
  match storesAt link with
  | some _ => link.rxBuf ++ [nextOctet link]
  | none => link.rxBuf

/-- Neither the buffer nor the calls of `rx_data` differ. -/
structure Unheard (before after : Link) : Prop where
  rxBuf : after.rxBuf = before.rxBuf
  handed : handed after = handed before
  reg : after.reg = before.reg
  cfg : after.cfg = before.cfg

theorem Unheard.refl (link : Link) : Unheard link link := ⟨rfl, rfl, rfl, rfl⟩

theorem Unheard.trans {first second third : Link} (left : Unheard first second)
    (right : Unheard second third) : Unheard first third :=
  ⟨right.rxBuf.trans left.rxBuf, right.handed.trans left.handed, right.reg.trans left.reg,
    right.cfg.trans left.cfg⟩

theorem suerm_unheard (link : Link) : Unheard link (suerm link) := by
  unfold suerm
  split
  · exact ⟨rfl, by simp [handed, Indication.unit], rfl, rfl⟩
  · exact Unheard.refl link

theorem octetCountInc_unheard (link : Link) : Unheard link (octetCountInc link) := by
  unfold octetCountInc
  dsimp only
  split
  · split
    · refine Unheard.trans ?_ (suerm_unheard _)
      exact ⟨rfl, rfl, rfl, rfl⟩
    · exact ⟨rfl, rfl, rfl, rfl⟩
  · exact ⟨rfl, rfl, rfl, rfl⟩

theorem octetCountStart_unheard (link : Link) : Unheard link (octetCountStart link) := by
  have counted := octetCountInc_unheard
    { link with rOctetCountingMode := true, rOctetCountingCount := 0 }
  exact ⟨counted.rxBuf, counted.handed, counted.reg, counted.cfg⟩

theorem octetCountMode_unheard (link : Link) : Unheard link (octetCountMode link) := by
  unfold octetCountMode
  split
  · exact octetCountInc_unheard link
  · exact Unheard.refl link

theorem shiftFlagAccum_unheard (link : Link) (bit : Bool) : Unheard link (shiftFlagAccum link bit) :=
  ⟨rfl, rfl, rfl, rfl⟩

/-- `su_accept` keeps the buffer and hands it up when it is long enough. -/
structure Handed (buf : List Octet) (errCode : Nat) (before after : Link) : Prop where
  rxBuf : after.rxBuf = buf
  handed : handed after = handed before ++ told before.reg buf errCode
  reg : after.reg = before.reg
  cfg : after.cfg = before.cfg

theorem suAccept_handed (link : Link) (errCode : Nat) :
    Handed link.rxBuf errCode link (suAccept link errCode) := by
  unfold suAccept
  split
  · rename_i short
    have silent := suerm_unheard link
    refine ⟨silent.rxBuf, ?_, silent.reg, silent.cfg⟩
    rw [silent.handed, told, if_neg (by omega), List.append_nil]
  · rename_i long
    dsimp only
    split
    all_goals
      split
      · rename_i calls
        exact ⟨rfl, by simp_all [handed, Indication.unit, told], rfl, rfl⟩
      · rename_i calls
        exact ⟨rfl, by simp_all [handed, told], rfl, rfl⟩

theorem Unheard.handing {first second third : Link} {buf : List Octet} {errCode : Nat}
    (left : Unheard first second) (right : Handed buf errCode second third) :
    Handed buf errCode first third := by
  refine ⟨right.rxBuf, ?_, right.reg.trans left.reg, right.cfg.trans left.cfg⟩
  rw [right.handed, left.handed, left.reg]

theorem Handed.unheard {first second third : Link} {buf : List Octet} {errCode : Nat}
    (left : Handed buf errCode first second) (right : Unheard second third) :
    Handed buf errCode first third :=
  ⟨right.rxBuf.trans left.rxBuf, right.handed.trans left.handed, right.reg.trans left.reg,
    right.cfg.trans left.cfg⟩

theorem closeSu_handed (link : Link) : ∃ errCode, Handed link.rxBuf errCode link (closeSu link) := by
  have rejected (errCode : Nat) : Handed link.rxBuf errCode link (suAccept (suerm link) errCode) := by
    have silent := suerm_unheard link
    have accepted := suAccept_handed (suerm link) errCode
    rw [silent.rxBuf] at accepted
    exact silent.handing accepted
  unfold closeSu
  split
  · exact ⟨_, rejected _⟩
  · split
    · exact ⟨_, rejected _⟩
    · split
      · exact ⟨_, rejected _⟩
      · exact ⟨0, suAccept_handed link 0⟩

theorem abortFound_handed (link : Link) :
    Handed link.rxBuf (1 <<< abortErrorBit) link (abortFound link) :=
  (suAccept_handed link _).unheard (octetCountStart_unheard _)

/-- `octet_count_inc` leaves the registers of the bit collector alone. -/
structure Ticked (before after : Link) : Prop extends Unheard before after where
  accum : after.rFlagAccum = before.rFlagAccum
  octet : after.rAccum = before.rAccum
  ones : after.r1sBitCount = before.r1sBitCount
  gate : after.rBitGateCount = before.rBitGateCount
  state : after.stateDaedr = before.stateDaedr
  mode : after.rOctetCountingMode = before.rOctetCountingMode

theorem suerm_ticked (link : Link) :
    Ticked link (suerm link) ∧ (suerm link).rOctetBitCount = link.rOctetBitCount := by
  refine ⟨⟨suerm_unheard link, ?_, ?_, ?_, ?_, ?_, ?_⟩, ?_⟩
  all_goals
    unfold suerm
    split <;> rfl

theorem octetCountInc_ticked (link : Link) :
    Ticked link (octetCountInc link) ∧
      (octetCountInc link).rOctetBitCount = bump link.rOctetBitCount := by
  have kept := suerm_ticked { link with
    rOctetBitCount := bump link.rOctetBitCount, rOctetCountingCount := 0 }
  refine ⟨⟨octetCountInc_unheard link, ?_, ?_, ?_, ?_, ?_, ?_⟩, ?_⟩
  all_goals
    unfold octetCountInc
    dsimp only
    split
    · split
      · simp only [kept.1.accum, kept.1.octet, kept.1.ones, kept.1.gate, kept.1.state,
          kept.1.mode, kept.2]
      · rfl
    · rfl

theorem octetCountMode_ticked (link : Link) :
    Ticked link (octetCountMode link) ∧
      (octetCountMode link).rOctetBitCount =
        if link.rOctetCountingMode then bump link.rOctetBitCount else link.rOctetBitCount := by
  unfold octetCountMode
  split
  · exact octetCountInc_ticked link
  · exact ⟨⟨Unheard.refl link, rfl, rfl, rfl, rfl, rfl, rfl⟩, rfl⟩

theorem octetCountStart_state (link : Link) :
    (octetCountStart link).stateDaedr = .daedrx0 ∧
      (octetCountStart link).rOctetCountingMode = true ∧
      (octetCountStart link).rFlagAccum = link.rFlagAccum := by
  have counted := (octetCountInc_ticked
    { link with rOctetCountingMode := true, rOctetCountingCount := 0 }).1
  exact ⟨rfl, counted.mode, counted.accum⟩

/-- The link as the flag check of `DAEDRX_2` sees it. -/
structure Checked (link next : Link) (bit : Bool) : Prop where
  rxBuf : next.rxBuf = held link
  handed : handed next = handed link
  reg : next.reg = link.reg
  cfg : next.cfg = link.cfg
  accum : next.rFlagAccum = (link.rFlagAccum >>> 1) ||| rxBit bit
  ones : next.r1sBitCount = if link.rFlagAccum.getLsbD 0 then link.r1sBitCount + 1 else 0
  few : link.rFlagAccum.getLsbD 0 = true → link.r1sBitCount + 1 < 7
  index : ∀ i, storesAt link = some i → i = link.rxBuf.length ∧ i ≤ link.cfg.maxMru
  octet : (storesAt link).isSome → next.rAccum = 0
  state : next.stateDaedr = .init ∨
    next.stateDaedr = .daedrx2 ∧ (link.rFlagAccum.getLsbD 0 = true →
      8 * next.rxBuf.length + next.rOctetBitCount ≤
        8 * link.rxBuf.length + link.rOctetBitCount + 2)

/-- What a bit does in `DAEDRX_2`. -/
inductive Collect (link : Link) (bit : Bool) : Prop
  | bail (next : Link) (step : rxBitToSu link bit = octetCountStart next)
      (silent : Unheard link next) (stores : storesAt link = none)
      (many : link.rFlagAccum.getLsbD 0 = true ∧ 7 ≤ link.r1sBitCount + 1)
      (accum : next.rFlagAccum = link.rFlagAccum)
  | overflow (next : Link) (step : rxBitToSu link bit = octetCountStart { next with rxBuf := [] })
      (passed : Handed link.rxBuf (1 <<< frameErrorBit) link next) (stores : storesAt link = none)
      (long : link.cfg.maxMru < link.rxBuf.length) (accum : next.rFlagAccum = link.rFlagAccum)
  | check (next : Link) (step : rxBitToSu link bit = closeCheckFlag next)
      (checked : Checked link next bit)

theorem bump_le (count : Nat) : bump count ≤ count + 1 := Nat.mod_le _ _

theorem octetCountMode_bits (link : Link) :
    (octetCountMode link).rOctetBitCount ≤ link.rOctetBitCount + 1 := by
  rw [(octetCountMode_ticked link).2]
  split
  · exact bump_le _
  · exact Nat.le_succ _

theorem keepBit_collect {link : Link} (ones : Nat) (bit : Bool)
    (state : link.stateDaedr = .daedrx2)
    (step : rxBitToSu link bit = keepBit { octetCountMode link with r1sBitCount := ones }
      (link.rFlagAccum.getLsbD 0) bit)
    (stores : storesAt link = storeIndex (octetCountMode link))
    (count : ones = if link.rFlagAccum.getLsbD 0 then link.r1sBitCount + 1 else 0)
    (few : link.rFlagAccum.getLsbD 0 = true → link.r1sBitCount + 1 < 7) : Collect link bit := by
  have ticked := (octetCountMode_ticked link).1
  have bits := octetCountMode_bits link
  have bumped := bump_le (octetCountMode link).rOctetBitCount
  have collecting : (octetCountMode link).stateDaedr = .daedrx2 := ticked.state.trans state
  rw [keepBit] at step
  dsimp only at step
  rw [storeIndex, ticked.rxBuf, ticked.cfg] at stores
  split at step
  · -- the octet is still open
    rename_i open_
    have none_ : storesAt link = none := by
      rw [stores, if_neg]
      omega
    refine Collect.check _ step ⟨?_, ticked.handed, ticked.reg, ticked.cfg, ?_, count, few, ?_, ?_, ?_⟩
    · rw [held, none_]
      exact ticked.rxBuf
    · exact congrArg (fun accum : BitVec 32 => (accum >>> 1) ||| rxBit bit) ticked.accum
    · simp [none_]
    · simp [none_]
    · refine Or.inr ⟨collecting, fun _ => ?_⟩
      have same : (octetCountMode link).rxBuf.length = link.rxBuf.length := by rw [ticked.rxBuf]
      simp only [shiftFlagAccum]
      omega
  · split at step
    · rename_i full
      by_cases room : link.rxBuf.length ≤ link.cfg.maxMru
      · have some_ : storesAt link = some link.rxBuf.length := by
          rw [stores, if_pos ⟨full, room⟩]
        rw [storeOctet, if_neg (by simpa [ticked.rxBuf, ticked.cfg] using room)] at step
        refine Collect.check _ step
          ⟨?_, ticked.handed, ticked.reg, ticked.cfg, ?_, count, few, ?_, fun _ => rfl, ?_⟩
        · rw [held, some_, nextOctet, ← ticked.rxBuf, ← ticked.octet]
          rfl
        · exact congrArg (fun accum : BitVec 32 => (accum >>> 1) ||| rxBit bit) ticked.accum
        · intro i stored
          rw [some_, Option.some.injEq] at stored
          exact ⟨stored.symm, stored ▸ room⟩
        · refine Or.inr ⟨collecting, fun _ => ?_⟩
          simp only [shiftFlagAccum, List.length_append, List.length_singleton, ticked.rxBuf]
          omega
      · have none_ : storesAt link = none := by
          rw [stores, if_neg]
          exact fun both => room both.2
        rw [storeOctet, if_pos (by simpa [ticked.rxBuf, ticked.cfg] using room)] at step
        have kept : Unheard link { octetCountMode link with
            r1sBitCount := ones
            rAccum := ((octetCountMode link).rAccum >>> 1) ||| rxBit (link.rFlagAccum.getLsbD 0)
            rOctetBitCount := bump (octetCountMode link).rOctetBitCount } :=
          ⟨ticked.rxBuf, ticked.handed, ticked.reg, ticked.cfg⟩
        have passed := kept.handing (suAccept_handed _ (1 <<< frameErrorBit))
        rw [kept.rxBuf] at passed
        refine Collect.overflow _ step passed none_ (Nat.lt_of_not_le room) ?_
        exact (suAccept_kept _ _).2.trans ticked.accum
    · rename_i open_ past
      have none_ : storesAt link = none := by
        rw [stores, if_neg]
        exact fun both => past both.1
      refine Collect.check _ step
        ⟨?_, ticked.handed, ticked.reg, ticked.cfg, ?_, count, few, ?_, ?_, Or.inl rfl⟩
      · rw [held, none_]
        exact ticked.rxBuf
      · exact congrArg (fun accum : BitVec 32 => (accum >>> 1) ||| rxBit bit) ticked.accum
      · simp [none_]
      · simp [none_]

theorem daedrx2_collect (link : Link) (bit : Bool) (state : link.stateDaedr = .daedrx2) :
    Collect link bit := by
  have ticked := (octetCountMode_ticked link).1
  have step : rxBitToSu link bit = daedrx2 link bit := by simp [rxBitToSu, state]
  have stores : storesAt link =
      if link.rFlagAccum.getLsbD 0 then
        if 7 ≤ link.r1sBitCount + 1 then none else storeIndex (octetCountMode link)
      else if link.r1sBitCount = 5 then none
      else storeIndex (octetCountMode link) := by
    simp [storesAt, state, ticked.accum, ticked.ones]
  have low : (octetCountMode link).rFlagAccum.getLsbD 0 = link.rFlagAccum.getLsbD 0 := by
    rw [ticked.accum]
  rw [daedrx2] at step
  dsimp only at step
  rw [low, ticked.ones] at step
  split at step
  · rename_i one
    rw [if_pos one] at stores
    split at step
    · rename_i many
      rw [if_pos many] at stores
      refine Collect.bail _ step ?_ stores ⟨one, many⟩ ticked.accum
      exact ⟨ticked.rxBuf, ticked.handed, ticked.reg, ticked.cfg⟩
    · rename_i few
      rw [if_neg few] at stores
      refine keepBit_collect (link.r1sBitCount + 1) bit state ?_ stores (by rw [if_pos one])
        (fun _ => Nat.lt_of_not_le few)
      rw [step, one]
  · rename_i zero
    rw [if_neg zero] at stores
    split at step
    · rename_i fifth
      rw [if_pos fifth] at stores
      refine Collect.check _ step
        ⟨?_, ticked.handed, ticked.reg, ticked.cfg, ?_, ?_, ?_, ?_, ?_, ?_⟩
      · rw [held, stores]
        exact ticked.rxBuf
      · exact congrArg (fun accum : BitVec 32 => (accum >>> 1) ||| rxBit bit) ticked.accum
      · rw [if_neg zero]
        rfl
      · exact fun one => absurd one zero
      · simp [stores]
      · simp [stores]
      · exact Or.inr ⟨ticked.state.trans state, fun one => absurd one zero⟩
    · rename_i other
      rw [if_neg other] at stores
      refine keepBit_collect 0 bit state ?_ stores (by rw [if_neg zero])
        (fun one => absurd one zero)
      rw [step, Bool.eq_false_iff.mpr zero]

/-- The flag check while hunting for a flag. -/
inductive Opened (before after : Link) : Prop
  | found (step : after = flagFound before)
  | abort (seen : tooManyOnes before.rFlagAccum) (step : after = abortFound before)
      (passed : Handed before.rxBuf (1 <<< abortErrorBit) before after)
  | plain (quiet : ¬ tooManyOnes before.rFlagAccum) (step : after = before)

theorem openCheckFlag_opened (link : Link) : Opened link (openCheckFlag link) := by
  unfold openCheckFlag
  split
  · exact .found rfl
  · split
    · rename_i seen
      exact .abort seen rfl (abortFound_handed link)
    · rename_i quiet
      exact .plain quiet rfl

/-- The flag check that closes a signal unit. -/
inductive Closed (before after : Link) : Prop
  | found (errCode : Nat) (closed : Link) (passed : Handed before.rxBuf errCode before closed)
      (accum : closed.rFlagAccum = before.rFlagAccum) (step : after = { flagFound closed with rxBuf := [] })
  | abort (seen : tooManyOnes before.rFlagAccum) (step : after = abortFound before)
      (passed : Handed before.rxBuf (1 <<< abortErrorBit) before after)
  | plain (quiet : ¬ tooManyOnes before.rFlagAccum) (step : after = before)

theorem closeCheckFlag_closed (link : Link) : Closed link (closeCheckFlag link) := by
  unfold closeCheckFlag
  split
  · rcases closeSu_handed link with ⟨errCode, passed⟩
    exact .found errCode _ passed (closeSu_kept link).2 rfl
  · split
    · rename_i seen
      exact .abort seen rfl (abortFound_handed link)
    · rename_i quiet
      exact .plain quiet rfl

/-- A bit leaves the buffer as held or clears it, and hands up what is held or nothing. -/
structure Passed (link after : Link) : Prop where
  rxBuf : after.rxBuf = held link ∨ after.rxBuf = []
  handed : handed after = handed link ∨
    ∃ errCode, handed after = handed link ++ told link.reg (held link) errCode
  reg : after.reg = link.reg
  cfg : after.cfg = link.cfg

theorem Opened.passed {link before after : Link} (opened : Opened before after)
    (silent : Unheard link before) (same : held link = link.rxBuf) : Passed link after := by
  cases opened with
  | found step =>
      subst step
      exact ⟨Or.inl (silent.rxBuf.trans same.symm), Or.inl silent.handed, silent.reg, silent.cfg⟩
  | abort _ _ passed =>
      have all := silent.handing passed
      rw [silent.rxBuf, ← same] at all
      exact ⟨Or.inl all.rxBuf, Or.inr ⟨_, all.handed⟩, all.reg, all.cfg⟩
  | plain _ step =>
      subst step
      exact ⟨Or.inl (silent.rxBuf.trans same.symm), Or.inl silent.handed, silent.reg, silent.cfg⟩

theorem Closed.passed {link next after : Link} {bit : Bool} (closed : Closed next after)
    (checked : Checked link next bit) : Passed link after := by
  have buf := checked.rxBuf
  have calls := checked.handed
  have reg := checked.reg
  have cfg := checked.cfg
  cases closed with
  | found errCode closed passed _ step =>
      subst step
      rw [buf] at passed
      refine ⟨Or.inr rfl, Or.inr ⟨errCode, ?_⟩, passed.reg.trans reg, passed.cfg.trans cfg⟩
      rw [← calls, ← reg]
      exact passed.handed
  | abort _ _ passed =>
      rw [buf] at passed
      refine ⟨Or.inl passed.rxBuf, Or.inr ⟨1 <<< abortErrorBit, ?_⟩, passed.reg.trans reg,
        passed.cfg.trans cfg⟩
      rw [← calls, ← reg]
      exact passed.handed
  | plain _ step =>
      subst step
      exact ⟨Or.inl buf, Or.inl calls, reg, cfg⟩

theorem told_nil (reg : Reg) (errCode : Nat) : told reg [] errCode = [] := by simp [told]

/-- Nothing is handed up of a buffer that was just cleared. -/
theorem Opened.cleared {before after : Link} (opened : Opened before after)
    (clear : before.rxBuf = []) : Unheard before after := by
  cases opened with
  | found step =>
      subst step
      exact ⟨rfl, rfl, rfl, rfl⟩
  | abort _ _ passed =>
      rw [clear] at passed
      refine ⟨passed.rxBuf.trans clear.symm, ?_, passed.reg, passed.cfg⟩
      rw [passed.handed, told_nil, List.append_nil]
  | plain _ step =>
      rw [step]
      exact Unheard.refl before

theorem rxBitToSu_passed (link : Link) (bit : Bool) : Passed link (rxBitToSu link bit) := by
  cases state : link.stateDaedr with
  | init =>
      have same : held link = link.rxBuf := by simp [held, storesAt, state]
      have step : rxBitToSu link bit = openCheckFlag (shiftFlagAccum { link with
          rFlagAccum := 0, rOctetCountingMode := false, stateDaedr := .daedrx0 } bit) := by
        simp [rxBitToSu, state, daedrx0, octetCountMode]
      rw [step]
      exact (openCheckFlag_opened _).passed ⟨rfl, rfl, rfl, rfl⟩ same
  | daedrx0 =>
      have same : held link = link.rxBuf := by simp [held, storesAt, state]
      have step : rxBitToSu link bit = openCheckFlag (shiftFlagAccum (octetCountMode link) bit) := by
        simp [rxBitToSu, state, daedrx0]
      rw [step]
      exact (openCheckFlag_opened _).passed
        ((octetCountMode_unheard link).trans (shiftFlagAccum_unheard _ bit)) same
  | daedrx1 =>
      have same : held link = link.rxBuf := by simp [held, storesAt, state]
      have counted := (shiftFlagAccum_unheard link bit).trans (octetCountMode_unheard _)
      have step : rxBitToSu link bit = daedrx1 link bit := by simp [rxBitToSu, state]
      rw [step, daedrx1]
      split
      · exact ⟨Or.inl (counted.rxBuf.trans same.symm), Or.inl counted.handed, counted.reg,
          counted.cfg⟩
      · have opened := (openCheckFlag_opened
          (startCollecting (octetCountMode (shiftFlagAccum link bit)))).cleared rfl
        exact ⟨Or.inr opened.rxBuf, Or.inl (opened.handed.trans counted.handed),
          opened.reg.trans counted.reg, opened.cfg.trans counted.cfg⟩
  | daedrx2 =>
      cases daedrx2_collect link bit state with
      | bail next step silent stores _ _ =>
          rw [step]
          have all := silent.trans (octetCountStart_unheard next)
          have same : held link = link.rxBuf := by simp [held, stores]
          exact ⟨Or.inl (all.rxBuf.trans same.symm), Or.inl all.handed, all.reg, all.cfg⟩
      | overflow next step passed stores _ _ =>
          rw [step]
          have same : held link = link.rxBuf := by simp [held, stores]
          have ends := octetCountStart_unheard { next with rxBuf := [] }
          rw [← same] at passed
          exact ⟨Or.inr ends.rxBuf, Or.inr ⟨_, ends.handed.trans passed.handed⟩,
            ends.reg.trans passed.reg, ends.cfg.trans passed.cfg⟩
      | check next step checked =>
          rw [step]
          exact (closeCheckFlag_closed next).passed checked

end Wanpipe.Mtp1
