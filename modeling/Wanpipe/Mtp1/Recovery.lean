import Wanpipe.Runs
import Wanpipe.Mtp1.Configured

/-! Reception behind two flags, from any state in which octet counting has not started since
`INIT`. Only `INIT` ends octet counting, and while it is on `DAEDRX_2` counts every bit twice. -/

namespace Wanpipe.Mtp1

open Line Runs

/-- The steps that call `octet_count_start`: a seventh one, an octet too many, or an abort in the
flag accumulator. -/
def startsCounting (link : Link) (bit : Bool) : Prop :=
  match link.stateDaedr with
  | .init => False
  | .daedrx0 => tooManyOnes ((link.rFlagAccum >>> 1) ||| rxBit bit)
  | .daedrx1 => link.rBitGateCount = 0 ∧ tooManyOnes ((link.rFlagAccum >>> 1) ||| rxBit bit)
  | .daedrx2 =>
      link.rFlagAccum.getLsbD 0 = true ∧ 7 ≤ link.r1sBitCount + 1 ∨
        ¬ (link.rFlagAccum.getLsbD 0 = false ∧ link.r1sBitCount = 5) ∧
            bump link.rOctetBitCount = 8 ∧ link.cfg.maxMru < link.rxBuf.length ∨
        tooManyOnes ((link.rFlagAccum >>> 1) ||| rxBit bit)

instance (link : Link) (bit : Bool) : Decidable (startsCounting link bit) :=
  match known : link.stateDaedr with
  | .init => isFalse (by simp [startsCounting, known])
  | .daedrx0 =>
      decidable_of_iff (tooManyOnes ((link.rFlagAccum >>> 1) ||| rxBit bit))
        (by simp [startsCounting, known])
  | .daedrx1 =>
      decidable_of_iff
        (link.rBitGateCount = 0 ∧ tooManyOnes ((link.rFlagAccum >>> 1) ||| rxBit bit))
        (by simp [startsCounting, known])
  | .daedrx2 =>
      decidable_of_iff
        (link.rFlagAccum.getLsbD 0 = true ∧ 7 ≤ link.r1sBitCount + 1 ∨
          ¬ (link.rFlagAccum.getLsbD 0 = false ∧ link.r1sBitCount = 5) ∧
              bump link.rOctetBitCount = 8 ∧ link.cfg.maxMru < link.rxBuf.length ∨
          tooManyOnes ((link.rFlagAccum >>> 1) ||| rxBit bit))
        (by simp [startsCounting, known])

def rxStep (link : Link) (bit : Bool) : Option Link := some (rxBitToSu link bit)

theorem run_rxStep (bits : List Bool) (link : Link) : run rxStep link bits = some (feed link bits) := by
  induction bits generalizing link with
  | nil => rfl
  | cons bit bits ih => exact ih (rxBitToSu link bit)

/-- What holds while octet counting has not started since `INIT`. -/
structure Calm (link : Link) (window : List Bool) : Prop where
  size : window.length = 8
  fresh : link.stateDaedr = .init → window = List.replicate 8 false
  mode : link.stateDaedr ≠ .init → link.rOctetCountingMode = false
  accum : link.stateDaedr ≠ .init → link.rFlagAccum = accumOf window
  gate : link.stateDaedr = .daedrx1 → link.rBitGateCount ≤ 7
  count : link.stateDaedr = .daedrx2 → link.rOctetBitCount < 8

/-- A flag in the window is a flag seen, unless the last one is still being pushed out. -/
def Flagged (link : Link) (window : List Bool) : Prop :=
  window = flag → ∃ gate, gate ≤ 7 ∧ Gated link gate flag

theorem Calm.of_gated {link : Link} {gate : Nat} {window : List Bool} (bound : gate ≤ 7)
    (held : Gated link gate window) : Calm link window ∧ Flagged link window := by
  have state := held.state
  refine ⟨⟨held.size, ?_, fun _ => held.mode, fun _ => held.accum, ?_, ?_⟩, ?_⟩
  · intro init
    rw [state] at init
    contradiction
  · intro _
    rw [held.gate]
    exact bound
  · intro collecting
    rw [state] at collecting
    contradiction
  · intro found
    exact ⟨gate, bound, found ▸ held⟩

theorem suAccept_kept (link : Link) (errCode : Nat) :
    (suAccept link errCode).rOctetCountingMode = link.rOctetCountingMode ∧
      (suAccept link errCode).rFlagAccum = link.rFlagAccum := by
  unfold suAccept suerm
  split
  · split <;> exact ⟨rfl, rfl⟩
  · dsimp only
    split <;> split <;> exact ⟨rfl, rfl⟩

theorem suerm_kept (link : Link) :
    (suerm link).rOctetCountingMode = link.rOctetCountingMode ∧
      (suerm link).rFlagAccum = link.rFlagAccum := by
  unfold suerm
  split <;> exact ⟨rfl, rfl⟩

theorem closeSu_kept (link : Link) :
    (closeSu link).rOctetCountingMode = link.rOctetCountingMode ∧
      (closeSu link).rFlagAccum = link.rFlagAccum := by
  have rejected (errCode : Nat) :
      (suAccept (suerm link) errCode).rOctetCountingMode = link.rOctetCountingMode ∧
        (suAccept (suerm link) errCode).rFlagAccum = link.rFlagAccum := by
    have first := suerm_kept link
    have second := suAccept_kept (suerm link) errCode
    exact ⟨second.1.trans first.1, second.2.trans first.2⟩
  unfold closeSu
  split
  · exact rejected _
  · split
    · exact rejected _
    · split
      · exact rejected _
      · exact suAccept_kept link 0

/-- Whatever a closing flag makes of the signal unit, it opens the next one. -/
theorem closeCheckFlag_flag {link : Link} (mode : link.rOctetCountingMode = false)
    (accum : link.rFlagAccum = accumOf flag) : Synced (closeCheckFlag link) := by
  have seen : link.rFlagAccum = flagOctet := by
    rw [accum]
    decide
  have kept := closeSu_kept link
  rw [closeCheckFlag, if_pos seen]
  exact ⟨rfl, kept.1.trans mode, kept.2.trans accum, rfl, rfl⟩

theorem accumOf_flag {window : List Bool} (size : window.length = 8)
    (seen : accumOf window = flagOctet) : window = flag := by
  have same : accumOf window = accumOf flag := seen.trans (by decide)
  rw [accumOf_octet window size, accumOf_octet flag rfl] at same
  apply octetOf_inj window flag size rfl
  have narrow := congrArg (BitVec.setWidth 8) same
  rwa [BitVec.setWidth_setWidth_of_le _ (by decide), BitVec.setWidth_eq,
    BitVec.setWidth_setWidth_of_le _ (by decide), BitVec.setWidth_eq] at narrow

theorem openCheckFlag_calm {link : Link} {window : List Bool} (size : window.length = 8)
    (state : link.stateDaedr = .daedrx0 ∨ link.stateDaedr = .daedrx2 ∧ link.rOctetBitCount < 8)
    (mode : link.rOctetCountingMode = false) (accum : link.rFlagAccum = accumOf window)
    (quiet : ¬ tooManyOnes link.rFlagAccum) :
    Calm (openCheckFlag link) window ∧ Flagged (openCheckFlag link) window := by
  by_cases seen : link.rFlagAccum = flagOctet
  · have found := accumOf_flag size (accum.symm.trans seen)
    rw [openCheckFlag, if_pos seen]
    exact Calm.of_gated (Nat.le_refl 7) ⟨rfl, mode, accum, rfl, size⟩
  · rw [openCheckFlag, if_neg seen, if_neg quiet]
    refine ⟨⟨size, ?_, fun _ => mode, fun _ => accum, ?_, ?_⟩, ?_⟩
    · intro init
      rcases state with hunting | ⟨collecting, _⟩ <;> simp_all
    · intro opening
      rcases state with hunting | ⟨collecting, _⟩ <;> simp_all
    · intro collecting
      rcases state with hunting | ⟨_, few⟩
      · simp_all
      · exact few
    · intro found
      rw [accum, found] at seen
      exact absurd (by decide) seen

theorem closeCheckFlag_calm {link : Link} {window : List Bool} (size : window.length = 8)
    (state : link.stateDaedr = .daedrx2) (few : link.rOctetBitCount < 8)
    (mode : link.rOctetCountingMode = false) (accum : link.rFlagAccum = accumOf window)
    (quiet : ¬ tooManyOnes link.rFlagAccum) :
    Calm (closeCheckFlag link) window ∧ Flagged (closeCheckFlag link) window := by
  by_cases seen : link.rFlagAccum = flagOctet
  · have found := accumOf_flag size (accum.symm.trans seen)
    subst found
    exact Calm.of_gated (Nat.le_refl 7) (closeCheckFlag_flag mode accum)
  · have agree : closeCheckFlag link = openCheckFlag link := by
      rw [closeCheckFlag, if_neg seen, if_neg quiet, openCheckFlag, if_neg seen, if_neg quiet]
    rw [agree]
    exact openCheckFlag_calm size (Or.inr ⟨state, few⟩) mode accum quiet

theorem daedrx2CheckFlag_calm {link : Link} {oldest : Bool} {window : List Bool} (bit : Bool)
    (seven : window.length = 7) (state : link.stateDaedr = .daedrx2)
    (few : link.rOctetBitCount < 8) (mode : link.rOctetCountingMode = false)
    (accum : link.rFlagAccum = accumOf (oldest :: window))
    (quiet : ¬ tooManyOnes ((link.rFlagAccum >>> 1) ||| rxBit bit)) :
    Calm (daedrx2CheckFlag link bit) (window ++ [bit]) ∧
      Flagged (daedrx2CheckFlag link bit) (window ++ [bit]) := by
  have size : (window ++ [bit]).length = 8 := by rw [List.length_append, seven]; rfl
  have shifted : (shiftFlagAccum link bit).rFlagAccum = accumOf (window ++ [bit]) := by
    rw [← accumOf_shift oldest bit window seven, ← accum]
    rfl
  exact closeCheckFlag_calm size state few mode shifted quiet

theorem keepBit_calm {link : Link} {oldest : Bool} {window : List Bool} (suBit bit : Bool)
    (seven : window.length = 7) (state : link.stateDaedr = .daedrx2)
    (few : link.rOctetBitCount < 8) (mode : link.rOctetCountingMode = false)
    (accum : link.rFlagAccum = accumOf (oldest :: window))
    (room : bump link.rOctetBitCount = 8 → ¬ link.cfg.maxMru < link.rxBuf.length)
    (quiet : ¬ tooManyOnes ((link.rFlagAccum >>> 1) ||| rxBit bit)) :
    Calm (keepBit link suBit bit) (window ++ [bit]) ∧
      Flagged (keepBit link suBit bit) (window ++ [bit]) := by
  have next := bump_small link.rOctetBitCount few
  unfold keepBit
  dsimp only
  split
  · rename_i open_
    exact daedrx2CheckFlag_calm bit seven state open_ mode accum quiet
  · split
    · rename_i full
      rw [storeOctet, if_neg (room full)]
      exact daedrx2CheckFlag_calm bit seven state (by decide : 0 < 8) mode accum quiet
    · rename_i open_ past
      exact absurd (by omega) past

theorem calm_step {link : Link} {oldest : Bool} {window : List Bool} (bit : Bool)
    (calm : Calm link (oldest :: window)) (quiet : ¬ startsCounting link bit) :
    Calm (rxBitToSu link bit) (window ++ [bit]) ∧
      Flagged (rxBitToSu link bit) (window ++ [bit]) := by
  have seven : window.length = 7 := Nat.succ.inj calm.size
  have size : (window ++ [bit]).length = 8 := by rw [List.length_append, seven]; rfl
  have shift := accumOf_shift oldest bit window seven
  have off (state : link.stateDaedr ≠ .init) : octetCountMode link = link := by
    simp [octetCountMode, calm.mode state]
  cases state : link.stateDaedr with
  | init =>
      have clear : accumOf (oldest :: window) = 0 := by
        rw [calm.fresh state]
        decide
      rw [clear] at shift
      have step : rxBitToSu link bit = openCheckFlag (shiftFlagAccum { link with
          rFlagAccum := 0, rOctetCountingMode := false, stateDaedr := .daedrx0 } bit) := by
        simp [rxBitToSu, state, daedrx0, octetCountMode]
      rw [step]
      have plain : ∀ bit, ¬ tooManyOnes ((0#32 >>> 1) ||| rxBit bit) := by decide
      exact openCheckFlag_calm size (Or.inl rfl) rfl shift (plain bit)
  | daedrx0 =>
      have known : link.stateDaedr ≠ .init := by simp [state]
      rw [← calm.accum known] at shift
      simp only [startsCounting, state] at quiet
      have step : rxBitToSu link bit = openCheckFlag (shiftFlagAccum link bit) := by
        simp [rxBitToSu, state, daedrx0, off known]
      rw [step]
      exact openCheckFlag_calm size (Or.inl state) (calm.mode known) shift quiet
  | daedrx1 =>
      have known : link.stateDaedr ≠ .init := by simp [state]
      have gated : Gated link link.rBitGateCount (oldest :: window) :=
        ⟨state, calm.mode known, calm.accum known, rfl, calm.size⟩
      have bound := calm.gate state
      cases gate : link.rBitGateCount with
      | succ gate' =>
          rw [gate] at gated bound
          exact Calm.of_gated (Nat.le_of_succ_le bound) (daedrx1_gated bit gated).1
      | zero =>
          rw [gate] at gated
          rcases daedrx1_opens bit gated with ⟨next, step, collects, _⟩
          simp only [startsCounting, state, gate, true_and] at quiet
          have counted : next.rOctetBitCount < 8 := by
            rw [collects.count]
            exact collects.short
          rw [step]
          apply openCheckFlag_calm size (Or.inr ⟨collects.state, counted⟩) collects.mode
            collects.accum
          rwa [collects.accum, ← shift, ← calm.accum known]
  | daedrx2 =>
      have known : link.stateDaedr ≠ .init := by simp [state]
      have mode := calm.mode known
      have accum := calm.accum known
      have few := calm.count state
      simp only [startsCounting, state, not_or] at quiet
      rcases quiet with ⟨fewOnes, room, plain⟩
      have step : rxBitToSu link bit = daedrx2 link bit := by simp [rxBitToSu, state]
      rw [step, daedrx2]
      simp only [off known]
      split
      · rename_i one
        have keeps : ¬ 7 ≤ link.r1sBitCount + 1 := fun many => fewOnes ⟨one, many⟩
        rw [if_neg keeps]
        refine keepBit_calm true bit seven (by exact state) (by exact few) (by exact mode)
          (by exact accum) ?_ (by exact plain)
        intro full long
        exact room ⟨by simp [one], full, long⟩
      · rename_i zero
        split
        · exact daedrx2CheckFlag_calm bit seven (by exact state) (by exact few) (by exact mode)
            (by exact accum) (by exact plain)
        · rename_i other
          refine keepBit_calm false bit seven (by exact state) (by exact few) (by exact mode)
            (by exact accum) ?_ (by exact plain)
          intro full long
          exact room ⟨by simp [other], full, long⟩

theorem calm_feed (bits : List Bool) (link : Link) (window : List Bool) (calm : Calm link window)
    (quiet : Along rxStep (fun link bit => ¬ startsCounting link bit) link bits) :
    Calm (feed link bits) ((window ++ bits).drop bits.length) ∧
      (bits ≠ [] → Flagged (feed link bits) ((window ++ bits).drop bits.length)) := by
  induction bits generalizing link window with
  | nil => exact ⟨by simpa using calm, fun some_ => absurd rfl some_⟩
  | cons bit bits ih =>
      cases window with
      | nil => exact absurd calm.size (by decide)
      | cons oldest window =>
          rcases calm_step bit calm quiet.1 with ⟨next, flagged⟩
          have rest := ih _ _ next (quiet.2 _ rfl)
          have same : (oldest :: window ++ bit :: bits).drop (bits.length + 1) =
              (window ++ [bit] ++ bits).drop bits.length := by simp
          rw [List.length_cons, same]
          refine ⟨rest.1, fun _ => ?_⟩
          cases bits with
          | nil => simpa using flagged
          | cons other bits => exact rest.2 (by simp)

theorem calm_of_init (link : Link) (fresh : link.stateDaedr = .init) :
    Calm link (List.replicate 8 false) := by
  refine ⟨rfl, fun _ => rfl, ?_, ?_, ?_, ?_⟩ <;> intro other <;> simp_all

/-- The last bit of a flag is pushed out, and a clean line runs up to the next flag. -/
theorem pushed_flag {link : Link} {oldest : Bool} {window : List Bool} (bit : Bool)
    (line : List Bool) (some_ : line ≠ []) (clean : Clean 0 line)
    (held : Gated link 0 (oldest :: window)) (first : window ++ [bit] = (line ++ flag).take 8)
    (room : (destuff 0 line).length ≤ 8) :
    Synced (feed link (bit :: (line ++ flag).drop 8)) := by
  rcases daedrx1_opens bit held with ⟨next, step, collects, _⟩
  rw [first] at collects
  rcases collect_clean line next 0 [] [] clean collects (by simp [lineBits]; omega) with
    ⟨last, _, _, _, closed, _, later⟩
  rw [feed_cons, step, openCheckFlag_clean some_ clean collects, later.feed]
  exact closeCheckFlag_flag closed.mode closed.accum

instance cleanDecidable : (ones : Nat) → (line : List Bool) → Decidable (Clean ones line)
  | _, [] => inferInstanceAs (Decidable True)
  | ones, bit :: bits =>
      have := cleanDecidable (destuffBit ones bit).1 bits
      inferInstanceAs (Decidable (leadOnes (bits ++ flag) ≤ 5 ∧ (destuffBit ones bit).1 < 7 ∧
        Clean (destuffBit ones bit).1 bits))

/-- A second flag while the first one is still being pushed out. -/
theorem gated_flag {link : Link} (gate : Nat) (bound : gate ≤ 7) (held : Gated link gate flag) :
    Synced (feed link flag) := by
  rcases Nat.lt_or_ge gate 7 with early | full
  · have front : (flag.take gate).length = gate := by
      rw [List.length_take]
      exact Nat.min_eq_left (Nat.le_of_lt (Nat.lt_succ_of_lt early))
    rw [← front] at held
    rcases feed_gated (flag.take gate) link flag held with ⟨opened, _, _⟩
    have split : feed link flag =
        feed (feed link (flag.take gate)) (flag.drop gate) := by
      rw [← feed_append, List.take_append_drop]
    rw [split]
    interval_cases gate
    · exact pushed_flag _ (flag.drop 1) (by decide) (by decide) opened (by decide) (by decide)
    · exact pushed_flag _ (flag.drop 2) (by decide) (by decide) opened (by decide) (by decide)
    · exact pushed_flag _ (flag.drop 3) (by decide) (by decide) opened (by decide) (by decide)
    · exact pushed_flag _ (flag.drop 4) (by decide) (by decide) opened (by decide) (by decide)
    · exact pushed_flag _ (flag.drop 5) (by decide) (by decide) opened (by decide) (by decide)
    · exact pushed_flag _ (flag.drop 6) (by decide) (by decide) opened (by decide) (by decide)
    · exact pushed_flag _ (flag.drop 7) (by decide) (by decide) opened (by decide) (by decide)
  · obtain rfl : gate = 7 := Nat.le_antisymm bound full
    exact (flag_received held).1

/-- Behind two flags the receiver is in step, from any state short of octet counting. -/
theorem two_flags_synced (link : Link) (fresh : link.stateDaedr = .init) (before : List Bool)
    (quiet : Along rxStep (fun link bit => ¬ startsCounting link bit) link
      (before ++ flag ++ flag)) :
    Synced (feed link (before ++ flag ++ flag)) := by
  have calm := calm_feed (before ++ flag) link _ (calm_of_init link fresh) quiet.take
  have window : (List.replicate 8 false ++ (before ++ flag)).drop (before ++ flag).length =
      flag := by
    rw [← List.append_assoc]
    apply List.drop_left'
    rw [List.length_append, List.length_append, Nat.add_comm]
    rfl
  rw [window] at calm
  rcases calm.2 (by simp [flag]) rfl with ⟨gate, bound, held⟩
  rw [feed_append]
  exact gated_flag gate bound held

/-- While octet counting has not started since `INIT`, whatever came before, a good signal unit
behind two flags is told at the last bit of its closing flag, and nothing is told earlier. -/
theorem mtp1_su_after_two_flags (link : Link) (fresh : link.stateDaedr = .init)
    (told : link.reg.rxData = true) (before : List Bool)
    (quiet : Along rxStep (fun link bit => ¬ startsCounting link bit) link
      (before ++ flag ++ flag))
    (octets : List Octet) (size : 3 ≤ octets.length) (short : octets.length ≤ link.cfg.maxMru)
    (good : fcs 0xffff#16 octets = 0xf0b8#16) :
    Quiet (feed link (before ++ flag ++ flag)).indications (feed link (before ++ flag ++ flag))
        (stuff 0 (lineBits octets) ++ flag) ∧
      (feed link (before ++ flag ++ flag ++ (stuff 0 (lineBits octets) ++ flag))).indications =
        (feed link (before ++ flag ++ flag)).indications ++ [.rxData octets 0] := by
  have synced := two_flags_synced link fresh before quiet
  have kept := feed_configured (before ++ flag ++ flag) link link ⟨rfl, rfl⟩
  rcases su_received octets size (by rw [kept.cfg]; exact Nat.le_succ_of_le short) good
    (by rw [kept.reg]; exact told) synced with ⟨_, _, _, indications, silence⟩
  refine ⟨silence, ?_⟩
  rw [feed_append]
  exact indications

def abortReg : Reg := ⟨true, false, false, ⟨.hdlc8Bit, .bit0First, 16, 280⟩⟩

/-- A short signal unit with its check octets. -/
def shortSu : List Octet := [0, 0] ++ fcsOctets [0, 0]

theorem mtp1_su_after_noise :
    ∃ link, wpMtp1Register abortReg = some link ∧
      (feed link ([true, false, true] ++ flag ++ flag ++
        (stuff 0 (lineBits shortSu) ++ flag))).indications = [.rxData shortSu 0] := by
  have quiet : ∃ link, wpMtp1Register abortReg = some link ∧ link.stateDaedr = .init ∧
      link.reg.rxData = true ∧ link.cfg.maxMru = 280 ∧
      (feed link ([true, false, true] ++ flag ++ flag)).indications = [] ∧
      Along rxStep (fun link bit => ¬ startsCounting link bit) link
        ([true, false, true] ++ flag ++ flag) :=
    ⟨_, rfl, rfl, rfl, rfl, by decide +kernel, by decide +kernel⟩
  rcases quiet with ⟨link, registered, fresh, told, maxMru, silent, along⟩
  have heard := (mtp1_su_after_two_flags link fresh told _ along shortSu (by decide)
    (by rw [maxMru]; decide) (by decide +kernel)).2
  rw [silent] at heard
  exact ⟨link, registered, heard⟩

/-- Seven ones, two flags and a short signal unit: octet counting is still on, and the octets
come out cut in halves. -/
theorem mtp1_su_after_abort :
    ∃ link, wpMtp1Register abortReg = some link ∧ link.cfg.maxMru = 280 ∧
      fcs 0xffff#16 shortSu = 0xf0b8#16 ∧
      Indication.rxData shortSu 0 ∉
        (feed link (List.replicate 7 true ++ flag ++ flag ++
          (stuff 0 (lineBits shortSu) ++ flag))).indications := by
  refine ⟨_, rfl, rfl, by decide +kernel, ?_⟩
  decide +kernel

end Wanpipe.Mtp1
