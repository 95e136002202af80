import Mathlib.Data.List.Forall2
import Wanpipe.Mtp1.Running

/-! Which received octets go into which call of `rx_data`. An abort leaves `rx_buf` as it is, and
while the receiver hunts for a flag the next abort hands it up once more. -/

namespace Wanpipe.Mtp1

open Line Runs

/-- A receiver whose octets are marked with the bit that completed them. `r_accum` is cleared with
every write, so octets with different marks share no bit of the line. -/
structure Reception where
  link : Link
  now : Nat
  marks : List Nat
  reports : List (List Nat)

def heldMarks (reception : Reception) : List Nat :=
  if (storesAt reception.link).isSome then reception.marks ++ [reception.now] else reception.marks

def receive (reception : Reception) (bit : Bool) : Reception :=
  let next := rxBitToSu reception.link bit
  { link := next
    now := reception.now + 1
    marks := (heldMarks reception).take next.rxBuf.length
    reports :=
      if (handed next).length = (handed reception.link).length then reception.reports
      else reception.reports ++ [heldMarks reception] }

def watched (link : Link) : Reception := ⟨link, 0, [], []⟩

def receiveAll (reception : Reception) (bits : List Bool) : Reception := bits.foldl receive reception

theorem receiveAll_link (bits : List Bool) (reception : Reception) :
    (receiveAll reception bits).link = feed reception.link bits := by
  induction bits generalizing reception with
  | nil => rfl
  | cons bit bits ih => exact ih (receive reception bit)

/-- The marks of a call are those of its octets, and the calls are those of the link. -/
structure Marked (reception : Reception) : Prop where
  marks : reception.marks.length = reception.link.rxBuf.length
  reports : List.Forall₂ (fun marks call => marks.length = call.1.length) reception.reports
    (handed reception.link)

theorem heldMarks_length {reception : Reception} (marked : Marked reception) :
    (heldMarks reception).length = (held reception.link).length := by
  unfold heldMarks held
  cases storesAt reception.link with
  | none => exact marked.marks
  | some i => simp [marked.marks]

theorem receive_marked {reception : Reception} (bit : Bool) (marked : Marked reception) :
    Marked (receive reception bit) := by
  have passed := rxBitToSu_passed reception.link bit
  have size := heldMarks_length marked
  constructor
  · have short : (rxBitToSu reception.link bit).rxBuf.length ≤ (heldMarks reception).length := by
      rcases passed.rxBuf with same | clear
      · rw [same, size]
      · rw [clear]
        exact Nat.zero_le _
    simp only [receive, List.length_take]
    exact Nat.min_eq_left short
  · simp only [receive]
    rcases passed.handed with same | ⟨errCode, more⟩
    · rw [if_pos (by rw [same]), same]
      exact marked.reports
    · rw [told] at more
      split at more
      · rw [if_neg (by rw [more]; simp), more]
        exact List.rel_append marked.reports (List.Forall₂.cons size List.Forall₂.nil)
      · rw [List.append_nil] at more
        rw [if_pos (by rw [more]), more]
        exact marked.reports

/-- An abort is seen while the receiver hunts for a flag behind an earlier abort, and `rx_buf`
still holds the unit that was handed up then. -/
def repeats (link : Link) (bit : Bool) : Prop :=
  link.stateDaedr = .daedrx0 ∧ link.rOctetCountingMode = true ∧ link.reg.rxData = true ∧
    3 ≤ link.rxBuf.length ∧ tooManyOnes ((link.rFlagAccum >>> 1) ||| rxBit bit)

instance (link : Link) (bit : Bool) : Decidable (repeats link bit) :=
  inferInstanceAs (Decidable (_ ∧ _ ∧ _ ∧ _ ∧ _))

/-- No octet of the buffer was handed up. -/
def Fresh (reception : Reception) : Prop :=
  ∀ report ∈ reception.reports, List.Disjoint report reception.marks

/-- Marks are bits gone by, and no two calls share one. -/
structure Apart (reception : Reception) : Prop extends Marked reception where
  before : ∀ mark ∈ reception.marks, mark < reception.now
  reported : ∀ report ∈ reception.reports, ∀ mark ∈ report, mark < reception.now
  apart : reception.reports.Pairwise List.Disjoint

/-- Behind an abort the buffer was handed up; in `DAEDRX_2` and before octet counting it was not. -/
structure Sound (reception : Reception) : Prop extends Apart reception where
  running : ∃ window, Running reception.link window
  stale : reception.link.stateDaedr = .daedrx0 → reception.link.rOctetCountingMode = true →
    reception.link.reg.rxData = true → 3 ≤ reception.link.rxBuf.length →
      reception.marks ∈ reception.reports
  fresh : reception.link.stateDaedr = .init ∨ reception.link.stateDaedr = .daedrx2 ∨
    reception.link.stateDaedr = .daedrx0 ∧ reception.link.rOctetCountingMode = false →
      Fresh reception

theorem heldMarks_before {reception : Reception} (sound : Apart reception) :
    ∀ mark ∈ heldMarks reception, mark < reception.now + 1 := by
  intro mark member
  unfold heldMarks at member
  split at member
  · rcases List.mem_append.mp member with old | new
    · exact Nat.lt_succ_of_lt (sound.before mark old)
    · rw [List.mem_singleton] at new
      rw [new]
      exact Nat.lt_succ_self _
  · exact Nat.lt_succ_of_lt (sound.before mark member)

theorem heldMarks_fresh {reception : Reception} (sound : Apart reception)
    (fresh : Fresh reception) :
    ∀ report ∈ reception.reports, List.Disjoint report (heldMarks reception) := by
  intro report member
  unfold heldMarks
  split
  · rw [List.disjoint_append_right]
    refine ⟨fresh report member, ?_⟩
    rw [List.disjoint_singleton]
    intro now
    exact Nat.lt_irrefl _ (sound.reported report member _ now)
  · exact fresh report member

/-- The calls of a reception after a bit. -/
theorem receive_reports {reception : Reception} {bit : Bool} {errCode : Nat}
    (passed : handed (rxBitToSu reception.link bit) = handed reception.link ++
      told reception.link.reg (held reception.link) errCode) :
    (receive reception bit).reports =
      if reception.link.reg.rxData = true ∧ 3 ≤ (held reception.link).length then
        reception.reports ++ [heldMarks reception]
      else reception.reports := by
  simp only [receive, passed, told]
  split <;> simp

theorem receive_silent {reception : Reception} {bit : Bool}
    (silent : handed (rxBitToSu reception.link bit) = handed reception.link) :
    (receive reception bit).reports = reception.reports := by
  simp only [receive, silent, if_true]

theorem receive_apart {reception : Reception} (bit : Bool) (sound : Apart reception)
    (fresh : Fresh reception ∨
      handed (rxBitToSu reception.link bit) = handed reception.link) :
    Apart (receive reception bit) := by
  have marked := receive_marked bit sound.toMarked
  have before := heldMarks_before sound
  have kept : (receive reception bit).marks ⊆ heldMarks reception :=
    List.take_subset _ _
  have older (report : List Nat) (member : report ∈ reception.reports) :
      ∀ mark ∈ report, mark < reception.now + 1 := fun mark marks =>
    Nat.lt_succ_of_lt (sound.reported report member mark marks)
  have shape : (receive reception bit).reports = reception.reports ∨
      Fresh reception ∧
        (receive reception bit).reports = reception.reports ++ [heldMarks reception] := by
    rcases fresh with fresh | silent
    · simp only [receive]
      split
      · exact Or.inl rfl
      · exact Or.inr ⟨fresh, rfl⟩
    · exact Or.inl (receive_silent silent)
  refine ⟨marked, fun mark member => before mark (kept member), ?_, ?_⟩
  · intro report member
    rcases shape with same | ⟨_, more⟩
    · rw [same] at member
      exact older report member
    · rw [more, List.mem_append, List.mem_singleton] at member
      rcases member with old | rfl
      · exact older report old
      · exact before
  · rcases shape with same | ⟨fresh, more⟩
    · rw [same]
      exact sound.apart
    · rw [more, List.pairwise_append]
      refine ⟨sound.apart, List.pairwise_singleton _ _, ?_⟩
      intro report member other single
      rw [List.mem_singleton] at single
      rw [single]
      exact heldMarks_fresh sound fresh report member

theorem receive_marks {reception : Reception} {bit : Bool} (marked : Marked reception)
    (kept : (rxBitToSu reception.link bit).rxBuf = held reception.link) :
    (receive reception bit).marks = heldMarks reception := by
  simp only [receive, kept]
  exact List.take_of_length_le (Nat.le_of_eq (heldMarks_length marked))

theorem Sound.of_flag {reception : Reception} (apart : Apart reception)
    (running : ∃ window, Running reception.link window)
    (state : reception.link.stateDaedr = .daedrx1) : Sound reception := by
  refine ⟨apart, running, ?_, ?_⟩
  · intro hunting
    rw [state] at hunting
    contradiction
  · rintro (init | collecting | ⟨hunting, _⟩)
    · rw [state] at init
      contradiction
    · rw [state] at collecting
      contradiction
    · rw [state] at hunting
      contradiction

theorem Sound.of_clear {reception : Reception} (apart : Apart reception)
    (running : ∃ window, Running reception.link window) (clear : reception.link.rxBuf = []) :
    Sound reception := by
  refine ⟨apart, running, ?_, ?_⟩
  · intro _ _ _ long
    rw [clear] at long
    exact absurd long (by decide)
  · intro _ report _
    have none_ : reception.marks = [] := by
      apply List.eq_nil_of_length_eq_zero
      rw [apart.marks, clear, List.length_nil]
    rw [none_]
    exact List.disjoint_nil_right _

/-- An abort that was not seen before hands the buffer up. -/
theorem receive_abort {reception : Reception} {bit : Bool} (apart : Apart reception)
    (running : ∃ window, Running (receive reception bit).link window)
    (state : (rxBitToSu reception.link bit).stateDaedr = .daedrx0)
    (mode : (rxBitToSu reception.link bit).rOctetCountingMode = true)
    (passed : Handed (held reception.link) (1 <<< abortErrorBit) reception.link
      (rxBitToSu reception.link bit))
    (fresh : Fresh reception ∨
      ¬ (reception.link.reg.rxData = true ∧ 3 ≤ (held reception.link).length)) :
    Sound (receive reception bit) := by
  have silent : Fresh reception ∨
      handed (rxBitToSu reception.link bit) = handed reception.link := by
    rcases fresh with fresh | short
    · exact Or.inl fresh
    · right
      rw [passed.handed, told, if_neg short, List.append_nil]
  refine ⟨receive_apart bit apart silent, running, ?_, ?_⟩
  · intro _ _ calls long
    have same : reception.link.reg.rxData = true := by
      rw [← passed.reg]
      exact calls
    have size : 3 ≤ (held reception.link).length := by
      rw [← passed.rxBuf]
      exact long
    rw [receive_marks apart.toMarked passed.rxBuf, receive_reports passed.handed,
      if_pos ⟨same, size⟩]
    simp
  · have on : (receive reception bit).link.rOctetCountingMode = true := mode
    have hunting : (receive reception bit).link.stateDaedr = .daedrx0 := state
    simp [on, hunting]

/-- The flag check while hunting for a flag, behind a bit of `INIT` or of `DAEDRX_0`. -/
theorem hunting_sound {reception : Reception} {bit : Bool} (before : Link)
    (sound : Sound reception)
    (running : ∃ window, Running (receive reception bit).link window)
    (step : rxBitToSu reception.link bit = openCheckFlag before)
    (silent : Unheard reception.link before) (stores : storesAt reception.link = none)
    (state : before.stateDaedr = .daedrx0)
    (new : Fresh reception ∧ before.rOctetCountingMode = false ∨
      reception.link.stateDaedr = .daedrx0 ∧ reception.link.rOctetCountingMode = true ∧
        before.rOctetCountingMode = true ∧ (tooManyOnes before.rFlagAccum →
          ¬ (reception.link.reg.rxData = true ∧ 3 ≤ reception.link.rxBuf.length))) :
    Sound (receive reception bit) := by
  have same : held reception.link = reception.link.rxBuf := by simp [held, stores]
  have marks : heldMarks reception = reception.marks := by simp [heldMarks, stores]
  have opened := openCheckFlag_opened before
  rw [← step] at opened
  cases opened with
  | found after =>
      have quiet : handed (rxBitToSu reception.link bit) = handed reception.link := by
        rw [after]
        exact silent.handed
      refine Sound.of_flag (receive_apart bit sound.toApart (Or.inr quiet)) running ?_
      simp only [receive, after, flagFound]
  | abort seen after passed =>
      have starts := octetCountStart_state (suAccept before (1 <<< abortErrorBit))
      have told := silent.handing passed
      rw [silent.rxBuf, ← same] at told
      refine receive_abort sound.toApart running (by rw [after, abortFound, starts.1])
        (by rw [after, abortFound, starts.2.1]) told ?_
      rcases new with ⟨fresh, _⟩ | ⟨_, _, _, short⟩
      · exact Or.inl fresh
      · rw [same]
        exact Or.inr (short seen)
  | plain _ after =>
      have quiet : handed (rxBitToSu reception.link bit) = handed reception.link := by
        rw [after]
        exact silent.handed
      have kept : (rxBitToSu reception.link bit).rxBuf = held reception.link := by
        rw [after, same]
        exact silent.rxBuf
      have reports := receive_silent quiet
      have keeps := (receive_marks sound.toMarked kept).trans marks
      refine ⟨receive_apart bit sound.toApart (Or.inr quiet), running, ?_, ?_⟩
      · intro _ on calls long
        simp only [receive, after] at on calls long
        rw [reports, keeps]
        rw [silent.reg] at calls
        rw [silent.rxBuf] at long
        rcases new with ⟨_, off⟩ | ⟨hunting, mode, _⟩
        · rw [on] at off
          contradiction
        · exact sound.stale hunting mode calls long
      · intro from_
        have off : before.rOctetCountingMode = false := by
          simpa only [receive, after, state, reduceCtorEq, false_or, true_and] using from_
        have fresh : Fresh reception := by
          rcases new with ⟨fresh, _⟩ | ⟨_, _, on, _⟩
          · exact fresh
          · rw [on] at off
            contradiction
        intro report member
        rw [reports] at member
        rw [keeps]
        exact fresh report member

theorem receive_sound {reception : Reception} (bit : Bool) (sound : Sound reception)
    (once : ¬ repeats reception.link bit) : Sound (receive reception bit) := by
  have running : ∃ window, Running (receive reception bit).link window := by
    rcases sound.running with ⟨window, running⟩
    obtain ⟨oldest, rest, rfl⟩ := List.exists_cons_of_length_eq_add_one running.size
    exact rxBitToSu_running bit running
  cases state : reception.link.stateDaedr with
  | init =>
      refine hunting_sound (shiftFlagAccum { reception.link with
          rFlagAccum := 0, rOctetCountingMode := false, stateDaedr := .daedrx0 } bit) sound running
        (by simp [rxBitToSu, state, daedrx0, octetCountMode]) ⟨rfl, rfl, rfl, rfl⟩
        (by simp [storesAt, state]) rfl (Or.inl ⟨sound.fresh (Or.inl state), rfl⟩)
  | daedrx0 =>
      have ticked := (octetCountMode_ticked reception.link).1
      refine hunting_sound (shiftFlagAccum (octetCountMode reception.link) bit) sound
        running (by simp [rxBitToSu, state, daedrx0])
        (ticked.toUnheard.trans (shiftFlagAccum_unheard _ bit)) (by simp [storesAt, state])
        (ticked.state.trans state) ?_
      cases mode : reception.link.rOctetCountingMode with
      | false => exact Or.inl ⟨sound.fresh (Or.inr (Or.inr ⟨state, mode⟩)), ticked.mode.trans mode⟩
      | true =>
          refine Or.inr ⟨state, rfl, ticked.mode.trans mode, ?_⟩
          rintro seen ⟨calls, long⟩
          rw [shiftFlagAccum, ticked.accum] at seen
          exact once ⟨state, mode, calls, long, seen⟩
  | daedrx1 =>
      have stores : storesAt reception.link = none := by simp [storesAt, state]
      have counted := (shiftFlagAccum_unheard reception.link bit).trans (octetCountMode_unheard _)
      have step : rxBitToSu reception.link bit = daedrx1 reception.link bit := by
        simp [rxBitToSu, state]
      rw [daedrx1] at step
      split at step
      · have quiet : handed (rxBitToSu reception.link bit) = handed reception.link := by
          rw [step]
          exact counted.handed
        refine Sound.of_flag (receive_apart bit sound.toApart (Or.inr quiet)) running ?_
        have ticked := (octetCountMode_ticked (shiftFlagAccum reception.link bit)).1
        simp only [receive, step]
        exact ticked.state.trans state
      · have opened := (openCheckFlag_opened
          (startCollecting (octetCountMode (shiftFlagAccum reception.link bit)))).cleared rfl
        rw [← step] at opened
        have quiet := opened.handed.trans counted.handed
        exact Sound.of_clear (receive_apart bit sound.toApart (Or.inr quiet)) running opened.rxBuf
  | daedrx2 =>
      have fresh := sound.fresh (Or.inr (Or.inl state))
      have apart := receive_apart bit sound.toApart (Or.inl fresh)
      cases daedrx2_collect reception.link bit state with
      | bail next step silent stores many _ =>
          rcases sound.running with ⟨window, runs⟩
          have short := bail_short runs state many.1 many.2
          have starts := octetCountStart_state next
          have all := silent.trans (octetCountStart_unheard next)
          refine ⟨apart, running, ?_, ?_⟩
          · intro _ _ _ long
            simp only [receive, step, all.rxBuf] at long
            exact absurd long (Nat.not_le_of_lt short)
          · simp [receive, step, starts.1, starts.2.1]
      | overflow next step passed stores _ _ =>
          have ends := octetCountStart_unheard { next with rxBuf := [] }
          refine Sound.of_clear apart running ?_
          simp only [receive, step]
          exact ends.rxBuf
      | check next step checked =>
          have closed := closeCheckFlag_closed next
          rw [← step] at closed
          cases closed with
          | found errCode closed passed _ after =>
              refine Sound.of_clear apart running ?_
              simp only [receive, after]
          | abort _ after passed =>
              have starts := octetCountStart_state (suAccept next (1 <<< abortErrorBit))
              rw [checked.rxBuf] at passed
              have told : Handed (held reception.link) (1 <<< abortErrorBit) reception.link
                  (rxBitToSu reception.link bit) := by
                refine ⟨passed.rxBuf, ?_, passed.reg.trans checked.reg,
                  passed.cfg.trans checked.cfg⟩
                rw [passed.handed, checked.handed, checked.reg]
              exact receive_abort sound.toApart running (by rw [after, abortFound, starts.1])
                (by rw [after, abortFound, starts.2.1]) told (Or.inl fresh)
          | plain _ after =>
              have quiet : handed (rxBitToSu reception.link bit) = handed reception.link := by
                rw [after]
                exact checked.handed
              have kept : (rxBitToSu reception.link bit).rxBuf = held reception.link := by
                rw [after]
                exact checked.rxBuf
              have marks := receive_marks sound.toMarked kept
              have reports := receive_silent quiet
              refine ⟨apart, running, ?_, ?_⟩
              · intro hunting
                simp only [receive, after] at hunting
                rcases checked.state with init | ⟨collecting, _⟩
                · rw [init] at hunting
                  contradiction
                · rw [collecting] at hunting
                  contradiction
              · intro _ report member
                rw [reports] at member
                rw [marks]
                exact heldMarks_fresh sound.toApart fresh report member

/-- A second call with the octets of the first. -/
theorem receive_repeats {reception : Reception} {bit : Bool} (sound : Sound reception)
    (twice : repeats reception.link bit) :
    ¬ (receive reception bit).reports.Pairwise List.Disjoint := by
  rcases twice with ⟨state, mode, calls, long, seen⟩
  have ticked := (octetCountMode_ticked reception.link).1
  have stores : storesAt reception.link = none := by simp [storesAt, state]
  have same : held reception.link = reception.link.rxBuf := by simp [held, stores]
  have marks : heldMarks reception = reception.marks := by simp [heldMarks, stores]
  have step : rxBitToSu reception.link bit =
      abortFound (shiftFlagAccum (octetCountMode reception.link) bit) := by
    have shown : tooManyOnes (shiftFlagAccum (octetCountMode reception.link) bit).rFlagAccum := by
      rw [shiftFlagAccum, ticked.accum]
      exact seen
    have other : (shiftFlagAccum (octetCountMode reception.link) bit).rFlagAccum ≠ flagOctet := by
      rcases shown with less | more
      · rw [less]
        decide
      · rw [more]
        decide
    simp only [rxBitToSu, state, daedrx0, openCheckFlag, if_neg other, if_pos shown]
  have passed := (ticked.toUnheard.trans (shiftFlagAccum_unheard _ bit)).handing
    (abortFound_handed (shiftFlagAccum (octetCountMode reception.link) bit))
  have before : (shiftFlagAccum (octetCountMode reception.link) bit).rxBuf = held reception.link :=
    ticked.rxBuf.trans same.symm
  rw [before, ← step] at passed
  rw [receive_reports passed.handed, if_pos ⟨calls, by rw [same]; exact long⟩, marks,
    List.pairwise_append]
  rintro ⟨_, _, apart⟩
  have known := sound.stale state mode calls long
  have disjoint := apart _ known _ (List.mem_singleton_self _)
  have size := sound.marks
  obtain ⟨mark, member⟩ := List.exists_mem_of_length_pos (by omega : 0 < reception.marks.length)
  exact disjoint member member

theorem receiveAll_reports (bits : List Bool) (reception : Reception) :
    ∃ more, (receiveAll reception bits).reports = reception.reports ++ more := by
  induction bits generalizing reception with
  | nil => exact ⟨[], (List.append_nil _).symm⟩
  | cons bit bits ih =>
      rcases ih (receive reception bit) with ⟨later, rest⟩
      have first : ∃ more, (receive reception bit).reports = reception.reports ++ more := by
        simp only [receive]
        split
        · exact ⟨[], (List.append_nil _).symm⟩
        · exact ⟨[heldMarks reception], rfl⟩
      rcases first with ⟨more, first⟩
      refine ⟨more ++ later, ?_⟩
      calc
        (receiveAll reception (bit :: bits)).reports =
            (receiveAll (receive reception bit) bits).reports := rfl
        _ = reception.reports ++ more ++ later := by rw [rest, first]
        _ = reception.reports ++ (more ++ later) := List.append_assoc _ _ _

theorem receiveAll_apart (bits : List Bool) (reception : Reception) (sound : Sound reception) :
    (receiveAll reception bits).reports.Pairwise List.Disjoint ↔
      Along rxStep (fun link bit => ¬ repeats link bit) reception.link bits := by
  induction bits generalizing reception with
  | nil => exact ⟨fun _ => trivial, fun _ => sound.apart⟩
  | cons bit bits ih =>
      by_cases twice : repeats reception.link bit
      · constructor
        · intro apart
          rcases receiveAll_reports bits (receive reception bit) with ⟨later, rest⟩
          have all : (receiveAll reception (bit :: bits)).reports =
              (receive reception bit).reports ++ later := rest
          rw [all] at apart
          exact absurd (List.pairwise_append.mp apart).1 (receive_repeats sound twice)
        · intro along
          exact absurd twice along.1
      · have next := ih (receive reception bit) (receive_sound bit sound twice)
        constructor
        · intro apart
          exact Along.cons twice rfl (next.mp apart)
        · intro along
          exact next.mpr (along.2 _ rfl)

theorem watched_sound (reg : Reg) (link : Link) (registered : wpMtp1Register reg = some link) :
    Sound (watched link) := by
  unfold wpMtp1Register at registered
  split at registered
  · contradiction
  · rw [Option.some.injEq] at registered
    subst registered
    refine Sound.of_clear ⟨⟨rfl, ?_⟩, ?_, ?_, List.Pairwise.nil⟩ ?_ rfl
    · exact List.Forall₂.nil
    · simp [watched]
    · simp [watched]
    · have clear : 0#32 = accumOf (List.replicate 8 false) := by decide
      exact ⟨List.replicate 8 false, Running.of_state rfl clear (by simp [watched])⟩

theorem feed_running (bits : List Bool) (link : Link) (start : ∃ window, Running link window) :
    ∃ window, Running (feed link bits) window := by
  induction bits generalizing link with
  | nil => exact start
  | cons bit bits ih =>
      rcases start with ⟨window, running⟩
      obtain ⟨oldest, rest, rfl⟩ := List.exists_cons_of_length_eq_add_one running.size
      exact ih _ (rxBitToSu_running bit running)

/-- An abort in `DAEDRX_2` hands up what was collected. -/
theorem abort_handed {link : Link} {bit : Bool} (running : ∃ window, Running link window)
    (state : link.stateDaedr = .daedrx2) (room : link.rxBuf.length ≤ link.cfg.maxMru)
    (seen : tooManyOnes ((link.rFlagAccum >>> 1) ||| rxBit bit)) :
    handed (rxBitToSu link bit) =
      handed link ++ told link.reg (held link) (1 <<< abortErrorBit) := by
  cases daedrx2_collect link bit state with
  | bail next step silent stores many _ =>
      rcases running with ⟨window, runs⟩
      have short := bail_short runs state many.1 many.2
      have same : held link = link.rxBuf := by simp [held, stores]
      rw [step, (octetCountStart_unheard next).handed, silent.handed, told, same,
        if_neg (by omega), List.append_nil]
  | overflow _ _ _ _ long _ => exact absurd room (Nat.not_le_of_lt long)
  | check next step checked =>
      rw [← checked.accum] at seen
      have other : next.rFlagAccum ≠ flagOctet := by
        rcases seen with less | more
        · rw [less]
          decide
        · rw [more]
          decide
      rw [step, closeCheckFlag, if_neg other, if_pos seen, (abortFound_handed next).handed,
        checked.handed, checked.reg, checked.rxBuf]

theorem suAccept_octet (link : Link) (errCode : Nat) :
    (suAccept link errCode).rAccum = link.rAccum := by
  unfold suAccept
  split
  · exact (suerm_ticked link).1.octet
  · dsimp only
    split <;> split <;> rfl

theorem closeSu_octet (link : Link) : (closeSu link).rAccum = link.rAccum := by
  have rejected (errCode : Nat) : (suAccept (suerm link) errCode).rAccum = link.rAccum :=
    (suAccept_octet (suerm link) errCode).trans (suerm_ticked link).1.octet
  unfold closeSu
  split
  · exact rejected _
  · split
    · exact rejected _
    · split
      · exact rejected _
      · exact suAccept_octet link 0

theorem abortFound_octet (link : Link) : (abortFound link).rAccum = link.rAccum := by
  have counted := (octetCountInc_ticked { suAccept link (1 <<< abortErrorBit) with
    rOctetCountingMode := true, rOctetCountingCount := 0 }).1.octet
  exact counted.trans (suAccept_octet link _)

/-- A write clears the accumulator: the next octet has no bit of this one. -/
theorem stored_octet (link : Link) (bit : Bool) (stores : (storesAt link).isSome) :
    (rxBitToSu link bit).rAccum = 0 := by
  cases state : link.stateDaedr with
  | daedrx2 =>
      cases daedrx2_collect link bit state with
      | bail _ _ _ none_ => simp [none_] at stores
      | overflow _ _ _ none_ => simp [none_] at stores
      | check next step checked =>
          have clear := checked.octet stores
          rw [step]
          unfold closeCheckFlag
          split
          · exact (closeSu_octet next).trans clear
          · split
            · exact (abortFound_octet next).trans clear
            · exact clear
  | init => simp [storesAt, state] at stores
  | daedrx0 => simp [storesAt, state] at stores
  | daedrx1 => simp [storesAt, state] at stores

/-- Every call of `rx_data` has its marks, and the marks of a line's calls are disjoint exactly when
no abort is seen in `DAEDRX_0` while octet counting is on and `rx_buf` holds a unit. An abort in
`DAEDRX_2` hands its unit up. -/
theorem mtp1_su_once (reg : Reg) (link : Link) (registered : wpMtp1Register reg = some link)
    (bits : List Bool) :
    List.Forall₂ (fun marks call => marks.length = call.1.length)
        (receiveAll (watched link) bits).reports (handed (feed link bits)) ∧
      (∀ bit, (storesAt (feed link bits)).isSome → (feed link (bits ++ [bit])).rAccum = 0) ∧
      ((receiveAll (watched link) bits).reports.Pairwise List.Disjoint ↔
        Along rxStep (fun link bit => ¬ repeats link bit) link bits) ∧
      ∀ bit, (feed link bits).stateDaedr = .daedrx2 →
        (feed link bits).rxBuf.length ≤ (feed link bits).cfg.maxMru →
        tooManyOnes (((feed link bits).rFlagAccum >>> 1) ||| rxBit bit) →
        handed (feed link (bits ++ [bit])) = handed (feed link bits) ++
          told (feed link bits).reg (held (feed link bits)) (1 <<< abortErrorBit) := by
  have sound := watched_sound reg link registered
  refine ⟨?_, ?_, receiveAll_apart bits _ sound, ?_⟩
  · have marked : Marked (receiveAll (watched link) bits) := by
      generalize watched link = reception at sound
      have start := sound.toMarked
      clear sound
      induction bits generalizing reception with
      | nil => exact start
      | cons bit bits ih => exact ih _ (receive_marked bit start)
    have calls := marked.reports
    rwa [receiveAll_link] at calls
  · intro bit stores
    rw [feed_append]
    exact stored_octet _ bit stores
  · intro bit state room seen
    rw [feed_append]
    exact abort_handed (feed_running bits link sound.running) state room seen

/-- A flag, four octets and a run of ones. -/
def abortedLine (ones : Nat) : List Bool :=
  flag ++ List.replicate 32 false ++ List.replicate ones true

theorem mtp1_su_once_aborted :
    ∃ link, wpMtp1Register abortReg = some link ∧
      (receiveAll (watched link) (abortedLine 7)).reports.Pairwise List.Disjoint ∧
      handed (feed link (abortedLine 7)) = [(List.replicate 3 0#8, 1 <<< abortErrorBit)] := by
  have quiet : ∃ link, wpMtp1Register abortReg = some link ∧
      Along rxStep (fun link bit => ¬ repeats link bit) link (abortedLine 7) ∧
      handed (feed link (abortedLine 7)) = [(List.replicate 3 0#8, 1 <<< abortErrorBit)] :=
    ⟨_, rfl, by decide +kernel, by decide +kernel⟩
  rcases quiet with ⟨link, registered, once, calls⟩
  exact ⟨link, registered, (mtp1_su_once abortReg link registered _).2.2.1.mpr once, calls⟩

/-- The zero behind the seven ones hands the unit up a second time. -/
theorem mtp1_su_twice :
    ∃ link, wpMtp1Register abortReg = some link ∧
      handed (feed link (abortedLine 7 ++ [false])) =
        [(List.replicate 3 0#8, 1 <<< abortErrorBit),
          (List.replicate 3 0#8, 1 <<< abortErrorBit)] ∧
      (receiveAll (watched link) (abortedLine 7 ++ [false])).reports =
        [[23, 31, 39], [23, 31, 39]] ∧
      ¬ (receiveAll (watched link) (abortedLine 7 ++ [false])).reports.Pairwise List.Disjoint := by
  have twice : ∃ link, wpMtp1Register abortReg = some link ∧
      handed (feed link (abortedLine 7 ++ [false])) =
        [(List.replicate 3 0#8, 1 <<< abortErrorBit),
          (List.replicate 3 0#8, 1 <<< abortErrorBit)] ∧
      (receiveAll (watched link) (abortedLine 7 ++ [false])).reports =
        [[23, 31, 39], [23, 31, 39]] := ⟨_, rfl, by decide +kernel, by decide +kernel⟩
  rcases twice with ⟨link, registered, calls, reports⟩
  refine ⟨link, registered, calls, reports, ?_⟩
  rw [reports]
  simp [List.Disjoint]

end Wanpipe.Mtp1
