import Mathlib.Tactic.NormNum
import Wanpipe.Mtp1.Collected

/-! The octet counting mode. `octet_count_inc` does not clear `r_octet_bit_count` with a full octet,
so from the eighth bit on every bit counts for an octet. -/

namespace Wanpipe.Mtp1

open Line Runs

/-- The calls of `rx_suerm`. -/
def suerms (link : Link) : Nat := link.indications.count .rxSuerm

/-- Octets that make octet counting call `rx_suerm`; a `param_N` of 0 acts as 1. -/
def octetsPerSuerm (cfg : Cfg) : Nat := max 1 cfg.paramN

/-- Of the calls of `octet_count_inc` on the way from `start` to `start + n` bits, those that find
eight bits or more. -/
def octetsCounted (start : Nat) : Nat → Nat
  | 0 => 0
  | n + 1 => octetsCounted start n + if 8 ≤ (start + n + 1) % 2 ^ 32 then 1 else 0

/-- A bit that shows neither a flag nor an abort in the flag accumulator. -/
def plainBit (link : Link) (bit : Bool) : Prop :=
  (link.rFlagAccum >>> 1) ||| rxBit bit ≠ flagOctet ∧
    ¬ tooManyOnes ((link.rFlagAccum >>> 1) ||| rxBit bit)

instance (link : Link) (bit : Bool) : Decidable (plainBit link bit) :=
  inferInstanceAs (Decidable (_ ∧ _))

/-- Octet counting `n` calls of `octet_count_inc` after it began with `start` bits and `told`
indications. -/
structure Counting (start told per n : Nat) (link : Link) : Prop where
  limit : octetsPerSuerm link.cfg = per
  small : link.cfg.paramN < 2 ^ 32
  calls : link.reg.rxSuerm = true
  bits : link.rOctetBitCount % 2 ^ 32 = (start + n) % 2 ^ 32
  count : link.rOctetCountingCount = octetsCounted start n % per
  suerms : suerms link = told + octetsCounted start n / per

theorem bump_mod (count total : Nat) (same : count % 2 ^ 32 = total % 2 ^ 32) :
    bump count = (total + 1) % 2 ^ 32 := by
  rw [bump, Nat.add_mod, same, ← Nat.add_mod]

theorem suerm_calls (link : Link) (calls : link.reg.rxSuerm = true) :
    suerm link = { link with indications := link.indications ++ [.rxSuerm] } := by
  rw [suerm, if_pos calls]

/-- One more octet, against the number that makes an indication. -/
theorem octet_added (octets per : Nat) (some_ : 0 < per) :
    (octets % per + 1 = per ∧ (octets + 1) % per = 0 ∧ (octets + 1) / per = octets / per + 1) ∨
      (octets % per + 1 < per ∧ (octets + 1) % per = octets % per + 1 ∧
        (octets + 1) / per = octets / per) := by
  have below := Nat.mod_lt octets some_
  have split := Nat.div_add_mod octets per
  rcases Nat.lt_or_eq_of_le (Nat.succ_le_of_lt below) with open_ | full
  · right
    have whole : octets + 1 = (octets % per + 1) + per * (octets / per) := by omega
    refine ⟨open_, ?_, ?_⟩
    · rw [whole, Nat.add_mul_mod_self_left, Nat.mod_eq_of_lt open_]
    · rw [whole, Nat.add_mul_div_left _ _ some_, Nat.div_eq_of_lt open_, Nat.zero_add]
  · left
    have whole : octets + 1 = per * (octets / per + 1) := by
      rw [Nat.mul_succ]
      omega
    refine ⟨full, ?_, ?_⟩
    · rw [whole, Nat.mul_mod_right]
    · rw [whole, Nat.mul_div_cancel_left _ some_]

theorem octetCountInc_counting {start told per n : Nat} {link : Link}
    (counting : Counting start told per n link) :
    Counting start told per (n + 1) (octetCountInc link) := by
  have per_eq : max 1 link.cfg.paramN = per := counting.limit
  have small := counting.small
  have calls := counting.calls
  have some_ : 0 < per := by omega
  have bits := bump_mod _ _ counting.bits
  have wrapped : bump link.rOctetBitCount % 2 ^ 32 = (start + (n + 1)) % 2 ^ 32 := by
    rw [bits, Nat.mod_mod, Nat.add_assoc]
  have below := Nat.mod_lt (octetsCounted start n) some_
  have counted : bump link.rOctetCountingCount = octetsCounted start n % per + 1 := by
    rw [counting.count, bump, Nat.mod_eq_of_lt]
    omega
  unfold octetCountInc
  dsimp only
  by_cases octet : 8 ≤ bump link.rOctetBitCount
  · rw [if_pos octet]
    rw [bits] at octet
    have more : octetsCounted start (n + 1) = octetsCounted start n + 1 := by
      rw [octetsCounted, if_pos octet]
    rcases octet_added (octetsCounted start n) per some_ with
      ⟨full, rest, whole⟩ | ⟨open_, rest, whole⟩
    · have reached : link.cfg.paramN ≤ bump link.rOctetCountingCount := by omega
      have told_ := suerm_calls { link with
        rOctetBitCount := bump link.rOctetBitCount, rOctetCountingCount := 0 } calls
      rw [if_pos reached, told_]
      refine ⟨counting.limit, small, calls, wrapped, ?_, ?_⟩
      · rw [more, rest]
      · have before := counting.suerms
        rw [suerms] at before
        simp only [suerms, List.count_append, before, List.count_singleton_self, more, whole]
        omega
    · have early : ¬ link.cfg.paramN ≤ bump link.rOctetCountingCount := by
        intro reached
        have none_ : link.cfg.paramN = 0 ∨ link.cfg.paramN = per := by omega
        omega
      rw [if_neg early]
      refine ⟨counting.limit, small, calls, wrapped, ?_, ?_⟩
      · rw [more, rest]
        exact counted
      · rw [more, whole]
        exact counting.suerms
  · rw [if_neg octet]
    rw [bits] at octet
    have same : octetsCounted start (n + 1) = octetsCounted start n := by
      rw [octetsCounted, if_neg octet, Nat.add_zero]
    refine ⟨counting.limit, small, calls, wrapped, ?_, ?_⟩
    · rw [same]
      exact counting.count
    · rw [same]
      exact counting.suerms

theorem octetCountStart_counting (link : Link) (small : link.cfg.paramN < 2 ^ 32)
    (calls : link.reg.rxSuerm = true) :
    Counting link.rOctetBitCount (suerms link) (octetsPerSuerm link.cfg) 1
        (octetCountStart link) ∧
      (octetCountStart link).stateDaedr = .daedrx0 ∧
      (octetCountStart link).rOctetCountingMode = true := by
  have begun : Counting link.rOctetBitCount (suerms link) (octetsPerSuerm link.cfg) 0
      { link with rOctetCountingMode := true, rOctetCountingCount := 0 } :=
    ⟨rfl, small, calls, rfl, (Nat.zero_mod _).symm, by simp [suerms, octetsCounted]⟩
  have counted := octetCountInc_counting begun
  have starts := octetCountStart_state link
  exact ⟨⟨counted.limit, counted.small, counted.calls, counted.bits, counted.count,
    counted.suerms⟩, starts.1, starts.2.1⟩

/-- A bit without a flag and without an abort is counted, and the receiver goes on hunting. -/
theorem plainBit_counting {start told per n : Nat} {link : Link} {bit : Bool}
    (counting : Counting start told per n link) (state : link.stateDaedr = .daedrx0)
    (mode : link.rOctetCountingMode = true) (plain : plainBit link bit) :
    Counting start told per (n + 1) (rxBitToSu link bit) ∧
      (rxBitToSu link bit).stateDaedr = .daedrx0 ∧
      (rxBitToSu link bit).rOctetCountingMode = true := by
  have ticked := (octetCountInc_ticked link).1
  have counted := octetCountInc_counting counting
  have step : rxBitToSu link bit = shiftFlagAccum (octetCountInc link) bit := by
    have accum : (shiftFlagAccum (octetCountInc link) bit).rFlagAccum =
        (link.rFlagAccum >>> 1) ||| rxBit bit := by
      rw [shiftFlagAccum, ticked.accum]
    simp only [rxBitToSu, state, daedrx0, octetCountMode, mode, if_true, openCheckFlag, accum,
      if_neg plain.1, if_neg plain.2]
  rw [step]
  exact ⟨⟨counted.limit, counted.small, counted.calls, counted.bits, counted.count,
    counted.suerms⟩, ticked.state.trans state, ticked.mode.trans mode⟩

theorem feed_counting (bits : List Bool) (link : Link) {start told per n : Nat}
    (counting : Counting start told per n link) (state : link.stateDaedr = .daedrx0)
    (mode : link.rOctetCountingMode = true) (plain : Along rxStep plainBit link bits) :
    Counting start told per (n + bits.length) (feed link bits) := by
  induction bits generalizing link n with
  | nil => exact counting
  | cons bit bits ih =>
      rcases plainBit_counting counting state mode plain.1 with ⟨next, hunting, on⟩
      have rest := ih _ next hunting on (plain.2 _ rfl)
      have total : n + (bit :: bits).length = n + 1 + bits.length := by
        rw [List.length_cons]
        omega
      rw [total]
      exact rest

/-- While the counter does not wrap, seven bits are left out at most. -/
theorem octetsCounted_eq (start n : Nat) (range : start + n < 2 ^ 32) :
    octetsCounted start n = n + min start 7 - 7 := by
  induction n with
  | zero =>
      rw [octetsCounted]
      omega
  | succ n ih =>
      have total : (start + n + 1) % 2 ^ 32 = start + n + 1 := Nat.mod_eq_of_lt (by omega)
      rw [octetsCounted, ih (by omega), total]
      split <;> omega

/-- The bits of octet counting: those of the octet that `octet_count_start` leaves open, and `k`
more. -/
def countedBits (link : Link) (k : Nat) : Nat := k + min (link.rOctetBitCount + 1) 8

theorem div_agree_iff (bits per : Nat) (some_ : 0 < per) :
    (bits - 7) / per = bits / (8 * per) ↔ bits ≤ per + 6 ∨ per = 1 ∧ bits = 8 := by
  constructor
  · intro same
    by_contra other
    have past : per + 7 ≤ bits := by omega
    have ones : per = 1 → bits ≠ 8 := by omega
    -- the quotient by `per` is one at least, and then it is larger
    have first : 1 ≤ (bits - 7) / per := (Nat.one_le_div_iff some_).mpr (by omega)
    have low := Nat.div_mul_le_self bits (8 * per)
    have high := Nat.lt_div_mul_add (a := bits - 7) some_
    rw [same] at first high
    generalize bits / (8 * per) = q at first low high
    have expand : q * (8 * per) = 8 * (q * per) := by rw [Nat.mul_left_comm]
    have step : per ≤ q * per := Nat.le_mul_of_pos_left per first
    omega
  · rintro (few | ⟨rfl, rfl⟩)
    · rw [Nat.div_eq_of_lt (by omega), Nat.div_eq_of_lt (by omega)]
    · rfl

/-- From `octet_count_start` on, `k` bits without a flag and without an abort call `rx_suerm` once
for every `param_N` calls of `octet_count_inc` behind the first seven bits. That is once for every
`param_N` octets exactly when the bits are few. -/
theorem mtp1_octet_counting (link : Link) (small : link.cfg.paramN < 2 ^ 32)
    (calls : link.reg.rxSuerm = true) (bits : List Bool)
    (plain : Along rxStep plainBit (octetCountStart link) bits) :
    suerms (feed (octetCountStart link) bits) = suerms link +
        octetsCounted link.rOctetBitCount (1 + bits.length) / octetsPerSuerm link.cfg ∧
      (link.rOctetBitCount + 1 + bits.length < 2 ^ 32 →
        (suerms (feed (octetCountStart link) bits) = suerms link +
            countedBits link bits.length / (8 * octetsPerSuerm link.cfg) ↔
          countedBits link bits.length ≤ octetsPerSuerm link.cfg + 6 ∨
            octetsPerSuerm link.cfg = 1 ∧ countedBits link bits.length = 8)) := by
  rcases octetCountStart_counting link small calls with ⟨counting, state, mode⟩
  have law := (feed_counting bits _ counting state mode plain).suerms
  refine ⟨law, fun range => ?_⟩
  have some_ : 0 < octetsPerSuerm link.cfg := Nat.le_max_left 1 _
  have octets : octetsCounted link.rOctetBitCount (1 + bits.length) =
      countedBits link bits.length - 7 := by
    rw [octetsCounted_eq _ _ (by omega), countedBits]
    omega
  rw [law, octets, Nat.add_left_cancel_iff]
  exact div_agree_iff _ _ some_

def countReg : Reg := ⟨true, true, false, ⟨.hdlc8Bit, .bit0First, 16, 280⟩⟩

/-- A line of ones up to the call of `octet_count_start`. -/
def beforeCounting (link : Link) : Link :=
  suAccept (shiftFlagAccum (feed link (List.replicate 6 true)) true) (1 <<< abortErrorBit)

theorem mtp1_octet_counting_few :
    ∃ link, wpMtp1Register countReg = some link ∧
      feed link (List.replicate 7 true) = octetCountStart (beforeCounting link) ∧
      suerms (feed (octetCountStart (beforeCounting link)) (List.replicate 21 true)) =
        suerms (beforeCounting link) +
          countedBits (beforeCounting link) 21 /
            (8 * octetsPerSuerm (beforeCounting link).cfg) := by
  have quiet : ∃ link, wpMtp1Register countReg = some link ∧
      feed link (List.replicate 7 true) = octetCountStart (beforeCounting link) ∧
      (beforeCounting link).cfg.paramN = 16 ∧ (beforeCounting link).reg.rxSuerm = true ∧
      (beforeCounting link).rOctetBitCount = 0 ∧
      Along rxStep plainBit (octetCountStart (beforeCounting link)) (List.replicate 21 true) :=
    ⟨_, rfl, rfl, by decide +kernel, by decide +kernel, by decide +kernel, by decide +kernel⟩
  rcases quiet with ⟨link, registered, entered, sixteen, calls, none_, plain⟩
  have law := mtp1_octet_counting (beforeCounting link) (by rw [sixteen]; decide) calls
    (List.replicate 21 true) plain
  refine ⟨link, registered, entered, (law.2 (by rw [none_]; decide)).mpr (Or.inl ?_)⟩
  rw [countedBits, none_, octetsPerSuerm, sixteen]
  decide

/-- With `param_N` at 16, 128 ones behind the abort call `rx_suerm` seven times. -/
theorem mtp1_octet_counting_fast :
    ∃ link, wpMtp1Register countReg = some link ∧
      feed link (List.replicate 7 true) = octetCountStart (beforeCounting link) ∧
      Along rxStep plainBit (octetCountStart (beforeCounting link)) (List.replicate 128 true) ∧
      suerms (feed (octetCountStart (beforeCounting link)) (List.replicate 128 true)) =
        suerms (beforeCounting link) + 7 ∧
      countedBits (beforeCounting link) 128 /
        (8 * octetsPerSuerm (beforeCounting link).cfg) = 1 :=
  ⟨_, rfl, rfl, by decide +kernel, by decide +kernel, by decide +kernel⟩

end Wanpipe.Mtp1
