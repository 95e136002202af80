import Wanpipe.Mtp1.Collected
import Wanpipe.Mtp1.Loopback

/-! The bounds of the receive buffer. `DAEDRX_2` stores one octet behind `max_mru` octets before it
turns a signal unit away. -/

namespace Wanpipe.Mtp1

open Line Runs

theorem storesAt_index {link : Link} {i : Nat} (stores : storesAt link = some i) :
    i = link.rxBuf.length ∧ i ≤ link.cfg.maxMru := by
  cases state : link.stateDaedr with
  | daedrx2 =>
      cases daedrx2_collect link false state with
      | bail _ _ _ none_ => simp [stores] at none_
      | overflow _ _ _ none_ => simp [stores] at none_
      | check _ _ checked => exact checked.index i stores
  | init => simp [storesAt, state] at stores
  | daedrx0 => simp [storesAt, state] at stores
  | daedrx1 => simp [storesAt, state] at stores

/-- Neither `rx_buf` nor a unit handed up is longer than `bound`. -/
structure Within (bound : Nat) (link : Link) : Prop where
  rxBuf : link.rxBuf.length ≤ bound
  handed : ∀ call ∈ handed link, 3 ≤ call.1.length ∧ call.1.length ≤ bound

theorem held_within {bound : Nat} {link : Link} (within : link.rxBuf.length ≤ bound)
    (stores : ∀ i, storesAt link = some i → i < bound) : (held link).length ≤ bound := by
  unfold held
  split
  · rename_i i stored
    have index := (storesAt_index stored).1
    have below := stores i stored
    rw [List.length_append, List.length_singleton]
    omega
  · exact within

theorem rxBitToSu_within {bound : Nat} {link : Link} (bit : Bool) (within : Within bound link)
    (stores : ∀ i, storesAt link = some i → i < bound) : Within bound (rxBitToSu link bit) := by
  have passed := rxBitToSu_passed link bit
  have short := held_within within.rxBuf stores
  constructor
  · rcases passed.rxBuf with same | clear
    · rw [same]
      exact short
    · rw [clear]
      exact Nat.zero_le bound
  · intro call member
    rcases passed.handed with same | ⟨errCode, more⟩
    · rw [same] at member
      exact within.handed call member
    · rw [more, List.mem_append] at member
      rcases member with old | new
      · exact within.handed call old
      · rw [told] at new
        split at new
        · rename_i long
          rw [List.mem_singleton] at new
          rw [new]
          exact ⟨long.2, short⟩
        · contradiction

theorem run_within {bound : Nat} {link : Link} {bits : List Bool} (within : Within bound link)
    (stores : Along rxStep (fun link _ => ∀ i, storesAt link = some i → i < bound) link bits) :
    Within bound (feed link bits) := by
  have steps : ∀ (link : Link) (bit : Bool), Within bound link →
      (∀ i, storesAt link = some i → i < bound) → Within bound (rxBitToSu link bit) :=
    fun _ bit kept below => rxBitToSu_within bit kept below
  exact Along.fold steps within stores

theorem feed_append_handed (link : Link) (bits : List Bool) :
    ∃ more, handed (feed link bits) = handed link ++ more := by
  induction bits generalizing link with
  | nil => exact ⟨[], (List.append_nil _).symm⟩
  | cons bit bits ih =>
      rcases ih (rxBitToSu link bit) with ⟨later, rest⟩
      rcases (rxBitToSu_passed link bit).handed with same | ⟨errCode, more⟩
      · exact ⟨later, by rw [feed_cons, rest, same]⟩
      · exact ⟨_, by rw [feed_cons, rest, more, List.append_assoc]⟩

theorem mem_handed {link : Link} {octets : List Octet} {errCode : Nat} :
    (octets, errCode) ∈ handed link ↔ Indication.rxData octets errCode ∈ link.indications := by
  rw [handed, List.mem_filterMap]
  constructor
  · rintro ⟨indication, member, unit⟩
    cases indication with
    | rxData data code =>
        simp only [Indication.unit, Option.some.injEq, Prod.mk.injEq] at unit
        rwa [← unit.1, ← unit.2]
    | rxSuerm => simp [Indication.unit] at unit
  · exact fun member => ⟨_, member, rfl⟩

/-- Any bits of a line octet's width are an octet's. -/
theorem rxOctetBits_onto (cfg : Cfg) (bits : List Bool) (full : bits.length = cfg.hdlcOpMode.width) :
    ∃ octet, rxOctetBits cfg octet = bits := by
  have eight (used : List Bool) (size : used.length = 8) :
      octetBits (octetOf used) = used := octetBits_octetOf used size
  have seven (used : List Bool) (size : used.length = 7) :
      (octetBits (octetOf used)).take 7 = used := by
    rw [octetBits_octetOf_take used 7 (by omega) (by omega), List.take_of_length_le (by omega)]
  cases mode : cfg.hdlcOpMode <;> simp only [mode, OpMode.width] at full <;>
    cases order : cfg.hdlcBitEndian <;> simp only [rxOctetBits, mode, order]
  · exact ⟨_, eight bits full⟩
  · refine ⟨octetOf bits.reverse, ?_⟩
    rw [eight _ (by rw [List.length_reverse, full]), List.reverse_reverse]
  · exact ⟨_, seven bits full⟩
  · refine ⟨octetOf bits.reverse, ?_⟩
    rw [seven _ (by rw [List.length_reverse, full]), List.reverse_reverse]

theorem rxOctetBits_pack (cfg : Cfg) (n : Nat) (bits : List Bool)
    (full : bits.length = n * cfg.hdlcOpMode.width) :
    ∃ data : List Octet, data.flatMap (rxOctetBits cfg) = bits := by
  induction n generalizing bits with
  | zero =>
      rw [Nat.zero_mul] at full
      exact ⟨[], (List.eq_nil_of_length_eq_zero full).symm⟩
  | succ n ih =>
      rw [Nat.succ_mul] at full
      rcases rxOctetBits_onto cfg (bits.take (cfg.hdlcOpMode.width))
        (by rw [List.length_take]; omega) with ⟨octet, first⟩
      rcases ih (bits.drop (cfg.hdlcOpMode.width)) (by rw [List.length_drop]; omega) with ⟨data, rest⟩
      refine ⟨octet :: data, ?_⟩
      rw [List.flatMap_cons, first, rest, List.take_append_drop]

/-- Every line of bits comes in some stream of octets, padded at its end. -/
theorem rxOctetBits_stream (cfg : Cfg) (bits : List Bool) :
    ∃ (data : List Octet) (pad : List Bool), data.flatMap (rxOctetBits cfg) = bits ++ pad := by
  have wide : 0 < cfg.hdlcOpMode.width := by
    cases cfg.hdlcOpMode <;> decide
  let pad := List.replicate (bits.length * cfg.hdlcOpMode.width - bits.length) false
  have more : bits.length ≤ bits.length * cfg.hdlcOpMode.width := Nat.le_mul_of_pos_right _ wide
  rcases rxOctetBits_pack cfg bits.length (bits ++ pad)
    (by rw [List.length_append, List.length_replicate]; omega) with ⟨data, spelled⟩
  exact ⟨data, pad, spelled⟩

/-- The writes stay inside `rx_buf`, and no unit above `max_mru` is handed up as good. -/
structure Bounded (link : Link) (data : List Octet) : Prop where
  stores : Along rxStep (fun link _ => ∀ i, storesAt link = some i → i < rxBufSize) link
    (data.flatMap (rxOctetBits link.cfg))
  units : ∀ octets, Indication.rxData octets 0 ∈ (wpMtp1RxHandler link data).indications →
    octets.length ≤ link.cfg.maxMru

/-- No octet is completed behind `max_mru` octets. -/
def NeverOverruns (link : Link) (data : List Octet) : Prop :=
  Along rxStep (fun link _ => storesAt link ≠ some link.cfg.maxMru) link
    (data.flatMap (rxOctetBits link.cfg))

theorem registered_bounds (reg : Reg) (link : Link) (registered : wpMtp1Register reg = some link) :
    0 < link.cfg.maxMru ∧ link.cfg.maxMru ≤ rxBufSize ∧ ∀ bound, Within bound link := by
  unfold wpMtp1Register at registered
  split at registered
  · contradiction
  · rename_i some_
    rw [Option.some.injEq] at registered
    subst registered
    have size : 0 < rxBufSize := by decide
    refine ⟨?_, Nat.min_le_right _ _, fun bound => ⟨Nat.zero_le bound, by simp [handed]⟩⟩
    exact Nat.lt_min.mpr ⟨Nat.pos_of_ne_zero some_, size⟩

/-- A step condition that knows the configuration the run starts with. -/
theorem along_cfg {wanted allowed : Link → Prop} {link : Link} {bits : List Bool}
    (gives : ∀ later, later.cfg = link.cfg → allowed later → wanted later)
    (along : Along rxStep (fun link _ => allowed link) link bits) :
    Along rxStep (fun link _ => wanted link) link bits := by
  refine @Along.strengthen Link Bool rxStep _ _ (fun later => later.cfg = link.cfg) link bits
    ?_ ?_ rfl along
  · intro later bit next same _ moved
    rw [rxStep, Option.some.injEq] at moved
    rw [← moved]
    exact (rxBitToSu_configured ⟨rfl, rfl⟩ bit).cfg.trans same
  · exact fun later _ same allowed => gives later same allowed

theorem never_overruns_stores {link : Link} {data : List Octet} (never : NeverOverruns link data) :
    Along rxStep (fun link' _ => ∀ i, storesAt link' = some i → i < link.cfg.maxMru) link
      (data.flatMap (rxOctetBits link.cfg)) := by
  refine along_cfg ?_ never
  intro later same overruns i stores
  have index := (storesAt_index stores).2
  rw [same] at index overruns
  refine Nat.lt_of_le_of_ne index ?_
  rintro rfl
  exact overruns stores

theorem always_stores (link : Link) (bits : List Bool) :
    Along rxStep (fun link' _ => ∀ i, storesAt link' = some i → i < link.cfg.maxMru + 1) link
      bits := by
  have always : Along rxStep (fun _ _ => True) link bits :=
    Along.of_forall link bits fun _ _ => trivial
  refine along_cfg ?_ always
  intro later same _ i stores
  have index := (storesAt_index stores).2
  rw [same] at index
  exact Nat.lt_succ_of_le index

theorem always_within {link : Link} (start : Within (link.cfg.maxMru + 1) link)
    (data : List Octet) : Within (link.cfg.maxMru + 1) (wpMtp1RxHandler link data) := by
  rw [wpMtp1RxHandler_feed]
  exact run_within start (always_stores link _)

/-- Some stream has a unit of `max_mru + 1` octets handed up as good. -/
theorem long_unit_told (reg : Reg) (link : Link) (registered : wpMtp1Register reg = some link)
    (calls : link.reg.rxData = true) (some_ : 2 ≤ link.cfg.maxMru) :
    ∃ data octets, octets.length = link.cfg.maxMru + 1 ∧
      Indication.rxData octets 0 ∈ (wpMtp1RxHandler link data).indications := by
  rcases registered_fresh reg link registered with ⟨fresh, _⟩
  rcases first_flag link fresh with ⟨synced, silent, _⟩
  let plain : List Octet := List.replicate (link.cfg.maxMru - 1) 0
  let octets := plain ++ fcsOctets plain
  have size : octets.length = link.cfg.maxMru + 1 := by
    rw [List.length_append, fcsOctets_length, List.length_replicate]
    omega
  have received := (su_received octets (by omega) (by rw [silent.cfg, size])
    (fcs_residue plain) (by rw [silent.reg]; exact calls) synced).2.2.2.1
  rcases rxOctetBits_stream link.cfg (flag ++ (stuff 0 (lineBits octets) ++ flag)) with
    ⟨data, pad, spelled⟩
  refine ⟨data, octets, size, ?_⟩
  rw [wpMtp1RxHandler_feed, spelled, feed_append, feed_append, ← mem_handed]
  rcases feed_append_handed (feed (feed link flag) (stuff 0 (lineBits octets) ++ flag)) pad with
    ⟨more, later⟩
  rw [later]
  apply List.mem_append_left
  rw [mem_handed, received]
  simp

theorem stores_bounded_iff {link : Link} (capped : link.cfg.maxMru ≤ rxBufSize)
    (data : List Octet) :
    Along rxStep (fun link _ => ∀ i, storesAt link = some i → i < rxBufSize) link
        (data.flatMap (rxOctetBits link.cfg)) ↔
      link.cfg.maxMru < rxBufSize ∨ NeverOverruns link data := by
  constructor
  · intro inside
    rcases Nat.lt_or_eq_of_le capped with below | full
    · exact Or.inl below
    · refine Or.inr (along_cfg ?_ inside)
      intro later same below overruns
      have past := below _ overruns
      rw [same, full] at past
      exact Nat.lt_irrefl _ past
  · rintro (below | never)
    · refine along_cfg ?_ (always_stores link _)
      intro later _ short i stores
      exact Nat.lt_of_lt_of_le (short i stores) below
    · refine along_cfg ?_ (never_overruns_stores never)
      intro later _ short i stores
      exact Nat.lt_of_lt_of_le (short i stores) capped

/-- A stream that never completes an octet behind `max_mru` octets keeps both bounds. The writes
stay inside the buffer exactly when it does so or `max_mru` is below `RX_BUF_SIZE`, and with a
receiver for the units every stream keeps both bounds only when `max_mru` is 1. -/
theorem mtp1_rx_bounded (reg : Reg) (link : Link) (registered : wpMtp1Register reg = some link) :
    (∀ data, NeverOverruns link data → Bounded link data) ∧
      (∀ data, Along rxStep (fun link _ => ∀ i, storesAt link = some i → i < rxBufSize) link
          (data.flatMap (rxOctetBits link.cfg)) ↔
        link.cfg.maxMru < rxBufSize ∨ NeverOverruns link data) ∧
      (link.reg.rxData = true → ((∀ data, Bounded link data) ↔ link.cfg.maxMru = 1)) := by
  rcases registered_bounds reg link registered with ⟨some_, capped, start⟩
  refine ⟨?_, stores_bounded_iff capped, ?_⟩
  · intro data never
    refine ⟨(stores_bounded_iff capped data).mpr (Or.inr never), ?_⟩
    intro octets good
    rw [wpMtp1RxHandler_feed, ← mem_handed] at good
    exact ((run_within (start _) (never_overruns_stores never)).handed _ good).2
  · intro calls
    constructor
    · intro bounded
      by_contra other
      rcases long_unit_told reg link registered calls (by omega) with ⟨data, octets, size, good⟩
      have short := (bounded data).units octets good
      omega
    · intro one data
      have small : link.cfg.maxMru < rxBufSize := by
        rw [one]
        decide
      refine ⟨(stores_bounded_iff capped data).mpr (Or.inl small), ?_⟩
      intro octets good
      rw [← mem_handed] at good
      have size := (always_within (start _) data).handed _ good
      simp only [one] at size
      omega

def shortMru : Reg := ⟨true, true, false, ⟨.hdlc8Bit, .bit0First, 16, 2⟩⟩

def fullMru : Reg := ⟨true, true, false, ⟨.hdlc8Bit, .bit0First, 16, 8192⟩⟩

theorem mtp1_rx_bounded_short :
    ∃ link, wpMtp1Register shortMru = some link ∧ Bounded link [0x7e#8, 0x41#8, 0x7e#8] := by
  have never : ∃ link, wpMtp1Register shortMru = some link ∧
      NeverOverruns link [0x7e#8, 0x41#8, 0x7e#8] := ⟨_, rfl, by unfold NeverOverruns; decide +kernel⟩
  rcases never with ⟨link, registered, never⟩
  exact ⟨link, registered, (mtp1_rx_bounded shortMru link registered).1 _ never⟩

/-- A unit of three octets is handed up as good although `max_mru` is 2, and with `max_mru` at
`RX_BUF_SIZE` some stream writes behind `rx_buf`. -/
theorem mtp1_rx_overrun :
    (∃ link, wpMtp1Register shortMru = some link ∧ link.cfg.maxMru = 2 ∧
      (wpMtp1RxHandler link ([0x7e#8, 0x00#8] ++ fcsOctets [0x00#8] ++ [0x7e#8])).indications =
        [.rxData ([0x00#8] ++ fcsOctets [0x00#8]) 0]) ∧
      ∃ link data, wpMtp1Register fullMru = some link ∧ ¬ Bounded link data ∧
        ¬ Along rxStep (fun link _ => ∀ i, storesAt link = some i → i < rxBufSize) link
          (data.flatMap (rxOctetBits link.cfg)) := by
  refine ⟨⟨_, rfl, rfl, by decide +kernel⟩, ?_⟩
  have registered : ∃ link, wpMtp1Register fullMru = some link ∧ link.reg.rxData = true ∧
      link.cfg.maxMru = rxBufSize := ⟨_, rfl, rfl, by decide⟩
  rcases registered with ⟨link, registered, calls, full⟩
  rcases registered_bounds fullMru link registered with ⟨_, _, start⟩
  rcases long_unit_told fullMru link registered calls (by rw [full]; decide) with
    ⟨data, octets, size, good⟩
  have outside : ¬ Along rxStep (fun link _ => ∀ i, storesAt link = some i → i < rxBufSize) link
      (data.flatMap (rxOctetBits link.cfg)) := by
    intro inside
    rw [wpMtp1RxHandler_feed, ← mem_handed] at good
    have short := ((run_within (start rxBufSize) inside).handed _ good).2
    simp only [size, full] at short
    omega
  exact ⟨link, data, registered, fun bounded => outside bounded.stores, outside⟩

end Wanpipe.Mtp1
