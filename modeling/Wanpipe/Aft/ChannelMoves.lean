import Mathlib.Data.Bool.Basic
import Mathlib.Tactic.IntervalCases
import Wanpipe.Aft.Channels

/-! What configuring a channel and taking it back do to the maps and tables of the card. -/

namespace Wanpipe.Aft.Channels

open Bitmap

theorem numOfTimeSlots_le (cfg : Cfg) : cfg.numOfTimeSlots ≤ 32 := by
  unfold Cfg.numOfTimeSlots
  cases cfg.media <;> decide

/-! ## Looking through the time slots -/

theorem slotTurn_shape (card : Card) (chan : Chan) (i : Nat) :
    ∃ first last, (slotTurn card chan i).1 = { chan with firstTimeSlot := first, lastTimeSlot := last } := by
  unfold slotTurn
  split
  · exact ⟨_, _, rfl⟩
  · exact ⟨chan.firstTimeSlot, chan.lastTimeSlot, rfl⟩

theorem slotLoop_shape (card : Card) (slots : List Nat) (chan : Chan) :
    ∃ first last,
      (slotLoop card slots chan).1 = { chan with firstTimeSlot := first, lastTimeSlot := last } := by
  induction slots generalizing chan with
  | nil => exact ⟨chan.firstTimeSlot, chan.lastTimeSlot, rfl⟩
  | cons i slots hyp =>
    obtain ⟨first, last, shape⟩ := slotTurn_shape card chan i
    unfold slotLoop
    split
    · rename_i next turned
      rw [turned] at shape
      exact ⟨first, last, shape⟩
    · rename_i next turned
      rw [turned] at shape
      obtain ⟨first', last', shape'⟩ := hyp next
      refine ⟨first', last', ?_⟩
      rw [shape']
      simp only at shape
      rw [shape]

/-- The slots are all free when the loop gets through, and it then has the first of them. -/
theorem slotLoop_through {card : Card} {slots : List Nat} {chan : Chan}
    (through : (slotLoop card slots chan).2 = false) :
    (∀ i ∈ slots, chan.timeSlotMap.getLsbD i = true → card.timeSlotMap.getLsbD i = false) ∧
      (slotLoop card slots chan).1.firstTimeSlot =
        chan.firstTimeSlot.or (slots.find? chan.timeSlotMap.getLsbD) := by
  induction slots generalizing chan with
  | nil => exact ⟨fun _ found => absurd found List.not_mem_nil, (Option.or_none).symm⟩
  | cons i slots hyp =>
    obtain ⟨first, last, shape⟩ := slotTurn_shape card chan i
    unfold slotLoop at through ⊢
    split at through
    · cases through
    · rename_i next turned
      have free : slotTurn card chan i = (next, false) := turned
      rw [turned] at shape
      simp only at shape
      obtain ⟨rest, found⟩ := hyp through
      have map : next.timeSlotMap = chan.timeSlotMap := by rw [shape]
      refine ⟨?_, ?_⟩
      · intro j member has
        rcases List.mem_cons.mp member with rfl | member
        · unfold slotTurn at free
          rw [if_pos has] at free
          exact (Prod.mk.inj free).2
        · exact rest j member (by rw [map]; exact has)
      · rw [found, map, List.find?_cons]
        unfold slotTurn at free
        cases has : chan.timeSlotMap.getLsbD i with
        | false =>
          rw [has] at free
          rw [← (Prod.mk.inj free).1]
        | true =>
          rw [has] at free
          rw [← (Prod.mk.inj free).1]
          cases chan.firstTimeSlot <;> rfl

theorem slotLoop_stops {card : Card} {slots : List Nat} {chan : Chan}
    (stops : (slotLoop card slots chan).2 = true) :
    ∃ i ∈ slots, chan.timeSlotMap.getLsbD i = true ∧ card.timeSlotMap.getLsbD i = true := by
  induction slots generalizing chan with
  | nil => cases stops
  | cons i slots hyp =>
    obtain ⟨first, last, shape⟩ := slotTurn_shape card chan i
    unfold slotLoop at stops
    split at stops
    · rename_i next turned
      unfold slotTurn at turned
      split at turned
      · rename_i has
        exact ⟨i, List.mem_cons_self, has, (Prod.mk.inj turned).2⟩
      · cases turned
    · rename_i next turned
      rw [turned] at shape
      simp only at shape
      obtain ⟨j, member, has, used⟩ := hyp stops
      rw [shape] at has
      exact ⟨j, List.mem_cons_of_mem _ member, has, used⟩

/-! ## Blocks of fifo memory -/

/-- A block of fifo units: a power of two of them, at a multiple of their number. -/
structure Block (size base : Nat) : Prop where
  pow : ∃ exp ≤ 5, size = 1 <<< exp
  aligned : base % size = 0
  inside : base + size ≤ 32

theorem Block.pos {size base : Nat} (block : Block size base) : 0 < size := by
  obtain ⟨exp, small, same⟩ := block.pow
  interval_cases exp <;> subst same <;> decide

/-- The code is one less than the size. -/
theorem codeOf_block {size base : Nat} (block : Block size base) : codeOf size = some (size - 1) := by
  obtain ⟨exp, small, same⟩ := block.pow
  interval_cases exp <;> subst same <;> rfl

def Free (map : BitVec 32) (size base : Nat) : Prop :=
  ∀ u, base ≤ u → u < base + size → map.getLsbD u = false

theorem free_iff {map : BitVec 32} {size base : Nat} :
    map &&& (mask 32 size <<< base) = 0#32 ↔ Free map size base := by
  rw [and_eq_zero_iff]
  constructor
  · intro apart u low high
    cases has : map.getLsbD u with
    | false => rfl
    | true =>
      have missed := apart u has
      rw [getLsbD_block] at missed
      have small : u < 32 := BitVec.lt_of_getLsbD has
      simp only [small, low, high, decide_true, Bool.and_self] at missed
      cases missed
  · intro free u has
    rw [getLsbD_block]
    by_cases inside : base ≤ u ∧ u < base + size
    · rw [free u inside.1 inside.2] at has
      cases has
    · simp only [Bool.and_eq_false_imp, Bool.and_eq_true, decide_eq_true_eq, decide_eq_false_iff_not]
      omega

theorem mem_bases {exp base : Nat} (small : exp ≤ 5) :
    base ∈ (List.range (32 / (1 <<< exp))).map (· * (1 <<< exp)) ↔ Block (1 <<< exp) base := by
  rw [List.mem_map]
  constructor
  · rintro ⟨i, member, rfl⟩
    have bound := List.mem_range.mp member
    refine ⟨⟨exp, small, rfl⟩, Nat.mul_mod_left _ _, ?_⟩
    have whole : (32 / (1 <<< exp)) * (1 <<< exp) = 32 := by interval_cases exp <;> rfl
    calc
      i * (1 <<< exp) + 1 <<< exp = (i + 1) * (1 <<< exp) := (Nat.succ_mul _ _).symm
      _ ≤ (32 / (1 <<< exp)) * (1 <<< exp) := Nat.mul_le_mul_right _ bound
      _ = 32 := whole
  · intro block
    have pos := block.pos
    refine ⟨base / (1 <<< exp), List.mem_range.mpr ?_, ?_⟩
    · exact Nat.div_lt_div_of_lt_of_dvd (by interval_cases exp <;> decide)
        (by have := block.inside; omega)
    · exact Nat.div_mul_cancel (Nat.dvd_of_mod_eq_zero block.aligned)

theorem bases_sorted {exp : Nat} (small : exp ≤ 5) :
    ((List.range (32 / (1 <<< exp))).map (· * (1 <<< exp))).Pairwise (· < ·) := by
  have pos : 0 < 1 <<< exp := by interval_cases exp <;> decide
  exact List.pairwise_lt_range.map _ fun _ _ less => Nat.mul_lt_mul_of_pos_right less pos

theorem freeBase_some {map : BitVec 32} {exp base : Nat} (small : exp ≤ 5)
    (found : freeBase map exp = some base) :
    Block (1 <<< exp) base ∧ Free map (1 <<< exp) base ∧
      ∀ base' < base, Block (1 <<< exp) base' → ¬ Free map (1 <<< exp) base' := by
  unfold freeBase at found
  obtain ⟨fits, before, behind, split, missed⟩ := List.find?_eq_some_iff_append.mp found
  refine ⟨(mem_bases small).mp (List.mem_of_find?_eq_some found), free_iff.mp (beq_iff_eq.mp fits), ?_⟩
  intro base' less block' free
  have member := (mem_bases small).mpr block'
  have sorted := bases_sorted small
  rw [split] at member sorted
  rcases List.mem_append.mp member with member | member
  · have misses := missed base' member
    rw [beq_iff_eq.mpr (free_iff.mpr free)] at misses
    cases misses
  · obtain ⟨_, sorted, _⟩ := List.pairwise_append.mp sorted
    rcases List.mem_cons.mp member with rfl | member
    · omega
    · have more := (List.pairwise_cons.mp sorted).1 base' member
      omega

theorem freeBase_none {map : BitVec 32} {exp : Nat} (small : exp ≤ 5)
    (none : freeBase map exp = none) (base : Nat) (block : Block (1 <<< exp) base) :
    ¬ Free map (1 <<< exp) base := by
  intro free
  unfold freeBase at none
  have misses := List.find?_eq_none.mp none base ((mem_bases small).mpr block)
  exact misses (beq_iff_eq.mpr (free_iff.mpr free))

theorem exp_of_le {exp exp' : Nat} (small : exp ≤ 5) (small' : exp' ≤ 5)
    (le : 1 <<< exp' ≤ 1 <<< exp) : exp' ≤ exp := by
  interval_cases exp <;> interval_cases exp' <;> first | decide | (exfalso; revert le; decide)

/-- The block is the largest one that is free, of those no larger than the one asked for. -/
theorem aftMapFifoBaddrAndSize_some {map map' : BitVec 32} {exp size base : Nat} (small : exp ≤ 5)
    (found : aftMapFifoBaddrAndSize map exp = some (size, base, map')) :
    Block size base ∧ Free map size base ∧ map' = map ||| (mask 32 size <<< base) ∧
      size ≤ 1 <<< exp ∧
      (∀ size' base', Block size' base' → size < size' → size' ≤ 1 <<< exp →
        ¬ Free map size' base') ∧
      ∀ base' < base, Block size base' → ¬ Free map size base' := by
  induction exp with
  | zero =>
    unfold aftMapFifoBaddrAndSize at found
    split at found
    · rename_i place fits
      obtain ⟨rfl, rfl, rfl⟩ : 1 <<< 0 = size ∧ place = base ∧ _ = map' := by
        simpa only [Option.some.injEq, Prod.mk.injEq] using found
      obtain ⟨block, free, first⟩ := freeBase_some small fits
      exact ⟨block, free, rfl, Nat.le_refl _, fun _ _ _ more less => absurd more (by omega), first⟩
    · cases found
  | succ exp hyp =>
    unfold aftMapFifoBaddrAndSize at found
    split at found
    · rename_i place fits
      obtain ⟨rfl, rfl, rfl⟩ : 1 <<< (exp + 1) = size ∧ place = base ∧ _ = map' := by
        simpa only [Option.some.injEq, Prod.mk.injEq] using found
      obtain ⟨block, free, first⟩ := freeBase_some small fits
      exact ⟨block, free, rfl, Nat.le_refl _, fun _ _ _ more less => absurd more (by omega), first⟩
    · rename_i missed
      obtain ⟨block, free, same, less, largest, first⟩ := hyp (by omega) found
      have double : 1 <<< (exp + 1) = 2 * (1 <<< exp) := by
        simp only [Nat.shiftLeft_eq, Nat.pow_succ]; omega
      refine ⟨block, free, same, by omega, ?_, first⟩
      intro size' base' block' more below
      obtain ⟨exp', small', rfl⟩ := block'.pow
      rcases Nat.lt_or_ge exp exp' with above | under
      · have equal : exp' = exp + 1 := by
          have := exp_of_le small small' below
          omega
        subst equal
        exact freeBase_none small missed base' block'
      · refine largest _ base' block' more ?_
        simp only [Nat.shiftLeft_eq, one_mul]
        exact Nat.pow_le_pow_right (by omega) under

theorem aftMapFifoBaddrAndSize_none {map : BitVec 32} {exp : Nat} (small : exp ≤ 5)
    (none : aftMapFifoBaddrAndSize map exp = none) (u : Nat) (inside : u < 32) :
    map.getLsbD u = true := by
  induction exp with
  | zero =>
    unfold aftMapFifoBaddrAndSize at none
    split at none
    · cases none
    · rename_i missed
      have block : Block (1 <<< 0) u := ⟨⟨0, by omega, rfl⟩, Nat.mod_one u, inside⟩
      have taken := freeBase_none small missed u block
      cases has : map.getLsbD u with
      | true => rfl
      | false =>
        refine absurd (fun v low high => ?_) taken
        have same : v = u := by
          have one : 1 <<< 0 = 1 := rfl
          omega
        rw [same]
        exact has
  | succ exp hyp =>
    unfold aftMapFifoBaddrAndSize at none
    split at none
    · cases none
    · exact hyp (by omega) none

theorem reqFifoSize_le {cfg : Cfg} {slots exp : Nat} (asked : reqFifoSize cfg slots = some exp) :
    exp ≤ 5 := by
  have sizes : ∀ {b : Bool} {n : Nat} {o : Option Nat}, n ≤ 5 → (o = some exp → exp ≤ 5) →
      (if b then some n else o) = some exp → exp ≤ 5 := by
    intro b n o small rest same
    cases b with
    | true => cases same; exact small
    | false => exact rest same
  unfold reqFifoSize at asked
  cases media : cfg.media with
  | serial =>
    rw [media] at asked
    cases asked
    decide
  | t1 =>
    rw [media] at asked
    refine sizes (by decide) (sizes (by decide) (sizes (by decide) (sizes (by decide)
      (sizes (by decide) (sizes (by decide) ?_))))) asked
    intro none
    cases none
  | e1 | fiftySixK =>
    rw [media] at asked
    refine sizes (by decide) (sizes (by decide) (sizes (by decide) (sizes (by decide)
      (sizes (by decide) (sizes (by decide) (sizes (by decide) ?_)))))) asked
    intro none
    cases none

/-- What a request for fifo memory that is met gives the channel. -/
theorem requestFifoBaddrAndSize_met {cfg : Cfg} {card card' : Card} {chan chan' : Chan}
    (met : requestFifoBaddrAndSize cfg card chan = (card', chan', true)) :
    ∃ exp size base, reqFifoSize cfg chan.numOfTimeSlots = some exp ∧ Block size base ∧
      Free card.fifoAddrMap size base ∧ base ≠ 31 ∧ size ≤ 1 <<< exp ∧
      (∀ size' base', Block size' base' → size < size' → size' ≤ 1 <<< exp →
        ¬ Free card.fifoAddrMap size' base') ∧
      card' = { card with fifoAddrMap := card.fifoAddrMap ||| (mask 32 size <<< base) } ∧
      chan' = { chan with fifoBaseAddr := base, fifoSizeCode := size - 1, fifoSize := size } := by
  unfold requestFifoBaddrAndSize at met
  cases asked : reqFifoSize cfg chan.numOfTimeSlots with
  | none => rw [asked] at met; cases met
  | some exp =>
    rw [asked] at met
    simp only at met
    cases mapped : aftMapFifoBaddrAndSize card.fifoAddrMap exp with
    | none => rw [mapped] at met; cases met
    | some found =>
      obtain ⟨size, base, map⟩ := found
      rw [mapped] at met
      simp only at met
      obtain ⟨block, free, same, less, largest, _⟩ :=
        aftMapFifoBaddrAndSize_some (reqFifoSize_le asked) mapped
      cases last : base == 31 with
      | true => rw [if_pos last] at met; cases met
      | false =>
        rw [if_neg (by rw [last]; decide)] at met
        obtain ⟨rfl, rfl, -⟩ : _ = card' ∧ _ = chan' ∧ _ := by
          simpa only [Prod.mk.injEq] using met
        refine ⟨exp, size, base, rfl, block, free, beq_eq_false_iff_ne.mp last, less, largest, ?_, ?_⟩
        · rw [same]
        · rw [codeOf_block block]; rfl

/-- A request that is not met may take a unit that nobody gets: the last one, with all others in use. -/
theorem requestFifoBaddrAndSize_refused {cfg : Cfg} {card card' : Card} {chan chan' : Chan}
    (refused : requestFifoBaddrAndSize cfg card chan = (card', chan', false)) :
    (∃ map, card' = { card with fifoAddrMap := map } ∧
        ∀ u, card.fifoAddrMap.getLsbD u = true → map.getLsbD u = true) ∧
      (∃ base, chan' = { chan with fifoBaseAddr := base }) ∧
      (reqFifoSize cfg chan.numOfTimeSlots = none ∨ ∀ u < 31, card.fifoAddrMap.getLsbD u = true) := by
  unfold requestFifoBaddrAndSize at refused
  cases asked : reqFifoSize cfg chan.numOfTimeSlots with
  | none =>
    rw [asked] at refused
    obtain ⟨rfl, rfl, -⟩ : _ = card' ∧ _ = chan' ∧ _ := by simpa only [Prod.mk.injEq] using refused
    exact ⟨⟨card.fifoAddrMap, rfl, fun _ has => has⟩, ⟨chan.fifoBaseAddr, rfl⟩, .inl rfl⟩
  | some exp =>
    rw [asked] at refused
    simp only at refused
    have small := reqFifoSize_le asked
    cases mapped : aftMapFifoBaddrAndSize card.fifoAddrMap exp with
    | none =>
      rw [mapped] at refused
      obtain ⟨rfl, rfl, -⟩ : _ = card' ∧ _ = chan' ∧ _ := by simpa only [Prod.mk.injEq] using refused
      exact ⟨⟨card.fifoAddrMap, rfl, fun _ has => has⟩, ⟨chan.fifoBaseAddr, rfl⟩,
        .inr fun u inside => aftMapFifoBaddrAndSize_none small mapped u (by omega)⟩
    | some found =>
      obtain ⟨size, base, map⟩ := found
      rw [mapped] at refused
      simp only at refused
      obtain ⟨block, free, same, less, largest, first⟩ := aftMapFifoBaddrAndSize_some small mapped
      cases last : base == 31 with
      | false =>
        rw [if_neg (by rw [last]; decide)] at refused
        cases refused
      | true =>
        rw [if_pos last] at refused
        obtain ⟨rfl, rfl, -⟩ : _ = card' ∧ _ = chan' ∧ _ := by
          simpa only [Prod.mk.injEq] using refused
        refine ⟨⟨map, rfl, fun u has => ?_⟩, ⟨base, rfl⟩, .inr fun u inside => ?_⟩
        · rw [same, BitVec.getLsbD_or, has]
          rfl
        · have at31 : base = 31 := beq_iff_eq.mp last
          have one : size = 1 := by
            have pos := block.pos
            have fits := block.inside
            omega
          cases has : card.fifoAddrMap.getLsbD u with
          | true => rfl
          | false =>
            refine absurd (fun v low high => ?_)
              (first u (by omega) ⟨block.pow, by rw [one]; exact Nat.mod_one u, by omega⟩)
            have equal : v = u := by omega
            rw [equal]
            exact has

/-! ## Logical channels -/

def raisedTop (top logicCh : Nat) : Nat := if top ≤ logicCh then logicCh else top

def raisedMax (top max logicCh : Nat) : Nat :=
  if top ≤ logicCh then if max < logicCh then logicCh % 32 else max else max

/-- Raising the top logical channel to one that was handed out. -/
theorem raised_eq (card : Card) (logicCh : Nat) :
    (if card.topLogicCh ≤ logicCh then aftDmaMaxLogicCh { card with topLogicCh := logicCh } else card) =
      { card with
        topLogicCh := raisedTop card.topLogicCh logicCh
        maxLogicCh := raisedMax card.topLogicCh card.maxLogicCh logicCh } := by
  unfold raisedTop raisedMax aftDmaMaxLogicCh
  split
  · split <;> rfl
  · rfl

/-- What a request for a logical channel that is met does. -/
structure Met (cfg : Cfg) (card card' : Card) (chan chan' : Chan) (logicCh : Nat) : Prop where
  free : ∀ i < cfg.numOfTimeSlots, chan.timeSlotMap.getLsbD i = true →
    card.timeSlotMap.getLsbD i = false
  inside : logicCh < cfg.numOfTimeSlots
  unused : card.logicChMap.getLsbD logicCh = false
  block : Block chan'.fifoSize chan'.fifoBaseAddr
  units : Free card.fifoAddrMap chan'.fifoSize chan'.fifoBaseAddr
  sized : ∃ exp, reqFifoSize cfg chan.numOfTimeSlots = some exp ∧ chan'.fifoSize ≤ 1 <<< exp ∧
    ∀ size base, Block size base → chan'.fifoSize < size → size ≤ 1 <<< exp →
      ¬ Free card.fifoAddrMap size base
  same : chan' =
    { chan with
      firstTimeSlot := chan'.firstTimeSlot, lastTimeSlot := chan'.lastTimeSlot
      fifoSize := chan'.fifoSize, fifoSizeCode := chan'.fifoSize - 1
      fifoBaseAddr := chan'.fifoBaseAddr }
  first : chan'.firstTimeSlot =
    chan.firstTimeSlot.or ((List.range cfg.numOfTimeSlots).find? chan.timeSlotMap.getLsbD)
  after : card' =
    { card with
      fifoAddrMap := card.fifoAddrMap ||| (mask 32 chan'.fifoSize <<< chan'.fifoBaseAddr)
      logicChMap := setBit card.logicChMap logicCh
      devToChMap := Function.update card.devToChMap logicCh (some chan.addr)
      topLogicCh := raisedTop card.topLogicCh logicCh
      maxLogicCh := raisedMax card.topLogicCh card.maxLogicCh logicCh }

theorem aftRequestLogicalChannelNum_met {cfg : Cfg} {card card' : Card} {chan chan' : Chan}
    {logicCh : Nat}
    (met : aftRequestLogicalChannelNum cfg card chan = (card', chan', some logicCh)) :
    Met cfg card card' chan chan' logicCh := by
  unfold aftRequestLogicalChannelNum at met
  cases through : slotLoop card (List.range cfg.numOfTimeSlots) chan with
  | mk found stops =>
  rw [through] at met
  cases stops with
  | true => cases met
  | false =>
  simp only at met
  have shape := slotLoop_shape card (List.range cfg.numOfTimeSlots) chan
  have looked := @slotLoop_through card (List.range cfg.numOfTimeSlots) chan (by rw [through])
  rw [through] at shape looked
  obtain ⟨first, last, rfl⟩ := shape
  obtain ⟨free, firstIs⟩ := looked
  cases asked : requestFifoBaddrAndSize cfg card
      { chan with firstTimeSlot := first, lastTimeSlot := last } with
  | mk card1 more =>
  obtain ⟨chan1, ok⟩ := more
  rw [asked] at met
  cases ok with
  | false => cases met
  | true =>
  simp only at met
  obtain ⟨exp, size, base, wanted, block, units, low, less, largest, rfl, rfl⟩ :=
    requestFifoBaddrAndSize_met asked
  split at met
  · cases met
  · rename_i i found
    have inside := List.mem_range.mp (List.mem_of_find?_eq_some found)
    have unused : card.logicChMap.getLsbD i = false := by
      have both := List.find?_some found
      rw [Bool.and_eq_true, Bool.not_eq_true', Bool.not_eq_true'] at both
      exact both.2
    split at met
    · cases met
    · have facts :
          Met cfg card
            { card with
              fifoAddrMap := card.fifoAddrMap ||| (mask 32 size <<< base)
              logicChMap := setBit card.logicChMap i
              devToChMap := Function.update card.devToChMap i (some chan.addr)
              topLogicCh := raisedTop card.topLogicCh i
              maxLogicCh := raisedMax card.topLogicCh card.maxLogicCh i } chan
            { chan with
              firstTimeSlot := first, lastTimeSlot := last, fifoBaseAddr := base
              fifoSizeCode := size - 1, fifoSize := size } i :=
        { free := fun j below => free j (List.mem_range.mpr below)
          inside := inside
          unused := unused
          block := block
          units := units
          sized := ⟨exp, wanted, less, largest⟩
          same := rfl
          first := firstIs
          after := rfl }
      have top := raised_eq
        { card with
          fifoAddrMap := card.fifoAddrMap ||| (mask 32 size <<< base)
          logicChMap := setBit card.logicChMap i
          devToChMap := Function.update card.devToChMap i (some chan.addr) } i
      split at met
      · rename_i above
        rw [if_pos above] at top
        obtain ⟨rfl, rfl, rfl⟩ : _ = card' ∧ _ = chan' ∧ i = logicCh := by
          simpa only [Prod.mk.injEq, Option.some.injEq] using met
        exact top ▸ facts
      · rename_i below
        rw [if_neg below] at top
        obtain ⟨rfl, rfl, rfl⟩ : _ = card' ∧ _ = chan' ∧ i = logicCh := by
          simpa only [Prod.mk.injEq, Option.some.injEq] using met
        exact top ▸ facts

/-- Why a request is refused, and what is left of it: at most a unit of fifo memory. -/
theorem aftRequestLogicalChannelNum_refused {cfg : Cfg} {card card' : Card} {chan chan' : Chan}
    (agrees : ∀ l, card.logicChMap.getLsbD l = false → card.devToChMap l = none)
    (refused : aftRequestLogicalChannelNum cfg card chan = (card', chan', none)) :
    (∃ map, card' = { card with fifoAddrMap := map } ∧
        ∀ u, card.fifoAddrMap.getLsbD u = true → map.getLsbD u = true) ∧
      chan' =
        { chan with
          firstTimeSlot := chan'.firstTimeSlot, lastTimeSlot := chan'.lastTimeSlot
          fifoSize := chan'.fifoSize, fifoSizeCode := chan'.fifoSizeCode
          fifoBaseAddr := chan'.fifoBaseAddr } ∧
      (card' = card ∧ (∃ i < cfg.numOfTimeSlots, chan.timeSlotMap.getLsbD i = true ∧
          card.timeSlotMap.getLsbD i = true) ∨
        (∀ i < cfg.numOfTimeSlots, chan.timeSlotMap.getLsbD i = true →
          card.timeSlotMap.getLsbD i = false) ∧
        (reqFifoSize cfg chan.numOfTimeSlots = none ∨
          (∀ u < 31, card.fifoAddrMap.getLsbD u = true) ∨
          ∀ l < cfg.numOfTimeSlots, cfg.securityId = 0 ∨ card.logicChMap.getLsbD l = true)) := by
  unfold aftRequestLogicalChannelNum at refused
  have shape := slotLoop_shape card (List.range cfg.numOfTimeSlots) chan
  cases through : slotLoop card (List.range cfg.numOfTimeSlots) chan with
  | mk found stops =>
  rw [through] at refused shape
  obtain ⟨first, last, rfl⟩ := shape
  cases stops with
  | true =>
    obtain ⟨rfl, rfl, -⟩ : _ = card' ∧ _ = chan' ∧ _ := by simpa only [Prod.mk.injEq] using refused
    obtain ⟨i, member, has, used⟩ :=
      @slotLoop_stops card (List.range cfg.numOfTimeSlots) chan (by rw [through])
    exact ⟨⟨card.fifoAddrMap, rfl, fun _ has => has⟩, rfl,
      .inl ⟨rfl, i, List.mem_range.mp member, has, used⟩⟩
  | false =>
  simp only at refused
  have free := (@slotLoop_through card (List.range cfg.numOfTimeSlots) chan (by rw [through])).1
  have free' := fun i below => free i (List.mem_range.mpr below)
  cases asked : requestFifoBaddrAndSize cfg card
      { chan with firstTimeSlot := first, lastTimeSlot := last } with
  | mk card1 more =>
  obtain ⟨chan1, ok⟩ := more
  rw [asked] at refused
  cases ok with
  | false =>
    obtain ⟨rfl, rfl, -⟩ : _ = card' ∧ _ = chan' ∧ _ := by simpa only [Prod.mk.injEq] using refused
    obtain ⟨kept, ⟨base, rfl⟩, why⟩ := requestFifoBaddrAndSize_refused asked
    exact ⟨kept, rfl, .inr ⟨free', why.imp_right .inl⟩⟩
  | true =>
  simp only at refused
  obtain ⟨exp, size, base, wanted, block, units, low, less, largest, rfl, rfl⟩ :=
    requestFifoBaddrAndSize_met asked
  split at refused
  · rename_i none
    obtain ⟨rfl, rfl, -⟩ : _ = card' ∧ _ = chan' ∧ _ := by simpa only [Prod.mk.injEq] using refused
    refine ⟨⟨_, rfl, fun u has => by rw [BitVec.getLsbD_or, has]; rfl⟩, rfl,
      .inr ⟨free', .inr (.inr fun l below => ?_)⟩⟩
    have misses := List.find?_eq_none.mp none l (List.mem_range.mpr below)
    rw [Bool.and_eq_true, not_and_or] at misses
    rcases misses with kept | used
    · left
      rw [Bool.not_eq_true', Bool.not_eq_false] at kept
      unfold keptForHdlc at kept
      exact beq_iff_eq.mp ((Bool.and_eq_true _ _).mp kept).1
    · right
      simpa only [Bool.not_eq_true', Bool.not_eq_false] using used
  · rename_i i found
    have unused : card.logicChMap.getLsbD i = false := by
      have both := List.find?_some found
      rw [Bool.and_eq_true, Bool.not_eq_true', Bool.not_eq_true'] at both
      exact both.2
    split at refused
    · rename_i taken
      have nobody : card.devToChMap i = none := agrees i unused
      rw [show (Option.isSome _ = true) = (Option.isSome (card.devToChMap i) = true) from rfl,
        nobody] at taken
      cases taken
    · split at refused <;> cases refused

/-! ## The control RAM -/

theorem updates_apply {α β : Type} [DecidableEq α] (change : α → β → β) {places : List α}
    (once : places.Nodup) (table : α → β) (x : α) :
    places.foldl (fun table i => Function.update table i (change i (table i))) table x =
      if x ∈ places then change x (table x) else table x := by
  induction places generalizing table with
  | nil => rfl
  | cons i places hyp =>
    obtain ⟨fresh, once⟩ := List.nodup_cons.mp once
    rw [List.foldl_cons, hyp once]
    by_cases equal : x = i
    · subst equal
      rw [if_neg fresh, if_pos List.mem_cons_self, Function.update_self]
    · simp only [List.mem_cons, equal, false_or, Function.update_of_ne equal]

/-- The channel's own time slots, of those the card has. -/
def Chan.slots (cfg : Cfg) (chan : Chan) : List Nat :=
  (List.range cfg.numOfTimeSlots).filter chan.timeSlotMap.getLsbD

theorem mem_slots {cfg : Cfg} {chan : Chan} {i : Nat} :
    i ∈ chan.slots cfg ↔ i < cfg.numOfTimeSlots ∧ chan.timeSlotMap.getLsbD i = true := by
  rw [Chan.slots, List.mem_filter, List.mem_range]

theorem slots_nodup (cfg : Cfg) (chan : Chan) : (chan.slots cfg).Nodup :=
  List.nodup_range.filter _

theorem configSlots (slots : List Nat) (chan : Chan) (logicCh : Nat) (card : Card) :
    slots.foldl (configSlot chan logicCh) card =
      { card with
        timeSlotMap := (slots.filter chan.timeSlotMap.getLsbD).foldl setBit card.timeSlotMap
        ctrlRam :=
          (slots.filter chan.timeSlotMap.getLsbD).foldl
            (fun ram i => Function.update ram i (slotEntry chan logicCh i (ram i))) card.ctrlRam } := by
  induction slots generalizing card with
  | nil => rfl
  | cons i slots hyp =>
    rw [List.foldl_cons, hyp, List.filter_cons]
    unfold configSlot
    split <;> rfl

theorem resetSlots (slots : List Nat) (chan : Chan) (card : Card) :
    slots.foldl (resetSlot chan) card =
      { card with
        ctrlRam :=
          (slots.filter chan.timeSlotMap.getLsbD).foldl
            (fun ram i => Function.update ram i freeEntry) card.ctrlRam } := by
  induction slots generalizing card with
  | nil => rfl
  | cons i slots hyp =>
    rw [List.foldl_cons, hyp, List.filter_cons]
    unfold resetSlot
    split <;> rfl

theorem freeSlots (slots : List Nat) (chan : Chan) (card : Card) :
    slots.foldl (freeSlot chan) card =
      { card with
        timeSlotMap := (slots.filter chan.timeSlotMap.getLsbD).foldl clearBit card.timeSlotMap } := by
  induction slots generalizing card with
  | nil => rfl
  | cons i slots hyp =>
    rw [List.foldl_cons, hyp, List.filter_cons]
    unfold freeSlot
    split <;> rfl

/-! ## Configuring a channel and taking it back -/

/-- The card once a channel is configured on a logical channel. -/
def granted (cfg : Cfg) (card : Card) (chan : Chan) (logicCh : Nat) : Card :=
  { card with
    fifoAddrMap := card.fifoAddrMap ||| (mask 32 chan.fifoSize <<< chan.fifoBaseAddr)
    logicChMap := setBit card.logicChMap logicCh
    devToChMap := Function.update card.devToChMap logicCh (some chan.addr)
    topLogicCh := raisedTop card.topLogicCh logicCh
    maxLogicCh := raisedMax card.topLogicCh card.maxLogicCh logicCh
    timeSlotMap := (chan.slots cfg).foldl setBit card.timeSlotMap
    ctrlRam :=
      (chan.slots cfg).foldl
        (fun ram i => Function.update ram i (slotEntry chan logicCh i (ram i))) card.ctrlRam
    dmaRam := Function.update card.dmaRam logicCh (dmaEntry chan)
    tdmvCnt := if chan.globalIrqCfg then aftLcfgTdmvCntInc card.tdmvCnt else card.tdmvCnt
    tdmLogicChMap :=
      if chan.globalIrqCfg then setBit card.tdmLogicChMap logicCh else card.tdmLogicChMap }

/-- What a channel that is configured gets: time slots, a logical channel and fifo units that nobody
had. -/
structure Granted (cfg : Cfg) (card : Card) (chan chan' : Chan) (logicCh : Nat) : Prop where
  free : ∀ i ∈ chan.slots cfg, card.timeSlotMap.getLsbD i = false
  inside : logicCh < cfg.numOfTimeSlots
  unused : card.logicChMap.getLsbD logicCh = false
  block : Block chan'.fifoSize chan'.fifoBaseAddr
  units : Free card.fifoAddrMap chan'.fifoSize chan'.fifoBaseAddr
  sized : ∃ exp, reqFifoSize cfg chan.numOfTimeSlots = some exp ∧ chan'.fifoSize ≤ 1 <<< exp ∧
    ∀ size base, Block size base → chan'.fifoSize < size → size ≤ 1 <<< exp →
      ¬ Free card.fifoAddrMap size base
  same : chan' =
    { chan with
      firstTimeSlot := chan'.firstTimeSlot, lastTimeSlot := chan'.lastTimeSlot
      logicChNum := some logicCh, fifoSize := chan'.fifoSize, fifoSizeCode := chan'.fifoSize - 1
      fifoBaseAddr := chan'.fifoBaseAddr }
  first : chan'.firstTimeSlot = chan.firstTimeSlot.or (chan.slots cfg).head?

theorem granted_of_met {cfg : Cfg} {card card' : Card} {chan chan' : Chan} {logicCh : Nat}
    (met : Met cfg card card' chan chan' logicCh) :
    Granted cfg card chan { chan' with logicChNum := some logicCh } logicCh := by
  refine ⟨?_, met.inside, met.unused, met.block, met.units, met.sized, ?_, ?_⟩
  · intro i member
    obtain ⟨inside, has⟩ := mem_slots.mp member
    exact met.free i inside has
  · rw [met.same]
  · rw [Chan.slots, List.head?_filter]
    exact met.first

theorem a104ChanDevConfig_granted {cfg : Cfg} {card card' : Card} {chan chan' : Chan}
    (done : a104ChanDevConfig cfg card chan = (card', chan', true)) :
    ∃ logicCh, Granted cfg card chan chan' logicCh ∧ card' = granted cfg card chan' logicCh := by
  unfold a104ChanDevConfig at done
  split at done
  · cases done
  · rename_i card1 chan1 logicCh asked
    have met := aftRequestLogicalChannelNum_met asked
    obtain ⟨rfl, rfl, -⟩ : _ = card' ∧ _ = chan' ∧ _ := by simpa only [Prod.mk.injEq] using done
    refine ⟨logicCh, granted_of_met met, ?_⟩
    rw [met.after, configSlots]
    have addr : chan1.addr = chan.addr := by rw [met.same]
    unfold a104ChanDevConfigTdmv granted
    cases irq : ({ chan1 with logicChNum := some logicCh } : Chan).globalIrqCfg with
    | false =>
      rw [if_neg Bool.false_ne_true, if_neg Bool.false_ne_true, if_neg Bool.false_ne_true, addr]
      rfl
    | true =>
      rw [if_pos rfl, if_pos rfl, if_pos rfl, addr]
      rfl

/-- A channel that is refused changes nothing of the card but, at most, a unit of fifo memory. -/
structure Refused (cfg : Cfg) (card card' : Card) (chan chan' : Chan) : Prop where
  after : ∃ map, card' = { card with fifoAddrMap := map } ∧
    ∀ u, card.fifoAddrMap.getLsbD u = true → map.getLsbD u = true
  same : chan' =
    { chan with
      firstTimeSlot := chan'.firstTimeSlot, lastTimeSlot := chan'.lastTimeSlot
      fifoSize := chan'.fifoSize, fifoSizeCode := chan'.fifoSizeCode
      fifoBaseAddr := chan'.fifoBaseAddr }
  why : (card' = card ∧ ∃ i ∈ chan.slots cfg, card.timeSlotMap.getLsbD i = true) ∨
    (∀ i ∈ chan.slots cfg, card.timeSlotMap.getLsbD i = false) ∧
      (reqFifoSize cfg chan.numOfTimeSlots = none ∨ (∀ u < 31, card.fifoAddrMap.getLsbD u = true) ∨
        ∀ l < cfg.numOfTimeSlots, cfg.securityId = 0 ∨ card.logicChMap.getLsbD l = true)

theorem a104ChanDevConfig_refused {cfg : Cfg} {card card' : Card} {chan chan' : Chan}
    (agrees : ∀ l, card.logicChMap.getLsbD l = false → card.devToChMap l = none)
    (done : a104ChanDevConfig cfg card chan = (card', chan', false)) :
    Refused cfg card card' chan chan' := by
  unfold a104ChanDevConfig at done
  split at done
  · rename_i card1 chan1 asked
    obtain ⟨rfl, rfl, -⟩ : _ = card' ∧ _ = chan' ∧ _ := by simpa only [Prod.mk.injEq] using done
    obtain ⟨after, same, why⟩ := aftRequestLogicalChannelNum_refused agrees asked
    refine ⟨after, same, why.imp ?_ ?_⟩
    · rintro ⟨equal, i, inside, has, used⟩
      exact ⟨equal, i, mem_slots.mpr ⟨inside, has⟩, used⟩
    · rintro ⟨free, reason⟩
      refine ⟨fun i member => ?_, reason⟩
      obtain ⟨inside, has⟩ := mem_slots.mp member
      exact free i inside has
  · cases done

def freedTop (cfg : Cfg) (table : Nat → Option Nat) (top logicCh : Nat) : Nat :=
  if top ≤ logicCh then
    (List.range cfg.numOfTimeSlots).foldl (fun top i => if (table i).isSome then i else top)
      aftDefltActiveCh
  else top

def freedMax (top max : Nat) : Nat := if max < top then top % 32 else max

/-- The card once a channel was taken back. -/
def freed (cfg : Cfg) (card : Card) (chan : Chan) (logicCh : Nat) : Card :=
  let table := Function.update card.devToChMap logicCh none
  { card with
    fifoAddrMap := card.fifoAddrMap &&& ~~~(mask 32 chan.fifoSize <<< chan.fifoBaseAddr)
    logicChMap := clearBit card.logicChMap logicCh
    devToChMap := table
    topLogicCh := freedTop cfg table card.topLogicCh logicCh
    maxLogicCh :=
      if card.topLogicCh ≤ logicCh then
        freedMax (freedTop cfg table card.topLogicCh logicCh) card.maxLogicCh
      else card.maxLogicCh
    timeSlotMap := (chan.slots cfg).foldl clearBit card.timeSlotMap
    ctrlRam := (chan.slots cfg).foldl (fun ram i => Function.update ram i freeEntry) card.ctrlRam
    dmaRam :=
      Function.update card.dmaRam logicCh
        { card.dmaRam logicCh with fifoBase := 0x1F, fifoSize := 0 }
    tdmvCnt := if chan.globalIrqCfg then aftLcfgTdmvCntDec card.tdmvCnt else card.tdmvCnt
    tdmLogicChMap :=
      if chan.globalIrqCfg then clearBit card.tdmLogicChMap logicCh else card.tdmLogicChMap }

theorem aftFreeLogicalChannelNum_eq (cfg : Cfg) (card : Card) (logicCh : Nat) :
    aftFreeLogicalChannelNum cfg card logicCh =
      let table := Function.update card.devToChMap logicCh none
      { card with
        logicChMap := clearBit card.logicChMap logicCh
        devToChMap := table
        topLogicCh := freedTop cfg table card.topLogicCh logicCh
        maxLogicCh :=
          if card.topLogicCh ≤ logicCh then
            freedMax (freedTop cfg table card.topLogicCh logicCh) card.maxLogicCh
          else card.maxLogicCh } := by
  unfold aftFreeLogicalChannelNum freedTop freedMax aftDmaMaxLogicCh
  by_cases above : card.topLogicCh ≤ logicCh
  · simp only [if_pos above]
    split <;> rfl
  · simp only [if_neg above]

theorem a104ChanDevUnconfig_eq {chan : Chan} {logicCh : Nat} (has : chan.logicChNum = some logicCh)
    (cfg : Cfg) (card : Card) :
    (a104ChanDevUnconfig cfg card chan).1 = freed cfg card chan logicCh := by
  unfold a104ChanDevUnconfig freed
  rw [has]
  simp only [resetSlots, aftFreeLogicalChannelNum_eq, aftFreeFifoBaddrAndSize, freeSlots]
  cases irq : chan.globalIrqCfg with
  | false =>
    have same : ({ chan with fifoSize := 0, fifoBaseAddr := 0 } : Chan).globalIrqCfg = false := irq
    rw [same]
    rfl
  | true =>
    have same : ({ chan with fifoSize := 0, fifoBaseAddr := 0 } : Chan).globalIrqCfg = true := irq
    rw [same]
    rfl

theorem a104ChanDevUnconfig_none {chan : Chan} (none : chan.logicChNum = none) (cfg : Cfg)
    (card : Card) : a104ChanDevUnconfig cfg card chan = (card, chan) := by
  unfold a104ChanDevUnconfig
  rw [none]

end Wanpipe.Aft.Channels
