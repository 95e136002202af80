import Wanpipe.Aft.ChannelMoves

/-! No two channels of a card share a time slot, a fifo unit or a logical channel, and the card's tables
say whose each of them is. -/

namespace Wanpipe.Aft.Channels

open Bitmap

def Chan.has (chan : Chan) (u : Nat) : Prop :=
  chan.fifoBaseAddr ≤ u ∧ u < chan.fifoBaseAddr + chan.fifoSize

/-- The card's maps and tables are those of its configured channels. -/
structure Mapped (cfg : Cfg) (card : Card) (chans : List Chan) : Prop where
  slots : ∀ i, card.timeSlotMap.getLsbD i = true ↔
    ∃ chan ∈ chans, chan.logicChNum.isSome = true ∧ i ∈ chan.slots cfg
  slotOnce : ∀ chan ∈ chans, ∀ other ∈ chans, chan.logicChNum.isSome = true →
    other.logicChNum.isSome = true → ∀ i ∈ chan.slots cfg, i ∈ other.slots cfg → chan = other
  logic : ∀ l, card.logicChMap.getLsbD l = true ↔ ∃ chan ∈ chans, chan.logicChNum = some l
  logicOnce : ∀ chan ∈ chans, ∀ other ∈ chans, ∀ l, chan.logicChNum = some l →
    other.logicChNum = some l → chan = other
  logicLt : ∀ chan ∈ chans, ∀ l, chan.logicChNum = some l → l < cfg.numOfTimeSlots
  table : ∀ l addr, card.devToChMap l = some addr ↔
    ∃ chan ∈ chans, chan.logicChNum = some l ∧ chan.addr = addr
  blocks : ∀ chan ∈ chans, chan.logicChNum.isSome = true →
    Block chan.fifoSize chan.fifoBaseAddr ∧ chan.fifoSizeCode = chan.fifoSize - 1
  units : ∀ chan ∈ chans, chan.logicChNum.isSome = true → ∀ u, chan.has u →
    card.fifoAddrMap.getLsbD u = true
  unitOnce : ∀ chan ∈ chans, ∀ other ∈ chans, chan.logicChNum.isSome = true →
    other.logicChNum.isSome = true → ∀ u, chan.has u → other.has u → chan = other
  ram : ∀ chan ∈ chans, ∀ l, chan.logicChNum = some l → ∀ i ∈ chan.slots cfg,
    card.ctrlRam i = slotEntry chan l i freeEntry
  idle : ∀ i, card.timeSlotMap.getLsbD i = false → card.ctrlRam i = freeEntry
  dma : ∀ chan ∈ chans, ∀ l, chan.logicChNum = some l → card.dmaRam l = dmaEntry chan
  tdm : ∀ l, card.tdmLogicChMap.getLsbD l = true ↔
    ∃ chan ∈ chans, chan.logicChNum = some l ∧ chan.globalIrqCfg = true
  top : ∀ chan ∈ chans, ∀ l, chan.logicChNum = some l → l ≤ card.topLogicCh
  topMax : card.topLogicCh ≤ card.maxLogicCh
  topLt : card.topLogicCh < cfg.numOfTimeSlots

section Preserved

variable {cfg : Cfg} {card : Card} {chans : List Chan}

theorem Mapped.agrees (mapped : Mapped cfg card chans) (l : Nat)
    (unused : card.logicChMap.getLsbD l = false) : card.devToChMap l = none := by
  cases found : card.devToChMap l with
  | none => rfl
  | some addr =>
    obtain ⟨chan, member, has, -⟩ := (mapped.table l addr).mp found
    rw [(mapped.logic l).mpr ⟨chan, member, has⟩] at unused
    cases unused

theorem Mapped.unmapped (mapped : Mapped cfg card chans) {chan : Chan}
    (none : chan.logicChNum = none) : Mapped cfg card (chans ++ [chan]) := by
  have rest : ∀ other ∈ chans ++ [chan], ∀ l, other.logicChNum = some l → other ∈ chans := by
    intro other member l has
    rcases List.mem_append.mp member with member | member
    · exact member
    · rw [List.mem_singleton.mp member, none] at has
      cases has
  have rest' : ∀ other ∈ chans ++ [chan], other.logicChNum.isSome = true → other ∈ chans := by
    intro other member has
    obtain ⟨l, has⟩ := Option.isSome_iff_exists.mp has
    exact rest other member l has
  have more : ∀ {p : Chan → Prop}, (∀ other, p other → other ∈ chans ++ [chan] → other ∈ chans) →
      ((∃ other ∈ chans ++ [chan], p other) ↔ ∃ other ∈ chans, p other) := by
    intro p only
    constructor
    · rintro ⟨other, member, holds⟩
      exact ⟨other, only other holds member, holds⟩
    · rintro ⟨other, member, holds⟩
      exact ⟨other, List.mem_append_left _ member, holds⟩
  refine
    { slots := fun i => (mapped.slots i).trans (more fun other holds member => ?_).symm
      slotOnce := fun c hc d hd some some' =>
        mapped.slotOnce c (rest' c hc some) d (rest' d hd some') some some'
      logic := fun l => (mapped.logic l).trans (more fun other holds member => ?_).symm
      logicOnce := fun c hc d hd l has has' =>
        mapped.logicOnce c (rest c hc l has) d (rest d hd l has') l has has'
      logicLt := fun c hc l has => mapped.logicLt c (rest c hc l has) l has
      table := fun l addr => (mapped.table l addr).trans (more fun other holds member => ?_).symm
      blocks := fun c hc some => mapped.blocks c (rest' c hc some) some
      units := fun c hc some => mapped.units c (rest' c hc some) some
      unitOnce := fun c hc d hd some some' =>
        mapped.unitOnce c (rest' c hc some) d (rest' d hd some') some some'
      ram := fun c hc l has => mapped.ram c (rest c hc l has) l has
      idle := mapped.idle
      dma := fun c hc l has => mapped.dma c (rest c hc l has) l has
      tdm := fun l => (mapped.tdm l).trans (more fun other holds member => ?_).symm
      top := fun c hc l has => mapped.top c (rest c hc l has) l has
      topMax := mapped.topMax
      topLt := mapped.topLt }
  · exact rest' other member holds.1
  · exact rest other member l holds
  · exact rest other member l holds.1
  · exact rest other member l holds.1

/-- A unit of fifo memory may be lost: nothing else is said of the map but that it has the channels'. -/
theorem Mapped.lost (mapped : Mapped cfg card chans) {map : BitVec 32}
    (more : ∀ u, card.fifoAddrMap.getLsbD u = true → map.getLsbD u = true) :
    Mapped cfg { card with fifoAddrMap := map } chans :=
  { mapped with units := fun chan member some u has => more u (mapped.units chan member some u has) }

theorem Granted.fields {chan chan' : Chan} {logicCh : Nat}
    (grant : Granted cfg card chan chan' logicCh) :
    chan'.addr = chan.addr ∧ chan'.slots cfg = chan.slots cfg ∧ chan'.logicChNum = some logicCh ∧
      chan'.fifoSizeCode = chan'.fifoSize - 1 ∧ chan'.dev = chan.dev ∧ chan'.hdlcEng = chan.hdlcEng := by
  have same := grant.same
  refine ⟨?_, ?_, ?_, ?_, ?_, ?_⟩ <;> (rw [same]; try rfl)

theorem granted_slot {chan : Chan} (logicCh i : Nat) :
    (granted cfg card chan logicCh).timeSlotMap.getLsbD i = true ↔
      card.timeSlotMap.getLsbD i = true ∨ i ∈ chan.slots cfg := by
  have bits := getLsbD_setBits (chan.slots cfg) card.timeSlotMap i
  have inside : i ∈ chan.slots cfg → i < 32 := fun member =>
    Nat.lt_of_lt_of_le (mem_slots.mp member).1 (numOfTimeSlots_le cfg)
  rw [show (granted cfg card chan logicCh).timeSlotMap = (chan.slots cfg).foldl setBit card.timeSlotMap
    from rfl, bits]
  simp only [Bool.or_eq_true, Bool.and_eq_true, decide_eq_true_eq]
  exact or_congr_right ⟨And.right, fun member => ⟨inside member, member⟩⟩

theorem granted_ram {chan : Chan} (logicCh i : Nat) :
    (granted cfg card chan logicCh).ctrlRam i =
      if i ∈ chan.slots cfg then slotEntry chan logicCh i (card.ctrlRam i) else card.ctrlRam i :=
  updates_apply (slotEntry chan logicCh) (slots_nodup cfg chan) card.ctrlRam i

theorem granted_unit {chan : Chan} (block : Block chan.fifoSize chan.fifoBaseAddr) (logicCh u : Nat) :
    (granted cfg card chan logicCh).fifoAddrMap.getLsbD u = true ↔
      card.fifoAddrMap.getLsbD u = true ∨ chan.has u := by
  rw [show (granted cfg card chan logicCh).fifoAddrMap =
      card.fifoAddrMap ||| (mask 32 chan.fifoSize <<< chan.fifoBaseAddr) from rfl,
    BitVec.getLsbD_or, getLsbD_block]
  have inside := block.inside
  simp only [Bool.or_eq_true, Bool.and_eq_true, decide_eq_true_eq, Chan.has]
  constructor
  · rintro (old | ⟨⟨_, low⟩, high⟩)
    exacts [.inl old, .inr ⟨low, high⟩]
  · rintro (old | ⟨low, high⟩)
    exacts [.inl old, .inr ⟨⟨by omega, low⟩, high⟩]

/-- A channel that is granted what it asks for keeps to what the others leave. -/
theorem Mapped.granted (mapped : Mapped cfg card chans) {chan chan' : Chan} {logicCh : Nat}
    (grant : Granted cfg card chan chan' logicCh) :
    Mapped cfg (granted cfg card chan' logicCh) (chans ++ [chan']) := by
  obtain ⟨addr, slots, logic, code, -, -⟩ := grant.fields
  have small : logicCh < 32 := Nat.lt_of_lt_of_le grant.inside (numOfTimeSlots_le cfg)
  have mem : ∀ {c}, c ∈ chans ++ [chan'] ↔ c ∈ chans ∨ c = chan' := by
    intro c
    rw [List.mem_append, List.mem_singleton]
  have some : chan'.logicChNum.isSome = true := by rw [logic]; rfl
  -- what a channel had before is not what the new one gets
  have slotNew : ∀ c ∈ chans, c.logicChNum.isSome = true → ∀ i ∈ c.slots cfg, i ∉ chan'.slots cfg := by
    intro c member has i inside inside'
    rw [slots] at inside'
    have used := (mapped.slots i).mpr ⟨c, member, has, inside⟩
    rw [grant.free i inside'] at used
    cases used
  have logicNew : ∀ c ∈ chans, c.logicChNum ≠ Option.some logicCh := by
    intro c member has
    have used := (mapped.logic logicCh).mpr ⟨c, member, has⟩
    rw [grant.unused] at used
    cases used
  have unitNew : ∀ c ∈ chans, c.logicChNum.isSome = true → ∀ u, c.has u → ¬ chan'.has u := by
    intro c member has u inside inside'
    have used := mapped.units c member has u inside
    rw [grant.units u inside'.1 inside'.2] at used
    cases used
  have empty : card.devToChMap logicCh = none := mapped.agrees logicCh grant.unused
  refine
    { slots := fun i => ?_
      slotOnce := ?_
      logic := fun l => ?_
      logicOnce := ?_
      logicLt := ?_
      table := fun l a => ?_
      blocks := ?_
      units := ?_
      unitOnce := ?_
      ram := ?_
      idle := fun i unused => ?_
      dma := ?_
      tdm := fun l => ?_
      top := ?_
      topMax := ?_
      topLt := ?_ }
  · rw [granted_slot, mapped.slots i]
    constructor
    · rintro (⟨c, member, has, inside⟩ | inside)
      · exact ⟨c, mem.mpr (.inl member), has, inside⟩
      · exact ⟨chan', mem.mpr (.inr rfl), some, inside⟩
    · rintro ⟨c, member, has, inside⟩
      rcases mem.mp member with member | rfl
      · exact .inl ⟨c, member, has, inside⟩
      · exact .inr inside
  · intro c hc d hd has has' i inside inside'
    rcases mem.mp hc with old | rfl <;> rcases mem.mp hd with old' | rfl
    · exact mapped.slotOnce c old d old' has has' i inside inside'
    · exact absurd inside' (slotNew c old has i inside)
    · exact absurd inside (slotNew d old' has' i inside')
    · rfl
  · rw [show (Channels.granted cfg card chan' logicCh).logicChMap = setBit card.logicChMap logicCh
      from rfl, getLsbD_setBit, Bool.or_eq_true, Bool.and_eq_true, decide_eq_true_eq, decide_eq_true_eq,
      mapped.logic l]
    constructor
    · rintro (⟨c, member, has⟩ | ⟨-, rfl⟩)
      · exact ⟨c, mem.mpr (.inl member), has⟩
      · exact ⟨chan', mem.mpr (.inr rfl), logic⟩
    · rintro ⟨c, member, has⟩
      rcases mem.mp member with member | rfl
      · exact .inl ⟨c, member, has⟩
      · rw [logic] at has
        cases has
        exact .inr ⟨small, rfl⟩
  · intro c hc d hd l has has'
    rcases mem.mp hc with old | rfl <;> rcases mem.mp hd with old' | rfl
    · exact mapped.logicOnce c old d old' l has has'
    · rw [logic] at has'
      exact absurd (has.trans has'.symm) (logicNew c old)
    · rw [logic] at has
      exact absurd (has'.trans has.symm) (logicNew d old')
    · rfl
  · intro c member l has
    rcases mem.mp member with member | rfl
    · exact mapped.logicLt c member l has
    · rw [logic] at has
      cases has
      exact grant.inside
  · rw [show (Channels.granted cfg card chan' logicCh).devToChMap =
      Function.update card.devToChMap logicCh (Option.some chan'.addr) from rfl]
    by_cases equal : l = logicCh
    · subst equal
      rw [Function.update_self, Option.some.injEq]
      constructor
      · rintro rfl
        exact ⟨chan', mem.mpr (.inr rfl), logic, rfl⟩
      · rintro ⟨c, member, has, rfl⟩
        rcases mem.mp member with member | rfl
        · exact absurd has (logicNew c member)
        · rfl
    · rw [Function.update_of_ne equal, mapped.table l a]
      constructor
      · rintro ⟨c, member, has, same⟩
        exact ⟨c, mem.mpr (.inl member), has, same⟩
      · rintro ⟨c, member, has, same⟩
        rcases mem.mp member with member | rfl
        · exact ⟨c, member, has, same⟩
        · rw [logic] at has
          cases has
          exact absurd rfl equal
  · intro c member has
    rcases mem.mp member with member | rfl
    · exact mapped.blocks c member has
    · exact ⟨grant.block, code⟩
  · intro c member has u inside
    rw [granted_unit grant.block]
    rcases mem.mp member with member | rfl
    · exact .inl (mapped.units c member has u inside)
    · exact .inr inside
  · intro c hc d hd has has' u inside inside'
    rcases mem.mp hc with old | rfl <;> rcases mem.mp hd with old' | rfl
    · exact mapped.unitOnce c old d old' has has' u inside inside'
    · exact absurd inside' (unitNew c old has u inside)
    · exact absurd inside (unitNew d old' has' u inside')
    · rfl
  · intro c member l has i inside
    rw [granted_ram]
    rcases mem.mp member with member | rfl
    · rw [if_neg (slotNew c member (by rw [has]; rfl) i inside)]
      exact mapped.ram c member l has i inside
    · rw [logic] at has
      cases has
      rw [if_pos inside, mapped.idle i (grant.free i (by rw [← slots]; exact inside))]
  · have old : card.timeSlotMap.getLsbD i = false ∧ i ∉ chan'.slots cfg := by
      rw [Bool.eq_false_iff, Ne, granted_slot, not_or] at unused
      exact ⟨Bool.eq_false_iff.mpr unused.1, unused.2⟩
    rw [granted_ram, if_neg old.2]
    exact mapped.idle i old.1
  · intro c member l has
    rw [show (Channels.granted cfg card chan' logicCh).dmaRam =
      Function.update card.dmaRam logicCh (dmaEntry chan') from rfl]
    rcases mem.mp member with member | rfl
    · have other : l ≠ logicCh := by
        rintro rfl
        exact logicNew c member has
      rw [Function.update_of_ne other]
      exact mapped.dma c member l has
    · rw [logic] at has
      cases has
      rw [Function.update_self]
  · have bits : (Channels.granted cfg card chan' logicCh).tdmLogicChMap.getLsbD l = true ↔
        card.tdmLogicChMap.getLsbD l = true ∨ chan'.globalIrqCfg = true ∧ l = logicCh := by
      rw [show (Channels.granted cfg card chan' logicCh).tdmLogicChMap =
        if chan'.globalIrqCfg then setBit card.tdmLogicChMap logicCh else card.tdmLogicChMap from rfl]
      cases chan'.globalIrqCfg with
      | false => simp
      | true =>
        rw [if_pos rfl, getLsbD_setBit, Bool.or_eq_true, Bool.and_eq_true, decide_eq_true_eq,
          decide_eq_true_eq]
        exact or_congr_right ⟨fun both => ⟨rfl, both.2⟩, fun both => ⟨both.2 ▸ small, both.2⟩⟩
    rw [bits, mapped.tdm l]
    constructor
    · rintro (⟨c, member, has, irq⟩ | ⟨irq, rfl⟩)
      · exact ⟨c, mem.mpr (.inl member), has, irq⟩
      · exact ⟨chan', mem.mpr (.inr rfl), logic, irq⟩
    · rintro ⟨c, member, has, irq⟩
      rcases mem.mp member with member | rfl
      · exact .inl ⟨c, member, has, irq⟩
      · rw [logic] at has
        cases has
        exact .inr ⟨irq, rfl⟩
  · intro c member l has
    rw [show (Channels.granted cfg card chan' logicCh).topLogicCh = raisedTop card.topLogicCh logicCh
      from rfl]
    unfold raisedTop
    rcases mem.mp member with member | rfl
    · have below := mapped.top c member l has
      split <;> omega
    · rw [logic] at has
      cases has
      split <;> omega
  · have below := mapped.topMax
    change raisedTop card.topLogicCh logicCh ≤ raisedMax card.topLogicCh card.maxLogicCh logicCh
    unfold raisedTop raisedMax
    split
    · split
      · rw [Nat.mod_eq_of_lt small]
      · omega
    · exact below
  · have below := mapped.topLt
    have inside := grant.inside
    change raisedTop card.topLogicCh logicCh < _
    unfold raisedTop
    split <;> omega

/-- The loop that looks for the top logical channel ends at the last one in use. -/
theorem foldl_last (p : Nat → Bool) (start n : Nat) :
    let last := (List.range n).foldl (fun top i => if p i then i else top) start
    (∀ i < n, p i = true → i ≤ last) ∧ (last = start ∨ last < n ∧ p last = true) := by
  induction n with
  | zero => exact ⟨fun i below => absurd below (Nat.not_lt_zero i), .inl rfl⟩
  | succ n hyp =>
    rw [List.range_succ, List.foldl_append]
    obtain ⟨above, found⟩ := hyp
    simp only [List.foldl_cons, List.foldl_nil]
    cases has : p n with
    | false =>
      rw [if_neg Bool.false_ne_true]
      refine ⟨fun i below holds => ?_, found.imp_right fun both => ⟨by omega, both.2⟩⟩
      rcases Nat.lt_succ_iff_lt_or_eq.mp below with below | rfl
      · exact above i below holds
      · rw [has] at holds
        cases holds
    | true =>
      rw [if_pos rfl]
      exact ⟨fun i below _ => by omega, .inr ⟨by omega, has⟩⟩

theorem freed_slot {chan : Chan} (logicCh i : Nat) :
    (freed cfg card chan logicCh).timeSlotMap.getLsbD i = true ↔
      card.timeSlotMap.getLsbD i = true ∧ i ∉ chan.slots cfg := by
  rw [show (freed cfg card chan logicCh).timeSlotMap = (chan.slots cfg).foldl clearBit card.timeSlotMap
    from rfl, getLsbD_clearBits]
  simp only [Bool.and_eq_true, Bool.not_eq_true', decide_eq_false_iff_not]

theorem freed_ram {chan : Chan} (logicCh i : Nat) :
    (freed cfg card chan logicCh).ctrlRam i =
      if i ∈ chan.slots cfg then freeEntry else card.ctrlRam i :=
  updates_apply (fun _ _ => freeEntry) (slots_nodup cfg chan) card.ctrlRam i

theorem freed_unit {chan : Chan} (block : Block chan.fifoSize chan.fifoBaseAddr) (logicCh u : Nat) :
    (freed cfg card chan logicCh).fifoAddrMap.getLsbD u = true ↔
      card.fifoAddrMap.getLsbD u = true ∧ ¬ chan.has u := by
  rw [show (freed cfg card chan logicCh).fifoAddrMap =
      card.fifoAddrMap &&& ~~~(mask 32 chan.fifoSize <<< chan.fifoBaseAddr) from rfl,
    BitVec.getLsbD_and, BitVec.getLsbD_not, getLsbD_block]
  have inside := block.inside
  simp only [Bool.and_eq_true, Bool.not_eq_true', Bool.and_eq_false_imp, decide_eq_true_eq,
    decide_eq_false_iff_not, Chan.has, not_and]
  constructor
  · rintro ⟨old, small, free⟩
    exact ⟨old, fun low => free ⟨small, low⟩⟩
  · rintro ⟨old, free⟩
    exact ⟨old, BitVec.lt_of_getLsbD old, fun both => free both.2⟩

/-- The top logical channel is still one of the channels', or the lowest. -/
theorem Mapped.freedTop (mapped : Mapped cfg card chans) (logicCh : Nat) :
    let table := Function.update card.devToChMap logicCh none
    (∀ l addr, table l = some addr → l ≤ freedTop cfg table card.topLogicCh logicCh) ∧
      freedTop cfg table card.topLogicCh logicCh ≤ card.topLogicCh := by
  intro table
  have old : ∀ l addr, table l = some addr → l < cfg.numOfTimeSlots ∧ l ≤ card.topLogicCh := by
    intro l addr found
    have before : card.devToChMap l = some addr := by
      by_cases equal : l = logicCh
      · rw [equal, show table = Function.update card.devToChMap logicCh none from rfl,
          Function.update_self] at found
        cases found
      · rwa [show table = Function.update card.devToChMap logicCh none from rfl,
          Function.update_of_ne equal] at found
    obtain ⟨chan, member, has, -⟩ := (mapped.table l addr).mp before
    exact ⟨mapped.logicLt chan member l has, mapped.top chan member l has⟩
  unfold Channels.freedTop
  split
  · obtain ⟨above, found⟩ :=
      foldl_last (fun i => (table i).isSome) aftDefltActiveCh cfg.numOfTimeSlots
    refine ⟨fun l addr has => above l (old l addr has).1 (by rw [has]; rfl), ?_⟩
    rcases found with lowest | ⟨_, some⟩
    · exact lowest.trans_le (Nat.zero_le _)
    · obtain ⟨addr, has⟩ := Option.isSome_iff_exists.mp some
      exact (old _ addr has).2
  · exact ⟨fun l addr has => (old l addr has).2, Nat.le_refl _⟩

/-- A channel that is taken back leaves the others what they have. -/
theorem Mapped.freed (mapped : Mapped cfg card chans)
    (once : ∀ c ∈ chans, ∀ d ∈ chans, c.addr = d.addr → c = d) {chan : Chan} {logicCh : Nat}
    (member : chan ∈ chans) (has : chan.logicChNum = some logicCh) :
    Mapped cfg (freed cfg card chan logicCh) (chans.filter fun other => other.addr != chan.addr) := by
  have mem : ∀ {c}, c ∈ chans.filter (fun other => other.addr != chan.addr) ↔ c ∈ chans ∧ c ≠ chan := by
    intro c
    rw [List.mem_filter, bne_iff_ne]
    exact and_congr_right fun inside =>
      not_congr ⟨once c inside chan member, fun equal => by rw [equal]⟩
  have some : chan.logicChNum.isSome = true := by rw [has]; rfl
  have block := (mapped.blocks chan member some).1
  have logicRest : ∀ c ∈ chans, c ≠ chan → ∀ l, c.logicChNum = Option.some l → l ≠ logicCh := by
    rintro c inside other l has' rfl
    exact other (mapped.logicOnce c inside chan member l has' has)
  have slotRest : ∀ c ∈ chans, c ≠ chan → c.logicChNum.isSome = true → ∀ i ∈ c.slots cfg,
      i ∉ chan.slots cfg := fun c inside other some' i own own' =>
    other (mapped.slotOnce c inside chan member some' some i own own')
  have unitRest : ∀ c ∈ chans, c ≠ chan → c.logicChNum.isSome = true → ∀ u, c.has u → ¬ chan.has u :=
    fun c inside other some' u own own' =>
      other (mapped.unitOnce c inside chan member some' some u own own')
  obtain ⟨topAbove, topBelow⟩ := mapped.freedTop logicCh
  refine
    { slots := fun i => ?_
      slotOnce := fun c hc d hd => mapped.slotOnce c (mem.mp hc).1 d (mem.mp hd).1
      logic := fun l => ?_
      logicOnce := fun c hc d hd => mapped.logicOnce c (mem.mp hc).1 d (mem.mp hd).1
      logicLt := fun c hc => mapped.logicLt c (mem.mp hc).1
      table := fun l a => ?_
      blocks := fun c hc => mapped.blocks c (mem.mp hc).1
      units := fun c hc some' u own => ?_
      unitOnce := fun c hc d hd => mapped.unitOnce c (mem.mp hc).1 d (mem.mp hd).1
      ram := fun c hc l has' i own => ?_
      idle := fun i unused => ?_
      dma := fun c hc l has' => ?_
      tdm := fun l => ?_
      top := fun c hc l has' => ?_
      topMax := ?_
      topLt := Nat.lt_of_le_of_lt topBelow mapped.topLt }
  · rw [freed_slot, mapped.slots i]
    constructor
    · rintro ⟨⟨c, inside, some', own⟩, free⟩
      exact ⟨c, mem.mpr ⟨inside, fun equal => free (equal ▸ own)⟩, some', own⟩
    · rintro ⟨c, inside, some', own⟩
      obtain ⟨inside, other⟩ := mem.mp inside
      exact ⟨⟨c, inside, some', own⟩, slotRest c inside other some' i own⟩
  · rw [show (Channels.freed cfg card chan logicCh).logicChMap = clearBit card.logicChMap logicCh
      from rfl, getLsbD_clearBit, Bool.and_eq_true, Bool.not_eq_true', decide_eq_false_iff_not,
      mapped.logic l]
    constructor
    · rintro ⟨⟨c, inside, has'⟩, other⟩
      refine ⟨c, mem.mpr ⟨inside, ?_⟩, has'⟩
      rintro rfl
      rw [has] at has'
      exact other (Option.some.inj has').symm
    · rintro ⟨c, inside, has'⟩
      obtain ⟨inside, other⟩ := mem.mp inside
      exact ⟨⟨c, inside, has'⟩, logicRest c inside other l has'⟩
  · rw [show (Channels.freed cfg card chan logicCh).devToChMap =
      Function.update card.devToChMap logicCh none from rfl]
    by_cases equal : l = logicCh
    · subst equal
      rw [Function.update_self]
      constructor
      · intro none
        cases none
      · rintro ⟨c, inside, has', -⟩
        obtain ⟨inside, other⟩ := mem.mp inside
        exact absurd rfl (logicRest c inside other l has')
    · rw [Function.update_of_ne equal, mapped.table l a]
      constructor
      · rintro ⟨c, inside, has', same⟩
        refine ⟨c, mem.mpr ⟨inside, ?_⟩, has', same⟩
        rintro rfl
        rw [has] at has'
        exact equal (Option.some.inj has').symm
      · rintro ⟨c, inside, has', same⟩
        exact ⟨c, (mem.mp inside).1, has', same⟩
  · obtain ⟨inside, other⟩ := mem.mp hc
    exact (freed_unit block logicCh u).mpr
      ⟨mapped.units c inside some' u own, unitRest c inside other some' u own⟩
  · obtain ⟨inside, other⟩ := mem.mp hc
    rw [freed_ram, if_neg (slotRest c inside other (by rw [has']; rfl) i own)]
    exact mapped.ram c inside l has' i own
  · rw [freed_ram]
    split
    · rfl
    · rename_i outside
      refine mapped.idle i ?_
      rw [Bool.eq_false_iff, Ne, freed_slot, not_and_or, not_not] at unused
      exact Bool.eq_false_iff.mpr (unused.resolve_right outside)
  · obtain ⟨inside, other⟩ := mem.mp hc
    rw [show (Channels.freed cfg card chan logicCh).dmaRam = Function.update card.dmaRam logicCh
      { card.dmaRam logicCh with fifoBase := 0x1F, fifoSize := 0 } from rfl,
      Function.update_of_ne (logicRest c inside other l has')]
    exact mapped.dma c inside l has'
  · have bits : (Channels.freed cfg card chan logicCh).tdmLogicChMap.getLsbD l = true ↔
        card.tdmLogicChMap.getLsbD l = true ∧ ¬ (chan.globalIrqCfg = true ∧ l = logicCh) := by
      rw [show (Channels.freed cfg card chan logicCh).tdmLogicChMap =
        if chan.globalIrqCfg then clearBit card.tdmLogicChMap logicCh else card.tdmLogicChMap from rfl]
      cases chan.globalIrqCfg with
      | false => simp
      | true =>
        rw [if_pos rfl, getLsbD_clearBit, Bool.and_eq_true, Bool.not_eq_true', decide_eq_false_iff_not]
        simp only [true_and]
    rw [bits, mapped.tdm l]
    constructor
    · rintro ⟨⟨c, inside, has', irq⟩, other⟩
      refine ⟨c, mem.mpr ⟨inside, ?_⟩, has', irq⟩
      rintro rfl
      rw [has] at has'
      exact other ⟨irq, (Option.some.inj has').symm⟩
    · rintro ⟨c, inside, has', irq⟩
      obtain ⟨inside, other⟩ := mem.mp inside
      exact ⟨⟨c, inside, has', irq⟩, fun both => logicRest c inside other l has' both.2⟩
  · obtain ⟨inside, other⟩ := mem.mp hc
    refine topAbove l c.addr ?_
    rw [Function.update_of_ne (logicRest c inside other l has')]
    exact (mapped.table l c.addr).mpr ⟨c, inside, has', rfl⟩
  · have below := mapped.topMax
    change Channels.freedTop cfg _ card.topLogicCh logicCh ≤
      if card.topLogicCh ≤ logicCh then freedMax _ card.maxLogicCh else card.maxLogicCh
    unfold freedMax
    split
    · rw [if_neg (by omega)]
      omega
    · omega

/-- A channel that was never configured leaves nothing behind. -/
theorem Mapped.dropped (mapped : Mapped cfg card chans)
    (once : ∀ c ∈ chans, ∀ d ∈ chans, c.addr = d.addr → c = d) {chan : Chan} (member : chan ∈ chans)
    (none : chan.logicChNum = none) :
    Mapped cfg card (chans.filter fun other => other.addr != chan.addr) := by
  have mem : ∀ {c}, c ∈ chans.filter (fun other => other.addr != chan.addr) ↔ c ∈ chans ∧ c ≠ chan := by
    intro c
    rw [List.mem_filter, bne_iff_ne]
    exact and_congr_right fun inside =>
      not_congr ⟨once c inside chan member, fun equal => by rw [equal]⟩
  have apart : ∀ {c : Chan} {l : Nat}, c.logicChNum = some l → c ≠ chan := by
    rintro c l has rfl
    rw [none] at has
    cases has
  have apart' : ∀ {c : Chan}, c.logicChNum.isSome = true → c ≠ chan := by
    rintro c some rfl
    rw [none] at some
    cases some
  have less : ∀ {p : Chan → Prop}, (∀ c, p c → c ≠ chan) →
      ((∃ c ∈ chans, p c) ↔ ∃ c ∈ chans.filter (fun other => other.addr != chan.addr), p c) := by
    intro p other
    constructor
    · rintro ⟨c, inside, holds⟩
      exact ⟨c, mem.mpr ⟨inside, other c holds⟩, holds⟩
    · rintro ⟨c, inside, holds⟩
      exact ⟨c, (mem.mp inside).1, holds⟩
  exact
    { mapped with
      slots := fun i => (mapped.slots i).trans (less fun c holds => apart' holds.1)
      slotOnce := fun c hc d hd => mapped.slotOnce c (mem.mp hc).1 d (mem.mp hd).1
      logic := fun l => (mapped.logic l).trans (less fun c holds => apart holds)
      logicOnce := fun c hc d hd => mapped.logicOnce c (mem.mp hc).1 d (mem.mp hd).1
      logicLt := fun c hc => mapped.logicLt c (mem.mp hc).1
      table := fun l a => (mapped.table l a).trans (less fun c holds => apart holds.1)
      blocks := fun c hc => mapped.blocks c (mem.mp hc).1
      units := fun c hc => mapped.units c (mem.mp hc).1
      unitOnce := fun c hc d hd => mapped.unitOnce c (mem.mp hc).1 d (mem.mp hd).1
      ram := fun c hc => mapped.ram c (mem.mp hc).1
      dma := fun c hc => mapped.dma c (mem.mp hc).1
      tdm := fun l => (mapped.tdm l).trans (less fun c holds => apart holds.1)
      top := fun c hc => mapped.top c (mem.mp hc).1 }

end Preserved

/-! ## Making an interface's channels -/

/-- How an attempt to make a channel ends. -/
inductive Attempt (cfg : Cfg) (state : State) (dev : Nat) (part : Part) (setup : Setup) :
    State → Bool → Prop
  | turnedAway (why : cfg.barred state.card = true ∨ setup.fails = .early) :
    Attempt cfg state dev part setup state false
  | unready (chan : Chan)
    (same : chan = { readyChan cfg state dev part setup with hdlcEng := chan.hdlcEng })
    (why : (aftGetNumOfSlots cfg.numOfTimeSlots part.activeCh = 0 ∨ setup.fails = .attached) ∨
      setup.fails = .ready ∧ chan = readyChan cfg state dev part setup) :
    Attempt cfg state dev part setup (state.attach state.card chan) false
  | refused (card : Card) (chan : Chan)
    (why : Refused cfg state.card card (readyChan cfg state dev part setup) chan)
    (some : aftGetNumOfSlots cfg.numOfTimeSlots part.activeCh ≠ 0) :
    Attempt cfg state dev part setup (state.attach card chan) false
  | late (chan : Chan) (logicCh : Nat)
    (grant : Granted cfg state.card (readyChan cfg state dev part setup) chan logicCh)
    (some : aftGetNumOfSlots cfg.numOfTimeSlots part.activeCh ≠ 0) (why : setup.fails = .late) :
    Attempt cfg state dev part setup (state.attach (granted cfg state.card chan logicCh) chan) false
  | made (chan : Chan) (logicCh : Nat)
    (grant : Granted cfg state.card (readyChan cfg state dev part setup) chan logicCh)
    (some : aftGetNumOfSlots cfg.numOfTimeSlots part.activeCh ≠ 0) :
    Attempt cfg state dev part setup
      (state.attach (counted (granted cfg state.card chan logicCh) chan) chan) true

theorem aftGetNumOfSlots_zero (total : Nat) : aftGetNumOfSlots total 0#32 = 0 := by
  unfold aftGetNumOfSlots
  rw [List.countP_eq_zero]
  intro i _
  rw [BitVec.getLsbD_zero]
  exact Bool.false_ne_true

theorem newIfPrivate_attempt (cfg : Cfg) (state : State) (dev : Nat) (part : Part) (setup : Setup)
    (agrees : ∀ l, state.card.logicChMap.getLsbD l = false → state.card.devToChMap l = none) :
    Attempt cfg state dev part setup (newIfPrivate cfg state dev part setup).1
      (newIfPrivate cfg state dev part setup).2 := by
  unfold newIfPrivate
  cases away : cfg.barred state.card || setup.fails == .early with
  | true =>
    rw [Bool.or_eq_true] at away
    exact .turnedAway (away.imp_right fun early => by simpa using early)
  | false =>
  rw [if_neg Bool.false_ne_true]
  cases unready :
      aftGetNumOfSlots cfg.numOfTimeSlots part.activeCh == 0 || setup.fails == .attached with
  | true =>
    rw [if_pos rfl]
    refine .unready (newChan cfg state.nextAddr dev part setup) rfl (.inl ?_)
    rw [Bool.or_eq_true] at unready
    exact unready.imp (fun none => by simpa using none) fun fails => by simpa using fails
  | false =>
  rw [if_neg Bool.false_ne_true]
  have some : aftGetNumOfSlots cfg.numOfTimeSlots part.activeCh ≠ 0 := by
    intro none
    rw [Bool.or_eq_false_iff, none] at unready
    exact absurd unready.1 (by decide)
  cases notReady : setup.fails == .ready with
  | true =>
    exact .unready (readyChan cfg state dev part setup) rfl (.inr ⟨by simpa using notReady, rfl⟩)
  | false =>
  rw [if_neg Bool.false_ne_true]
  have configured : aftDevConfigure cfg state.card (readyChan cfg state dev part setup) =
      a104ChanDevConfig cfg state.card (readyChan cfg state dev part setup) := by
    unfold aftDevConfigure
    refine if_neg fun zero => some ?_
    rw [show part.activeCh = 0#32 from beq_iff_eq.mp zero, aftGetNumOfSlots_zero]
  rw [configured]
  split
  · rename_i card chan done
    exact .refused card chan (a104ChanDevConfig_refused agrees done) some
  · rename_i card chan done
    obtain ⟨logicCh, grant, rfl⟩ := a104ChanDevConfig_granted done
    cases late : setup.fails == .late with
    | true => exact .late chan logicCh grant some (by simpa using late)
    | false => exact .made chan logicCh grant some

/-! ## Runs -/

/-- The card's maps are those of the interfaces' channels, which are at addresses of their own. -/
structure Sound (cfg : Cfg) (state : State) : Prop where
  mapped : Mapped cfg state.card state.chans
  addrs : (state.chans.map Chan.addr).Nodup
  known : ∀ chan ∈ state.chans, chan.addr < state.nextAddr

theorem Sound.once {cfg : Cfg} {state : State} (sound : Sound cfg state) :
    ∀ c ∈ state.chans, ∀ d ∈ state.chans, c.addr = d.addr → c = d :=
  fun _ member _ member' same => List.inj_on_of_nodup_map sound.addrs member member' same

theorem Sound.attach {cfg : Cfg} {state : State} (sound : Sound cfg state) {card : Card} {chan : Chan}
    (addr : chan.addr = state.nextAddr) (mapped : Mapped cfg card (state.chans ++ [chan])) :
    Sound cfg (state.attach card chan) := by
  refine ⟨mapped, ?_, ?_⟩
  · change ((state.chans ++ [chan]).map Chan.addr).Nodup
    rw [List.map_append, List.nodup_append']
    refine ⟨sound.addrs, List.nodup_singleton _, ?_⟩
    intro a before same
    obtain ⟨other, member, rfl⟩ := List.mem_map.mp before
    have below := sound.known other member
    have equal : other.addr = chan.addr := by simpa using same
    omega
  · intro other member
    change other.addr < state.nextAddr + 1
    rcases List.mem_append.mp member with member | member
    · have below := sound.known other member
      omega
    · rw [List.mem_singleton.mp member, addr]
      omega

/-- What an attempt adds to the channels. -/
structure Adds (state state' : State) (dev : Nat) (ok : Bool) : Prop where
  chans : state'.chans = state.chans ∨ ∃ chan, chan.dev = dev ∧ state'.chans = state.chans ++ [chan]
  configured : ok = true → (∀ chan ∈ state.chans, chan.logicChNum.isSome = true) →
    ∀ chan ∈ state'.chans, chan.logicChNum.isSome = true

theorem mapped_counts {cfg : Cfg} {card : Card} {chans : List Chan} (mapped : Mapped cfg card chans)
    (ifCnt : Int) (securityCnt dchan : BitVec 32) :
    Mapped cfg { card with ifCnt := ifCnt, securityCnt := securityCnt, dchan := dchan } chans :=
  { mapped with }

theorem Attempt.sound {cfg : Cfg} {state state' : State} {dev : Nat} {part : Part} {setup : Setup}
    {ok : Bool} (attempt : Attempt cfg state dev part setup state' ok) (sound : Sound cfg state) :
    Sound cfg state' ∧ Adds state state' dev ok := by
  have only : ∀ {card : Card} {chan : Chan}, chan.dev = dev →
      (ok = true → chan.logicChNum.isSome = true) → Adds state (state.attach card chan) dev ok := by
    intro card chan own some
    refine ⟨.inr ⟨chan, own, rfl⟩, fun good before other member => ?_⟩
    rcases List.mem_append.mp member with member | member
    · exact before other member
    · rw [List.mem_singleton.mp member]
      exact some good
  cases attempt with
  | turnedAway => exact ⟨sound, .inl rfl, fun bad => absurd bad Bool.false_ne_true⟩
  | unready chan same =>
    refine ⟨sound.attach ?_ (sound.mapped.unmapped ?_), only ?_ fun bad => absurd bad Bool.false_ne_true⟩
    all_goals (rw [same]; rfl)
  | refused card chan why =>
    obtain ⟨map, rfl, more⟩ := why.after
    refine ⟨sound.attach ?_ ((sound.mapped.lost more).unmapped ?_),
      only ?_ fun bad => absurd bad Bool.false_ne_true⟩
    all_goals (rw [why.same]; rfl)
  | late chan logicCh grant =>
    obtain ⟨addr, -, -, -, own, -⟩ := grant.fields
    exact ⟨sound.attach addr (sound.mapped.granted grant),
      only own fun bad => absurd bad Bool.false_ne_true⟩
  | made chan logicCh grant =>
    obtain ⟨addr, -, logic, -, own, -⟩ := grant.fields
    exact ⟨sound.attach addr (mapped_counts (sound.mapped.granted grant) _ _ _),
      only own fun _ => by rw [logic]; rfl⟩

theorem delIfPrivate_sound {cfg : Cfg} {state : State} (sound : Sound cfg state) {chan : Chan}
    (member : chan ∈ state.chans) : Sound cfg (delIfPrivate cfg state chan) := by
  have mapped : Mapped cfg (aftDevUnconfigure cfg state.card chan).1
      (state.chans.filter fun other => other.addr != chan.addr) := by
    unfold aftDevUnconfigure
    cases has : chan.logicChNum with
    | none =>
      rw [a104ChanDevUnconfig_none has]
      exact sound.mapped.dropped sound.once member has
    | some logicCh =>
      rw [a104ChanDevUnconfig_eq has cfg state.card]
      exact sound.mapped.freed sound.once member has
  refine ⟨mapped_counts mapped _ _ _, ?_, ?_⟩
  · exact (List.filter_sublist.map Chan.addr).nodup sound.addrs
  · exact fun other inside => sound.known other (List.mem_of_mem_filter inside)

theorem delIfs_sound {cfg : Cfg} {list : List Chan} {state : State} (sound : Sound cfg state)
    (once : (list.map Chan.addr).Nodup) (inside : ∀ chan ∈ list, chan ∈ state.chans) :
    Sound cfg (list.foldl (delIfPrivate cfg) state) ∧
      (list.foldl (delIfPrivate cfg) state).chans =
        state.chans.filter fun chan => list.all fun other => chan.addr != other.addr := by
  induction list generalizing state with
  | nil => exact ⟨sound, (List.filter_eq_self.mpr fun _ _ => rfl).symm⟩
  | cons chan list hyp =>
    obtain ⟨fresh, once⟩ := List.nodup_cons.mp once
    have next := delIfPrivate_sound sound (inside chan List.mem_cons_self)
    obtain ⟨sound', chans⟩ := @hyp (delIfPrivate cfg state chan) next once fun other member => by
      refine List.mem_filter.mpr ⟨inside other (List.mem_cons_of_mem _ member), ?_⟩
      rw [bne_iff_ne]
      intro same
      exact fresh (same ▸ List.mem_map_of_mem member)
    refine ⟨sound', ?_⟩
    rw [List.foldl_cons, chans]
    change List.filter _ (state.chans.filter fun other => other.addr != chan.addr) = _
    rw [List.filter_filter]
    refine List.filter_congr fun other _ => ?_
    rw [List.all_cons, Bool.and_comm]

theorem delIf_sound {cfg : Cfg} {state : State} (sound : Sound cfg state) (dev : Nat) :
    Sound cfg (delIf cfg state dev) ∧
      (delIf cfg state dev).chans = state.chans.filter fun chan => chan.dev != dev := by
  unfold delIf
  obtain ⟨sound', chans⟩ := delIfs_sound sound
    ((List.filter_sublist.map Chan.addr).nodup sound.addrs)
    (fun chan member => List.mem_of_mem_filter (p := fun chan => chan.dev == dev) member)
  refine ⟨sound', chans.trans (List.filter_congr fun chan member => ?_)⟩
  rw [Bool.eq_iff_iff, List.all_eq_true, bne_iff_ne]
  constructor
  · rintro apart rfl
    have self := apart chan (List.mem_filter.mpr ⟨member, beq_self_eq_true _⟩)
    rw [bne_self_eq_false] at self
    cases self
  · intro other d inside
    rw [bne_iff_ne]
    intro same
    rw [sound.once chan member d (List.mem_of_mem_filter inside) same] at other
    exact other (beq_iff_eq.mp (List.mem_filter.mp inside).2)

def Configured (state : State) : Prop := ∀ chan ∈ state.chans, chan.logicChNum.isSome = true

/-- The channels an interface's parts add are the interface's, and all are configured if none failed. -/
theorem partsLoop_sound {cfg : Cfg} {dev : Nat} {list : List (Part × Setup)} {state : State}
    (sound : Sound cfg state) (before : Configured state) :
    Sound cfg (partsLoop cfg dev state list).1 ∧
      (∃ more, (partsLoop cfg dev state list).1.chans = state.chans ++ more ∧
        ∀ chan ∈ more, chan.dev = dev) ∧
      ((partsLoop cfg dev state list).2 = true → Configured (partsLoop cfg dev state list).1) := by
  induction list generalizing state with
  | nil =>
    refine ⟨sound, ⟨[], (List.append_nil _).symm, ?_⟩, fun _ => before⟩
    exact fun _ member => absurd member List.not_mem_nil
  | cons head list hyp =>
    obtain ⟨part, setup⟩ := head
    have attempt := newIfPrivate_attempt cfg state dev part setup sound.mapped.agrees
    unfold partsLoop
    cases made : newIfPrivate cfg state dev part setup with
    | mk next ok =>
    rw [made] at attempt
    obtain ⟨sound', adds⟩ := attempt.sound sound
    have first : ∃ more, next.chans = state.chans ++ more ∧ ∀ chan ∈ more, chan.dev = dev := by
      rcases adds.chans with same | ⟨chan, own, same⟩
      · exact ⟨[], by rw [same, List.append_nil], fun _ member => absurd member List.not_mem_nil⟩
      · refine ⟨[chan], same, fun other member => ?_⟩
        rw [List.mem_singleton.mp member]
        exact own
    cases ok with
    | false => exact ⟨sound', first, fun bad => absurd bad Bool.false_ne_true⟩
    | true =>
      obtain ⟨sound'', ⟨more, chans, own⟩, all⟩ := hyp sound' (adds.configured rfl before)
      obtain ⟨some, chans', own'⟩ := first
      refine ⟨sound'', ⟨some ++ more, ?_, fun chan member => ?_⟩, all⟩
      · rw [chans, chans', List.append_assoc]
      · rcases List.mem_append.mp member with member | member
        exacts [own' chan member, own chan member]

theorem newIfParts_sound {cfg : Cfg} {dev : Nat} {list : List (Part × Setup)} {state : State}
    (sound : Sound cfg state) (before : Configured state) :
    Sound cfg (newIfParts cfg state dev list) ∧ Configured (newIfParts cfg state dev list) := by
  obtain ⟨sound', ⟨more, chans, own⟩, all⟩ := @partsLoop_sound cfg dev list state sound before
  unfold newIfParts
  cases made : partsLoop cfg dev state list with
  | mk next ok =>
  rw [made] at sound' chans all
  cases ok with
  | true => exact ⟨sound', all rfl⟩
  | false =>
    obtain ⟨sound'', left⟩ := delIf_sound sound' dev
    refine ⟨sound'', fun chan member => ?_⟩
    rw [left, chans] at member
    obtain ⟨inside, other⟩ := List.mem_filter.mp member
    rcases List.mem_append.mp inside with old | new
    · exact before chan old
    · rw [own chan new, bne_self_eq_false] at other
      cases other

theorem step_sound {cfg : Cfg} {state : State} (sound : Sound cfg state) (before : Configured state)
    (op : Op) : Sound cfg (step cfg state op) ∧ Configured (step cfg state op) := by
  cases op with
  | delIf dev =>
    obtain ⟨sound', left⟩ := delIf_sound sound dev
    refine ⟨sound', fun chan member => ?_⟩
    change chan ∈ (delIf cfg state dev).chans at member
    rw [left] at member
    exact before chan (List.mem_of_mem_filter member)
  | newIf dev usage activeCh setups =>
    change Sound cfg (newIf cfg state dev usage activeCh setups) ∧
      Configured (newIf cfg state dev usage activeCh setups)
    unfold newIf
    cases used : state.inUse dev with
    | true => exact ⟨sound, before⟩
    | false =>
      have sound' : ∀ dchan : BitVec 32,
          Sound cfg { state with card := { state.card with dchan := dchan } } := fun dchan =>
        ⟨mapped_counts sound.mapped _ _ dchan, sound.addrs, sound.known⟩
      rw [if_neg Bool.false_ne_true]
      dsimp only
      split
      · exact newIfParts_sound (sound' _) before
      · exact ⟨sound' _, before⟩

theorem run_sound {cfg : Cfg} {state : State} (sound : Sound cfg state) (before : Configured state)
    (ops : List Op) : Sound cfg (run cfg state ops) ∧ Configured (run cfg state ops) := by
  induction ops generalizing state with
  | nil => exact ⟨sound, before⟩
  | cons op ops hyp =>
    obtain ⟨sound', after⟩ := step_sound sound before op
    exact hyp sound' after

theorem started_sound (cfg : Cfg) (dchan : BitVec 32) (dmaRam : Nat → DmaRam) :
    Sound cfg (started dchan dmaRam) := by
  have nobody : ∀ {p : Chan → Prop}, ¬ ∃ chan ∈ (started dchan dmaRam).chans, p chan := by
    rintro p ⟨chan, member, -⟩
    exact absurd member List.not_mem_nil
  have clear : ∀ i, ¬ (0#32).getLsbD i = true := by
    intro i
    rw [BitVec.getLsbD_zero]
    exact Bool.false_ne_true
  refine ⟨?_, List.nodup_nil, fun chan member => absurd member List.not_mem_nil⟩
  exact
    { slots := fun i => iff_of_false (clear i) nobody
      slotOnce := fun _ member => absurd member List.not_mem_nil
      logic := fun l => iff_of_false (clear l) nobody
      logicOnce := fun _ member => absurd member List.not_mem_nil
      logicLt := fun _ member => absurd member List.not_mem_nil
      table := fun l addr => iff_of_false (by rintro ⟨⟩) nobody
      blocks := fun _ member => absurd member List.not_mem_nil
      units := fun _ member => absurd member List.not_mem_nil
      unitOnce := fun _ member => absurd member List.not_mem_nil
      ram := fun _ member => absurd member List.not_mem_nil
      idle := fun _ _ => rfl
      dma := fun _ member => absurd member List.not_mem_nil
      tdm := fun l => iff_of_false (clear l) nobody
      top := fun _ member => absurd member List.not_mem_nil
      topMax := Nat.le_refl _
      topLt := by
        change 0 < cfg.numOfTimeSlots
        unfold Cfg.numOfTimeSlots
        cases cfg.media <;> decide }

end Wanpipe.Aft.Channels
