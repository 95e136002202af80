import Mathlib.Data.List.Nodup
import Mathlib.Data.List.Perm.Subperm
import Wanpipe.Aft.ChannelsApart

/-! On a channelised T1 or framed E1 card no fifo memory is ever lost, and an interface gets its channels
whenever its time slots are free. -/

namespace Wanpipe.Aft.Channels

open Bitmap

/-- A card whose port leaves a fifo unit more than it has time slots to give. -/
structure Roomy (cfg : Cfg) : Prop where
  framed : cfg.media = .t1 ∨ cfg.media = .e1 ∧ cfg.unframed = false
  channelised : cfg.securityId = 1

/-- The time slot that a framed E1 line keeps for itself is none of an interface's. -/
def usable (cfg : Cfg) : List Nat :=
  (List.range cfg.numOfTimeSlots).filter fun i => !(cfg.isE1 && i == 0)

section Counting

variable {cfg : Cfg}

theorem usable_length (roomy : Roomy cfg) : (usable cfg).length ≤ 31 := by
  rcases roomy.framed with t1 | ⟨e1, -⟩
  · unfold usable Cfg.numOfTimeSlots Cfg.isE1
    rw [t1]
    decide
  · unfold usable Cfg.numOfTimeSlots Cfg.isE1
    rw [e1]
    decide

theorem usable_lt (cfg : Cfg) : (usable cfg).length ≤ cfg.numOfTimeSlots :=
  (List.length_filter_le _ _).trans (List.length_range (n := cfg.numOfTimeSlots)).le

theorem slots_length (cfg : Cfg) (chan : Chan) :
    aftGetNumOfSlots cfg.numOfTimeSlots chan.timeSlotMap = (chan.slots cfg).length := by
  rw [aftGetNumOfSlots, Chan.slots, List.countP_eq_length_filter]

/-- A number of time slots that a card can give is one there is a fifo size for, which is no more than
one unit for each of them unless it is all of them. -/
theorem reqFifoSize_some (roomy : Roomy cfg) {slots : Nat} (some : 0 < slots)
    (few : slots ≤ (usable cfg).length) :
    ∃ exp, reqFifoSize cfg slots = Option.some exp ∧
      (1 <<< exp ≤ slots ∨ slots = (usable cfg).length) := by
  rcases roomy.framed with t1 | ⟨e1, framed⟩
  · have length : (usable cfg).length = 24 := by
      unfold usable Cfg.numOfTimeSlots Cfg.isE1
      rw [t1]
      decide
    rw [length] at few ⊢
    unfold reqFifoSize
    rw [t1]
    interval_cases slots <;> exact ⟨_, rfl, by decide⟩
  · have length : (usable cfg).length = 31 := by
      unfold usable Cfg.numOfTimeSlots Cfg.isE1
      rw [e1]
      decide
    rw [length] at few ⊢
    unfold reqFifoSize
    rw [e1]
    interval_cases slots <;> exact ⟨_, rfl, by decide⟩

theorem length_flatMap_le {α : Type} {few many : α → List Nat} {list : List α}
    (less : ∀ x ∈ list, (few x).length ≤ (many x).length) :
    (list.flatMap few).length ≤ (list.flatMap many).length := by
  induction list with
  | nil => exact Nat.le_refl _
  | cons x list hyp =>
    rw [List.flatMap_cons, List.flatMap_cons, List.length_append, List.length_append]
    have one := less x List.mem_cons_self
    have rest := hyp fun y member => less y (List.mem_cons_of_mem _ member)
    omega

theorem length_le_flatMap {α : Type} (some : α → List Nat) {list : List α} {x : α} (member : x ∈ list) :
    (some x).length ≤ (list.flatMap some).length := by
  obtain ⟨before, after, rfl⟩ := List.append_of_mem member
  rw [List.flatMap_append, List.flatMap_cons, List.length_append, List.length_append]
  omega

end Counting

def Chan.units (chan : Chan) : List Nat := List.range' chan.fifoBaseAddr chan.fifoSize

theorem mem_units {chan : Chan} {u : Nat} : u ∈ chan.units ↔ chan.has u := by
  rw [Chan.units, List.mem_range'_1]
  rfl

/-- No fifo memory is in use but that of a channel, and no channel has more of it than it has time
slots, unless it has them all. -/
structure Exact (cfg : Cfg) (card : Card) (chans : List Chan) : Prop where
  units : ∀ u, card.fifoAddrMap.getLsbD u = true →
    ∃ chan ∈ chans, chan.logicChNum.isSome = true ∧ chan.has u
  sizes : ∀ chan ∈ chans, chan.logicChNum.isSome = true →
    chan.fifoSize ≤ (chan.slots cfg).length ∨ (chan.slots cfg).length = (usable cfg).length
  some : ∀ chan ∈ chans, chan.logicChNum.isSome = true → chan.slots cfg ≠ []
  inside : ∀ chan ∈ chans, ∀ i ∈ chan.slots cfg, i ∈ usable cfg

section Room

variable {cfg : Cfg} {card : Card} {chans : List Chan}

/-- Time slots that nobody has, and those of the channels, are no more than the card has. -/
theorem slots_fit (mapped : Mapped cfg card chans) (exact' : Exact cfg card chans)
    (all : ∀ chan ∈ chans, chan.logicChNum.isSome = true) (once : chans.Nodup) {more : List Nat}
    (nodup : more.Nodup) (inside : ∀ i ∈ more, i ∈ usable cfg)
    (free : ∀ i ∈ more, card.timeSlotMap.getLsbD i = false) :
    (chans.flatMap (Chan.slots cfg)).length + more.length ≤ (usable cfg).length := by
  rw [← List.length_append]
  refine (List.Nodup.subperm ?_ ?_).length_le
  · rw [List.nodup_append']
    refine ⟨List.nodup_flatMap.mpr ⟨fun chan _ => slots_nodup cfg chan, ?_⟩, nodup, ?_⟩
    · refine List.Pairwise.imp_of_mem ?_ once
      intro c d member member' apart i own own'
      exact apart (mapped.slotOnce c member d member' (all c member) (all d member') i own own')
    · intro i before after
      obtain ⟨chan, member, own⟩ := List.mem_flatMap.mp before
      have used := (mapped.slots i).mpr ⟨chan, member, all chan member, own⟩
      rw [free i after] at used
      cases used
  · intro i member
    rcases List.mem_append.mp member with member | member
    · obtain ⟨chan, member, own⟩ := List.mem_flatMap.mp member
      exact exact'.inside chan member i own
    · exact inside i member

/-- There is a fifo unit before the last one for a channel whose time slots are free. -/
theorem unit_left (roomy : Roomy cfg) (mapped : Mapped cfg card chans) (exact' : Exact cfg card chans)
    (all : ∀ chan ∈ chans, chan.logicChNum.isSome = true) (once : chans.Nodup) {more : List Nat}
    (nodup : more.Nodup) (some : more ≠ []) (inside : ∀ i ∈ more, i ∈ usable cfg)
    (free : ∀ i ∈ more, card.timeSlotMap.getLsbD i = false) :
    ¬ ∀ u < 31, card.fifoAddrMap.getLsbD u = true := by
  intro full
  have fit := slots_fit mapped exact' all once nodup inside free
  have pos : 0 < more.length := List.length_pos_of_ne_nil some
  have small := usable_length roomy
  have sizes : ∀ chan ∈ chans, chan.units.length ≤ (chan.slots cfg).length := by
    intro chan member
    rw [Chan.units, List.length_range']
    refine (exact'.sizes chan member (all chan member)).resolve_right fun whole => ?_
    have part : (chan.slots cfg).length ≤ (chans.flatMap (Chan.slots cfg)).length :=
      length_le_flatMap (Chan.slots cfg) member
    omega
  have units : 31 ≤ (chans.flatMap Chan.units).length := by
    rw [show 31 = (List.range 31).length from rfl]
    refine (List.Nodup.subperm List.nodup_range ?_).length_le
    intro u member
    obtain ⟨chan, inside, -, own⟩ := exact'.units u (full u (List.mem_range.mp member))
    exact List.mem_flatMap.mpr ⟨chan, inside, mem_units.mpr own⟩
  have less := length_flatMap_le sizes
  omega

/-- And there is a logical channel. -/
theorem logic_left (mapped : Mapped cfg card chans) (exact' : Exact cfg card chans)
    (all : ∀ chan ∈ chans, chan.logicChNum.isSome = true) (once : chans.Nodup) {more : List Nat}
    (nodup : more.Nodup) (some : more ≠ []) (inside : ∀ i ∈ more, i ∈ usable cfg)
    (free : ∀ i ∈ more, card.timeSlotMap.getLsbD i = false) :
    ¬ ∀ l < cfg.numOfTimeSlots, card.logicChMap.getLsbD l = true := by
  intro full
  have fit := slots_fit mapped exact' all once nodup inside free
  have pos : 0 < more.length := List.length_pos_of_ne_nil some
  have small := usable_lt cfg
  have each : ∀ chan ∈ chans, (chan.logicChNum.toList).length ≤ (chan.slots cfg).length := by
    intro chan member
    have one := List.length_pos_of_ne_nil (exact'.some chan member (all chan member))
    cases chan.logicChNum with
    | none => exact Nat.zero_le _
    | some l => exact one
  have logics : cfg.numOfTimeSlots ≤ (chans.flatMap fun chan => chan.logicChNum.toList).length := by
    conv_lhs => rw [← List.length_range (n := cfg.numOfTimeSlots)]
    refine (List.Nodup.subperm List.nodup_range ?_).length_le
    intro l member
    obtain ⟨chan, inside, has⟩ := (mapped.logic l).mp (full l (List.mem_range.mp member))
    exact List.mem_flatMap.mpr ⟨chan, inside, by rw [has]; exact List.mem_singleton_self l⟩
  have less := length_flatMap_le each
  omega

/-- A channel with time slots that are free is not refused. -/
theorem never_refused (roomy : Roomy cfg) (mapped : Mapped cfg card chans)
    (exact' : Exact cfg card chans) (all : ∀ chan ∈ chans, chan.logicChNum.isSome = true)
    (once : chans.Nodup) {card' : Card} {chan chan' : Chan}
    (counted : chan.numOfTimeSlots = (chan.slots cfg).length) (some : chan.slots cfg ≠ [])
    (inside : ∀ i ∈ chan.slots cfg, i ∈ usable cfg) (refused : Refused cfg card card' chan chan') :
    card' = card ∧ ∃ i ∈ chan.slots cfg, card.timeSlotMap.getLsbD i = true := by
  refine refused.why.resolve_right ?_
  rintro ⟨free, size | units | logic⟩
  · have nodup := slots_nodup cfg chan
    have few : (chan.slots cfg).length ≤ (usable cfg).length :=
      (List.Nodup.subperm nodup inside).length_le
    obtain ⟨exp, asked, -⟩ := reqFifoSize_some roomy (List.length_pos_of_ne_nil some) few
    rw [counted, asked] at size
    cases size
  · exact unit_left roomy mapped exact' all once (slots_nodup cfg chan) some inside free units
  · refine logic_left mapped exact' all once (slots_nodup cfg chan) some inside free fun l below => ?_
    refine (logic l below).resolve_left fun none => ?_
    rw [roomy.channelised] at none
    cases none

theorem Exact.granted (roomy : Roomy cfg) (exact' : Exact cfg card chans) {chan chan' : Chan}
    {logicCh : Nat} (grant : Granted cfg card chan chan' logicCh)
    (counted : chan.numOfTimeSlots = (chan.slots cfg).length) (some : chan.slots cfg ≠ [])
    (inside : ∀ i ∈ chan.slots cfg, i ∈ usable cfg) :
    Exact cfg (granted cfg card chan' logicCh) (chans ++ [chan']) := by
  obtain ⟨-, slots, logic, -, -, -⟩ := grant.fields
  have mem : ∀ {c}, c ∈ chans ++ [chan'] ↔ c ∈ chans ∨ c = chan' := by
    intro c
    rw [List.mem_append, List.mem_singleton]
  refine ⟨fun u used => ?_, fun c member has => ?_, fun c member has => ?_, fun c member i own => ?_⟩
  · rcases (granted_unit grant.block logicCh u).mp used with old | own
    · obtain ⟨c, member, has, own⟩ := exact'.units u old
      exact ⟨c, mem.mpr (.inl member), has, own⟩
    · exact ⟨chan', mem.mpr (.inr rfl), by rw [logic]; rfl, own⟩
  · rcases mem.mp member with member | rfl
    · exact exact'.sizes c member has
    · rw [slots]
      obtain ⟨exp, asked, less, -⟩ := grant.sized
      have few : (chan.slots cfg).length ≤ (usable cfg).length :=
        (List.Nodup.subperm (slots_nodup cfg chan) inside).length_le
      obtain ⟨exp', asked', fits⟩ := reqFifoSize_some roomy (List.length_pos_of_ne_nil some) few
      rw [counted, asked'] at asked
      cases asked
      exact fits.imp_left less.trans
  · rcases mem.mp member with member | rfl
    · exact exact'.some c member has
    · rw [slots]
      exact some
  · rcases mem.mp member with member | rfl
    · exact exact'.inside c member i own
    · rw [slots] at own
      exact inside i own

theorem Exact.unmapped (exact' : Exact cfg card chans) {chan : Chan} (none : chan.logicChNum = none)
    (inside : ∀ i ∈ chan.slots cfg, i ∈ usable cfg) : Exact cfg card (chans ++ [chan]) := by
  have rest : ∀ {c}, c ∈ chans ++ [chan] → c.logicChNum.isSome = true → c ∈ chans := by
    intro c member has
    rcases List.mem_append.mp member with member | member
    · exact member
    · rw [List.mem_singleton.mp member, none] at has
      cases has
  refine ⟨fun u used => ?_, fun c member has => exact'.sizes c (rest member has) has,
    fun c member has => exact'.some c (rest member has) has, fun c member i own => ?_⟩
  · obtain ⟨c, member, both⟩ := exact'.units u used
    exact ⟨c, List.mem_append_left _ member, both⟩
  · rcases List.mem_append.mp member with member | member
    · exact exact'.inside c member i own
    · rw [List.mem_singleton.mp member] at own
      exact inside i own

theorem Exact.removed (exact' : Exact cfg card chans)
    (once : ∀ c ∈ chans, ∀ d ∈ chans, c.addr = d.addr → c = d) {card' : Card} {gone : Chan}
    (member : gone ∈ chans)
    (units : ∀ u, card'.fifoAddrMap.getLsbD u = true → card.fifoAddrMap.getLsbD u = true ∧
      (gone.logicChNum.isSome = true → ¬ gone.has u)) :
    Exact cfg card' (chans.filter fun other => other.addr != gone.addr) := by
  refine ⟨fun u used => ?_, fun c inside => exact'.sizes c (List.mem_of_mem_filter inside),
    fun c inside => exact'.some c (List.mem_of_mem_filter inside),
    fun c inside => exact'.inside c (List.mem_of_mem_filter inside)⟩
  obtain ⟨old, free⟩ := units u used
  obtain ⟨c, inside, has, own⟩ := exact'.units u old
  refine ⟨c, List.mem_filter.mpr ⟨inside, bne_iff_ne.mpr fun same => ?_⟩, has, own⟩
  rw [once c inside gone member same] at has own
  exact free has own

end Room

/-! ## The parts of an interface -/

theorem mem_usable {cfg : Cfg} {i : Nat} :
    i ∈ usable cfg ↔ i < cfg.numOfTimeSlots ∧ (cfg.isE1 = true → i ≠ 0) := by
  rw [usable, List.mem_filter, List.mem_range, Bool.not_eq_true', Bool.and_eq_false_imp]
  simp only [beq_eq_false_iff_ne]

/-- A time slot map without the slot that a framed E1 line keeps for itself. -/
def Clear (cfg : Cfg) (map : BitVec 32) : Prop := cfg.isE1 = true → map.getLsbD 0 = false

section Parts

variable {cfg : Cfg}

theorem Roomy.shifts (roomy : Roomy cfg) : (cfg.isE1 && !cfg.unframed) = cfg.isE1 := by
  rcases roomy.framed with t1 | ⟨e1, framed⟩
  · unfold Cfg.isE1
    rw [t1]
    rfl
  · rw [framed, Bool.not_false, Bool.and_true]

theorem clear_activeCh (roomy : Roomy cfg) (map : BitVec 32) : Clear cfg (cfg.activeCh map) := by
  intro e1
  unfold Cfg.activeCh
  rw [roomy.shifts, if_pos e1, getLsbD_clearBit]
  simp

theorem clear_dchanFor (roomy : Roomy cfg) (usage : Usage) (dchan : BitVec 32) :
    Clear cfg (dchanFor cfg usage dchan).1 := by
  intro e1
  cases usage with
  | data => exact BitVec.getLsbD_zero
  | span | channels =>
    change (aftFindMasterIfAndDchan cfg dchan).1.getLsbD 0 = false
    unfold aftFindMasterIfAndDchan
    rw [roomy.shifts]
    simp only [if_pos e1]
    rw [getLsbD_clearBit]
    simp

theorem mem_single {map : BitVec 32} {channelized : Bool} {part : Part} :
    part ∈ single cfg map channelized ↔
      ∃ i < cfg.numOfTimeSlots, map.getLsbD i = true ∧ part = ⟨setBit 0#32 i, channelized⟩ := by
  unfold single
  rw [List.mem_map]
  simp only [List.mem_filter, List.mem_range]
  constructor
  · rintro ⟨i, ⟨inside, has⟩, rfl⟩
    exact ⟨i, inside, has, rfl⟩
  · rintro ⟨i, inside, has, rfl⟩
    exact ⟨i, ⟨inside, has⟩, rfl⟩

theorem clear_single {map : BitVec 32} (clear : Clear cfg map) {channelized : Bool} {part : Part}
    (member : part ∈ single cfg map channelized) : Clear cfg part.activeCh := by
  obtain ⟨i, inside, has, rfl⟩ := mem_single.mp member
  intro e1
  rw [getLsbD_setBit, BitVec.getLsbD_zero, Bool.false_or, Bool.and_eq_false_imp]
  intro _
  rw [decide_eq_false_iff_not]
  rintro rfl
  rw [clear e1] at has
  cases has

theorem clear_parts {usage : Usage} {activeCh dchan : BitVec 32} (clear : Clear cfg activeCh)
    (clear' : Clear cfg dchan) {part : Part} (member : part ∈ parts cfg usage activeCh dchan) :
    Clear cfg part.activeCh := by
  cases usage with
  | data =>
    rw [show part = ⟨activeCh, false⟩ from List.mem_singleton.mp member]
    exact clear
  | span =>
    rcases List.mem_append.mp member with member | member
    · split at member
      · exact absurd member List.not_mem_nil
      · rw [List.mem_singleton.mp member]
        intro e1
        rw [BitVec.getLsbD_and, clear e1]
        rfl
    · exact clear_single clear' member
  | channels => exact clear_single clear member

theorem newChan_slots {state : State} {dev : Nat} {part : Part} {setup : Setup} {chan : Chan}
    (map : chan.timeSlotMap = (newChan cfg state.nextAddr dev part setup).timeSlotMap)
    (clear : Clear cfg part.activeCh) : ∀ i ∈ chan.slots cfg, i ∈ usable cfg := by
  intro i member
  obtain ⟨inside, has⟩ := mem_slots.mp member
  rw [map] at has
  refine mem_usable.mpr ⟨inside, ?_⟩
  rintro e1 rfl
  rw [show (newChan cfg state.nextAddr dev part setup).timeSlotMap = part.activeCh from rfl,
    clear e1] at has
  cases has

end Parts

/-! ## Runs -/

section Runs

variable {cfg : Cfg} {state : State} {dev : Nat}

theorem Sound.nodup (sound : Sound cfg state) : state.chans.Nodup := sound.addrs.of_map

theorem readyChan_some {part : Part} {setup : Setup}
    (some : aftGetNumOfSlots cfg.numOfTimeSlots part.activeCh ≠ 0) :
    (readyChan cfg state dev part setup).slots cfg ≠ [] := by
  intro none
  refine some ?_
  have length := slots_length cfg (readyChan cfg state dev part setup)
  rw [none] at length
  exact length

/-- An attempt to make a channel loses no fifo memory. -/
theorem Attempt.exact' (roomy : Roomy cfg) {part : Part} {setup : Setup} {state' : State} {ok : Bool}
    (attempt : Attempt cfg state dev part setup state' ok) (sound : Sound cfg state)
    (all : Configured state) (before : Exact cfg state.card state.chans)
    (clear : Clear cfg part.activeCh) : Exact cfg state'.card state'.chans := by
  have inside : ∀ {chan : Chan}, chan.timeSlotMap = part.activeCh →
      ∀ i ∈ chan.slots cfg, i ∈ usable cfg := fun {chan} map =>
    @newChan_slots cfg state dev part setup chan map clear
  have length := (slots_length cfg (readyChan cfg state dev part setup))
  cases attempt with
  | turnedAway => exact before
  | unready chan same =>
    refine before.unmapped ?_ (inside ?_)
    all_goals (rw [same]; rfl)
  | refused card chan why some =>
    obtain ⟨rfl, -⟩ := never_refused roomy sound.mapped before all sound.nodup length
      (readyChan_some some) (inside rfl) why
    refine before.unmapped ?_ (inside ?_)
    all_goals (rw [why.same]; rfl)
  | late chan logicCh grant some why =>
    exact before.granted roomy grant length (readyChan_some some) (inside rfl)
  | made chan logicCh grant some =>
    have after := before.granted roomy grant length (readyChan_some some) (inside rfl)
    exact { after with }

theorem partsLoop_exact (roomy : Roomy cfg) {list : List (Part × Setup)} (sound : Sound cfg state)
    (all : Configured state) (before : Exact cfg state.card state.chans)
    (clear : ∀ pair ∈ list, Clear cfg pair.1.activeCh) :
    Exact cfg (partsLoop cfg dev state list).1.card (partsLoop cfg dev state list).1.chans := by
  induction list generalizing state with
  | nil => exact before
  | cons head list hyp =>
    obtain ⟨part, setup⟩ := head
    have attempt := newIfPrivate_attempt cfg state dev part setup sound.mapped.agrees
    unfold partsLoop
    cases made : newIfPrivate cfg state dev part setup with
    | mk next ok =>
    rw [made] at attempt
    obtain ⟨sound', adds⟩ := attempt.sound sound
    have after := attempt.exact' roomy sound all before (clear _ List.mem_cons_self)
    cases ok with
    | false => exact after
    | true =>
      exact hyp sound' (adds.configured rfl all) after fun pair member =>
        clear pair (List.mem_cons_of_mem _ member)

theorem delIfPrivate_exact (sound : Sound cfg state) (before : Exact cfg state.card state.chans)
    {chan : Chan} (member : chan ∈ state.chans) :
    Exact cfg (delIfPrivate cfg state chan).card (delIfPrivate cfg state chan).chans := by
  have units : ∀ u, (aftDevUnconfigure cfg state.card chan).1.fifoAddrMap.getLsbD u = true →
      state.card.fifoAddrMap.getLsbD u = true ∧ (chan.logicChNum.isSome = true → ¬ chan.has u) := by
    intro u used
    unfold aftDevUnconfigure at used
    cases has : chan.logicChNum with
    | none =>
      rw [a104ChanDevUnconfig_none has] at used
      exact ⟨used, fun bad => absurd bad Bool.false_ne_true⟩
    | some logicCh =>
      rw [a104ChanDevUnconfig_eq has] at used
      have block := (sound.mapped.blocks chan member (by rw [has]; rfl)).1
      obtain ⟨old, free⟩ := (freed_unit block logicCh u).mp used
      exact ⟨old, fun _ => free⟩
  have after := before.removed sound.once member units
  exact { after with }

theorem delIf_exact (sound : Sound cfg state) (before : Exact cfg state.card state.chans) :
    Exact cfg (delIf cfg state dev).card (delIf cfg state dev).chans := by
  have loop : ∀ {list : List Chan} {state : State}, Sound cfg state →
      Exact cfg state.card state.chans → (list.map Chan.addr).Nodup →
      (∀ chan ∈ list, chan ∈ state.chans) →
      Exact cfg (list.foldl (delIfPrivate cfg) state).card
        (list.foldl (delIfPrivate cfg) state).chans := by
    intro list
    induction list with
    | nil => exact fun _ before _ _ => before
    | cons chan list hyp =>
      intro state sound before once inside
      obtain ⟨fresh, once⟩ := List.nodup_cons.mp once
      have member := inside chan List.mem_cons_self
      refine hyp (delIfPrivate_sound sound member) (delIfPrivate_exact sound before member) once
        fun other later => List.mem_filter.mpr ⟨inside other (List.mem_cons_of_mem _ later), ?_⟩
      rw [bne_iff_ne]
      intro same
      exact fresh (same ▸ List.mem_map_of_mem later)
  exact loop sound before ((List.filter_sublist.map Chan.addr).nodup sound.addrs)
    fun chan member => List.mem_of_mem_filter (p := fun chan => chan.dev == dev) member

theorem newIfParts_exact (roomy : Roomy cfg) {list : List (Part × Setup)} (sound : Sound cfg state)
    (all : Configured state) (before : Exact cfg state.card state.chans)
    (clear : ∀ pair ∈ list, Clear cfg pair.1.activeCh) :
    Exact cfg (newIfParts cfg state dev list).card (newIfParts cfg state dev list).chans := by
  have after := @partsLoop_exact cfg state dev roomy list sound all before clear
  have stays := @partsLoop_sound cfg dev list state sound all
  unfold newIfParts
  cases done : partsLoop cfg dev state list with
  | mk next ok =>
  rw [done] at after stays
  cases ok with
  | true => exact after
  | false => exact delIf_exact stays.1 after

/-- The parts an interface is made of. -/
def State.parts (cfg : Cfg) (state : State) (usage : Usage) (activeCh : BitVec 32) : List Part :=
  Channels.parts cfg usage (cfg.activeCh activeCh) (dchanFor cfg usage state.card.dchan).1

theorem clear_state_parts (roomy : Roomy cfg) {usage : Usage} {activeCh : BitVec 32} {part : Part}
    (member : part ∈ state.parts cfg usage activeCh) : Clear cfg part.activeCh :=
  clear_parts (clear_activeCh roomy activeCh) (clear_dchanFor roomy usage state.card.dchan) member

theorem step_exact (roomy : Roomy cfg) (sound : Sound cfg state) (all : Configured state)
    (before : Exact cfg state.card state.chans) (op : Op) :
    Exact cfg (step cfg state op).card (step cfg state op).chans := by
  cases op with
  | delIf dev => exact delIf_exact sound before
  | newIf dev usage activeCh setups =>
    change Exact cfg (newIf cfg state dev usage activeCh setups).card
      (newIf cfg state dev usage activeCh setups).chans
    unfold newIf
    cases used : state.inUse dev with
    | true => exact before
    | false =>
      rw [if_neg Bool.false_ne_true]
      have before' : ∀ dchan : BitVec 32, Exact cfg { state.card with dchan := dchan } state.chans :=
        fun dchan => { before with }
      have sound' : ∀ dchan : BitVec 32,
          Sound cfg { state with card := { state.card with dchan := dchan } } := fun dchan =>
        ⟨mapped_counts sound.mapped _ _ dchan, sound.addrs, sound.known⟩
      dsimp only
      split
      · refine newIfParts_exact roomy (sound' _) all (before' _) fun pair member => ?_
        obtain ⟨⟨part, i⟩, found, rfl⟩ := List.mem_map.mp member
        exact clear_state_parts roomy (List.fst_mem_of_mem_zipIdx found)
      · exact before' _

theorem run_exact (roomy : Roomy cfg) (sound : Sound cfg state) (all : Configured state)
    (before : Exact cfg state.card state.chans) (ops : List Op) :
    Exact cfg (run cfg state ops).card (run cfg state ops).chans := by
  induction ops generalizing state with
  | nil => exact before
  | cons op ops hyp =>
    obtain ⟨sound', all'⟩ := step_sound sound all op
    exact hyp sound' all' (step_exact roomy sound all before op)

theorem started_exact (cfg : Cfg) (dchan : BitVec 32) (dmaRam : Nat → DmaRam) :
    Exact cfg (started dchan dmaRam).card (started dchan dmaRam).chans := by
  refine ⟨fun u used => ?_, fun chan member => absurd member List.not_mem_nil,
    fun chan member => absurd member List.not_mem_nil,
    fun chan member => absurd member List.not_mem_nil⟩
  rw [show (started dchan dmaRam).card.fifoAddrMap = 0#32 from rfl, BitVec.getLsbD_zero] at used
  cases used

/-! ## Getting what is asked for -/

/-- The time slots of a part, and that it has one, and that nobody else has any of them. -/
def Part.slots (cfg : Cfg) (part : Part) : List Nat :=
  (List.range cfg.numOfTimeSlots).filter part.activeCh.getLsbD

def Part.Free (cfg : Cfg) (card : Card) (part : Part) : Prop :=
  part.slots cfg ≠ [] ∧ ∀ i ∈ part.slots cfg, card.timeSlotMap.getLsbD i = false

theorem part_slots_length (cfg : Cfg) (part : Part) :
    aftGetNumOfSlots cfg.numOfTimeSlots part.activeCh = (part.slots cfg).length := by
  rw [aftGetNumOfSlots, Part.slots, List.countP_eq_length_filter]

theorem not_barred (roomy : Roomy cfg) (card : Card) : cfg.barred card = false := by
  unfold Cfg.barred
  rw [roomy.channelised]
  simp

/-- A part with free slots that nothing else stops becomes a channel. -/
theorem Attempt.makes (roomy : Roomy cfg) {part : Part} {setup : Setup} {state' : State} {ok : Bool}
    (attempt : Attempt cfg state dev part setup state' ok) (sound : Sound cfg state)
    (all : Configured state) (before : Exact cfg state.card state.chans)
    (clear : Clear cfg part.activeCh) (fine : setup.fails = .never) (free : part.Free cfg state.card) :
    ok = true ∧ ∃ chan, state'.chans = state.chans ++ [chan] ∧ chan.timeSlotMap = part.activeCh ∧
      chan.dev = dev ∧ ∀ i, state'.card.timeSlotMap.getLsbD i = true →
        state.card.timeSlotMap.getLsbD i = true ∨ i ∈ part.slots cfg := by
  cases attempt with
  | turnedAway why =>
    rw [not_barred roomy, fine] at why
    rcases why with bad | bad <;> cases bad
  | unready chan same why =>
    rw [fine, part_slots_length] at why
    rcases why with (none | bad) | ⟨bad, -⟩
    · exact absurd (List.length_eq_zero_iff.mp none) free.1
    · cases bad
    · cases bad
  | refused card chan why some =>
    obtain ⟨-, i, member, used⟩ := never_refused roomy sound.mapped before all sound.nodup
      (slots_length cfg (readyChan cfg state dev part setup))
      (show (readyChan cfg state dev part setup).slots cfg ≠ [] from free.1)
      (@newChan_slots cfg state dev part setup _ rfl clear) why
    rw [free.2 i member] at used
    cases used
  | late chan logicCh grant some why =>
    rw [fine] at why
    cases why
  | made chan logicCh grant some =>
    obtain ⟨-, slots, -, -, own, -⟩ := grant.fields
    refine ⟨rfl, chan, rfl, by rw [grant.same]; rfl, own, fun i used => ?_⟩
    rcases (granted_slot logicCh i).mp used with old | new
    · exact .inl old
    · rw [slots] at new
      exact .inr new

/-- What becomes a channel was free. -/
theorem Attempt.was_free {part : Part} {setup : Setup} {state' : State}
    (attempt : Attempt cfg state dev part setup state' true) :
    part.Free cfg state.card ∧
      ∀ i, state.card.timeSlotMap.getLsbD i = true → state'.card.timeSlotMap.getLsbD i = true := by
  cases attempt with
  | made chan logicCh grant some =>
    refine ⟨⟨fun none => ?_, grant.free⟩, fun i used => (granted_slot logicCh i).mpr (.inl used)⟩
    rw [part_slots_length, none] at some
    exact some rfl

theorem partsLoop_makes (roomy : Roomy cfg) {list : List (Part × Setup)} (sound : Sound cfg state)
    (all : Configured state) (before : Exact cfg state.card state.chans)
    (clear : ∀ pair ∈ list, Clear cfg pair.1.activeCh) (fine : ∀ pair ∈ list, pair.2.fails = .never)
    (apart : list.Pairwise fun pair other => ∀ i ∈ pair.1.slots cfg, i ∉ other.1.slots cfg)
    (free : ∀ pair ∈ list, pair.1.Free cfg state.card) :
    (partsLoop cfg dev state list).2 = true ∧
      ∃ more, (partsLoop cfg dev state list).1.chans = state.chans ++ more ∧
        more.map Chan.timeSlotMap = list.map (Part.activeCh ∘ Prod.fst) ∧
        ∀ chan ∈ more, chan.dev = dev := by
  induction list generalizing state with
  | nil =>
    exact ⟨rfl, [], (List.append_nil _).symm, rfl, fun _ member => absurd member List.not_mem_nil⟩
  | cons head list hyp =>
    obtain ⟨part, setup⟩ := head
    obtain ⟨others, apart⟩ := List.pairwise_cons.mp apart
    have attempt := newIfPrivate_attempt cfg state dev part setup sound.mapped.agrees
    unfold partsLoop
    cases made : newIfPrivate cfg state dev part setup with
    | mk next ok =>
    rw [made] at attempt
    obtain ⟨sound', adds⟩ := attempt.sound sound
    have after := attempt.exact' roomy sound all before (clear _ List.mem_cons_self)
    obtain ⟨good, chan, chans, map, own, slots⟩ := attempt.makes roomy sound all before
      (clear _ List.mem_cons_self) (fine _ List.mem_cons_self) (free _ List.mem_cons_self)
    simp only at good
    subst good
    obtain ⟨good, more, chans', maps, own'⟩ := hyp sound' (adds.configured rfl all) after
      (fun pair member => clear pair (List.mem_cons_of_mem _ member))
      (fun pair member => fine pair (List.mem_cons_of_mem _ member)) apart
      (fun pair member => by
        obtain ⟨some, unused⟩ := free pair (List.mem_cons_of_mem _ member)
        refine ⟨some, fun i inside => Bool.eq_false_iff.mpr fun used => ?_⟩
        rcases slots i used with old | new
        · rw [unused i inside] at old
          cases old
        · exact others pair member i new inside)
    refine ⟨good, chan :: more, ?_, ?_, fun other member => ?_⟩
    · rw [chans', chans, List.append_assoc, List.singleton_append]
    · rw [List.map_cons, maps, map, List.map_cons]
      rfl
    · rcases List.mem_cons.mp member with rfl | member
      exacts [own, own' other member]

theorem partsLoop_was_free {list : List (Part × Setup)} (sound : Sound cfg state)
    (made : (partsLoop cfg dev state list).2 = true) : ∀ pair ∈ list, pair.1.Free cfg state.card := by
  induction list generalizing state with
  | nil => exact fun _ member => absurd member List.not_mem_nil
  | cons head list hyp =>
    obtain ⟨part, setup⟩ := head
    have attempt := newIfPrivate_attempt cfg state dev part setup sound.mapped.agrees
    unfold partsLoop at made
    cases done : newIfPrivate cfg state dev part setup with
    | mk next ok =>
    rw [done] at attempt made
    cases ok with
    | false => cases made
    | true =>
      obtain ⟨sound', -⟩ := attempt.sound sound
      obtain ⟨free, stays⟩ := attempt.was_free
      intro pair member
      rcases List.mem_cons.mp member with rfl | member
      · exact free
      · obtain ⟨some, unused⟩ := hyp sound' made pair member
        refine ⟨some, fun i inside => Bool.eq_false_iff.mpr fun used => ?_⟩
        have later := stays i used
        rw [unused i inside] at later
        cases later

theorem single_apart (cfg : Cfg) (map : BitVec 32) (channelized : Bool) :
    (single cfg map channelized).Pairwise fun part other =>
      ∀ i ∈ part.slots cfg, i ∉ other.slots cfg := by
  have own : ∀ {j i : Nat}, i ∈ (⟨setBit 0#32 j, channelized⟩ : Part).slots cfg → i = j := by
    intro j i member
    have has := (List.mem_filter.mp member).2
    rw [getLsbD_setBit, BitVec.getLsbD_zero, Bool.false_or, Bool.and_eq_true] at has
    exact of_decide_eq_true has.2
  unfold single
  rw [List.pairwise_map]
  have distinct : ((List.range cfg.numOfTimeSlots).filter map.getLsbD).Nodup := List.nodup_range.filter _
  exact distinct.imp fun other i member member' => other ((own member).symm.trans (own member'))

theorem parts_apart (cfg : Cfg) (usage : Usage) (activeCh dchan : BitVec 32) :
    (parts cfg usage activeCh dchan).Pairwise fun part other =>
      ∀ i ∈ part.slots cfg, i ∉ other.slots cfg := by
  cases usage with
  | data => exact List.pairwise_singleton _ _
  | channels => exact single_apart cfg activeCh true
  | span =>
    refine List.pairwise_append.mpr ⟨?_, single_apart cfg dchan false, ?_⟩
    · split
      · exact List.Pairwise.nil
      · exact List.pairwise_singleton _ _
    · intro part member other member' i own own'
      obtain ⟨j, -, has, rfl⟩ := mem_single.mp member'
      split at member
      · exact absurd member List.not_mem_nil
      · rw [List.mem_singleton.mp member] at own
        have voice := (List.mem_filter.mp own).2
        have signal := (List.mem_filter.mp own').2
        rw [getLsbD_setBit, BitVec.getLsbD_zero, Bool.false_or, Bool.and_eq_true] at signal
        have same : i = j := of_decide_eq_true signal.2
        rw [BitVec.getLsbD_and, BitVec.getLsbD_not, same, has] at voice
        simp at voice

theorem part_free_iff (mapped : Mapped cfg state.card state.chans) (all : Configured state)
    {part : Part} :
    part.Free cfg state.card ↔
      part.slots cfg ≠ [] ∧ ∀ i ∈ part.slots cfg, ∀ chan ∈ state.chans, i ∉ chan.slots cfg := by
  refine and_congr_right fun _ => forall₂_congr fun i _ => ?_
  rw [Bool.eq_false_iff, Ne, mapped.slots i]
  constructor
  · intro nobody chan member own
    exact nobody ⟨chan, member, all chan member, own⟩
  · rintro nobody ⟨chan, member, -, own⟩
    exact nobody chan member own

/-- A new interface gets a channel for each of its parts when their time slots are free, and nothing is
left of it when they are not. -/
theorem newIf_grants (roomy : Roomy cfg) (sound : Sound cfg state) (all : Configured state)
    (before : Exact cfg state.card state.chans) (usage : Usage) (activeCh : BitVec 32)
    (setups : Nat → Setup) (fresh : state.inUse dev = false) (fine : ∀ i, (setups i).fails = .never) :
    let after := newIf cfg state dev usage activeCh setups
    let wanted := (dchanFor cfg usage state.card.dchan).2 = true ∧
      ∀ part ∈ state.parts cfg usage activeCh, part.Free cfg state.card
    (wanted → ∃ more, after.chans = state.chans ++ more ∧
        more.map Chan.timeSlotMap = (state.parts cfg usage activeCh).map Part.activeCh ∧
        ∀ chan ∈ more, chan.dev = dev) ∧
      (¬ wanted → after.chans = state.chans) := by
  intro after wanted
  have sound' : Sound cfg { state with card :=
      { state.card with dchan := (dchanFor cfg usage state.card.dchan).1 } } :=
    ⟨mapped_counts sound.mapped _ _ _, sound.addrs, sound.known⟩
  have exact' : Exact cfg { state.card with dchan := (dchanFor cfg usage state.card.dchan).1 }
      state.chans := { before with }
  have steps : after =
      if (dchanFor cfg usage state.card.dchan).2 then
        newIfParts cfg { state with card :=
            { state.card with dchan := (dchanFor cfg usage state.card.dchan).1 } } dev
          ((state.parts cfg usage activeCh).zipIdx.map fun pair => (pair.1, setups pair.2))
      else { state with card :=
            { state.card with dchan := (dchanFor cfg usage state.card.dchan).1 } } := by
    change newIf cfg state dev usage activeCh setups = _
    unfold newIf
    rw [fresh, if_neg Bool.false_ne_true]
    rfl
  have pairs : ∀ pair ∈ (state.parts cfg usage activeCh).zipIdx.map fun pair => (pair.1, setups pair.2),
      pair.1 ∈ state.parts cfg usage activeCh ∧ pair.2.fails = .never := by
    intro pair member
    obtain ⟨⟨part, i⟩, found, rfl⟩ := List.mem_map.mp member
    exact ⟨List.fst_mem_of_mem_zipIdx found, fine i⟩
  have firsts : ((state.parts cfg usage activeCh).zipIdx.map fun pair => (pair.1, setups pair.2)).map
      Prod.fst = state.parts cfg usage activeCh := by
    rw [List.map_map]
    exact List.zipIdx_map_fst 0 _
  have stays := @partsLoop_sound cfg dev
    ((state.parts cfg usage activeCh).zipIdx.map fun pair => (pair.1, setups pair.2)) _ sound' all
  have others := List.any_eq_false.mp fresh
  constructor
  · rintro ⟨found, free⟩
    have apart : ((state.parts cfg usage activeCh).zipIdx.map fun pair =>
        (pair.1, setups pair.2)).Pairwise fun pair other => ∀ i ∈ pair.1.slots cfg, i ∉ other.1.slots cfg := by
      have all := parts_apart cfg usage (cfg.activeCh activeCh) (dchanFor cfg usage state.card.dchan).1
      rw [show parts cfg usage (cfg.activeCh activeCh) (dchanFor cfg usage state.card.dchan).1 =
        state.parts cfg usage activeCh from rfl, ← firsts] at all
      exact List.pairwise_map.mp all
    obtain ⟨good, more, chans, maps, own⟩ := @partsLoop_makes cfg _ dev roomy _ sound' all exact'
      (fun pair member => clear_state_parts roomy (pairs pair member).1)
      (fun pair member => (pairs pair member).2) apart fun pair member => free _ (pairs pair member).1
    refine ⟨more, ?_, ?_, own⟩
    · rw [steps, if_pos found, ← chans, newIfParts]
      split
      · rename_i next done
        rw [done]
      · rename_i next done
        rw [done] at good
        cases good
    · rw [maps, ← List.map_map, firsts]
  · intro unwanted
    rw [steps]
    split
    · rename_i found
      unfold newIfParts
      split
      · rename_i next done
        refine absurd ⟨found, fun part member => ?_⟩ unwanted
        have free := @partsLoop_was_free cfg _ dev _ sound' (by rw [done])
        rw [← firsts] at member
        obtain ⟨pair, inside, rfl⟩ := List.mem_map.mp member
        exact free pair inside
      · rename_i next done
        rw [done] at stays
        obtain ⟨sound'', ⟨more, chans, own⟩, -⟩ := stays
        rw [(delIf_sound sound'' dev).2, chans, List.filter_append,
          List.filter_eq_self.mpr fun chan member => by simpa using others chan member,
          List.filter_eq_nil_iff.mpr fun chan member => by rw [own chan member]; simp,
          List.append_nil]
    · rfl

end Runs

def t1Cfg : Cfg := ⟨.t1, false, true, 1⟩

def hdlcSetup (fails : Fails) : Setup := ⟨fails, 1500, true, false, false, false⟩

def clearRam : Nat → DmaRam := fun _ => ⟨0, 0, false, false, none⟩

end Wanpipe.Aft.Channels
