import Wanpipe.Aft.ReceiveRuns

/-! Which descriptor of a channel that receives is to interrupt. -/

namespace Wanpipe.Aft.Receive

open Wanpipe.Circle Line Relation Runs

/-- The descriptor is in use, and its interrupt is on. -/
def armed (chan : Chan) (i : Nat) : Bool :=
  (chan.table i).skb.isSome && !(chan.reg i).intrDisable

/-- `RX_INTR_PENDING` says whether there is an armed descriptor. It is set when all are in use. -/
structure Alarm (chan : Chan) : Prop where
  one : ∀ i < maxAftDmaChains, ∀ j < maxAftDmaChains, armed chan i = true → armed chan j = true → i = j
  flag : chan.rxIntrPending = true ↔ ∃ i < maxAftDmaChains, armed chan i = true
  asks : (∀ i < maxAftDmaChains, (chan.table i).skb.isSome = true) → chan.rxIntrPending = true

/-- `RX_INTR_PENDING` is set and no descriptor is armed. -/
structure Deaf (chan : Chan) : Prop where
  flag : chan.rxIntrPending = true
  unarmed : ∀ i < maxAftDmaChains, armed chan i = false

section Steps

variable {cfg : Cfg} {chan next : Chan} {done used most : Nat} {freeing : Bool}

theorem armed_congr {i : Nat} (table : next.table i = chan.table i)
    (intr : (next.reg i).intrDisable = (chan.reg i).intrDisable) : armed next i = armed chan i := by
  rw [armed, armed, table, intr]

theorem armed_apart (apart : Apart chan next) (i : Nat) : armed next i = armed chan i :=
  armed_congr (congrFun apart.table i) (by rw [apart.reg])

theorem armed_stores (go : (chan.reg chan.cur).go = true) (stored : Stored) (i : Nat) :
    armed (cardStores chan stored) i = armed chan i := by
  rw [cardStores_eq go]
  refine armed_congr rfl ?_
  dsimp only [Chan.setReg]
  by_cases same : i = chan.cur
  · rw [same, Function.update_self]
  · rw [Function.update_of_ne same]

theorem armed_handles (connected : Bool) (buf : Buf) (stored : Stored) (i : Nat) :
    armed (handle cfg connected chan buf stored) i =
      if i = chan.rxPendingChainIndx then false else armed chan i := by
  obtain ⟨table, reg, -⟩ := handle_ring cfg connected chan buf stored
  rw [armed, table, reg]
  split
  · next same =>
      rw [same, Function.update_self]
      rfl
  · next other =>
      rw [Function.update_of_ne other]
      rfl

theorem flag_handles (connected : Bool) (buf : Buf) (stored : Stored) :
    (handle cfg connected chan buf stored).rxIntrPending =
      (chan.rxIntrPending && (chan.reg chan.rxPendingChainIndx).intrDisable) := by
  unfold handle
  dsimp only [Chan.setDescr]
  split
  · next off => rw [(takeOver_apart cfg connected chan buf stored).flag, off, Bool.and_true]
  · next on =>
      rw [(takeOver_apart cfg connected { chan with rxIntrPending := false } buf stored).flag,
        Bool.eq_false_iff.mpr on, Bool.and_false]

/-- What is asked of the card with the descriptor at the chain index. -/
def asked (chan : Chan) (ptr freeLen : Nat) : Bool :=
  !chan.rxIntrPending && wantsIntr chan ptr (freeLen - 1)

theorem armed_posts (spaced : cfg.irqAll = false) (ptr freeLen : Nat) (buf : Buf) (i : Nat) :
    armed (post cfg ptr freeLen chan buf) i =
      if i = chan.rxChainIndx then asked chan ptr freeLen else armed chan i := by
  unfold post aftDmaChainRx armed asked
  dsimp only [Chan.setDescr, Chan.setReg]
  rw [spaced, if_neg Bool.false_ne_true]
  by_cases same : i = chan.rxChainIndx
  · rw [same, Function.update_self, Function.update_self, if_pos rfl, Option.isSome_some, Bool.true_and,
      Bool.not_not]
  · rw [Function.update_of_ne same, Function.update_of_ne same, if_neg same]

theorem flag_posts (ptr freeLen : Nat) (buf : Buf) :
    (post cfg ptr freeLen chan buf).rxIntrPending = (chan.rxIntrPending || asked chan ptr freeLen) := rfl

/-- The descriptor that a buffer is put into is free. -/
theorem Ring.unarmed (ring : Ring chan done used) (room : used < maxAftDmaChains) :
    chan.rxChainIndx < maxAftDmaChains ∧ (chan.table chan.rxChainIndx).skb.isSome = false := by
  have bound : chan.rxChainIndx < maxAftDmaChains := by
    rw [ring.next]
    exact place_lt ring.pending room
  refine ⟨bound, ?_⟩
  rw [Bool.eq_false_iff]
  intro present
  have near := ring.inside _ bound present
  rw [ring.next, offset_place ring.pending room] at near
  exact Nat.lt_irrefl used near

/-- The last descriptor that is free asks for an interrupt if the card was at most three descriptors
ahead of the pending one. -/
theorem wantsIntr_last {ahead freeLen : Nat} (inside : chan.rxPendingChainIndx < maxAftDmaChains)
    (near : ahead ≤ 3) (last : chan.rxChainIndx = place maxAftDmaChains chan.rxPendingChainIndx 15) :
    wantsIntr chan (place maxAftDmaChains chan.rxPendingChainIndx ahead) freeLen = true := by
  unfold wantsIntr
  rw [last]
  unfold place maxAftDmaChains at *
  split
  · rfl
  · repeat' split
    all_goals
      rw [decide_eq_true_eq]
      omega

theorem Alarm.same (alarm : Alarm chan) (arms : ∀ i, armed next i = armed chan i)
    (table : next.table = chan.table) (flag : next.rxIntrPending = chan.rxIntrPending) : Alarm next := by
  refine ⟨?_, ?_, ?_⟩
  · intro i first j second left right
    rw [arms] at left right
    exact alarm.one i first j second left right
  · rw [flag, alarm.flag]
    exact exists_congr fun i => and_congr_right fun _ => by rw [arms]
  · rw [flag, table]
    exact alarm.asks

theorem Alarm.handles (alarm : Alarm chan) (ring : Ring chan done used) (connected : Bool) (buf : Buf)
    (stored : Stored) (present : (chan.table chan.rxPendingChainIndx).skb = some buf) :
    Alarm (handle cfg connected chan buf stored) := by
  have here := ring.pending
  have arms := @armed_handles cfg chan connected buf stored
  have told : armed chan chan.rxPendingChainIndx = !(chan.reg chan.rxPendingChainIndx).intrDisable := by
    rw [armed, present]
    rfl
  refine ⟨?_, ?_, ?_⟩
  · intro i first j second left right
    rw [arms] at left right
    split at left
    · cases left
    · split at right
      · cases right
      · exact alarm.one i first j second left right
  · rw [flag_handles, Bool.and_eq_true, alarm.flag]
    constructor
    · rintro ⟨⟨i, inside, on⟩, off⟩
      refine ⟨i, inside, ?_⟩
      rw [arms, if_neg, on]
      intro same
      rw [same, told, off] at on
      cases on
    · rintro ⟨i, inside, on⟩
      rw [arms] at on
      split at on
      · cases on
      · next other =>
          refine ⟨⟨i, inside, on⟩, ?_⟩
          by_contra disabled
          rw [Bool.not_eq_true] at disabled
          rw [disabled] at told
          exact other (alarm.one i inside _ here on told)
  · intro every
    obtain ⟨table, -⟩ := handle_ring cfg connected chan buf stored
    have emptied := every _ here
    rw [table, Function.update_self] at emptied
    cases emptied

theorem Alarm.posts (alarm : Alarm chan) (spaced : cfg.irqAll = false) (ring : Ring chan done used)
    (room : used < maxAftDmaChains) {ahead : Nat} (near : ahead ≤ 3) (freeLen : Nat) (buf : Buf) :
    Alarm (post cfg (place maxAftDmaChains chan.rxPendingChainIndx ahead) freeLen chan buf) := by
  obtain ⟨bound, free⟩ := ring.unarmed room
  have arms := @armed_posts cfg chan spaced (place maxAftDmaChains chan.rxPendingChainIndx ahead) freeLen buf
  have before : armed chan chan.rxChainIndx = false := by
    rw [armed, free]
    rfl
  have only : asked chan (place maxAftDmaChains chan.rxPendingChainIndx ahead) freeLen = true →
      ∀ i < maxAftDmaChains, armed chan i = false := by
    intro wants i inside
    rw [asked, Bool.and_eq_true, Bool.not_eq_true'] at wants
    rw [Bool.eq_false_iff]
    intro on
    have set := alarm.flag.mpr ⟨i, inside, on⟩
    rw [wants.1] at set
    cases set
  refine ⟨?_, ?_, ?_⟩
  · intro i first j second left right
    rw [arms] at left right
    split at left <;> split at right
    · next same other => rw [same, other]
    · rw [only left j second] at right
      cases right
    · rw [only right i first] at left
      cases left
    · exact alarm.one i first j second left right
  · rw [flag_posts, Bool.or_eq_true, alarm.flag]
    constructor
    · rintro (⟨i, inside, on⟩ | wants)
      · refine ⟨i, inside, ?_⟩
        rw [arms, if_neg, on]
        intro same
        rw [same, before] at on
        cases on
      · refine ⟨chan.rxChainIndx, bound, ?_⟩
        rw [arms, if_pos rfl, wants]
    · rintro ⟨i, inside, on⟩
      rw [arms] at on
      split at on
      · exact Or.inr on
      · exact Or.inl ⟨i, inside, on⟩
  · intro every
    have last : used = 15 := by
      by_contra fewer
      have furthest := place_lt ring.pending (by decide : 15 < maxAftDmaChains)
      have present := every _ furthest
      have other : place maxAftDmaChains chan.rxPendingChainIndx 15 ≠ chan.rxChainIndx := by
        intro same
        have offsets := offset_place ring.pending (by decide : 15 < maxAftDmaChains)
        rw [same, ring.next, offset_place ring.pending room] at offsets
        exact fewer offsets
      have inUse : (chan.table (place maxAftDmaChains chan.rxPendingChainIndx 15)).skb.isSome = true := by
        rw [← present]
        unfold post aftDmaChainRx
        dsimp only [Chan.setDescr, Chan.setReg]
        rw [Function.update_of_ne other]
      have inside := ring.inside _ furthest inUse
      rw [offset_place ring.pending (by decide)] at inside
      have few : maxAftDmaChains = 16 := rfl
      omega
    rw [flag_posts, Bool.or_eq_true]
    cases set : chan.rxIntrPending with
    | true => exact Or.inl rfl
    | false =>
        right
        rw [asked, set, wantsIntr_last ring.pending near (by rw [ring.next, last])]
        rfl

theorem Alarm.moves (spaced : cfg.irqAll = false) (alarm : Alarm chan)
    (move : Moves cfg 3 false chan next) (ring : Ring chan done used) : Alarm next := by
  cases move with
  | stores stored go =>
      apply alarm.same (armed_stores go stored) <;> rw [cardStores_eq go] <;> rfl
  | handles connected buf stored present _ => exact alarm.handles ring connected buf stored present
  | posts ahead done used freeLen buf rest _ ring room near =>
      have apart : Apart chan { chan with rxFree := rest } := ⟨rfl, rfl, rfl, rfl, rfl, rfl, rfl⟩
      exact (alarm.same (armed_apart apart) rfl rfl).posts spaced (ring.apart apart) room near freeLen buf
  | drops element rest _ =>
      have apart := dropElement_apart cfg chan element rest
      exact alarm.same (armed_apart apart) apart.table apart.flag
  | takes fate =>
      have apart := aftRxPostComplete_apart cfg fate chan
      exact alarm.same (armed_apart apart) apart.table apart.flag
  | frees _ _ wrong => cases wrong
  | resets ptr _ => exact alarm.same (fun _ => rfl) rfl rfl

/-- A channel without a descriptor in use. -/
theorem Alarm.of_empty (empty : ∀ i < maxAftDmaChains, (chan.table i).skb = none)
    (flag : chan.rxIntrPending = false) : Alarm chan := by
  have unarmed : ∀ i < maxAftDmaChains, armed chan i = true → False := by
    intro i inside on
    rw [armed, empty i inside] at on
    cases on
  refine ⟨fun i first _ _ left _ => (unarmed i first left).elim, ?_, ?_⟩
  · rw [flag]
    exact iff_of_false Bool.false_ne_true fun ⟨i, inside, on⟩ => unarmed i inside on
  · intro every
    have none := every 0 (by decide)
    rw [empty 0 (by decide)] at none
    cases none

theorem Deaf.of_empty (empty : ∀ i < maxAftDmaChains, (chan.table i).skb = none)
    (flag : chan.rxIntrPending = true) : Deaf chan := by
  refine ⟨flag, fun i inside => ?_⟩
  rw [armed, empty i inside]
  rfl

theorem Deaf.same (deaf : Deaf chan) (arms : ∀ i, armed next i = armed chan i)
    (flag : next.rxIntrPending = chan.rxIntrPending) : Deaf next := by
  refine ⟨flag.trans deaf.flag, fun i inside => ?_⟩
  rw [arms]
  exact deaf.unarmed i inside

theorem Deaf.moves (spaced : cfg.irqAll = false) (deaf : Deaf chan)
    (move : Moves cfg most freeing chan next) (ring : Ring chan done used) : Deaf next := by
  cases move with
  | stores stored go =>
      apply deaf.same (armed_stores go stored)
      rw [cardStores_eq go]
      rfl
  | handles connected buf stored present _ =>
      have quiet := deaf.unarmed _ ring.pending
      rw [armed, present, Option.isSome_some, Bool.true_and, Bool.not_eq_false'] at quiet
      refine ⟨?_, fun i inside => ?_⟩
      · rw [flag_handles, deaf.flag, quiet]
        rfl
      · rw [armed_handles]
        split
        · rfl
        · exact deaf.unarmed i inside
  | posts ahead done used freeLen buf rest _ _ _ _ =>
      have apart : Apart chan { chan with rxFree := rest } := ⟨rfl, rfl, rfl, rfl, rfl, rfl, rfl⟩
      have shorter := deaf.same (armed_apart apart) apart.flag
      refine ⟨?_, fun i inside => ?_⟩
      · rw [flag_posts, shorter.flag]
        rfl
      · rw [armed_posts spaced]
        split
        · rw [asked, shorter.flag]
          rfl
        · exact shorter.unarmed i inside
  | drops element rest _ =>
      have apart := dropElement_apart cfg chan element rest
      exact deaf.same (armed_apart apart) apart.flag
  | takes fate =>
      have apart := aftRxPostComplete_apart cfg fate chan
      exact deaf.same (armed_apart apart) apart.flag
  | frees j _ _ =>
      obtain ⟨table, reg, -, -, -, -, flag⟩ := freeDescr_ring cfg chan j
      refine ⟨flag.trans deaf.flag, fun i inside => ?_⟩
      rw [armed, table, reg]
      by_cases same : i = j
      · rw [same, Function.update_self]
        rfl
      · rw [Function.update_of_ne same, Function.update_of_ne same]
        exact deaf.unarmed i inside
  | resets ptr _ => exact deaf.same (fun _ => rfl) rfl

end Steps

/-- The descriptors form a ring, and one of them is armed when it has to be. -/
def Watched (chan : Chan) : Prop := (∃ done used, Ring chan done used ∧ Full chan used) ∧ Alarm chan

theorem started_watched {cfg : Cfg} (spaced : cfg.irqAll = false) (bufs : List Buf)
    (ptr : Fin maxAftDmaChains) : Watched (started cfg bufs ptr) := by
  obtain ⟨begun, live⟩ := started_chained cfg 3 false bufs ptr
  refine ⟨live, ?_⟩
  exact Chained.keeps (fun move ring alarm => alarm.moves spaced move ring) begun
    (configured_ring bufs ptr) (Alarm.of_empty (fun _ _ => rfl) rfl)

theorem Watched.step {cfg : Cfg} (spaced : cfg.irqAll = false) {chan : Chan} (watched : Watched chan)
    (op : Op) (within : op.within 3) (told : op.recovers = true → chan.rxIntrPending = false) :
    Watched (step cfg chan op) := by
  obtain ⟨⟨done, used, ring, full⟩, alarm⟩ := watched
  cases recovers : op.recovers with
  | false =>
      obtain ⟨moved, live⟩ := @step_chained cfg 3 _ _ false _ op ring full (Or.inl within)
        (fun wrong => by rw [recovers] at wrong; cases wrong)
      exact ⟨live, Chained.keeps (fun move ring alarm => alarm.moves spaced move ring) moved ring alarm⟩
  | true =>
      have clear := told recovers
      cases op with
      | recover during ptr filling =>
          obtain ⟨middle, result, -, ring', empty, flag⟩ :=
            @aftRxFifoOverRecover_cases cfg _ _ _ 3 during ptr filling ring
          obtain ⟨filled, live⟩ := @aftDmaRx_chained cfg 3 _ _ false _ filling ring' (Full.zero _)
            (Nat.zero_le 3)
          rw [Receive.step, result]
          refine ⟨live, Chained.keeps (fun move ring alarm => alarm.moves spaced move ring) filled ring' ?_⟩
          exact Alarm.of_empty empty (flag.trans clear)
      | frames | interrupt | bottomHalf => cases recovers

/-- What the driver relies on: at most three frames come between the two times that the handler looks
where the card is, and `RX_INTR_PENDING` is clear when the channel recovers. -/
def Spaced (chan : Chan) (op : Op) : Prop :=
  op.within 3 ∧ (op.recovers = true → chan.rxIntrPending = false)

instance Op.within.decidable (most : Nat) : (op : Op) → Decidable (op.within most)
  | .interrupt _ during late _ => Nat.decLe (during.flatten.length + late.length) most
  | .frames _ | .bottomHalf _ | .recover .. => isTrue trivial

instance Spaced.decidable (chan : Chan) (op : Op) : Decidable (Spaced chan op) :=
  inferInstanceAs (Decidable (op.within 3 ∧ (op.recovers = true → chan.rxIntrPending = false)))

/-- A channel with HDLC, and twenty buffers for it. -/
def hdlcCfg : Cfg where
  hdlcEng := true
  irqAll := false
  dmaMru := 1600#32
  mru := 1500#32
  rxElement := 20
  apiHdr := 64
  oneTimeSlot := false
  mixed := false

def twentyBufs : List Buf := (List.range 20).map fun addr => ⟨addr, 64⟩

def someFrame : Stored := ⟨3#32, 380#32, []⟩

end Wanpipe.Aft.Receive
