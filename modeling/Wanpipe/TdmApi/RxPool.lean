import Wanpipe.TdmApi.Channel
import Wanpipe.TdmApi.TableRun

/-! The receive buffers of a channelized device. -/

namespace Wanpipe.TdmApi

open Line Runs

/-- The buffers that are free, queued or being filled. -/
def rxPool (dev : Dev) : Nat :=
  dev.rxFreeList + dev.rxList.length + dev.rxSkb.toList.length

inductive ChanOp
  | rxTx (rxData txData : List Octet) (now : Time)
  | read (count : Int) (errors : BitVec 32)
  | write (skb : Skb)
  | flush (option : Flush)
  | openDev
  | closeDev

/-- What the line and the users do with a device; there is memory when they ask for it. -/
def chanStep (dev : Dev) : ChanOp → Dev
  | .rxTx rxData txData now => (wanpipeTdmApiRxTx dev rxData txData now).2
  | .read count errors => (wpTdmapiReadMsg dev count true errors).2
  | .write skb => (wpTdmapiWriteMsg dev skb).2
  | .flush option => wpTdmapiInitBuffs dev option
  | .openDev => wpTdmapiOpen dev
  | .closeDev => wpTdmapiRelease dev

def chanRun (dev : Dev) (ops : List ChanOp) : Dev := ops.foldl chanStep dev

/-- A device in channel mode, of which each received buffer has its header. -/
structure Channelized (dev : Dev) : Prop where
  mode : dev.blockMode = false
  multiplier : dev.bufferMultiplier = 1
  queued : ∀ skb ∈ dev.rxList, hdrSz ≤ skb.length
  filling : ∀ skb ∈ dev.rxSkb, hdrSz ≤ skb.length

/-- A read leaves room for the buffer that it would take. -/
def ReadFits (dev : Dev) : ChanOp → Prop
  | .read count _ => dev.init = true → dev.used = true → dev.down = false →
      ∀ skb ∈ dev.rxList.head?, (skb.length : Int) ≤ count
  | _ => True

/-- The step leaves the receive side of the device alone. -/
structure SameRx (dev next : Dev) : Prop where
  mode : next.blockMode = dev.blockMode
  multiplier : next.bufferMultiplier = dev.bufferMultiplier
  rxList : next.rxList = dev.rxList
  rxSkb : next.rxSkb = dev.rxSkb
  rxFreeList : next.rxFreeList = dev.rxFreeList

theorem SameRx.channelized {dev next : Dev} (same : SameRx dev next)
    (channelized : Channelized dev) : Channelized next where
  mode := same.mode.trans channelized.mode
  multiplier := same.multiplier.trans channelized.multiplier
  queued := by rw [same.rxList]; exact channelized.queued
  filling := by rw [same.rxSkb]; exact channelized.filling

theorem SameRx.rxPool {dev next : Dev} (same : SameRx dev next) : rxPool next = rxPool dev := by
  simp only [TdmApi.rxPool, same.rxList, same.rxSkb, same.rxFreeList]

/-- The step keeps the pool and the device in channel mode. -/
def KeepsRx (dev next : Dev) : Prop := Channelized next ∧ rxPool next = rxPool dev

theorem SameRx.keeps {dev next : Dev} (same : SameRx dev next) (channelized : Channelized dev) :
    KeepsRx dev next :=
  ⟨same.channelized channelized, same.rxPool⟩

theorem KeepsRx.trans {dev next last : Dev} (first : KeepsRx dev next)
    (second : KeepsRx next last) : KeepsRx dev last :=
  ⟨second.1, second.2.trans first.2⟩

theorem addStats_same (dev : Dev) (update : Stats → Stats) : SameRx dev (addStats dev update) :=
  ⟨rfl, rfl, rfl, rfl, rfl⟩

theorem rxError_keeps {dev : Dev} (channelized : Channelized dev) : KeepsRx dev (rxError dev) := by
  constructor
  · constructor
    · exact channelized.mode
    · exact channelized.multiplier
    · exact channelized.queued
    · intro skb member
      cases member
  · simp only [rxPool, rxError, Option.toList_none, List.length_nil]
    omega

theorem wanpipeTdmTimestampHdr_length {skb : Skb} (whole : hdrSz ≤ skb.length) (now : Time) :
    (wanpipeTdmTimestampHdr skb now).length = skb.length := by
  have long : 64 ≤ skb.length := whole
  simp only [wanpipeTdmTimestampHdr, le32, List.length_append, List.length_take, List.length_drop,
    List.length_cons, List.length_nil]
  omega

/-- The chunk goes to a buffer that is no longer counted elsewhere. -/
theorem rxAppend_keeps {dev : Dev} (channelized : Channelized dev) {skb : Skb}
    (whole : hdrSz ≤ skb.length) (rxData : List Octet) (now : Time) :
    Channelized (rxAppend dev skb rxData now) ∧
      rxPool (rxAppend dev skb rxData now) = dev.rxFreeList + dev.rxList.length + 1 := by
  have filled : hdrSz ≤ (skb ++ rxData).length := by
    rw [List.length_append]
    exact Nat.le_add_right_of_le whole
  simp only [rxAppend]
  split
  · constructor
    · constructor
      · exact channelized.mode
      · exact channelized.multiplier
      · intro other member
        rcases List.mem_append.mp member with old | new
        · exact channelized.queued other old
        · rw [List.mem_singleton.mp new, wanpipeTdmTimestampHdr_length filled]
          exact filled
      · intro other member
        cases member
    · simp only [rxPool, addStats, List.length_append, List.length_singleton, Option.toList_none,
        List.length_nil]
      omega
  · constructor
    · constructor
      · exact channelized.mode
      · exact channelized.multiplier
      · exact channelized.queued
      · intro other member
        rw [← Option.mem_some_iff.mp member]
        exact filled
    · simp [rxPool]

theorem channelizedRx_keeps {dev : Dev} (channelized : Channelized dev) (rxData : List Octet)
    (now : Time) : KeepsRx dev (wanpipeTdmApiChannelizedRx dev rxData now) := by
  have counted (update : Stats → Stats) := (addStats_same dev update).keeps channelized
  rw [wanpipeTdmApiChannelizedRx]
  split
  · exact rxError_keeps channelized
  · split
    · exact (counted rxDropped).trans (rxError_keeps (counted rxDropped).1)
    · cases filling : dev.rxSkb with
      | some skb =>
          have whole := channelized.filling skb filling
          rcases rxAppend_keeps channelized whole rxData now with ⟨keeps, pool⟩
          refine ⟨keeps, pool.trans ?_⟩
          simp [rxPool, filling]
      | none =>
          simp only
          split
          · exact (counted rxErrors).trans (rxError_keeps (counted rxErrors).1)
          · next some =>
              have taken : Channelized { dev with rxFreeList := dev.rxFreeList - 1 } :=
                ⟨channelized.mode, channelized.multiplier, channelized.queued,
                  channelized.filling⟩
              rcases rxAppend_keeps taken (Nat.le_of_eq List.length_replicate.symm) rxData now with
                ⟨keeps, pool⟩
              refine ⟨keeps, pool.trans ?_⟩
              simp only [rxPool, filling, Option.toList_none, List.length_nil]
              omega

theorem txError_same (dev : Dev) (len : Nat) : SameRx dev (txError dev len).2 :=
  ⟨rfl, rfl, rfl, rfl, rfl⟩

theorem txSend_same (dev : Dev) (skb : Skb) (len : Nat) : SameRx dev (txSend dev skb len).2 := by
  rw [txSend]
  split
  · exact ⟨rfl, rfl, rfl, rfl, rfl⟩
  · split <;> exact ⟨rfl, rfl, rfl, rfl, rfl⟩

theorem SameRx.trans {dev next last : Dev} (first : SameRx dev next) (second : SameRx next last) :
    SameRx dev last where
  mode := second.mode.trans first.mode
  multiplier := second.multiplier.trans first.multiplier
  rxList := second.rxList.trans first.rxList
  rxSkb := second.rxSkb.trans first.rxSkb
  rxFreeList := second.rxFreeList.trans first.rxFreeList

theorem channelizedTx_same (dev : Dev) (txData : List Octet) :
    SameRx dev (wanpipeTdmApiChannelizedTx dev txData).2 := by
  simp only [wanpipeTdmApiChannelizedTx]
  split
  · exact ⟨rfl, rfl, rfl, rfl, rfl⟩
  · split
    · exact txSend_same _ _ _
    · exact addStats_same dev txIdle
    · split
      · exact ⟨rfl, rfl, rfl, rfl, rfl⟩
      · next skb skbs _ _ _ =>
          have taken : SameRx dev (txTake dev skb skbs) := ⟨rfl, rfl, rfl, rfl, rfl⟩
          exact taken.trans (txSend_same _ _ _)

theorem rxTx_keeps {dev : Dev} (channelized : Channelized dev) (rxData txData : List Octet)
    (now : Time) : KeepsRx dev (wanpipeTdmApiRxTx dev rxData txData now).2 := by
  have idle : KeepsRx dev dev := ⟨channelized, rfl⟩
  have received := channelizedRx_keeps channelized rxData now
  have sent := (channelizedTx_same (wanpipeTdmApiChannelizedRx dev rxData now) txData).keeps
    received.1
  simp only [wanpipeTdmApiRxTx]
  split
  · exact idle
  · split
    · split
      · split
        · exact received.trans sent
        · exact received.trans sent
      · exact idle
    · exact idle

theorem wpTdmapiWriteMsg_same (dev : Dev) (skb : Skb) :
    SameRx dev (wpTdmapiWriteMsg dev skb).2 := by
  rw [wpTdmapiWriteMsg]
  split
  · exact ⟨rfl, rfl, rfl, rfl, rfl⟩
  · split
    · exact addStats_same dev txErrors
    · split
      · exact addStats_same dev txErrors
      · rw [writeChan]
        split
        · exact addStats_same dev txErrors
        · split <;> exact ⟨rfl, rfl, rfl, rfl, rfl⟩

theorem flushRx_keeps {dev : Dev} (channelized : Channelized dev) : KeepsRx dev (flushRx dev) := by
  have mode : ¬ dev.blockMode = true := Bool.eq_false_iff.mp channelized.mode
  rw [flushRx, if_neg mode]
  constructor
  · constructor
    · exact channelized.mode
    · exact channelized.multiplier
    · intro skb member
      cases member
    · intro skb member
      cases member
  · simp only [rxPool, List.length_nil, Option.toList_none]
    omega

theorem wpTdmapiInitBuffs_keeps {dev : Dev} (channelized : Channelized dev) (option : Flush) :
    KeepsRx dev (wpTdmapiInitBuffs dev option) := by
  have rx := flushRx_keeps channelized
  have tx (dev : Dev) : SameRx dev (flushTx dev) := ⟨rfl, rfl, rfl, rfl, rfl⟩
  have event (dev : Dev) : SameRx dev (flushEvent dev) := ⟨rfl, rfl, rfl, rfl, rfl⟩
  cases option with
  | all => exact rx.trans (((tx _).trans (event _)).keeps rx.1)
  | rx => exact rx
  | tx => exact (tx dev).keeps channelized
  | event => exact (event dev).keeps channelized

theorem wpTdmapiOpen_keeps {dev : Dev} (channelized : Channelized dev) :
    KeepsRx dev (wpTdmapiOpen dev) := by
  have counted : SameRx dev { dev with openCnt := dev.openCnt + 1#32 } := ⟨rfl, rfl, rfl, rfl, rfl⟩
  have flushed := wpTdmapiInitBuffs_keeps (counted.channelized channelized) .all
  simp only [wpTdmapiOpen]
  split
  · exact ⟨channelized, rfl⟩
  · split
    · have set : SameRx (wpTdmapiInitBuffs { dev with openCnt := dev.openCnt + 1#32 } .all)
          { wpTdmapiInitBuffs { dev with openCnt := dev.openCnt + 1#32 } .all with
            cfg := { dev.cfg with loop := false }, used := true } := ⟨rfl, rfl, rfl, rfl, rfl⟩
      exact (counted.keeps channelized).trans (flushed.trans (set.keeps flushed.1))
    · exact SameRx.keeps ⟨rfl, rfl, rfl, rfl, rfl⟩ channelized

theorem wpTdmapiRelease_same (dev : Dev) : SameRx dev (wpTdmapiRelease dev) := by
  simp only [wpTdmapiRelease]
  split
  · split <;> exact ⟨rfl, rfl, rfl, rfl, rfl⟩
  · exact ⟨rfl, rfl, rfl, rfl, rfl⟩

theorem takeRx_one {dev : Dev} (channelized : Channelized dev) (mem : Bool) :
    takeRx dev mem =
      match dev.rxList with
      | [] => (none, dev)
      | skb :: skbs => (some skb, { dev with rxList := skbs }) := by
  have single : ¬ 1 < dev.bufferMultiplier := by rw [channelized.multiplier]; decide
  cases queue : dev.rxList with
  | nil => simp [takeRx, single, queue]
  | cons skb skbs => simp [takeRx, single, queue]

/-- The queue without its first buffer. -/
theorem Channelized.taken {dev : Dev} (channelized : Channelized dev) {skb : Skb}
    {skbs : List Skb} (queue : dev.rxList = skb :: skbs) :
    Channelized { dev with rxList := skbs } where
  mode := channelized.mode
  multiplier := channelized.multiplier
  queued other member := channelized.queued other (by rw [queue]; exact List.mem_cons_of_mem _ member)
  filling := channelized.filling

/-- A read that is not refused for its length gives a buffer for the one that it takes. -/
theorem read_keeps {dev : Dev} (channelized : Channelized dev) (count : Int)
    (errors : BitVec 32) (fits : ReadFits dev (.read count errors)) :
    KeepsRx dev (wpTdmapiReadMsg dev count true errors).2 := by
  rw [wpTdmapiReadMsg]
  split
  · exact ⟨channelized, rfl⟩
  · next ready =>
      simp only [Bool.or_eq_true, Bool.not_eq_true', not_or, Bool.not_eq_false,
        Bool.not_eq_true] at ready
      rw [takeRx_one channelized]
      cases queue : dev.rxList with
      | nil => exact ⟨channelized, rfl⟩
      | cons skb skbs =>
          have room := fits ready.1.1 ready.1.2 ready.2 skb (by rw [queue]; rfl)
          have whole := channelized.queued skb (by rw [queue]; exact List.mem_cons_self)
          have good : ¬ (count < (wpTdmapiSetGain skb dev.rxGain).length ∨
              (wpTdmapiSetGain skb dev.rxGain).length < hdrSz) := by
            rw [wpTdmapiSetGain_length]
            omega
          have mode : (dev.blockMode || !true) = false := by rw [channelized.mode]; rfl
          have taken := channelized.taken queue
          simp only [if_neg good]
          constructor
          · exact ⟨taken.mode, taken.multiplier, taken.queued, taken.filling⟩
          · have added : (if ({ dev with rxList := skbs } : Dev).blockMode || !true then 0 else 1) =
                1 := by
              rw [if_neg]
              exact Bool.eq_false_iff.mp mode
            simp only [rxPool, added, queue, List.length_cons]
            omega

/-- A read that is refused for its length loses the buffer. -/
theorem read_loses {dev : Dev} (channelized : Channelized dev) (count : Int)
    (errors : BitVec 32) (short : ¬ ReadFits dev (.read count errors)) :
    Channelized (wpTdmapiReadMsg dev count true errors).2 ∧
      rxPool (wpTdmapiReadMsg dev count true errors).2 + 1 = rxPool dev := by
  simp only [ReadFits, Classical.not_imp, not_forall, Option.mem_def] at short
  rcases short with ⟨init, used, up, skb, head, long⟩
  rw [wpTdmapiReadMsg]
  have ready : (!dev.init || !dev.used || dev.down) = false := by simp [init, used, up]
  rw [ready, takeRx_one channelized]
  cases queue : dev.rxList with
  | nil =>
      rw [queue] at head
      cases head
  | cons first skbs =>
      rw [queue, List.head?_cons, Option.some.injEq] at head
      subst head
      have bad : count < (wpTdmapiSetGain first dev.rxGain).length ∨
          (wpTdmapiSetGain first dev.rxGain).length < hdrSz := by
        rw [wpTdmapiSetGain_length]
        exact .inl (Int.not_le.mp long)
      simp only [Bool.false_eq_true, if_false, if_pos bad]
      refine ⟨channelized.taken queue, ?_⟩
      simp only [rxPool, queue, List.length_cons]
      omega

theorem chanStep_keeps {dev : Dev} (channelized : Channelized dev) (op : ChanOp)
    (fits : ReadFits dev op) : KeepsRx dev (chanStep dev op) := by
  cases op with
  | rxTx rxData txData now => exact rxTx_keeps channelized rxData txData now
  | read count errors => exact read_keeps channelized count errors fits
  | write skb => exact (wpTdmapiWriteMsg_same dev skb).keeps channelized
  | flush option => exact wpTdmapiInitBuffs_keeps channelized option
  | openDev => exact wpTdmapiOpen_keeps channelized
  | closeDev => exact (wpTdmapiRelease_same dev).keeps channelized

theorem chanStep_loses {dev : Dev} (channelized : Channelized dev) (op : ChanOp)
    (short : ¬ ReadFits dev op) :
    Channelized (chanStep dev op) ∧ rxPool (chanStep dev op) + 1 = rxPool dev := by
  cases op with
  | read count errors => exact read_loses channelized count errors short
  | _ => exact absurd trivial short

/-- The pool of a run, which is whole exactly when no read was refused for its length. -/
theorem chanRun_pool {dev : Dev} (channelized : Channelized dev) (ops : List ChanOp) :
    rxPool (chanRun dev ops) ≤ rxPool dev ∧
      (rxPool (chanRun dev ops) = rxPool dev ↔
        Along (fun dev op => some (chanStep dev op)) ReadFits dev ops) := by
  induction ops generalizing dev with
  | nil => exact ⟨Nat.le_refl _, iff_of_true rfl trivial⟩
  | cons op ops ih =>
      have unfolded : chanRun dev (op :: ops) = chanRun (chanStep dev op) ops := rfl
      rw [unfolded]
      by_cases fits : ReadFits dev op
      · rcases chanStep_keeps channelized op fits with ⟨next, pool⟩
        rcases ih next with ⟨least, whole⟩
        rw [pool] at least whole
        refine ⟨least, whole.trans ?_⟩
        constructor
        · intro later
          refine ⟨fits, fun other moved => ?_⟩
          rw [← Option.some.inj moved]
          exact later
        · exact fun along => along.2 _ rfl
      · rcases chanStep_loses channelized op fits with ⟨next, pool⟩
        have least := (ih next).1
        refine ⟨by omega, iff_of_false (by omega) fun along => fits along.1⟩

/-- The receive side of a device as its configuration leaves it. -/
structure ConfiguredRx (dev next : Dev) : Prop where
  mode : next.blockMode = dev.blockMode
  multiplier : next.bufferMultiplier = 1
  rxList : next.rxList = dev.rxList
  rxSkb : next.rxSkb = dev.rxSkb
  rxFreeList : next.rxFreeList = dev.rxFreeList

theorem idleCfg_rx {dev next : Dev} (isBri : Bool) (configured : ConfiguredRx dev next) :
    ConfiguredRx dev (idleCfg isBri next) := by
  rw [idleCfg]
  split
  · exact ⟨configured.mode, configured.multiplier, configured.rxList, configured.rxSkb,
      configured.rxFreeList⟩
  · exact configured

theorem configure_rx (isBri : Bool) (dev : Dev) : ConfiguredRx dev (configure isBri dev).2 := by
  simp only [configure]
  split
  · exact ⟨rfl, rfl, rfl, rfl, rfl⟩
  · split
    · exact ⟨rfl, rfl, rfl, rfl, rfl⟩
    · split
      · exact idleCfg_rx isBri ⟨rfl, rfl, rfl, rfl, rfl⟩
      · split
        · exact ⟨rfl, rfl, rfl, rfl, rfl⟩
        · exact idleCfg_rx isBri ⟨rfl, rfl, rfl, rfl, rfl⟩

theorem regStore_dev {card next : Card} {t : Nat} {out : Outcomes}
    (ran : regStore card t out = (0, next)) : next.devs t = startDev (card.devs t) := by
  simp only [regStore] at ran
  split at ran
  · next failed => exact absurd (congrArg Prod.fst ran) failed
  · split at ran
    · next failed => exact absurd (congrArg Prod.fst ran) failed
    · have same := congrArg Prod.snd ran
      simp only at same
      rw [← same, Card.setHash_devs, Card.setDev_self]

/-- A registration that succeeds has allocated and configured the device. -/
theorem regBuffers_dev {card next : Card} {t : Nat} {out : Outcomes}
    (ran : regBuffers card t out = (0, next)) :
    rxPoolSz ≤ out.rxBuffers ∧
      next.devs t = startDev (configure card.isBri (allocEvents (card.devs t) out)).2 ∧
        (configure card.isBri (allocEvents (card.devs t) out)).1 = 0 := by
  have nonzero : (-1 : Int) ≠ 0 := by decide
  simp only [regBuffers] at ran
  split at ran
  · exact absurd (congrArg Prod.fst ran) nonzero
  · next rx =>
      split at ran
      · exact absurd (congrArg Prod.fst ran) nonzero
      · simp only [regConfigure, Card.setDev_self] at ran
        split at ran
        · next failed => exact absurd (congrArg Prod.fst ran) failed
        · next configured =>
            refine ⟨Nat.not_lt.mp rx, ?_, not_not.mp configured⟩
            rw [regStore_dev ran, Card.setDev_self]
            rfl

theorem aftTdmApiInit_dev {card next : Card} {t : Nat} {out : Outcomes} (mem : out.cdev = true)
    (memDev : out.cardDev = true) (ran : aftTdmApiInit card t out = some (0, next)) :
    rxPoolSz ≤ out.rxBuffers ∧
      (configure card.isBri (allocEvents (countedDev (card.devs t)) out)).1 = 0 ∧
        ∃ dev, dev = startDev (configure card.isBri (allocEvents (countedDev (card.devs t)) out)).2 ∧
          next.devs t = { dev with init := true } := by
  have got : ∃ cardDev, getCardDev card out = some cardDev := by
    rw [getCardDev]
    cases card.tdmApiDev with
    | none => exact ⟨newCardDev, if_pos memDev⟩
    | some cardDev => exact ⟨cardDev, rfl⟩
  rcases got with ⟨cardDev, got⟩
  have counted : (countTimeslots (countDevice card) t cardDev).devs t = countedDev (card.devs t) :=
    Card.setDev_self (countDevice card) t _
  have isBri : (countTimeslots (countDevice card) t cardDev).isBri = card.isBri := rfl
  simp only [aftTdmApiInit, wanpipeTdmApiReg, if_pos mem, got, Option.map_some,
    Option.some.injEq] at ran
  generalize countTimeslots (countDevice card) t cardDev = filled at ran counted isBri
  cases made : regBuffers filled t out with
  | mk err last =>
      simp only [made] at ran
      split at ran
      · next done =>
          rw [done] at made
          rcases regBuffers_dev made with ⟨rx, dev, configured⟩
          rw [counted, isBri] at dev configured
          have same := congrArg Prod.snd ran
          simp only at same
          refine ⟨rx, configured, last.devs t, dev, ?_⟩
          rw [← same, setInit, Card.setDev_self]
      · next failed => exact absurd (congrArg Prod.fst ran) failed

/-- The pool of a device that has been registered in channel mode. -/
theorem registered_pool {card next : Card} {t : Nat} {out : Outcomes} (mem : out.cdev = true)
    (memDev : out.cardDev = true) (ran : aftTdmApiInit card t out = some (0, next))
    (mode : (card.devs t).blockMode = false) (fresh : (card.devs t).rxSkb = none) :
    Channelized (next.devs t) ∧ rxPool (next.devs t) = rxPoolSz := by
  rcases aftTdmApiInit_dev mem memDev ran with ⟨rx, -, dev, made, registered⟩
  have configured := configure_rx card.isBri (allocEvents (countedDev (card.devs t)) out)
  have rxList : (next.devs t).rxList = [] := by
    rw [registered, made]
    exact configured.rxList
  have rxSkb : (next.devs t).rxSkb = none := by
    rw [registered, made]
    exact configured.rxSkb.trans fresh
  have rxFreeList : (next.devs t).rxFreeList = min out.rxBuffers rxPoolSz := by
    rw [registered, made]
    exact configured.rxFreeList
  constructor
  · constructor
    · rw [registered, made]
      exact configured.mode.trans mode
    · rw [registered, made]
      exact configured.multiplier
    · rw [rxList]
      simp
    · rw [rxSkb]
      simp
  · simp only [rxPool, rxList, rxSkb, rxFreeList, List.length_nil, Option.toList_none]
    omega

/-- The receive pool of a device registered in channel mode over every run: it stays at the buffers
allocated at registration exactly when no read is too short for the buffer that it takes. -/
theorem rx_pool_kept {card next : Card} {t : Nat} {out : Outcomes} (mem : out.cdev = true)
    (memDev : out.cardDev = true) (ran : aftTdmApiInit card t out = some (0, next))
    (mode : (card.devs t).blockMode = false) (fresh : (card.devs t).rxSkb = none)
    (ops : List ChanOp) :
    rxPool (chanRun (next.devs t) ops) = 16 ↔
      Along (fun dev op => some (chanStep dev op)) ReadFits (next.devs t) ops := by
  rcases registered_pool mem memDev ran mode fresh with ⟨channelized, pool⟩
  have whole := (chanRun_pool channelized ops).2
  rw [pool] at whole
  exact whole

theorem rx_pool_kept_opened :
    ∃ next, aftTdmApiInit emptyCard 0 allThere = some (0, next) ∧
      (rxPool (chanRun (next.devs 0) [.openDev, .read 64 0#32]) = 16 ↔
        Along (fun dev op => some (chanStep dev op)) ReadFits (next.devs 0)
          [.openDev, .read 64 0#32]) := by
  have done : (aftTdmApiInit emptyCard 0 allThere).map Prod.fst = some 0 := by decide +kernel
  rcases Option.map_eq_some_iff.mp done with ⟨⟨err, next⟩, ran, zero⟩
  have same : err = 0 := zero
  rw [same] at ran
  exact ⟨next, ran, rx_pool_kept rfl rfl ran (by decide) (by decide) _⟩

/-- One received buffer and a read with room for the header only. -/
theorem rx_pool_drained :
    ¬ ∀ (card next : Card) (t : Nat) (out : Outcomes) (ops : List ChanOp), out.cdev = true →
      out.cardDev = true → aftTdmApiInit card t out = some (0, next) →
      (card.devs t).blockMode = false → (card.devs t).rxSkb = none →
      rxPool (chanRun (next.devs t) ops) = 16 := by
  intro always
  let ops : List ChanOp :=
    [.openDev, .rxTx (List.replicate 160 0x55#8) (List.replicate 160 0x00#8) ⟨0#32, 0#32⟩,
      .read 64 0#32]
  have done : (aftTdmApiInit emptyCard 0 allThere).map
      (fun result => (result.1, rxPool (chanRun (result.2.devs 0) ops))) = some (0, 15) := by
    decide +kernel
  rcases Option.map_eq_some_iff.mp done with ⟨⟨err, next⟩, ran, seen⟩
  simp only [Prod.mk.injEq] at seen
  rcases seen with ⟨zero, pool⟩
  rw [zero] at ran
  have whole := always emptyCard next 0 allThere ops rfl rfl ran (by decide) (by decide)
  rw [pool] at whole
  exact absurd whole (by decide)

end Wanpipe.TdmApi
