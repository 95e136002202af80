import Wanpipe.Aft.Interrupts
import Wanpipe.Aft.Frames

/-! The transmit ring over whole runs: which descriptors are in use, what the two counters count, and
the order in which the data frames pass through it. -/

namespace Wanpipe.Aft

open Wanpipe.Circle Runs

/-- The slots from the pending index on, around the circle, up to the one that is filled next. -/
def Between (pending tx i : Nat) : Prop :=
  if pending ≤ tx then pending ≤ i ∧ i < tx else pending ≤ i ∨ i < tx

/-- An skb that is queued, or made below the channel, is not the idle one, which belongs to the
channel. `sent` and `freed` are how much of its two lists the bottom half gets done. -/
inductive RingOp (cfg : Cfg)
  | queue (skb : Skb) (other : cfg.isIdle skb = false)
  | queueRepeat (skb : Skb) (other : cfg.isIdle skb = false)
  | others (interfaceDown bertMode : Bool)
  | bottomHalf (sent freed : Nat)
  | cardDone (done : List Nat)
  | dmaTx (made : List (Option Skb × Nat))
      (other : ∀ skb cells, (some skb, cells) ∈ made → cfg.isIdle skb = false)
  | txDmaChainHandler (during : List (List Nat))
  | freeTxDescriptors (ptr : Fin maxAftDmaChains)

def ringStep (cfg : Cfg) (chan : Chan) : RingOp cfg → Option Chan
  | .queue skb _ =>
      let skb := { skb with kind := .data }
      some
        { chan with
          lists := { chan.lists with pending := chan.lists.pending ++ [skb] }
          queued := chan.queued ++ [skb] }
  | .queueRepeat skb _ =>
      let skb := { skb with kind := .repeat }
      some { chan with lists := { chan.lists with rpt := chan.lists.rpt ++ [skb] } }
  | .others interfaceDown bertMode =>
      some { chan with interfaceDown := interfaceDown, bertMode := bertMode }
  | .bottomHalf sent freed =>
      some
        { chan with
          lists :=
            { chan.lists with
              complete := chan.lists.complete.drop sent
              dealloc := chan.lists.dealloc.drop freed } }
  | .cardDone done => some (cardDone chan done)
  | .dmaTx made _ => some (aftDmaTx cfg chan made).2
  | .txDmaChainHandler during => (aftTxDmaChainHandler cfg chan during).map Prod.fst
  | .freeTxDescriptors ptr => some (aftFreeTxDescriptors cfg chan ptr)

/-- A channel that was just set up, with nothing queued. -/
structure Blank (chan : Chan) : Prop extends Fresh chan where
  size : chan.txChainSz = 0
  dataSize : chan.txChainDataSz = 0
  dma : chan.txDmaBusy = false
  handler : chan.txHandlerBusy = false
  lists : chan.lists = emptyLists
  queued : chan.queued = []
  posted : chan.posted = []
  completed : chan.completed = []

/-- What holds of the ring between the calls. -/
structure InOrder (cfg : Cfg) (chan : Chan) : Prop where
  used : if chan.txPendingChainIndx = chan.txChainIndx then
      (∀ i < maxAftDmaChains, (chan.table i).init = true) ∨
        ∀ i < maxAftDmaChains, (chan.table i).init = false
    else ∀ i < maxAftDmaChains,
      (chan.table i).init = true ↔ Between chan.txPendingChainIndx chan.txChainIndx i
  size : chan.txChainSz = (List.range maxAftDmaChains).countP fun i => (chan.table i).init
  dataSize : chan.txChainDataSz = (List.range maxAftDmaChains).countP fun i =>
    (chan.table i).init && !(chan.table i).skb.any cfg.isIdle
  holding : ∀ i < maxAftDmaChains, (chan.table i).init = true → (chan.table i).skb.isSome = true
  dma : chan.txDmaBusy = false
  handler : chan.txHandlerBusy = false
  posted : (dataOf chan.posted).Sublist (dataOf chan.queued)
  completed : (dataOf chan.completed).Sublist (dataOf chan.posted)

/-- The skbs of the descriptors that the handler finds done, the oldest first. -/
def doneSkbs : Nat → List (List Nat) → Chan → List Skb
  | 0, _, _ => []
  | count + 1, during, chan =>
      let chan := cardDone chan (during.headD [])
      let i := chan.txPendingChainIndx
      if (chan.table i).init && !(chan.reg i).go then
        (chan.table i).skb.toList ++
          doneSkbs count during.tail
            { chan.setDescr i ⟨false, none⟩ with
              txPendingChainIndx := advance maxAftDmaChains i }
      else []

/-- The first skb found done at the address in `tx_hdlc_rpt_skb`, if there is one, is not a data
frame. -/
def recognizes (chan : Chan) (count : Nat) (during : List (List Nat)) : Bool :=
  (chan.lists.rptSkb.bind fun addr =>
    (doneSkbs count during chan).find? fun skb => skb.addr == addr).all
      fun skb => skb.kind != .data

def Recognizes (cfg : Cfg) (chan : Chan) : RingOp cfg → Prop
  | .txDmaChainHandler during =>
      cfg.hdlcEng = true → recognizes chan (maxAftDmaChains + 1) during = true
  | _ => True

instance (cfg : Cfg) (chan : Chan) : (op : RingOp cfg) → Decidable (Recognizes cfg chan op)
  | .queue .. => isTrue trivial
  | .queueRepeat .. => isTrue trivial
  | .others .. => isTrue trivial
  | .bottomHalf .. => isTrue trivial
  | .cardDone _ => isTrue trivial
  | .dmaTx .. => isTrue trivial
  | .txDmaChainHandler during =>
      inferInstanceAs (Decidable
        (cfg.hdlcEng = true → recognizes chan (maxAftDmaChains + 1) during = true))
  | .freeTxDescriptors _ => isTrue trivial

structure Sound (cfg : Cfg) (chan : Chan) (skbs : List Skb) : Prop where
  ring : Ring chan skbs
  size : chan.txChainSz = skbs.length
  dataSize : chan.txChainDataSz = skbs.countP fun skb => !cfg.isIdle skb
  carries : cfg.hdlcEng = true → ∀ skb ∈ skbs, cfg.isIdle skb = false
  listed : Listed cfg chan.lists
  posted : (dataOf (chan.posted ++ chan.lists.pending)).Sublist (dataOf chan.queued)
  completed : (dataOf (chan.completed ++ skbs)).Sublist (dataOf chan.posted)

section Steps

variable {cfg : Cfg} {chan next : Chan} {skbs : List Skb} {made : List (Option Skb × Nat)}

theorem Sound.stays (sound : Sound cfg chan skbs) (stays : Stays chan next)
    (aside : Aside chan next) (listed : Listed cfg next.lists)
    (pending : (dataOf next.lists.pending).Sublist (dataOf chan.lists.pending)) :
    Sound cfg next skbs := by
  refine ⟨sound.ring.stays stays, ?_, ?_, sound.carries, listed, ?_, ?_⟩
  · rw [aside.size]
    exact sound.size
  · rw [aside.dataSize]
    exact sound.dataSize
  · have before := sound.posted
    rw [dataOf_append] at before
    rw [aside.posted, aside.queued, dataOf_append]
    exact (List.Sublist.append_left pending _).trans before
  · rw [aside.completed, aside.posted]
    exact sound.completed

theorem Sound.turn (sound : Sound cfg chan skbs)
    (apart : ∀ skb cells, (some skb, cells) ∈ made → cfg.isIdle skb = false)
    (turn : TxTurn cfg made chan next) :
    next.txHandlerBusy = chan.txHandlerBusy ∧ ∃ more, Sound cfg next more := by
  cases turn with
  | stops stays aside picks =>
      exact ⟨aside.handler, skbs,
        sound.stays stays aside (picks.listed sound.listed) picks.pending⟩
  | drops _ stays aside picks _ lists =>
      obtain ⟨dealloc, same⟩ := fold_dealloc cfg [_] _
      rw [List.foldl_cons, List.foldl_nil] at same
      rw [same] at lists
      refine ⟨aside.handler, skbs, sound.stays stays aside ?_ ?_⟩
      · rw [lists]
        exact (picks.listed sound.listed).shorter (List.Subset.refl _) (List.Subset.refl _)
      · rw [lists]
        exact picks.pending
  | @posts skb ready idle posts picks sends _ size dataSize queued posted completed handler =>
      obtain ⟨flag, transparent⟩ := picks.isIdle sound.listed apart
      rw [← isIdle_sendable sends] at flag
      refine ⟨handler, skbs ++ [ready], sound.ring.posts posts, ?_, ?_, ?_,
        picks.listed sound.listed, ?_, ?_⟩
      · rw [size, sound.size, List.length_append, List.length_singleton]
      · rw [dataSize, sound.dataSize, List.countP_append, List.countP_singleton, flag]
        cases idle <;> rfl
      · intro hdlc skb member
        rcases List.mem_append.mp member with old | new
        · exact sound.carries hdlc skb old
        · rw [List.mem_singleton.mp new, flag]
          cases idle with
          | false => rfl
          | true =>
              rw [transparent rfl] at hdlc
              cases hdlc
      · have before := sound.posted
        rw [dataOf_append] at before
        rw [posted, queued, List.append_assoc, List.singleton_append, dataOf_append,
          dataOf_sendable sends]
        exact (List.Sublist.append_left (picks.data_out sound.listed) _).trans before
      · rw [completed, posted, ← List.append_assoc, dataOf_append, dataOf_append chan.posted]
        exact sound.completed.append (List.Sublist.refl _)

theorem dmaTxLoop_sound (cnt txDataCnt : Nat) (sound : Sound cfg chan skbs)
    (apart : ∀ skb cells, (some skb, cells) ∈ made → cfg.isIdle skb = false) :
    (dmaTxLoop cfg cnt chan txDataCnt made).txHandlerBusy = chan.txHandlerBusy ∧
      ∃ more, Sound cfg (dmaTxLoop cfg cnt chan txDataCnt made) more := by
  obtain ⟨-, kept⟩ := @dmaTxLoop_keeps cfg made
    (fun _ next => next.txHandlerBusy = chan.txHandlerBusy ∧ ∃ skbs, Sound cfg next skbs)
    (fun _ _ kept => by
      obtain ⟨-, skbs, sound⟩ := kept
      exact sound.ring.holding _ sound.ring.tx_lt)
    (fun _ _ _ _ within kept turn => by
      obtain ⟨same, skbs, sound⟩ := kept
      obtain ⟨handler, more, next⟩ :=
        sound.turn (fun skb cells member => apart skb cells (within member)) turn
      exact ⟨handler.trans same, more, next⟩)
    cnt txDataCnt chan made (List.Subset.refl _) ⟨rfl, skbs, sound⟩
  exact kept

/-- Between the calls. -/
structure Rests (cfg : Cfg) (chan : Chan) (skbs : List Skb) : Prop extends
    Sound cfg chan skbs where
  dma : chan.txDmaBusy = false
  handler : chan.txHandlerBusy = false

theorem Sound.flags (sound : Sound cfg chan skbs) (dma handler sticky down bert : Bool) :
    Sound cfg
      { chan with
        txDmaBusy := dma, txHandlerBusy := handler, txIntrPending := sticky
        interfaceDown := down, bertMode := bert } skbs := by
  obtain ⟨ring, size, dataSize, carries, listed, posted, completed⟩ := sound
  exact ⟨⟨ring.pending, ring.few, ring.next, ring.holds, ring.holding⟩, size, dataSize, carries,
    listed, posted, completed⟩

theorem aftDmaTx_rests (rests : Rests cfg chan skbs)
    (apart : ∀ skb cells, (some skb, cells) ∈ made → cfg.isIdle skb = false) :
    ∃ more, Rests cfg (aftDmaTx cfg chan made).2 more := by
  rw [aftDmaTx]
  split
  · exact ⟨skbs, rests⟩
  · split
    · exact ⟨skbs, rests⟩
    · split
      · exact ⟨skbs, rests⟩
      · have start := rests.toSound.flags true chan.txHandlerBusy chan.txIntrPending
          chan.interfaceDown chan.bertMode
        obtain ⟨handler, more, sound⟩ := dmaTxLoop_sound maxAftDmaChains 0 start apart
        exact ⟨more, sound.flags false _ _ _ _, rfl, handler.trans rests.handler⟩

theorem Sound.handled {skb : Skb} {done : Bool} (sound : Sound cfg chan skbs)
    (handled : Handled cfg chan next skb done)
    (known : cfg.hdlcEng = true → chan.lists.rptSkb = some skb.addr → skb.kind ≠ .data) :
    ∃ rest, skbs = skb :: rest ∧ Sound cfg next rest := by
  obtain ⟨first, rest, rfl, ring⟩ := sound.ring.frees handled.frees
  have head := sound.ring.holds.at_head sound.ring.pending
  rw [handled.held, List.head?_cons, Option.some.injEq] at head
  subst head
  refine ⟨rest, rfl, ring, ?_, ?_, ?_, ?_, ?_, ?_⟩
  · rw [handled.size, sound.size]
    rfl
  · rw [handled.dataSize, sound.dataSize, List.countP_cons]
    split
    · next idles => simp [idles.2.2]
    · next works =>
        have other : cfg.isIdle skb = false := by
          cases hdlc : cfg.hdlcEng with
          | true => exact sound.carries hdlc skb List.mem_cons_self
          | false =>
              cases bert : cfg.isBert skb with
              | true => exact isIdle_bert bert
              | false =>
                  rw [hdlc, bert] at works
                  exact eq_false_of_ne_true fun idle => works ⟨rfl, rfl, idle⟩
        simp [other]
  · exact fun hdlc skb member => sound.carries hdlc skb (List.mem_cons_of_mem _ member)
  · apply handled.takes.listed sound.listed _ known
    exact fun hdlc => sound.carries hdlc skb List.mem_cons_self
  · rw [handled.posted, handled.queued, handled.takes.pending]
    exact sound.posted
  · rw [handled.completed, handled.posted]
    split
    · rw [List.append_assoc]
      exact sound.completed
    · refine List.Sublist.trans (dataOf_sublist ?_) sound.completed
      exact List.Sublist.append_left (List.sublist_cons_self _ _) _

/-- The completions of the card change registers only. -/
theorem cardDone_reg (chan : Chan) (done : List Nat) :
    cardDone chan done =
      { chan with
        reg := done.foldl (fun reg i => Function.update reg i { reg i with go := false })
          chan.reg } := by
  induction done generalizing chan with
  | nil => rfl
  | cons i done ih =>
      rw [cardDone, List.foldl_cons, List.foldl_cons]
      exact ih _

theorem Sound.reg (sound : Sound cfg chan skbs) (reg : Nat → Reg) :
    Sound cfg { chan with reg := reg } skbs := by
  obtain ⟨ring, size, dataSize, carries, listed, posted, completed⟩ := sound
  exact ⟨⟨ring.pending, ring.few, ring.next, ring.holds, ring.holding⟩, size, dataSize, carries,
    listed, posted, completed⟩

theorem cardDone_sound (sound : Sound cfg chan skbs) (done : List Nat) :
    Sound cfg (cardDone chan done) skbs := by
  rw [cardDone_reg]
  exact sound.reg _

/-- Only the descriptors, their registers and the pending index decide. -/
theorem doneSkbs_congr (count : Nat) (during : List (List Nat)) (table : next.table = chan.table)
    (reg : next.reg = chan.reg) (pending : next.txPendingChainIndx = chan.txPendingChainIndx) :
    doneSkbs count during next = doneSkbs count during chan := by
  induction count generalizing chan next during with
  | zero => rfl
  | succ count ih =>
      simp only [doneSkbs, cardDone_reg, table, reg, pending]
      split
      · congr 1
        apply ih
        · simp only [Chan.setDescr]
        · rfl
        · rfl
      · rfl

theorem recognizes_congr (count : Nat) (during : List (List Nat)) (table : next.table = chan.table)
    (reg : next.reg = chan.reg) (pending : next.txPendingChainIndx = chan.txPendingChainIndx)
    (rptSkb : next.lists.rptSkb = chan.lists.rptSkb) :
    recognizes next count during = recognizes chan count during := by
  rw [recognizes, recognizes, rptSkb, doneSkbs_congr count during table reg pending]

theorem handlerTurn_done (moved : handlerTurn cfg chan = some next) :
    (chan.table chan.txPendingChainIndx).init = true ∧
      (chan.reg chan.txPendingChainIndx).go = false := by
  rw [handlerTurn] at moved
  split at moved
  · cases moved
  · next used =>
      split at moved
      · cases moved
      · next done => exact ⟨by simpa using used, eq_false_of_ne_true done⟩

/-- A turn of the handler takes the first of the skbs found done. -/
theorem handlerTurn_doneSkbs {skb : Skb} {done : Bool} (count : Nat) (during : List (List Nat))
    (moved : handlerTurn cfg (cardDone chan (during.headD [])) = some next)
    (handled : Handled cfg (cardDone chan (during.headD [])) next skb done) :
    doneSkbs (count + 1) during chan = skb :: doneSkbs count during.tail next := by
  obtain ⟨used, idle⟩ := handlerTurn_done moved
  have held := handled.held
  simp only [doneSkbs]
  rw [used, idle, held]
  simp only [Bool.not_false, Bool.and_true, if_true, Option.toList_some, List.singleton_append]
  congr 1
  exact doneSkbs_congr count during.tail handled.frees.table.symm handled.frees.reg.symm
    handled.frees.pending.symm

/-- What was recognized before a turn of the handler is recognized in the turn, and after it. -/
theorem recognizes_turn {skb : Skb} {done : Bool} {count : Nat} {during : List (List Nat)}
    (hdlc : cfg.hdlcEng = true)
    (moved : handlerTurn cfg (cardDone chan (during.headD [])) = some next)
    (handled : Handled cfg (cardDone chan (during.headD [])) next skb done)
    (known : recognizes chan (count + 1) during = true) :
    (chan.lists.rptSkb = some skb.addr → skb.kind ≠ .data) ∧
      recognizes next count during.tail = true := by
  have same : (cardDone chan (during.headD [])).lists = chan.lists := by rw [cardDone_reg]
  have takes := handled.takes
  rw [same] at takes
  rw [recognizes, handlerTurn_doneSkbs count during moved handled] at known
  have forgets (none : next.lists.rptSkb = .none) : recognizes next count during.tail = true := by
    rw [recognizes, none]
    rfl
  have keeps (kept : next.lists.rptSkb = chan.lists.rptSkb)
      (other : chan.lists.rptSkb ≠ some skb.addr) :
      recognizes next count during.tail = true := by
    rw [recognizes, kept]
    cases remembered : chan.lists.rptSkb with
    | none => rfl
    | some addr =>
        rw [remembered] at known other
        have apart : (skb.addr == addr) = false := by
          simpa using fun here : skb.addr = addr => other (congrArg some here.symm)
        simpa only [Option.bind_some, List.find?_cons, apart] using known
  constructor
  · intro remembered
    rw [remembered] at known
    simpa using known
  · rcases takes.rptSkb hdlc with none | ⟨kept, other⟩
    · exact forgets none
    · exact keeps kept other

/-- A call of the handler in progress: what it still finds done is recognized. -/
structure Handling (cfg : Cfg) (during : List (List Nat)) (chan : Chan) (skbs : List Skb) : Prop where
  sound : Sound cfg chan skbs
  known : cfg.hdlcEng = true → ∃ count, skbs.length < count ∧ recognizes chan count during = true

theorem Handling.turn {during : List (List Nat)} (handling : Handling cfg during chan skbs)
    (turn : handlerTurn cfg (cardDone chan (during.headD [])) = some next) :
    next.txDmaBusy = chan.txDmaBusy ∧
      ∃ skb rest, skbs = skb :: rest ∧ Handling cfg during.tail next rest := by
  have told := cardDone_sound handling.sound (during.headD [])
  have same : (cardDone chan (during.headD [])).txDmaBusy = chan.txDmaBusy ∧
      (cardDone chan (during.headD [])).lists = chan.lists := by
    rw [cardDone_reg]
    exact ⟨rfl, rfl⟩
  obtain ⟨skb, done, handled⟩ := handlerTurn_handled turn
  have recognized (hdlc : cfg.hdlcEng = true) :
      (chan.lists.rptSkb = some skb.addr → skb.kind ≠ .data) ∧
        ∃ count, skbs.length ≤ count ∧ recognizes next count during.tail = true := by
    obtain ⟨count, enough, known⟩ := handling.known hdlc
    obtain ⟨less, rfl⟩ : ∃ less, count = less + 1 := ⟨count - 1, by omega⟩
    obtain ⟨now, later⟩ := recognizes_turn hdlc turn handled known
    exact ⟨now, less, Nat.le_of_lt_succ enough, later⟩
  obtain ⟨rest, rfl, sound⟩ := told.handled handled fun hdlc remembered =>
    (recognized hdlc).1 (same.2 ▸ remembered)
  exact ⟨handled.dma.trans same.1, skb, rest, rfl, sound, fun hdlc => (recognized hdlc).2⟩

theorem handlerLoop_sound (fuel : Nat) (during : List (List Nat)) (sound : Sound cfg chan skbs)
    (enough : skbs.length < fuel)
    (known : cfg.hdlcEng = true → recognizes chan fuel during = true) :
    ∃ next txComplete rest, handlerLoop cfg fuel during chan = some (next, txComplete) ∧
      Sound cfg next rest ∧ next.txDmaBusy = chan.txDmaBusy := by
  obtain ⟨last, txComplete, later, rest, ran, dma, ends⟩ :=
    @handlerLoop_keeps cfg
      (fun during next rest => next.txDmaBusy = chan.txDmaBusy ∧ Handling cfg during next rest)
      (fun during chan skbs next kept turn => by
        obtain ⟨same, skb, rest, all, keeps⟩ := kept.2.turn turn
        exact ⟨skb, rest, all, same.trans kept.1, keeps⟩)
      fuel during chan skbs enough ⟨rfl, sound, fun hdlc => ⟨fuel, enough, known hdlc⟩⟩
  refine ⟨_, txComplete, rest, ran, cardDone_sound ends.sound _, ?_⟩
  rw [cardDone_reg]
  exact dma

theorem aftTxDmaChainHandler_rests (during : List (List Nat)) (rests : Rests cfg chan skbs)
    (known : cfg.hdlcEng = true → recognizes chan (maxAftDmaChains + 1) during = true) :
    ∃ next txComplete rest, aftTxDmaChainHandler cfg chan during = some (next, txComplete) ∧
      Rests cfg next rest := by
  have start := rests.toSound.flags chan.txDmaBusy true chan.txIntrPending chan.interfaceDown
    chan.bertMode
  have busy : recognizes { chan with txHandlerBusy := true } (maxAftDmaChains + 1) during =
      recognizes chan (maxAftDmaChains + 1) during :=
    recognizes_congr _ during rfl rfl rfl rfl
  rw [← busy] at known
  obtain ⟨next, txComplete, rest, ran, sound, dma⟩ :=
    handlerLoop_sound (maxAftDmaChains + 1) during start
      (Nat.lt_succ_of_le rests.ring.few) known
  refine ⟨{ next with txHandlerBusy := false }, txComplete, rest, ?_,
    sound.flags _ false _ _ _, dma.trans rests.dma, rfl⟩
  rw [aftTxDmaChainHandler, if_neg (ne_true_of_eq_false rests.handler), ran]
  rfl

/-- What taking every descriptor back leaves alone. -/
structure Sheds (chan next : Chan) : Prop where
  lists : Shed chan.lists next.lists
  queued : next.queued = chan.queued
  posted : next.posted = chan.posted
  completed : next.completed = chan.completed
  dma : next.txDmaBusy = chan.txDmaBusy
  handler : next.txHandlerBusy = chan.txHandlerBusy

theorem chainInit_sheds (cfg : Cfg) (chan : Chan) (i : Nat) :
    Sheds chan (aftTxDmaChainInit cfg chan i) := by
  obtain ⟨lists, aside, dma⟩ := chainInit_lists cfg chan i
  refine ⟨?_, aside.queued, aside.posted, aside.completed, dma, aside.handler⟩
  rw [lists]
  cases (chan.table i).skb with
  | none => exact ⟨rfl, rfl, rfl, rfl⟩
  | some skb =>
      simp only [Option.elim_some]
      split
      · exact ⟨rfl, rfl, rfl, rfl⟩
      · exact release_shed cfg chan.lists skb

theorem Sheds.trans {middle : Chan} (first : Sheds chan middle) (second : Sheds middle next) :
    Sheds chan next :=
  ⟨first.lists.trans second.lists, second.queued.trans first.queued,
    second.posted.trans first.posted, second.completed.trans first.completed,
    second.dma.trans first.dma, second.handler.trans first.handler⟩

theorem freeDescrs_sheds (cfg : Cfg) (chan : Chan) (count : Nat) :
    Sheds chan (freeDescrs cfg chan count) := by
  induction count with
  | zero => exact ⟨⟨rfl, rfl, rfl, rfl⟩, rfl, rfl, rfl, rfl, rfl⟩
  | succ count ih =>
      let cleared := (freeDescrs cfg chan count).setReg count ⟨false, false⟩
      have last : freeDescrs cfg chan (count + 1) = aftTxDmaChainInit cfg cleared count := by
        rw [freeDescrs, List.range_succ, List.foldl_append]
        rfl
      have kept : Sheds chan cleared :=
        ⟨ih.lists, ih.queued, ih.posted, ih.completed, ih.dma, ih.handler⟩
      rw [last]
      exact kept.trans (chainInit_sheds cfg cleared count)

theorem aftFreeTxDescriptors_rests (rests : Rests cfg chan skbs) (ptr : Fin maxAftDmaChains) :
    ∃ rest, Rests cfg (aftFreeTxDescriptors cfg chan ptr) rest := by
  rw [aftFreeTxDescriptors]
  split
  · exact ⟨skbs, rests⟩
  · obtain ⟨table, -⟩ := freeDescrs_clears cfg chan maxAftDmaChains
    obtain ⟨lists, queued, posted, completed, dma, handler⟩ :=
      freeDescrs_sheds cfg chan maxAftDmaChains
    let empty := aftResetTxChainCnt (freeDescrs cfg chan maxAftDmaChains) ptr
    let shed := releaseAll cfg { empty.lists with complete := [] } empty.lists.complete
    let excess := shed.pending.length - (if cfg.xmtp2 then 4 else 2)
    let last := releaseAll cfg { shed with pending := shed.pending.drop excess }
      (shed.pending.take excess)
    have first := releaseAll_shed cfg { empty.lists with complete := [] } empty.lists.complete
    have second := releaseAll_shed cfg { shed with pending := shed.pending.drop excess }
      (shed.pending.take excess)
    have pending : last.pending = chan.lists.pending.drop excess := by
      rw [second.pending]
      show shed.pending.drop excess = _
      rw [first.pending]
      show (freeDescrs cfg chan maxAftDmaChains).lists.pending.drop excess = _
      rw [lists.pending]
    have rpt : last.rpt = chan.lists.rpt := by
      rw [second.rpt]
      show shed.rpt = _
      rw [first.rpt]
      exact lists.rpt
    refine ⟨[], ⟨ring_nil ptr.isLt table rfl rfl, rfl, rfl,
      fun _ skb member => absurd member List.not_mem_nil, ?_, ?_, ?_⟩,
      dma.trans rests.dma, handler.trans rests.handler⟩
    · refine rests.listed.shorter ?_ ?_
      · exact pending ▸ List.drop_subset _ _
      · exact rpt ▸ List.Subset.refl _
    · show (dataOf ((freeDescrs cfg chan maxAftDmaChains).posted ++ last.pending)).Sublist
        (dataOf (freeDescrs cfg chan maxAftDmaChains).queued)
      rw [posted, queued, pending]
      refine List.Sublist.trans (dataOf_sublist ?_) rests.posted
      exact List.Sublist.append_left (List.drop_sublist _ _) _
    · show (dataOf ((freeDescrs cfg chan maxAftDmaChains).completed ++ [])).Sublist
        (dataOf (freeDescrs cfg chan maxAftDmaChains).posted)
      rw [posted, completed]
      refine List.Sublist.trans (dataOf_sublist ?_) rests.completed
      exact List.Sublist.append_left (List.nil_sublist _) _

theorem ringStep_rests (op : RingOp cfg) (rests : Rests cfg chan skbs)
    (allowed : Recognizes cfg chan op) :
    ∃ next, ringStep cfg chan op = some next ∧ ∃ rest, Rests cfg next rest := by
  cases op with
  | queue skb other =>
      obtain ⟨⟨ring, size, dataSize, carries, listed, posted, completed⟩, dma, handler⟩ := rests
      refine ⟨_, rfl, skbs, ⟨ring.stays ⟨rfl, rfl, rfl, rfl, rfl⟩, size, dataSize, carries,
        ⟨?_, listed.rpt⟩, ?_, completed⟩, dma, handler⟩
      · intro old member
        rcases List.mem_append.mp member with before | new
        · exact listed.pending old before
        · rw [List.mem_singleton.mp new]
          exact other
      · rw [← List.append_assoc, dataOf_append, dataOf_append chan.queued]
        exact posted.append (List.Sublist.refl _)
  | queueRepeat skb other =>
      obtain ⟨⟨ring, size, dataSize, carries, listed, posted, completed⟩, dma, handler⟩ := rests
      refine ⟨_, rfl, skbs, ⟨ring.stays ⟨rfl, rfl, rfl, rfl, rfl⟩, size, dataSize, carries,
        ⟨listed.pending, ?_⟩, posted, completed⟩, dma, handler⟩
      intro old member
      rcases List.mem_append.mp member with before | new
      · exact listed.rpt old before
      · rw [List.mem_singleton.mp new]
        exact ⟨other, nofun⟩
  | others interfaceDown bertMode =>
      exact ⟨_, rfl, skbs, rests.toSound.flags _ _ _ interfaceDown bertMode, rests.dma,
        rests.handler⟩
  | bottomHalf sent freed =>
      obtain ⟨⟨ring, size, dataSize, carries, listed, posted, completed⟩, dma, handler⟩ := rests
      exact ⟨_, rfl, skbs, ⟨ring.stays ⟨rfl, rfl, rfl, rfl, rfl⟩, size, dataSize, carries,
        ⟨listed.pending, listed.rpt⟩, posted, completed⟩, dma, handler⟩
  | cardDone done =>
      have flags : (cardDone chan done).txDmaBusy = false ∧
          (cardDone chan done).txHandlerBusy = false := by
        rw [cardDone_reg]
        exact ⟨rests.dma, rests.handler⟩
      exact ⟨_, rfl, skbs, cardDone_sound rests.toSound done, flags.1, flags.2⟩
  | dmaTx made other => exact ⟨_, rfl, aftDmaTx_rests rests other⟩
  | txDmaChainHandler during =>
      obtain ⟨next, txComplete, rest, ran, rests⟩ :=
        aftTxDmaChainHandler_rests during rests allowed
      refine ⟨next, ?_, rest, rests⟩
      rw [ringStep, ran]
      rfl
  | freeTxDescriptors ptr => exact ⟨_, rfl, aftFreeTxDescriptors_rests rests ptr⟩

theorem Blank.rests (blank : Blank chan) : Rests cfg chan [] := by
  obtain ⟨⟨inside, tx, table, -⟩, size, dataSize, dma, handler, lists, queued, posted,
    completed⟩ := blank
  refine ⟨⟨ring_nil inside table tx rfl, size, dataSize, fun _ => nofun, ?_, ?_, ?_⟩, dma,
    handler⟩
  · rw [lists]
    exact ⟨nofun, nofun⟩
  · rw [posted, queued, lists]
    exact List.Sublist.refl _
  · rw [completed, posted]
    exact List.Sublist.refl _

end Steps

section Order

variable {cfg : Cfg} {chan : Chan} {skbs : List Skb}

/-- The stretch of the ring in the words of its two indices. -/
theorem Ring.between (ring : Ring chan skbs) (apart : chan.txPendingChainIndx ≠ chan.txChainIndx)
    {i : Nat} (bound : i < maxAftDmaChains) :
    (chan.table i).init = true ↔ Between chan.txPendingChainIndx chan.txChainIndx i := by
  have few := ring.few
  have next := ring.next
  have pending := ring.pending
  rw [ring.holding i bound, ring.holds.used bound]
  unfold place at next
  unfold offset Between
  split at next <;> split <;> split <;> omega

theorem Ring.all_or_none (ring : Ring chan skbs)
    (same : chan.txPendingChainIndx = chan.txChainIndx) :
    (∀ i < maxAftDmaChains, (chan.table i).init = true) ∨
      ∀ i < maxAftDmaChains, (chan.table i).init = false := by
  have few := ring.few
  have next := ring.next
  have pending := ring.pending
  unfold place at next
  have extreme : skbs.length = 0 ∨ skbs.length = maxAftDmaChains := by
    split at next <;> omega
  rcases extreme with none | all
  · right
    intro i bound
    rw [ring.holding i bound, ← Bool.not_eq_true, ring.holds.used bound]
    omega
  · left
    intro i bound
    rw [ring.holding i bound, ring.holds.used bound, all]
    exact offset_lt pending bound

theorem Ring.countP (ring : Ring chan skbs) (test : Skb → Bool) :
    ((List.range maxAftDmaChains).countP fun i => (chan.table i).skb.any test) =
      skbs.countP test :=
  ring.holds.countP ring.pending ring.few test

theorem Rests.inOrder (rests : Rests cfg chan skbs) : InOrder cfg chan := by
  have ring := rests.ring
  refine ⟨?_, ?_, ?_, ?_, rests.dma, rests.handler, ?_, ?_⟩
  · split
    · next same => exact ring.all_or_none same
    · next apart => exact fun i bound => ring.between apart bound
  · rw [rests.size, ← List.countP_true, ← ring.countP]
    apply List.countP_congr
    intro i member
    rw [ring.holding i (List.mem_range.mp member)]
    cases (chan.table i).skb <;> simp
  · rw [rests.dataSize, ← ring.countP]
    apply List.countP_congr
    intro i member
    rw [ring.holding i (List.mem_range.mp member)]
    cases (chan.table i).skb <;> simp
  · intro i bound used
    rw [← ring.holding i bound]
    exact used
  · refine List.Sublist.trans (dataOf_sublist ?_) rests.posted
    exact List.sublist_append_left _ _
  · refine List.Sublist.trans (dataOf_sublist ?_) rests.completed
    exact List.sublist_append_left _ _

end Order

/-- In every run in which no data frame comes back at the address of the remembered repeat frame the
ring is in order, and the data frames pass through it once and in their order. -/
theorem aft_tx_ring (cfg : Cfg) {chan : Chan} (blank : Blank chan) (ops : List (RingOp cfg))
    (recognized : Along (ringStep cfg) (Recognizes cfg) chan ops) :
    ∃ last, run (ringStep cfg) chan ops = some last ∧ InOrder cfg last := by
  have steps (chan : Chan) (op : RingOp cfg) (kept : ∃ skbs, Rests cfg chan skbs)
      (allowed : Recognizes cfg chan op) :
      ∃ next, ringStep cfg chan op = some next ∧ ∃ skbs, Rests cfg next skbs := by
    obtain ⟨skbs, rests⟩ := kept
    exact ringStep_rests op rests allowed
  obtain ⟨last, ran, skbs, rests⟩ := Along.run steps ⟨[], blank.rests⟩ recognized
  exact ⟨last, ran, rests.inOrder⟩

/-- An HDLC channel that repeats its last repeat frame. -/
def repeatCfg : Cfg := { hdlcCfg with hdlcRepeat := true }

theorem freshChan_blank : Blank freshChan :=
  ⟨⟨by decide, rfl, fun _ _ => rfl, rfl⟩, rfl, rfl, rfl, rfl, rfl, rfl, rfl, rfl⟩

theorem noneMade (skb : Skb) (cells : Nat)
    (member : (some skb, cells) ∈ ([] : List (Option Skb × Nat))) : repeatCfg.isIdle skb = false :=
  absurd member List.not_mem_nil

theorem aft_tx_ring_repeated :
    ∃ last, run (ringStep repeatCfg) freshChan
        [.queueRepeat (packetSkb 1) rfl, .queue (packetSkb 2) rfl, .dmaTx [] noneMade,
          .cardDone [5, 6], .txDmaChainHandler [], .dmaTx [] noneMade] = some last ∧
      InOrder repeatCfg last :=
  aft_tx_ring repeatCfg freshChan_blank _ (by decide +kernel)

/-- A reset frees the repeat frame, and a data frame gets its address. -/
def reuse : List (RingOp repeatCfg) :=
  [.queueRepeat (packetSkb 1) rfl, .dmaTx [] noneMade, .freeTxDescriptors ⟨5, by decide⟩,
    .bottomHalf 0 1, .queue (packetSkb 1) rfl, .dmaTx [] noneMade, .cardDone [5],
    .txDmaChainHandler [], .dmaTx [] noneMade]

theorem aft_tx_ring_again :
    Blank freshChan ∧ ∃ last, run (ringStep repeatCfg) freshChan reuse = some last ∧
      ¬InOrder repeatCfg last := by
  refine ⟨freshChan_blank, ?_⟩
  have twice : (run (ringStep repeatCfg) freshChan reuse).any (fun last =>
      decide ((dataOf last.posted).length = 2 ∧ (dataOf last.queued).length = 1)) = true := by
    decide +kernel
  obtain ⟨last, ran, logged⟩ := (Option.any_eq_true _ _).mp twice
  obtain ⟨posted, queued⟩ := of_decide_eq_true logged
  refine ⟨last, ran, fun order => ?_⟩
  have fewer := order.posted.length_le
  rw [posted, queued] at fewer
  exact absurd fewer (by decide)

end Wanpipe.Aft
