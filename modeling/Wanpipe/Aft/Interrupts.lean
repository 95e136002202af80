import Wanpipe.Aft.Moves
import Wanpipe.Runs

/-! The transmit interrupt of an AFT channel: it is asked for when the ring is nearly full, once at a
time. -/

namespace Wanpipe.Aft

open Wanpipe.Circle Runs

/-- A descriptor among the `n` oldest was posted with its interrupt enabled. -/
def Asked (chan : Chan) (n : Nat) : Prop :=
  ∃ k < n, (chan.reg (place maxAftDmaChains chan.txPendingChainIndx k)).intrDisable = false

/-- A descriptor in use was posted with its interrupt enabled. -/
def IntrEnabled (chan : Chan) : Prop :=
  ∃ i < maxAftDmaChains, (chan.table i).init = true ∧ (chan.reg i).intrDisable = false

/-- `TX_INTR_PENDING` and a full ring both stand for an interrupt that will come. -/
structure Covered (chan : Chan) (skbs : List Skb) : Prop where
  ring : Ring chan skbs
  sticky : chan.txIntrPending = true → Asked chan skbs.length
  full : skbs.length = maxAftDmaChains → Asked chan skbs.length

/-- `others` is what the rest of the driver does to the lists of a channel, its mode and its
interface; `made` is what the software layers return where `aft_dma_tx` calls them, `during` what
the card is done with in the course of a call, `ptr` and `later` where it stands when it is reset. -/
inductive TxOp
  | others (lists : Lists) (interfaceDown bertMode : Bool)
  | cardDone (done : List Nat)
  | dmaTx (made : List (Option Skb × Nat))
  | dmaTxComplete (wdt reset : Bool) (during : List (List Nat)) (made : List (Option Skb × Nat))
  | txFifoUnderRecover (during : List (List Nat)) (made : List (Option Skb × Nat))
      (ptr later : Fin maxAftDmaChains)

def txStep (cfg : Cfg) (chan : Chan) : TxOp → Option Chan
  | .others lists interfaceDown bertMode =>
      some { chan with lists := lists, interfaceDown := interfaceDown, bertMode := bertMode }
  | .cardDone done => some (cardDone chan done)
  | .dmaTx made => some (aftDmaTx cfg chan made).2
  | .dmaTxComplete wdt reset during made => aftDmaTxComplete cfg chan wdt reset during made
  | .txFifoUnderRecover during made ptr later =>
      aftTxFifoUnderRecover cfg chan during made ptr later

/-- A channel that was just set up, the card standing anywhere. -/
structure Fresh (chan : Chan) : Prop where
  inside : chan.txPendingChainIndx < maxAftDmaChains
  tx : chan.txChainIndx = chan.txPendingChainIndx
  table : ∀ i < maxAftDmaChains, chan.table i = ⟨false, none⟩
  sticky : chan.txIntrPending = false

section Steps

variable {cfg : Cfg} {chan next : Chan} {skbs : List Skb}

/-- The interrupt is wanted from the descriptor on that leaves two free. -/
theorem Ring.wantsIntr_iff (ring : Ring chan skbs) (room : skbs.length < maxAftDmaChains) :
    wantsIntr chan = true ↔ chan.txIntrPending = false ∧ 14 ≤ skbs.length := by
  have inside := ring.pending
  have tx := ring.next
  unfold place at tx
  unfold wantsIntr
  unfold maxAftDmaChains at *
  cases chan.txIntrPending with
  | true => simp
  | false =>
      simp only [Bool.false_eq_true, if_false, true_and]
      split at tx <;> split <;> simp only [decide_eq_true_eq] <;> omega

theorem Asked.of_reg {n : Nat} (asked : Asked chan n)
    (pending : next.txPendingChainIndx = chan.txPendingChainIndx)
    (same : ∀ i, (next.reg i).intrDisable = (chan.reg i).intrDisable) : Asked next n := by
  obtain ⟨k, inside, enabled⟩ := asked
  refine ⟨k, inside, ?_⟩
  rw [pending, same, enabled]

theorem Covered.stays (covered : Covered chan skbs) (stays : Stays chan next) :
    Covered next skbs := by
  have asked (asked : Asked chan skbs.length) : Asked next skbs.length :=
    asked.of_reg stays.pending fun i => by rw [stays.reg]
  refine ⟨covered.ring.stays stays, ?_, fun full => asked (covered.full full)⟩
  intro sticky
  rw [stays.sticky] at sticky
  exact asked (covered.sticky sticky)

/-- The last descriptor is posted with the flag set, or asks for the interrupt itself. -/
theorem Covered.posts {skb : Skb} (covered : Covered chan skbs)
    (posts : Posts cfg chan next skb) : Covered next (skbs ++ [skb]) := by
  have room := covered.ring.free_iff.mp posts.free
  have wants := covered.ring.wantsIntr_iff room
  have here := covered.ring.next
  have length : (skbs ++ [skb]).length = skbs.length + 1 := List.length_append ..
  have before (asked : Asked chan skbs.length) : Asked next (skbs.length + 1) := by
    obtain ⟨k, inside, enabled⟩ := asked
    refine ⟨k, Nat.lt_succ_of_lt inside, ?_⟩
    have apart : place maxAftDmaChains chan.txPendingChainIndx k ≠ chan.txChainIndx := by
      intro same
      have spot := offset_place covered.ring.pending (inside.trans room)
      rw [same, here, offset_place covered.ring.pending room] at spot
      exact Nat.ne_of_gt inside spot
    rw [posts.pending, posts.reg, Function.update_of_ne apart, enabled]
  have last (wanted : wantsIntr chan = true) : Asked next (skbs.length + 1) := by
    refine ⟨skbs.length, Nat.lt_succ_self _, ?_⟩
    rw [posts.pending, ← here, posts.reg, Function.update_self, wanted]
    exact ite_self _
  refine ⟨covered.ring.posts posts, ?_, ?_⟩
  · intro sticky
    rw [length]
    rw [posts.sticky, Bool.or_eq_true] at sticky
    exact sticky.elim (fun set => before (covered.sticky set)) last
  · intro full
    rw [length] at full ⊢
    cases set : chan.txIntrPending with
    | true => exact before (covered.sticky set)
    | false =>
        apply last
        rw [wants]
        unfold maxAftDmaChains at full
        exact ⟨set, by omega⟩

/-- The flag falls with the descriptor that it stands for. -/
theorem Covered.frees (covered : Covered chan skbs) (frees : Frees chan next) :
    ∃ skb rest, skbs = skb :: rest ∧ Covered next rest := by
  obtain ⟨skb, rest, rfl, ring⟩ := covered.ring.frees frees
  have less : rest.length < maxAftDmaChains := covered.ring.few
  refine ⟨skb, rest, rfl, ring, ?_, fun full => absurd full less.ne⟩
  intro sticky
  rw [frees.sticky] at sticky
  split at sticky
  · next disabled =>
      obtain ⟨k, inside, enabled⟩ := covered.sticky sticky
      cases k with
      | zero =>
          rw [place_zero covered.ring.pending, disabled] at enabled
          cases enabled
      | succ k =>
          have closer := Nat.lt_of_succ_lt_succ inside
          refine ⟨k, closer, ?_⟩
          rw [frees.pending, place_advance covered.ring.pending (closer.trans less), frees.reg,
            enabled]
  · cases sticky

theorem Covered.goClears (covered : Covered chan skbs) (i : Nat) :
    Covered (chan.setReg i { chan.reg i with go := false }) skbs := by
  have same (j : Nat) : ((chan.setReg i { chan.reg i with go := false }).reg j).intrDisable =
      (chan.reg j).intrDisable := by
    simp only [Chan.setReg]
    by_cases here : j = i
    · rw [here, Function.update_self]
    · rw [Function.update_of_ne here]
  obtain ⟨ring, sticky, full⟩ := covered
  exact ⟨⟨ring.pending, ring.few, ring.next, ring.holds, ring.holding⟩,
    fun set => (sticky set).of_reg rfl same, fun all => (full all).of_reg rfl same⟩

theorem cardDone_covered (covered : Covered chan skbs) (done : List Nat) :
    Covered (cardDone chan done) skbs ∧
      (cardDone chan done).txIntrPending = chan.txIntrPending := by
  induction done generalizing chan with
  | nil => exact ⟨covered, rfl⟩
  | cons i done ih => exact ih (covered.goClears i)

/-- The handler takes descriptors back until it finds one that it may not take. -/
theorem handlerLoop_covered (cfg : Cfg) (fuel : Nat) (during : List (List Nat)) (covered : Covered chan skbs)
    (enough : skbs.length < fuel) :
    ∃ next txComplete rest, handlerLoop cfg fuel during chan = some (next, txComplete) ∧
      Covered next rest ∧ (chan.txIntrPending = false → next.txIntrPending = false) := by
  let low (next : Chan) := chan.txIntrPending = false → next.txIntrPending = false
  obtain ⟨last, txComplete, later, rest, ran, ends, clear⟩ :=
    @handlerLoop_keeps cfg (fun _ next rest => Covered next rest ∧ low next)
      (fun during chan skbs next kept turn => by
        obtain ⟨told, same⟩ := cardDone_covered kept.1 (during.headD [])
        have frees := handlerTurn_frees turn
        obtain ⟨skb, rest, all, less⟩ := told.frees frees
        refine ⟨skb, rest, all, less, fun clear => ?_⟩
        rw [frees.sticky, same, kept.2 clear]
        exact ite_self _)
      fuel during chan skbs enough ⟨covered, id⟩
  obtain ⟨told, same⟩ := cardDone_covered ends (later.headD [])
  refine ⟨_, txComplete, rest, ran, told, fun sticky => ?_⟩
  rw [same]
  exact clear sticky

theorem aftTxDmaChainHandler_covered (cfg : Cfg) (during : List (List Nat))
    (covered : Covered chan skbs) :
    ∃ next txComplete rest, aftTxDmaChainHandler cfg chan during = some (next, txComplete) ∧
      Covered next rest ∧ (chan.txIntrPending = false → next.txIntrPending = false) := by
  by_cases busy : chan.txHandlerBusy = true
  · refine ⟨chan, 0, skbs, ?_, covered, id⟩
    rw [aftTxDmaChainHandler, if_pos busy]
  · have start : Covered { chan with txHandlerBusy := true } skbs :=
      covered.stays ⟨rfl, rfl, rfl, rfl, rfl⟩
    obtain ⟨next, txComplete, rest, ran, ends, low⟩ :=
      handlerLoop_covered cfg (maxAftDmaChains + 1) during start
        (Nat.lt_succ_of_le covered.ring.few)
    refine ⟨{ next with txHandlerBusy := false }, txComplete, rest, ?_,
      ends.stays ⟨rfl, rfl, rfl, rfl, rfl⟩, low⟩
    rw [aftTxDmaChainHandler, if_neg busy, ran]
    rfl

theorem dmaTxLoop_covered (cfg : Cfg) (cnt txDataCnt : Nat) (made : List (Option Skb × Nat))
    (covered : Covered chan skbs) :
    ∃ more, Covered (dmaTxLoop cfg cnt chan txDataCnt made) more := by
  obtain ⟨-, kept⟩ := @dmaTxLoop_keeps cfg made (fun _ chan => ∃ skbs, Covered chan skbs)
    (fun _ _ kept => by
      obtain ⟨skbs, covered⟩ := kept
      exact covered.ring.holding _ covered.ring.tx_lt)
    (fun _ _ _ _ _ kept turn => by
      obtain ⟨skbs, covered⟩ := kept
      rcases turn.moves with stays | ⟨skb, posts⟩
      · exact ⟨skbs, covered.stays stays⟩
      · exact ⟨skbs ++ [skb], covered.posts posts⟩)
    cnt txDataCnt chan made (List.Subset.refl _) ⟨skbs, covered⟩
  exact kept

theorem aftDmaTx_covered (cfg : Cfg) (made : List (Option Skb × Nat))
    (covered : Covered chan skbs) : ∃ more, Covered (aftDmaTx cfg chan made).2 more := by
  rw [aftDmaTx]
  split
  · exact ⟨skbs, covered⟩
  · split
    · exact ⟨skbs, covered⟩
    · split
      · exact ⟨skbs, covered⟩
      · have start : Covered { chan with txDmaBusy := true } skbs :=
          covered.stays ⟨rfl, rfl, rfl, rfl, rfl⟩
        obtain ⟨more, ends⟩ := dmaTxLoop_covered cfg maxAftDmaChains 0 made start
        exact ⟨more, ends.stays ⟨rfl, rfl, rfl, rfl, rfl⟩⟩

theorem aftDmaTxComplete_covered (cfg : Cfg) (wdt reset : Bool) (during : List (List Nat))
    (made : List (Option Skb × Nat)) (covered : Covered chan skbs) :
    ∃ next rest, aftDmaTxComplete cfg chan wdt reset during made = some next ∧
      Covered next rest ∧ (wdt = false → reset = true → next.txIntrPending = false) := by
  let told := if wdt then chan else { chan with txIntrPending := false }
  have start : Covered told skbs := by
    simp only [told]
    split
    · exact covered
    · obtain ⟨ring, -, full⟩ := covered
      exact ⟨⟨ring.pending, ring.few, ring.next, ring.holds, ring.holding⟩, nofun, full⟩
  obtain ⟨middle, txComplete, rest, ran, ends, low⟩ :=
    aftTxDmaChainHandler_covered cfg during start
  have returned : aftDmaTxComplete cfg chan wdt reset during made =
      some (if reset then middle
        else if wdt = false ∨ (cfg.hdlcEng ∧ txComplete = 0) then (aftDmaTx cfg middle made).2
        else middle) := by
    show (aftTxDmaChainHandler cfg told during).map _ = _
    rw [ran]
    rfl
  rw [returned]
  cases reset with
  | true =>
      refine ⟨middle, rest, rfl, ends, ?_⟩
      rintro rfl _
      exact low rfl
  | false =>
      by_cases sends : wdt = false ∨ (cfg.hdlcEng ∧ txComplete = 0)
      · obtain ⟨more, sent⟩ := aftDmaTx_covered cfg made ends
        exact ⟨_, more, congrArg some (if_pos sends), sent, nofun⟩
      · exact ⟨_, rest, congrArg some (if_neg sends), ends, nofun⟩

/-- Where the ring is emptied the flag was cleared before. -/
theorem aftFreeTxDescriptors_covered (cfg : Cfg) (ptr : Fin maxAftDmaChains)
    (covered : Covered chan skbs) (clear : chan.txIntrPending = false) :
    ∃ rest, Covered (aftFreeTxDescriptors cfg chan ptr) rest ∧
      (cfg.fakeDchan = false → ∀ later : Fin maxAftDmaChains,
        Covered (aftResetTxChainCnt (aftFreeTxDescriptors cfg chan ptr) later) []) := by
  have empty {state : Chan} (ring : Ring state []) (low : state.txIntrPending = false) :
      Covered state [] := by
    refine ⟨ring, ?_, nofun⟩
    rw [low]
    nofun
  rw [aftFreeTxDescriptors]
  split
  · next fake => exact ⟨skbs, covered, fun real => absurd fake (by simp [real])⟩
  · obtain ⟨table, same⟩ := freeDescrs_clears cfg chan maxAftDmaChains
    exact ⟨[], empty (ring_nil ptr.isLt table rfl rfl) (same.trans clear),
      fun _ later => empty (ring_nil later.isLt table rfl rfl) (same.trans clear)⟩

theorem aftTxFifoUnderRecover_covered (cfg : Cfg) (during : List (List Nat))
    (made : List (Option Skb × Nat)) (ptr later : Fin maxAftDmaChains)
    (covered : Covered chan skbs) :
    ∃ next rest, aftTxFifoUnderRecover cfg chan during made ptr later = some next ∧
      Covered next rest := by
  obtain ⟨middle, rest, ran, ends, low⟩ :=
    aftDmaTxComplete_covered cfg false true during made covered
  obtain ⟨left, freed, again⟩ := aftFreeTxDescriptors_covered cfg ptr ends (low rfl rfl)
  rw [aftTxFifoUnderRecover, ran]
  simp only [Option.map_some]
  split
  · next resets =>
      obtain ⟨more, sent⟩ := aftDmaTx_covered cfg made (again (cfg.board resets.1) later)
      exact ⟨_, more, rfl, sent⟩
  · obtain ⟨more, sent⟩ := aftDmaTx_covered cfg made freed
    exact ⟨_, more, rfl, sent⟩

theorem txStep_covered (cfg : Cfg) (op : TxOp) (covered : Covered chan skbs) :
    ∃ next, txStep cfg chan op = some next ∧ ∃ rest, Covered next rest := by
  cases op with
  | others lists interfaceDown bertMode =>
      exact ⟨_, rfl, skbs, covered.stays ⟨rfl, rfl, rfl, rfl, rfl⟩⟩
  | cardDone done => exact ⟨_, rfl, skbs, (cardDone_covered covered done).1⟩
  | dmaTx made => exact ⟨_, rfl, aftDmaTx_covered cfg made covered⟩
  | dmaTxComplete wdt reset during made =>
      obtain ⟨next, rest, ran, ends, -⟩ :=
        aftDmaTxComplete_covered cfg wdt reset during made covered
      exact ⟨next, ran, rest, ends⟩
  | txFifoUnderRecover during made ptr later =>
      obtain ⟨next, rest, ran, ends⟩ :=
        aftTxFifoUnderRecover_covered cfg during made ptr later covered
      exact ⟨next, ran, rest, ends⟩

theorem Fresh.covered (fresh : Fresh chan) : Covered chan [] := by
  refine ⟨ring_nil fresh.inside fresh.table fresh.tx rfl, ?_, nofun⟩
  rw [fresh.sticky]
  nofun

theorem Asked.enabled (asked : Asked chan skbs.length) (ring : Ring chan skbs) :
    IntrEnabled chan := by
  obtain ⟨k, inside, enabled⟩ := asked
  have bound := place_lt ring.pending (inside.trans_le ring.few)
  refine ⟨_, bound, ?_, enabled⟩
  rw [ring.holding _ bound, ring.holds.used bound,
    offset_place ring.pending (inside.trans_le ring.few)]
  exact inside

end Steps

/-- In every run a pending interrupt, and a full ring, have a descriptor in use that was posted with
its interrupt enabled. -/
theorem aft_tx_interrupts (cfg : Cfg) {chan : Chan} (fresh : Fresh chan) (ops : List TxOp) :
    ∃ last, run (txStep cfg) chan ops = some last ∧
      (last.txIntrPending = true → IntrEnabled last) ∧
      ((∀ i < maxAftDmaChains, (last.table i).init = true) → IntrEnabled last) := by
  have always : Along (txStep cfg) (fun _ _ => True) chan ops :=
    Along.of_forall chan ops fun _ _ => trivial
  have steps (chan : Chan) (op : TxOp) (kept : ∃ skbs, Covered chan skbs) (_ : True) :
      ∃ next, txStep cfg chan op = some next ∧ ∃ skbs, Covered next skbs := by
    obtain ⟨skbs, covered⟩ := kept
    exact txStep_covered cfg op covered
  obtain ⟨last, ran, skbs, covered⟩ := Along.run steps ⟨[], fresh.covered⟩ always
  refine ⟨last, ran, fun sticky => (covered.sticky sticky).enabled covered.ring, ?_⟩
  intro all
  have full : skbs.length = maxAftDmaChains := by
    by_contra room
    have free := covered.ring.free_iff.mpr (Nat.lt_of_le_of_ne covered.ring.few room)
    rw [all _ covered.ring.tx_lt] at free
    cases free
  exact (covered.full full).enabled covered.ring

theorem none_own (skb : Skb) (own : none = some skb ∨ none = some skb) : skb.kind = .own := by
  rcases own with impossible | impossible <;> cases impossible

theorem none_apart (one other : Skb) (first : none = some one) (_ : none = some other) :
    one.addr ≠ other.addr := by
  cases first

/-- An HDLC channel without an skb of its own. -/
def hdlcCfg : Cfg :=
  { hdlcEng := true, hdlcRepeat := false, irqAll := false, requeues := false, xmtp2 := false
    fakeDchan := false, oneTimeSlot := false, mixed := false, a116 := false, made := false
    realignBuf := true, dmaMru := 2048, idle := none, bert := none, own := none_own
    apart := none_apart, soft := Bool.noConfusion, board := fun _ => rfl }

def emptyLists : Lists := { pending := [], rpt := [], complete := [], dealloc := [], rptSkb := none }

/-- A channel that was just set up, with the card at descriptor 5. -/
def freshChan : Chan :=
  { table := fun _ => ⟨false, none⟩, reg := fun _ => ⟨false, true⟩, txChainIndx := 5
    txPendingChainIndx := 5, txChainSz := 0, txChainDataSz := 0, txDmaBusy := false
    txHandlerBusy := false, txIntrPending := false, interfaceDown := false, bertMode := false
    lists := emptyLists, queued := [], posted := [], completed := [] }

def packetSkb (addr : Nat) : Skb :=
  { addr := addr, len := 64, data := 0, head := 0, tailroom := 2048, kind := .data }

theorem aft_tx_interrupts_full :
    let pending := (List.range 20).map packetSkb
    ∃ last, run (txStep hdlcCfg) freshChan
        [.others { emptyLists with pending := pending } false false, .dmaTx []] = some last ∧
      IntrEnabled last := by
  intro pending
  let ops : List TxOp := [.others { emptyLists with pending := pending } false false, .dmaTx []]
  have fresh : Fresh freshChan := ⟨by decide, rfl, fun _ _ => rfl, rfl⟩
  obtain ⟨last, ran, -, full⟩ := aft_tx_interrupts hdlcCfg fresh ops
  refine ⟨last, ran, full ?_⟩
  have used : (run (txStep hdlcCfg) freshChan ops).all
      (fun chan => decide (∀ i < maxAftDmaChains, (chan.table i).init = true)) = true := by
    decide +kernel
  rw [ran, Option.all_some, decide_eq_true_eq] at used
  exact used

end Wanpipe.Aft
