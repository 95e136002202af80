import Wanpipe.Circle

/-! The transmit DMA chain of an AFT channel in a mode with several descriptors. -/

namespace Wanpipe.Aft

open Wanpipe.Circle

def maxAftDmaChains : Nat := 16

/-- How an skb came to the channel: from the pending list, as a repeat packet, made by the
software HDLC or ATM layer, or as the channel's own idle or BERT skb. It is not in the source. -/
inductive Kind
  | data
  | repeat
  | made
  | own
  deriving DecidableEq, Repr

/-- An skb at an address; `head` and `tailroom` are its data pointer and its room after
`wan_skb_init(skb,0)` and `wan_skb_trim(skb,0)`. -/
structure Skb where
  addr : Nat
  len : Nat
  data : Nat
  head : Nat
  tailroom : Nat
  kind : Kind
  deriving DecidableEq, Repr

/-- `made` is set below `sw_hdlc_dev` and `lip_atm`, which stand over transparent channels only;
`requeues` where transmit buffers come from the receive free list; `mixed` where voice channels
share the card; `fakeDchan` on the D-channel of BRI and GSM cards, which the A116 is not. The idle
and the BERT skb live as long as the channel. -/
structure Cfg where
  hdlcEng : Bool
  hdlcRepeat : Bool
  irqAll : Bool
  requeues : Bool
  xmtp2 : Bool
  fakeDchan : Bool
  oneTimeSlot : Bool
  mixed : Bool
  a116 : Bool
  made : Bool
  realignBuf : Bool
  dmaMru : Nat
  idle : Option Skb
  bert : Option Skb
  own : ∀ skb, idle = some skb ∨ bert = some skb → skb.kind = .own
  apart : ∀ one other, idle = some one → bert = some other → one.addr ≠ other.addr
  soft : made = true → hdlcEng = false
  board : a116 = true → fakeDchan = false

structure Descr where
  init : Bool
  skb : Option Skb
  deriving DecidableEq, Repr

/-- The bits of the high descriptor register that are read back. -/
structure Reg where
  go : Bool
  intrDisable : Bool
  deriving DecidableEq, Repr

/-- `rptSkb` is the address in `tx_hdlc_rpt_skb`. -/
structure Lists where
  pending : List Skb
  rpt : List Skb
  complete : List Skb
  dealloc : List Skb
  rptSkb : Option Nat
  deriving DecidableEq, Repr

/-- `queued`, `posted` and `completed` are not in the source. -/
structure Chan where
  table : Nat → Descr
  reg : Nat → Reg
  txChainIndx : Nat
  txPendingChainIndx : Nat
  txChainSz : Nat
  txChainDataSz : Nat
  txDmaBusy : Bool
  txHandlerBusy : Bool
  txIntrPending : Bool
  interfaceDown : Bool
  bertMode : Bool
  lists : Lists
  queued : List Skb
  posted : List Skb
  completed : List Skb

namespace Cfg

variable (cfg : Cfg)

def isIdle (skb : Skb) : Bool := cfg.idle.map Skb.addr == some skb.addr

def isBert (skb : Skb) : Bool := cfg.bert.map Skb.addr == some skb.addr

end Cfg

namespace Chan

def setDescr (chan : Chan) (i : Nat) (descr : Descr) : Chan :=
  { chan with table := Function.update chan.table i descr }

def setReg (chan : Chan) (i : Nat) (reg : Reg) : Chan :=
  { chan with reg := Function.update chan.reg i reg }

end Chan

def wanAftSkbDeferedDealloc (cfg : Cfg) (lists : Lists) (skb : Skb) : Lists :=
  if cfg.isBert skb then lists else { lists with dealloc := lists.dealloc ++ [skb] }

/-- A requeued buffer goes to `wp_rx_free_list`, where transmission does not see it. -/
def aftTxDmaSkbInit (cfg : Cfg) (lists : Lists) (skb : Skb) : Lists :=
  if cfg.isIdle skb then lists
  else if cfg.isBert skb then lists
  else if cfg.requeues then lists
  else wanAftSkbDeferedDealloc cfg lists skb

/-- An skb that is not sent any more. -/
def release (cfg : Cfg) (lists : Lists) (skb : Skb) : Lists :=
  if !cfg.hdlcEng then aftTxDmaSkbInit cfg lists skb else wanAftSkbDeferedDealloc cfg lists skb

def aftTxDmaChainInit (cfg : Cfg) (chan : Chan) (i : Nat) : Chan :=
  match (chan.table i).skb with
  | none => chan.setDescr i ⟨false, none⟩
  | some skb =>
      { chan with
        lists := if cfg.isBert skb then chan.lists else release cfg chan.lists skb }.setDescr i
          ⟨false, none⟩

def aftRealignSkbPkt (cfg : Cfg) (skb : Skb) : Option Skb :=
  if skb.len > cfg.dmaMru then none
  else if !cfg.realignBuf then none
  else if skb.tailroom < skb.len then none
  else if skb.head % 4 ≠ 0 then none
  else some { skb with data := skb.head }

/-- What the loop of `aft_dma_tx` carries: `made` is what the layer that makes the skbs returns
next, each with the number of cells it takes from the pending list. -/
structure Loop where
  lists : Lists
  txDataCnt : Nat
  made : List (Option Skb × Nat)
  deriving DecidableEq, Repr

def dequeue (cfg : Cfg) (loop : Loop) : Option Skb × Loop :=
  if cfg.made then
    match loop.made with
    | [] => (none, loop)
    | (skb, cells) :: made =>
        (skb.map fun skb => { skb with kind := .made },
          { loop with
            lists := { loop.lists with pending := loop.lists.pending.drop cells }
            made := made })
  else
    match loop.lists.pending with
    | [] => (none, loop)
    | skb :: pending => (some skb, { loop with lists := { loop.lists with pending := pending } })

/-- The latest repeat frame; the older ones are freed. -/
def pullRepeat (cfg : Cfg) : List Skb → Lists → Option Skb × Lists
  | [], lists => (none, { lists with rpt := [] })
  | [skb], lists => (some skb, { lists with rpt := [] })
  | skb :: next :: rpt, lists =>
      pullRepeat cfg (next :: rpt) (wanAftSkbDeferedDealloc cfg lists skb)

/-- What goes out when nothing is pending: the idle skb, or the repeat frame. -/
def fillSkb (cfg : Cfg) (txChainSz : Nat) (loop : Loop) : Option (Skb × Bool) × Loop :=
  if !cfg.hdlcEng then
    if cfg.irqAll ∧ (txChainSz > 0 ∨ loop.txDataCnt ≠ 0) then (none, loop)
    else
      (cfg.idle.map fun skb => (skb, true),
        if cfg.irqAll then { loop with txDataCnt := loop.txDataCnt + 1 } else loop)
  else if cfg.hdlcRepeat then
    match pullRepeat cfg loop.lists.rpt loop.lists with
    | (some skb, lists) =>
        (some (skb, false), { loop with lists := { lists with rptSkb := some skb.addr } })
    | (none, lists) => (none, { loop with lists := lists })
  else (none, loop)

/-- The skb for the next descriptor, and whether it is the idle one. -/
def nextSkb (cfg : Cfg) (bertMode : Bool) (txChainSz : Nat) (loop : Loop) :
    Option (Skb × Bool) × Loop :=
  match if bertMode then cfg.bert else none with
  | some skb => (some (skb, false), { loop with txDataCnt := loop.txDataCnt + 1 })
  | none =>
      match dequeue cfg loop with
      | (some skb, loop) => (some (skb, false), { loop with txDataCnt := loop.txDataCnt + 1 })
      | (none, loop) => fillSkb cfg txChainSz loop

/-- The skb as it can be sent. -/
def sendable (cfg : Cfg) (skb : Skb) : Option Skb :=
  match if skb.data % 4 ≠ 0 then aftRealignSkbPkt cfg skb else some skb with
  | none => none
  | some skb => if !cfg.hdlcEng ∧ skb.len % 4 ≠ 0 then none else some skb

def wantsIntr (chan : Chan) : Bool :=
  if chan.txIntrPending then false
  else if chan.txChainIndx ≥ chan.txPendingChainIndx then
    maxAftDmaChains - (chan.txChainIndx - chan.txPendingChainIndx) ≤ 2
  else chan.txPendingChainIndx - chan.txChainIndx ≤ 2

/-- `aft_dma_chain_tx` sets the GO bit of the descriptor, and always returns 0. -/
def aftDmaChainTx (cfg : Cfg) (chan : Chan) (intr : Bool) : Chan :=
  chan.setReg chan.txChainIndx ⟨true, if cfg.irqAll then false else !intr⟩

def post (cfg : Cfg) (chan : Chan) (skb : Skb) (idle : Bool) : Chan :=
  let intr := wantsIntr chan
  let chan := chan.setDescr chan.txChainIndx ⟨true, some skb⟩
  let chan := { chan with txIntrPending := chan.txIntrPending || intr }
  let chan := aftDmaChainTx cfg chan intr
  { chan with
    txChainDataSz := if idle then chan.txChainDataSz else chan.txChainDataSz + 1
    txChainSz := chan.txChainSz + 1
    txChainIndx := advance maxAftDmaChains chan.txChainIndx
    posted := chan.posted ++ [skb] }

def drop (cfg : Cfg) (chan : Chan) (skb : Skb) : Chan :=
  aftTxDmaChainInit cfg
    { chan with lists := wanAftSkbDeferedDealloc cfg chan.lists skb } chan.txChainIndx

/-- One turn of the loop, which goes on while the flag is set. -/
def dmaTxTurn (cfg : Cfg) (chan : Chan) (txDataCnt : Nat) (made : List (Option Skb × Nat)) :
    Chan × Nat × List (Option Skb × Nat) × Bool :=
  let i := chan.txChainIndx
  if (chan.table i).init then ({ chan with txDmaBusy := false }, txDataCnt, made, false)
  else
    let chan := chan.setDescr i { chan.table i with init := true }
    match nextSkb cfg chan.bertMode chan.txChainSz ⟨chan.lists, txDataCnt, made⟩ with
    | (none, loop) =>
        let chan := chan.setDescr i { chan.table i with init := false }
        ({ chan with lists := loop.lists, txDmaBusy := false }, loop.txDataCnt, loop.made, false)
    | (some (skb, idle), loop) =>
        let chan := { chan with lists := loop.lists }
        match sendable cfg skb with
        | none => (drop cfg chan skb, loop.txDataCnt, loop.made, true)
        | some skb => (post cfg chan skb idle, loop.txDataCnt, loop.made, true)

def dmaTxLoop (cfg : Cfg) : Nat → Chan → Nat → List (Option Skb × Nat) → Chan
  | 0, chan, _, _ => chan
  | cnt + 1, chan, txDataCnt, made =>
      match dmaTxTurn cfg chan txDataCnt made with
      | (chan, _, _, false) => chan
      | (chan, txDataCnt, made, true) => dmaTxLoop cfg cnt chan txDataCnt made

/-- Returns -EBUSY as well as the channel where it does not transmit. -/
def aftDmaTx (cfg : Cfg) (chan : Chan) (made : List (Option Skb × Nat)) : Int × Chan :=
  let ebusy : Int := 16
  if chan.interfaceDown then (-ebusy, chan)
  else if chan.txDmaBusy then (-ebusy, chan)
  else if chan.txChainIndx ≥ maxAftDmaChains then (-ebusy, chan)
  else
    let chan := dmaTxLoop cfg maxAftDmaChains { chan with txDmaBusy := true } 0 made
    (0, { chan with txDmaBusy := false })

/-- A repeat frame goes back to its list, unless a newer one waits there. -/
def completeRepeat (chan : Chan) (i : Nat) (skb : Skb) : Chan :=
  let lists := { chan.lists with rptSkb := none }
  if lists.rpt.length = 0 then
    { chan with lists := { lists with rpt := lists.rpt ++ [skb] } }.setDescr i
      { chan.table i with skb := none }
  else { chan with lists := lists }

/-- What becomes of the skb of a descriptor that the card is done with, and whether it was the
idle one. -/
def complete (cfg : Cfg) (chan : Chan) (i : Nat) (skb : Skb) : Chan × Bool :=
  let clear := { chan.table i with skb := none }
  if cfg.hdlcEng then
    if chan.lists.rptSkb = some skb.addr then (completeRepeat chan i skb, false)
    else if cfg.isBert skb then (chan.setDescr i clear, false)
    else
      ({ chan with
          lists := { chan.lists with complete := chan.lists.complete ++ [skb] }
          completed := chan.completed ++ [skb] }.setDescr i clear, false)
  else if cfg.isBert skb then (chan.setDescr i clear, false)
  else if cfg.isIdle skb then (chan, true)
  else
    ({ chan with
        lists := aftTxDmaSkbInit cfg chan.lists skb
        completed := chan.completed ++ [skb] }.setDescr i clear, false)

/-- One turn of the handler's loop, which goes on while it returns something. -/
def handlerTurn (cfg : Cfg) (chan : Chan) : Option Chan :=
  let i := chan.txPendingChainIndx
  if !(chan.table i).init then none
  else if (chan.reg i).go then none
  else
    let chan := if (chan.reg i).intrDisable then chan else { chan with txIntrPending := false }
    match (chan.table i).skb with
    -- a descriptor in use holds an skb (`Ring.holding`)
    | none => none
    | some skb =>
        let (chan, idle) := complete cfg chan i skb
        let chan := aftTxDmaChainInit cfg chan i
        some
          { chan with
            txChainDataSz :=
              if !idle ∧ chan.txChainDataSz > 0 then chan.txChainDataSz - 1 else chan.txChainDataSz
            txChainSz := chan.txChainSz - 1
            txPendingChainIndx := advance maxAftDmaChains chan.txPendingChainIndx }

/-- The card clears the GO bit of the descriptors that it is done with. -/
def cardDone (chan : Chan) (done : List Nat) : Chan :=
  done.foldl (fun chan i => chan.setReg i { chan.reg i with go := false }) chan

/-- The loop has no bound of its own: every turn frees a descriptor. `during` is what the card is
done with before each look at a register; the turns are counted. -/
def handlerLoop (cfg : Cfg) : Nat → List (List Nat) → Chan → Option (Chan × Nat)
  | 0, _, _ => none
  | fuel + 1, during, chan =>
      let chan := cardDone chan (during.headD [])
      match handlerTurn cfg chan with
      | none => some (chan, 0)
      | some chan =>
          (handlerLoop cfg fuel during.tail chan).map fun (chan, txComplete) =>
            (chan, txComplete + 1)

def aftTxDmaChainHandler (cfg : Cfg) (chan : Chan) (during : List (List Nat)) :
    Option (Chan × Nat) :=
  if chan.txHandlerBusy then some (chan, 0)
  else
    (handlerLoop cfg (maxAftDmaChains + 1) during { chan with txHandlerBusy := true }).map
      fun (chan, txComplete) => ({ chan with txHandlerBusy := false }, txComplete)

/-- The upper layers are woken besides, if they were stopped. -/
def aftDmaTxComplete (cfg : Cfg) (chan : Chan) (wdt reset : Bool) (during : List (List Nat))
    (made : List (Option Skb × Nat)) : Option Chan :=
  let chan := if wdt then chan else { chan with txIntrPending := false }
  (aftTxDmaChainHandler cfg chan during).map fun (chan, txCompleteCntr) =>
    if reset then chan
    else if wdt = false ∨ (cfg.hdlcEng ∧ txCompleteCntr = 0) then (aftDmaTx cfg chan made).2
    else chan

def freeDescrs (cfg : Cfg) (chan : Chan) (count : Nat) : Chan :=
  (List.range count).foldl
    (fun chan i => aftTxDmaChainInit cfg (chan.setReg i ⟨false, false⟩) i) chan

/-- `ptr` is where the card stands. -/
def aftResetTxChainCnt (chan : Chan) (ptr : Fin maxAftDmaChains) : Chan :=
  { chan with
    txPendingChainIndx := ptr
    txChainIndx := ptr
    txChainDataSz := 0
    txChainSz := 0 }

def releaseAll (cfg : Cfg) (lists : Lists) (skbs : List Skb) : Lists :=
  skbs.foldl (release cfg) lists

def aftFreeTxDescriptors (cfg : Cfg) (chan : Chan) (ptr : Fin maxAftDmaChains) : Chan :=
  if cfg.fakeDchan then chan
  else
    let chan := aftResetTxChainCnt (freeDescrs cfg chan maxAftDmaChains) ptr
    let limit := if cfg.xmtp2 then 4 else 2
    let lists := releaseAll cfg { chan.lists with complete := [] } chan.lists.complete
    let excess := lists.pending.length - limit
    { chan with
      lists := releaseAll cfg { lists with pending := lists.pending.drop excess }
        (lists.pending.take excess) }

/-- The DMA is not turned off to recover. -/
def keepsDma (cfg : Cfg) : Bool := if cfg.hdlcEng then cfg.mixed else cfg.oneTimeSlot

/-- The A116 sets its indices once more where the DMA was off. -/
def aftTxFifoUnderRecover (cfg : Cfg) (chan : Chan) (during : List (List Nat))
    (made : List (Option Skb × Nat)) (ptr later : Fin maxAftDmaChains) : Option Chan :=
  (aftDmaTxComplete cfg chan false true during made).map fun chan =>
    let chan := aftFreeTxDescriptors cfg chan ptr
    let chan := if cfg.a116 ∧ keepsDma cfg = false then aftResetTxChainCnt chan later else chan
    (aftDmaTx cfg chan made).2

end Wanpipe.Aft
