import Wanpipe.Circle
import Wanpipe.Line.Octets

/-! The receive DMA chain of an AFT channel in a mode with several descriptors. -/

namespace Wanpipe.Aft.Receive

open Wanpipe.Circle Line

def maxAftDmaChains : Nat := 16

/-- A receive buffer at an address. -/
structure Buf where
  addr : Nat
  headroom : Nat
  deriving DecidableEq, Repr

/-- What the card writes when a frame has come: the descriptor registers, and the octets. -/
structure Stored where
  align : BitVec 32
  dmaLength : BitVec 32
  octets : List Octet
  deriving DecidableEq, Repr

/-- `rxElement` and `apiHdr` are the sizes of `wp_rx_element_t` and of `wp_api_hdr_t`, `mixed` is set
where voice channels share the card. -/
structure Cfg where
  hdlcEng : Bool
  irqAll : Bool
  dmaMru : BitVec 32
  mru : BitVec 32
  rxElement : Nat
  apiHdr : Nat
  oneTimeSlot : Bool
  mixed : Bool

/-- Channels that recover without being stopped. -/
def Cfg.light (cfg : Cfg) : Bool := (!cfg.hdlcEng && cfg.oneTimeSlot) || (cfg.hdlcEng && cfg.mixed)

structure Descr where
  init : Bool
  skb : Option Buf
  deriving DecidableEq, Repr

/-- The registers of a descriptor that are read back. -/
structure Reg where
  go : Bool
  intrDisable : Bool
  stored : Option Stored
  deriving DecidableEq, Repr

/-- A buffer of `wp_rx_complete_list`, with what `wp_rx_element_t` says about it. -/
structure Element where
  buf : Buf
  align : BitVec 32
  len : BitVec 32
  stored : Stored
  deriving DecidableEq, Repr

/-- `cur` is the descriptor that the card is at. `received`, `taken`, `given` and `allocated` are not
in the source: the frames the card has stored, those the bottom half has taken, the buffers that it
has passed on, and those it got for them. `discarded` counts the frames that are thrown away without
being counted. -/
structure Chan where
  table : Nat → Descr
  reg : Nat → Reg
  cur : Nat
  rxChainIndx : Nat
  rxPendingChainIndx : Nat
  rxIntrPending : Bool
  rxFree : List Buf
  rxComplete : List Element
  rxDropped : Nat
  rxErrors : Nat
  discarded : Nat
  received : List Stored
  taken : List Stored
  given : List Buf
  allocated : List Buf

namespace Chan

def setDescr (chan : Chan) (i : Nat) (descr : Descr) : Chan :=
  { chan with table := Function.update chan.table i descr }

def setReg (chan : Chan) (i : Nat) (reg : Reg) : Chan :=
  { chan with reg := Function.update chan.reg i reg }

end Chan

/-- A frame has come: it goes into the descriptor the card is at, if that has its GO bit set. -/
def cardStores (chan : Chan) (stored : Stored) : Chan :=
  if (chan.reg chan.cur).go then
    { chan.setReg chan.cur ⟨false, (chan.reg chan.cur).intrDisable, some stored⟩ with
      cur := advance maxAftDmaChains chan.cur
      received := chan.received ++ [stored] }
  else chan

def arrivals (chan : Chan) (frames : List Stored) : Chan := frames.foldl cardStores chan

/-- `aft_init_requeue_free_skb`. -/
def requeueFreeSkb (cfg : Cfg) (chan : Chan) (buf : Buf) : Chan :=
  { chan with rxFree := chan.rxFree ++ [{ buf with headroom := cfg.apiHdr }] }

def dropElement (cfg : Cfg) (chan : Chan) (element : Element) : Chan :=
  requeueFreeSkb cfg { chan with rxDropped := chan.rxDropped + 1 } element.buf

def aftFreeRxCompleteList (cfg : Cfg) (chan : Chan) : Chan :=
  chan.rxComplete.foldl (dropElement cfg) { chan with rxComplete := [] }

def lengthOf (cfg : Cfg) (stored : Stored) : BitVec 32 :=
  if cfg.hdlcEng then
    (((cfg.dmaMru >>> 2) - 1#32 - stored.dmaLength) <<< 2) - (~~~stored.align &&& 3#32)
  else (((cfg.mru >>> 2) - stored.dmaLength) <<< 2) - (~~~3#32 &&& 3#32)

/-- A frame is taken over from its descriptor. `connected` is the state of the device. -/
def takeOver (cfg : Cfg) (connected : Bool) (chan : Chan) (buf : Buf) (stored : Stored) : Chan :=
  if buf.headroom < cfg.rxElement then
    requeueFreeSkb cfg { chan with rxErrors := chan.rxErrors + 1 } buf
  else if connected then
    { chan with
      rxComplete := chan.rxComplete ++
        [⟨{ buf with headroom := buf.headroom - cfg.rxElement }, stored.align &&& 3#32,
          lengthOf cfg stored, stored⟩] }
  else requeueFreeSkb cfg { chan with discarded := chan.discarded + 1 } buf

/-- What the handler does with the pending descriptor when it goes on. -/
def handle (cfg : Cfg) (connected : Bool) (chan : Chan) (buf : Buf) (stored : Stored) : Chan :=
  let i := chan.rxPendingChainIndx
  let told := if (chan.reg i).intrDisable then chan else { chan with rxIntrPending := false }
  { (takeOver cfg connected told buf stored).setDescr i ⟨false, none⟩ with
    rxPendingChainIndx := advance maxAftDmaChains i }

/-- One turn of the handler's loop, which ends when there is no result. -/
def handlerTurn (cfg : Cfg) (connected first : Bool) (ptr : Nat) (chan : Chan) : Option Chan :=
  let i := chan.rxPendingChainIndx
  if !first && i == ptr then none
  else if !(chan.table i).init then none
  else if (chan.reg i).go then none
  else
    match (chan.table i).skb, (chan.reg i).stored with
    | some buf, some stored => some (handle cfg connected chan buf stored)
    | _, _ => none

/-- The loop of the handler. `during` are the frames that come before each turn. -/
def handlerLoop (cfg : Cfg) (connected : Bool) (ptr : Nat) :
    Nat → Bool → List (List Stored) → Chan → Chan
  | 0, _, _, chan => chan
  | turns + 1, first, during, chan =>
      let chan := arrivals chan (during.headD [])
      match handlerTurn cfg connected first ptr chan with
      | none => chan
      | some next => handlerLoop cfg connected ptr turns false during.tail next

/-- A buffer for a descriptor; the frames that are not taken yet are dropped when there is none. -/
def dequeueFree (cfg : Cfg) (chan : Chan) : Option Buf × Chan :=
  match chan.rxFree with
  | buf :: rest => (some buf, { chan with rxFree := rest })
  | [] =>
      let chan := aftFreeRxCompleteList cfg chan
      match chan.rxFree with
      | buf :: rest => (some buf, { chan with rxFree := rest })
      | [] => (none, chan)

/-- Whether the descriptor at the chain index is to interrupt. -/
def wantsIntr (chan : Chan) (ptr freeLen : Nat) : Bool :=
  if freeLen ≤ 2 then true
  else if chan.rxChainIndx ≥ ptr then maxAftDmaChains - (chan.rxChainIndx - ptr) ≤ 4
  else ptr - chan.rxChainIndx ≤ 4

/-- `aft_dma_chain_rx` sets the GO bit of the descriptor, and always returns 0. -/
def aftDmaChainRx (cfg : Cfg) (chan : Chan) (intr : Bool) : Chan :=
  chan.setReg chan.rxChainIndx ⟨true, if cfg.irqAll then false else !intr, none⟩

/-- The descriptor at the chain index gets a buffer. -/
def post (cfg : Cfg) (ptr freeLen : Nat) (chan : Chan) (buf : Buf) : Chan :=
  let intr := !chan.rxIntrPending && wantsIntr chan ptr (freeLen - 1)
  let chan := chan.setDescr chan.rxChainIndx ⟨true, some buf⟩
  let chan := aftDmaChainRx cfg { chan with rxIntrPending := chan.rxIntrPending || intr } intr
  { chan with rxChainIndx := advance maxAftDmaChains chan.rxChainIndx }

/-- The loop of `aft_dma_rx`: `freeLen` is counted down until an interrupt is asked for. -/
def dmaRxLoop (cfg : Cfg) (ptr : Nat) : Nat → Nat → List (List Stored) → Chan → Chan
  | 0, _, _, chan => chan
  | turns + 1, freeLen, during, chan =>
      let chan := arrivals chan (during.headD [])
      if (chan.table chan.rxChainIndx).init then chan
      else
        match dequeueFree cfg chan with
        | (none, chan) => chan
        | (some buf, chan) =>
            dmaRxLoop cfg ptr turns (if chan.rxIntrPending then freeLen else freeLen - 1) during.tail
              (post cfg ptr freeLen chan buf)

def aftDmaRx (cfg : Cfg) (during : List (List Stored)) (before : Chan) : Chan :=
  let chan :=
    if before.rxFree.length < maxAftDmaChains then aftFreeRxCompleteList cfg before else before
  if chan.rxFree.length < maxAftDmaChains then chan
  else dmaRxLoop cfg chan.cur maxAftDmaChains chan.rxFree.length during chan

/-- `aft_rx_dma_chain_handler`. `during` are the frames that come in the turns of its loop, `late`
those that come before the descriptors are filled again, and `filling` those that come then. -/
def aftRxDmaChainHandler (cfg : Cfg) (connected : Bool) (during : List (List Stored))
    (late : List Stored) (filling : List (List Stored)) (chan : Chan) : Chan :=
  aftDmaRx cfg filling
    (arrivals (handlerLoop cfg connected chan.cur maxAftDmaChains true during chan) late)

/-- A descriptor is taken back from the card. -/
def freeDescr (cfg : Cfg) (before : Chan) (i : Nat) : Chan :=
  let lost := (before.reg i).stored.isSome && (before.table i).skb.isSome
  let cleared := (before.setReg i ⟨false, false, none⟩).setDescr i ⟨false, none⟩
  let chan := { cleared with discarded := before.discarded + if lost then 1 else 0 }
  match (before.table i).skb with
  | none => chan
  | some buf => requeueFreeSkb cfg chan buf

def aftResetRxChainCnt (chan : Chan) : Chan :=
  { chan with rxPendingChainIndx := chan.cur, rxChainIndx := chan.cur }

/-- The loop over the descriptors from `i` on. `during` are the frames that come before each turn. -/
def freeLoop (cfg : Cfg) : Nat → Nat → List (List Stored) → Chan → Chan
  | 0, _, _, chan => chan
  | turns + 1, i, during, chan =>
      freeLoop cfg turns (i + 1) during.tail (freeDescr cfg (arrivals chan (during.headD [])) i)

def aftFreeRxDescriptors (cfg : Cfg) (during : List (List Stored)) (chan : Chan) : Chan :=
  aftResetRxChainCnt (freeLoop cfg maxAftDmaChains 0 during chan)

/-- `aft_rx_fifo_over_recover`. The receiver is stopped first unless the channel has one time slot, or
shares the card with voice channels; the card is at `ptr` when it starts again. -/
def aftRxFifoOverRecover (cfg : Cfg) (during : List (List Stored)) (ptr : Fin maxAftDmaChains)
    (filling : List (List Stored)) (before : Chan) : Chan :=
  if cfg.light then aftDmaRx cfg filling (aftFreeRxDescriptors cfg during before)
  else
    let chan := aftFreeRxDescriptors cfg [] (aftFreeRxCompleteList cfg before)
    aftDmaRx cfg filling (aftResetRxChainCnt { chan with cur := ptr.val })

/-- What becomes of the buffer of a frame that the bottom half takes: it goes back to the free ones,
or up the stack, and one is allocated for it if there is memory. -/
inductive Fate
  | requeued
  | passed (memory : Option Buf)

/-- `aft_rx_post_complete` of the next frame. -/
def aftRxPostComplete (cfg : Cfg) (fate : Fate) (chan : Chan) : Chan :=
  match chan.rxComplete with
  | [] => chan
  | element :: rest =>
      let chan := { chan with rxComplete := rest, taken := chan.taken ++ [element.stored] }
      match fate with
      | .requeued => requeueFreeSkb cfg chan element.buf
      | .passed none => { chan with given := chan.given ++ [element.buf] }
      | .passed (some buf) =>
          { chan with
            given := chan.given ++ [element.buf]
            allocated := chan.allocated ++ [buf]
            rxFree := chan.rxFree ++ [buf] }

/-- What happens on a channel. -/
inductive Op
  | frames (frames : List Stored)
  | interrupt (connected : Bool) (during : List (List Stored)) (late : List Stored)
      (filling : List (List Stored))
  | bottomHalf (fate : Fate)
  | recover (during : List (List Stored)) (ptr : Fin maxAftDmaChains)
      (filling : List (List Stored))

def step (cfg : Cfg) (chan : Chan) : Op → Chan
  | .frames frames => arrivals chan frames
  | .interrupt connected during late filling =>
      aftRxDmaChainHandler cfg connected during late filling chan
  | .bottomHalf fate => aftRxPostComplete cfg fate chan
  | .recover during ptr filling => aftRxFifoOverRecover cfg during ptr filling chan

def run (cfg : Cfg) (chan : Chan) (ops : List Op) : Chan := ops.foldl (step cfg) chan

/-- A channel that is configured, with its free buffers; the card is at `ptr`. -/
def configured (bufs : List Buf) (ptr : Fin maxAftDmaChains) : Chan where
  table := fun _ => ⟨false, none⟩
  reg := fun _ => ⟨false, false, none⟩
  cur := ptr.val
  rxChainIndx := 0
  rxPendingChainIndx := 0
  rxIntrPending := false
  rxFree := bufs
  rxComplete := []
  rxDropped := 0
  rxErrors := 0
  discarded := 0
  received := []
  taken := []
  given := []
  allocated := []

/-- The receiver is started. -/
def started (cfg : Cfg) (bufs : List Buf) (ptr : Fin maxAftDmaChains) : Chan :=
  aftDmaRx cfg [] (aftResetRxChainCnt (configured bufs ptr))

end Wanpipe.Aft.Receive
