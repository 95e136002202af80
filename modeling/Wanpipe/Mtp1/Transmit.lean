import Wanpipe.Mtp1.Link
import Mathlib.Logic.Function.Basic

/-! The transmitter of `wanpipe_mtp1.c`. -/

namespace Wanpipe.Mtp1

open Line

def bit7 : Octet := 0x80#8

namespace Tbs

def orBuf (tbs : Tbs) (mask : Octet) : Tbs :=
  { tbs with buf := Function.update tbs.buf tbs.curIndex (tbs.buf tbs.curIndex ||| mask) }

/-- Steps to the next bit; a complete octet opens the next one, cleared. -/
def nextBit (tbs : Tbs) : Tbs :=
  if 8 ≤ tbs.curBitPos + 1 then
    let index := if txBufSize ≤ tbs.curIndex + 1 then 0 else tbs.curIndex + 1
    { tbs with curBitPos := 0, curIndex := index, buf := Function.update tbs.buf index 0 }
  else { tbs with curBitPos := tbs.curBitPos + 1 }

/-- The bit writing that `su_bit_to_tbs` and `flag_bit_to_txb` share: bit 7 of a 56k octet is
set first and not used. -/
def putBit (mode : OpMode) (tbs : Tbs) (bit : Bool) : Tbs :=
  let tbs :=
    if tbs.curBitPos = 7 ∧ mode = .hdlc7Bit then nextBit (tbs.orBuf bit7) else tbs
  nextBit (tbs.orBuf (if bit then 1#8 <<< tbs.curBitPos else 0#8))

def suZeroToTbs (mode : OpMode) (tbs : Tbs) : Tbs :=
  { putBit mode tbs false with cur1sBitCount := 0 }

def suBitToTbs (mode : OpMode) (tbs : Tbs) : Bool → Tbs
  | false => suZeroToTbs mode tbs
  | true =>
      let tbs := putBit mode tbs true
      let tbs := { tbs with cur1sBitCount := tbs.cur1sBitCount + 1 }
      -- The source calls itself with a zero bit here.
      if tbs.cur1sBitCount = 5 then suZeroToTbs mode tbs else tbs

def flagBitToTxb (mode : OpMode) (tbs : Tbs) : Tbs := flag.foldl (putBit mode) tbs

end Tbs

def txOctetBits : BitEndian → Octet → List Bool
  | .bit0First, octet => octetBits octet
  | .bit7First, octet => (octetBits octet).reverse

def crcOctets (crc : BitVec 16) : List Octet :=
  [(crc &&& 0xff#16).setWidth 8, ((crc &&& 0xff00#16) >>> 8).setWidth 8]

def suOctetToTbs (cfg : Cfg) (tbs : Tbs) (octet : Octet) : Tbs :=
  (txOctetBits cfg.hdlcBitEndian octet).foldl (Tbs.suBitToTbs cfg.hdlcOpMode) tbs

def daedTx (link : Link) (buf : List Octet) (crc : Option (BitVec 16)) : Link :=
  let tbs := { link.tbs with cur1sBitCount := 0 }
  let tbs := tbs.flagBitToTxb link.cfg.hdlcOpMode
  let tbs := buf.foldl (suOctetToTbs link.cfg) tbs
  let tbs :=
    match crc with
    | some crc => (crcOctets crc).foldl (suOctetToTbs link.cfg) tbs
    | none => tbs
  { link with tbs := tbs }

@[simp] theorem daedTx_cfg (link : Link) (buf : List Octet) (crc : Option (BitVec 16)) :
    (daedTx link buf crc).cfg = link.cfg := rfl

@[simp] theorem daedTx_dequeued (link : Link) (buf : List Octet) (crc : Option (BitVec 16)) :
    (daedTx link buf crc).dequeued = link.dequeued := rfl

/-- The frame with its check sum as `wan_skb_set_csum` keeps it. -/
def csumSkb (data : List Octet) : Skb := ⟨data, (~~~ crcTssRev 0xffff#16 data).setWidth 32⟩

/-- `wp_mtp1_tx_data`: 1 and nothing taken when the queue is too long. -/
def wpMtp1TxData (link : Link) (skb : List Octet) (rskb : Option (List Octet)) : Link × Nat :=
  if maxTxQ < link.tbs.txQ.length then (link, 1)
  else
    let tbs := { link.tbs with txQ := link.tbs.txQ ++ [csumSkb skb] }
    let link :=
      { link with
        tbs := tbs
        traces := if link.reg.trace then link.traces ++ [(skb, false)] else link.traces }
    match rskb with
    | some rskb =>
        ({ link with tbs := { link.tbs with txRQ := link.tbs.txRQ ++ [csumSkb rskb] } }, 0)
    | none => (link, 0)

/-- The repeat loop: the newest repeat frame, with the ones before it given up. -/
def latestRepeat : List Skb → List Skb → Option Skb × List Skb
  | [], dealloc => (none, dealloc)
  | [skb], dealloc => (some skb, dealloc)
  | skb :: txRQ, dealloc => latestRepeat txRQ (dealloc ++ [skb])

def txEncodeSkb (link : Link) (skb : Skb) : Link :=
  daedTx link skb.data (some (skb.csum.setWidth 16))

@[simp] theorem txEncodeSkb_cfg (link : Link) (skb : Skb) :
    (txEncodeSkb link skb).cfg = link.cfg := rfl

@[simp] theorem txEncodeSkb_dequeued (link : Link) (skb : Skb) :
    (txEncodeSkb link skb).dequeued = link.dequeued := rfl

def setQueues (link : Link) (txQ txRQ txQDealloc : List Skb) : Link :=
  { link with tbs := { link.tbs with txQ := txQ, txRQ := txRQ, txQDealloc := txQDealloc } }

/-- After a data frame: the frame is kept to be freed and the sender woken up. -/
def txDataDone (link : Link) (skb : Skb) : Link :=
  { link with
    tbs := { link.tbs with txQDealloc := link.tbs.txQDealloc ++ [skb] }
    wakeups := if link.tbs.txQ.length < maxTxQ then link.wakeups + 1 else link.wakeups
    dequeued := link.dequeued ++ [.data skb] }

/-- After the repeat frame: it goes back into its queue unless a newer one is there. -/
def txRepeatDone (link : Link) (skb : Skb) : Link :=
  let tbs :=
    if link.tbs.txRQ = [] then { link.tbs with txRQ := link.tbs.txRQ ++ [skb] }
    else { link.tbs with txQDealloc := link.tbs.txQDealloc ++ [skb] }
  { link with tbs := tbs, dequeued := link.dequeued ++ [.repeated skb] }

def txIdleDone (link : Link) : Link := { link with dequeued := link.dequeued ++ [.idle] }

/-- One pass of the encoding loop of `wp_mtp1_tx_bh_handler`. -/
def txEncodeNext (link : Link) : Link :=
  match link.tbs.txQ with
  | skb :: txQ =>
      let link := setQueues link txQ link.tbs.txRQ link.tbs.txQDealloc
      txDataDone (txEncodeSkb link skb) skb
  | [] =>
      if link.tbs.txRQ = [] then txIdleDone (daedTx link [] none)
      else
        match latestRepeat link.tbs.txRQ link.tbs.txQDealloc with
        | (none, dealloc) => txIdleDone (daedTx (setQueues link [] [] dealloc) [] none)
        | (some skb, dealloc) =>
            let link := setQueues link [] [] dealloc
            txRepeatDone (txEncodeSkb link skb) skb

/-- The encoding loop; `none` when the fuel runs out before `mtu` octets are ready. -/
def txFill : Nat → Link → Nat → Option Link
  | fuel, link, mtu =>
      if (link.tbs.curIndex : Int) - link.tbs.cardIndex < mtu then
        match fuel with
        | 0 => none
        | fuel + 1 => txFill fuel (txEncodeNext link) mtu
      else some link

def txTake (tbs : Tbs) (mtu : Nat) : Tbs × List Octet :=
  ({ tbs with cardIndex := tbs.cardIndex + mtu },
    (List.range mtu).map fun i => tbs.buf (tbs.cardIndex + i))

/-- Moves the octets left at the bottom of the buffer to the top, with the partly built one. -/
def txMove (tbs : Tbs) (mtu : Nat) : Tbs :=
  let r : Int := (tbs.curIndex : Int) - tbs.cardIndex
  if r < mtu then
    let buf :=
      (List.range (r + 1).toNat).foldl
        (fun buf i => Function.update buf i (buf (tbs.cardIndex + i))) tbs.buf
    { tbs with buf := buf, curIndex := r.toNat, cardIndex := 0 }
  else tbs

def wpMtp1TxBhHandler (fuel : Nat) (link : Link) (mtu : Nat) : Option (Link × List Octet) :=
  match txFill fuel link mtu with
  | none => none
  | some link =>
      let (tbs, data) := txTake link.tbs mtu
      some ({ link with tbs := txMove tbs mtu }, data)

/-- The loop of `wp_mtp1_poll`: the frames freed, at most `loops`, and those left. -/
def pollLoop : Nat → List Skb → List Skb × List Skb
  | 0, txQDealloc => ([], txQDealloc)
  | _ + 1, [] => ([], [])
  | loops + 1, skb :: txQDealloc => ((skb :: (pollLoop loops txQDealloc).1),
      (pollLoop loops txQDealloc).2)

/-- `wp_mtp1_poll`, with the frames it frees. -/
def wpMtp1Poll (link : Link) : Link × List Skb :=
  let (freed, txQDealloc) := pollLoop 200 link.tbs.txQDealloc
  (setQueues link link.tbs.txQ link.tbs.txRQ txQDealloc, freed)

end Wanpipe.Mtp1
