import Mathlib.Logic.Function.Basic
import Wanpipe.Store
import Wanpipe.Usb.Block

/-! The transmit ring of the USB card. A call queues its octets and starts the next of two transfers
on them. -/

namespace Wanpipe.Usb.TxRing

open Line Store

def maxWriteBufLen : Nat := maxUsbTxLen * 100

def maxWriteUrbCount : Nat := 2

/-- `wan_urb`: `start` is where its transfer buffer starts, `len` its length. It is `flying` between
the start of its transfer and the completion, with the `octets` that were there at the start. -/
structure Urb where
  start : Nat
  len : Nat
  ready : Bool
  flying : Bool
  octets : List Octet

/-- The transmitting side of `sdlahw_usb_t`. `carried` are the octets of the transfers in the order
in which they were started, `reported` those that calls have reported as sent. -/
structure Sender where
  writebuf : Nat → Octet
  nextWriteInd : Nat
  nextTxInd : Nat
  urbWriteInd : Fin 2
  datawrite : Fin 2 → Urb
  txReady : Bool
  txOverrunCnt : Nat
  txNotreadyCnt : Nat
  carried : List Octet
  reported : List Octet

def nextUrb (sender : Sender) : Fin 2 :=
  ⟨(sender.urbWriteInd + 1) % maxWriteUrbCount, Nat.mod_lt _ (Nat.succ_pos 1)⟩

section Prepare

def queueData (sender : Sender) (data : List Octet) : Sender :=
  if (sender.nextWriteInd + data.length) % maxWriteBufLen = sender.nextTxInd then
    { sender with
      writebuf := store sender.writebuf sender.nextWriteInd data
      txOverrunCnt := sender.txOverrunCnt + 1 }
  else
    { sender with
      writebuf := store sender.writebuf sender.nextWriteInd data
      nextWriteInd := (sender.nextWriteInd + data.length) % maxWriteBufLen }

def setUrb (sender : Sender) (k : Fin 2) (urb : Urb) : Sender :=
  { sender with datawrite := Function.update sender.datawrite k urb }

theorem setUrb_self (sender : Sender) (k : Fin 2) (urb : Urb) :
    (setUrb sender k urb).datawrite k = urb :=
  Function.update_self _ _ _

theorem setUrb_other {k j : Fin 2} (sender : Sender) (urb : Urb) (other : j ≠ k) :
    (setUrb sender k urb).datawrite j = sender.datawrite j :=
  Function.update_of_ne other _ _

/-- The next transfer is pointed at what was queued, and is taken off the queue. -/
def aimUrb (sender : Sender) (len : Nat) : Sender :=
  { setUrb sender (nextUrb sender)
      { sender.datawrite (nextUrb sender) with start := sender.nextTxInd, len := len } with
    nextTxInd := (sender.nextTxInd + len) % maxWriteBufLen
    txReady := false }

/-- `wp_usb_start_transfer` succeeds when the USB core takes the transfer, which it does not take
while it is still flying. -/
def starts (sender : Sender) (taken : Bool) : Bool :=
  taken && !(sender.datawrite (nextUrb sender)).flying

def urbOctets (sender : Sender) (k : Fin 2) : List Octet :=
  load sender.writebuf (sender.datawrite k).start (sender.datawrite k).len

def startUrb (sender : Sender) : Sender :=
  { setUrb sender (nextUrb sender)
      { sender.datawrite (nextUrb sender) with
        flying := true, octets := urbOctets sender (nextUrb sender) } with
    urbWriteInd := nextUrb sender
    carried := sender.carried ++ urbOctets sender (nextUrb sender) }

def submit (sender : Sender) (len : Nat) (taken : Bool) : Sender × Bool :=
  if (sender.datawrite (nextUrb sender)).ready = false then
    ({ sender with txOverrunCnt := sender.txOverrunCnt + 1 }, false)
  else if starts sender taken then (startUrb (aimUrb sender len), true)
  else
    ({ aimUrb sender len with txNotreadyCnt := (aimUrb sender len).txNotreadyCnt + 1 }, false)

/-- `sdla_usb_txdata_prepare`, and whether it returns zero. -/
def sdlaUsbTxdataPrepare (sender : Sender) (data : List Octet) (taken : Bool) : Sender × Bool :=
  submit (queueData sender data) data.length taken

end Prepare

/-- What a caller hands over, which is never nothing. -/
structure Buffer where
  octets : List Octet
  some : octets ≠ []

def cut (buffer : Buffer) : List Octet := buffer.octets.take maxUsbTxLen

def sdlaUsbTxdataRaw (sender : Sender) (buffer : Buffer) (taken : Bool) : Sender × Nat :=
  match sdlaUsbTxdataPrepare sender (cut buffer) taken with
  | (next, true) => (next, (cut buffer).length)
  | (next, false) => (next, 0)

/-- `sdlausb_write_complete` of a transfer that is flying. -/
def sdlausbWriteComplete (sender : Sender) (k : Fin 2) (status : Bool) : Sender :=
  if (sender.datawrite k).flying = false then sender
  else if status then
    { setUrb sender k { sender.datawrite k with flying := false, ready := true } with
      txReady := true }
  else setUrb sender k { sender.datawrite k with flying := false }

/-- What `sdla_usb_setup` leaves. -/
def setUp (writebuf : Nat → Octet) : Sender where
  writebuf := writebuf
  nextWriteInd := 0
  nextTxInd := 0
  urbWriteInd := ⟨0, Nat.two_pos⟩
  datawrite _ := ⟨0, 0, true, false, []⟩
  txReady := false
  txOverrunCnt := 0
  txNotreadyCnt := 0
  carried := []
  reported := []

/-- A call with the answer of the USB core, or a completion with its status. -/
inductive Op
  | raw (buffer : Buffer) (taken : Bool)
  | complete (k : Fin 2) (status : Bool)

/-- What a call returns are the octets of its buffer that it reports as sent. -/
def report (sender : Sender) (buffer : Buffer) (count : Nat) : Sender :=
  { sender with reported := sender.reported ++ buffer.octets.take count }

def step (sender : Sender) : Op → Sender
  | .raw buffer taken =>
      report (sdlaUsbTxdataRaw sender buffer taken).1 buffer
        (sdlaUsbTxdataRaw sender buffer taken).2
  | .complete k status => sdlausbWriteComplete sender k status

end Wanpipe.Usb.TxRing
