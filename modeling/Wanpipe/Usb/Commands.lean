import Wanpipe.Queues
import Wanpipe.Usb.Block

/-! The register commands of the USB card, with the buffers that they take from queue to queue. A
call holds `cmd_lock` from its start to its end; only blocks are encoded and decoded meanwhile. -/

namespace Wanpipe.Usb.Commands

open Line

def wpUsbMaxTxCmdQlen : Nat := 20

def wpUsbMaxRxCmdQlen : Nat := 20

/-- The registers of a module or those of the CPU. -/
inductive Side
  | fxo (modNo : Fin 2)
  | cpu

/-- A read that waits; `stood` is what stood on `rx_cmd_list` when it was queued. -/
structure Call where
  side : Side
  off : Octet
  stood : List (List Octet)

/-- The card with the names of its buffers: `tx` are those of `tx_cmd_free_list` and `tx_cmd_list`,
`rx` those of `rx_cmd_free_list` and `rx_cmd_list`. -/
structure Pool where
  card : Card
  tx : Queues Nat
  rx : Queues Nat
  ready : Bool
  txCmd : Bool
  running : Option Call
  coreNotreadyCnt : Nat
  cmdTimeout : Nat
  cmdInvalid : Nat

section Reads

def cardRead (card : Card) : Side → Octet → Card
  | .fxo modNo, off => sdlaUsbFxoRead card modNo off
  | .cpu, off => sdlaUsbCpuRead card off

def overrun (card : Card) : Card :=
  { card with stats := { card.stats with cmdOverrun := card.stats.cmdOverrun + 1 } }

/-- The end of every read, which frees `cmd_lock`. -/
def readDone (pool : Pool) : Pool := { pool with txCmd := false, running := none }

/-- A read up to its wait, for the registers of either side. It has not started while another call
holds `cmd_lock`. -/
def queueRead (pool : Pool) (side : Side) (off : Octet) : Pool :=
  if pool.running.isSome then pool
  else if pool.txCmd then readDone { pool with card := overrun pool.card }
  else if pool.card.txCmdFreeList = 0 then
    readDone { pool with card := cardRead pool.card side off }
  else
    { pool with
      card := cardRead pool.card side off
      tx := pool.tx.take 1
      txCmd := true
      running := some ⟨side, off, pool.card.rxCmdList⟩ }

def fxoReadQueue (pool : Pool) (modNo : Fin 2) (off : Octet) : Pool :=
  queueRead pool (.fxo modNo) off

def cpuReadQueue (pool : Pool) (off : Octet) : Pool :=
  if pool.ready then queueRead pool .cpu off
  else { pool with coreNotreadyCnt := pool.coreNotreadyCnt + 1 }

def readQueue (pool : Pool) : Side → Octet → Pool
  | .fxo modNo, off => fxoReadQueue pool modNo off
  | .cpu, off => cpuReadQueue pool off

/-- A reply has been taken off `rx_cmd_list`, and its buffer is put on `rx_cmd_free_list`. -/
def freeReply (pool : Pool) (replies : List (List Octet)) : Pool :=
  { pool with
    card :=
      { pool.card with
        rxCmdList := replies, rxCmdFreeList := pool.card.rxCmdFreeList + 1 }
    rx := pool.rx.give 1 }

/-- A reply has been taken off it, and its buffer is put on no list. -/
def dropReply (pool : Pool) (replies : List (List Octet)) : Pool :=
  { pool with card := { pool.card with rxCmdList := replies }, rx := pool.rx.lose 1 }

def timedOut (pool : Pool) : Pool := { pool with cmdTimeout := pool.cmdTimeout + 1 }

def invalid (pool : Pool) : Pool := { pool with cmdInvalid := pool.cmdInvalid + 1 }

/-- `__sdla_usb_fxo_read` behind its wait, with the value that it has read; without one it returns
`0xFF`. -/
def fxoReadReply (pool : Pool) (off : Octet) : Pool × Option Octet :=
  match pool.card.rxCmdList with
  | [] => (readDone (timedOut pool), none)
  | reply :: replies =>
      if reply.getD 1 0 ≠ off then (readDone (invalid (dropReply pool replies)), none)
      else (readDone (freeReply pool replies), some (reply.getD 2 0))

/-- `__sdla_usb_cpu_read` behind its wait; without a value it returns an error. -/
def cpuReadReply (pool : Pool) (off : Octet) : Pool × Option Octet :=
  match pool.card.rxCmdList with
  | [] => (readDone (timedOut pool), none)
  | reply :: replies =>
      if reply.getD 1 0 ≠ off then (readDone (invalid (freeReply pool replies)), none)
      else (readDone (freeReply pool replies), some (reply.getD 2 0))

def readReply (pool : Pool) (call : Call) : Pool × Option Octet :=
  match call.side with
  | .fxo _ => fxoReadReply pool call.off
  | .cpu => cpuReadReply pool call.off

end Reads

section Writes

def cardWrite (card : Card) : Side → Octet → Octet → Card
  | .fxo modNo, off, data => sdlaUsbFxoWrite card modNo off data
  | .cpu, off, data => sdlaUsbCpuWrite card off data

def queueWrite (pool : Pool) (side : Side) (off data : Octet) : Pool :=
  if pool.running.isSome then pool
  else { pool with card := cardWrite pool.card side off data, tx := pool.tx.take 1 }

end Writes

section Blocks

def encode (pool : Pool) : Pool :=
  { pool with card := (sdlaUsbTxdataEncode pool.card).1, tx := pool.tx.give 1 }

/-- Every command that comes onto `rx_cmd_list` is in a buffer of `rx_cmd_free_list`. -/
def decode (pool : Pool) (rxdata : Buf) : Pool :=
  { pool with
    card := sdlaUsbRxdataDecode pool.card rxdata
    rx := pool.rx.take
      ((sdlaUsbRxdataDecode pool.card rxdata).rxCmdList.length - pool.card.rxCmdList.length) }

end Blocks

/-- What `sdla_usb_setup` leaves. -/
def setUp (card : Card) (ready : Bool) : Pool where
  card :=
    { card with
      txCmdList := [], txCmdFreeList := wpUsbMaxTxCmdQlen
      rxCmdList := [], rxCmdFreeList := wpUsbMaxRxCmdQlen }
  tx := ⟨List.range wpUsbMaxTxCmdQlen, []⟩
  rx := ⟨List.range wpUsbMaxRxCmdQlen, []⟩
  ready := ready
  txCmd := false
  running := none
  coreNotreadyCnt := 0
  cmdTimeout := 0
  cmdInvalid := 0

/-- A call is queued, the read that waits goes on, or a block is encoded or decoded. -/
inductive Op
  | read (side : Side) (off : Octet)
  | write (side : Side) (off data : Octet)
  | reply
  | encode
  | decode (rxdata : Buf)

def step (pool : Pool) : Op → Pool
  | .read side off => readQueue pool side off
  | .write side off data => queueWrite pool side off data
  | .reply =>
      match pool.running with
      | none => pool
      | some call => (readReply pool call).1
  | .encode => encode pool
  | .decode rxdata => decode pool rxdata

end Wanpipe.Usb.Commands
