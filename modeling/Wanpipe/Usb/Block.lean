import Wanpipe.Line.Octets
import Wanpipe.Runs

/-! The block of `sdladrv_usb.c` that carries the voice of two modules and the register commands. -/

namespace Wanpipe.Usb

open Line

def wpUsbChunksize : Nat := 8

def wpUsbRxtxChunksize : Nat := wpUsbChunksize * 1

def maxUsbRxLen : Nat := 4 * wpUsbRxtxChunksize

def maxUsbTxLen : Nat := 4 * wpUsbRxtxChunksize

def wpUsbCtrlIdlePattern : Octet := 0x7E#8

def cmdTypeReadFxo : Octet := 0x01#8
def cmdTypeWriteFxo : Octet := 0x02#8
def cmdTypeEvent : Octet := 0x03#8
def cmdTypeReadCpu : Octet := 0x04#8
def cmdTypeWriteCpu : Octet := 0x05#8

def cmdTypeDecode (ctrl : Octet) : Octet := (ctrl &&& 0x1C#8) >>> 2

def cmdTypeEncode (cmd : Octet) : Octet := cmd <<< 2

def idlebuf : List Octet :=
  [0x77, 0xCF, 0xCF, 0x8E, 0x57, 0xCF, 0xCF, 0x8E, 0x57, 0xCF, 0xCF, 0x8E, 0x57, 0xCF, 0xCF, 0x8E,
    0x57, 0xCF, 0xCF, 0x8E, 0x57, 0xCF, 0xCF, 0x8E, 0x57, 0xCF, 0xCF, 0x8E, 0x57, 0xCF, 0xCF, 0x8E,
    0x77, 0xCF, 0xCF, 0x8E, 0x57, 0xCF, 0xCF, 0x8E, 0x57, 0xCF, 0xCF, 0x8E, 0x57, 0xCF, 0xCF, 0x8E,
    0x57, 0xCF, 0xCF, 0x8E, 0x57, 0xCF, 0xCF, 0x8E, 0x57, 0xCF, 0xCF, 0x8E, 0x57, 0xCF, 0xCF, 0x8E]

structure Stats where
  cmdOverrun : Nat
  rxStartFrErrCnt : Nat
  rxStartErrCnt : Nat
  rxCmdResetCnt : Nat
  rxCmdDropCnt : Nat
  rxCmdUnknown : Nat
  deriving DecidableEq, Repr

/-- `sdlahw_usb_t`. A free list is the number of its buffers, which all have room for ten octets;
`rxCmds` are the commands that `sdla_usb_rxcmd_decode` has been called with. -/
structure Card where
  readchunk : Fin 2 → Nat → Octet
  writechunk : Fin 2 → Nat → Octet
  regs : Fin 2 → Octet → Octet
  txCmdList : List (List Octet)
  txCmdFreeList : Nat
  rxCmdList : List (List Octet)
  rxCmdFreeList : Nat
  stats : Stats
  rxCmds : List (List Octet)

abbrev Buf := List Octet

def octetAt (buf : Buf) (ind : Nat) : Octet := buf.getD ind 0

/-! ### Commands -/

/-- The octets of the four register commands. -/
def readFxoCmd (modNo : Fin 2) (off : Octet) : List Octet :=
  [cmdTypeEncode cmdTypeReadFxo ||| BitVec.ofNat 8 modNo, off]

def writeFxoCmd (modNo : Fin 2) (off data : Octet) : List Octet :=
  [cmdTypeEncode cmdTypeWriteFxo ||| BitVec.ofNat 8 modNo, off, data]

def readCpuCmd (off : Octet) : List Octet := [cmdTypeEncode cmdTypeReadCpu, off]

def writeCpuCmd (off data : Octet) : List Octet := [cmdTypeEncode cmdTypeWriteCpu, off, data]

/-- What the register functions do first: a command takes a buffer of `tx_cmd_free_list`, or is
refused when there is none. -/
def queueCmd (card : Card) (cmd : List Octet) : Card :=
  if card.txCmdFreeList = 0 then
    { card with stats := { card.stats with cmdOverrun := card.stats.cmdOverrun + 1 } }
  else
    { card with
      txCmdFreeList := card.txCmdFreeList - 1
      txCmdList := card.txCmdList ++ [cmd] }

/-- `__sdla_usb_fxo_read` up to its wait for the answer. -/
def sdlaUsbFxoRead (card : Card) (modNo : Fin 2) (off : Octet) : Card :=
  queueCmd card (readFxoCmd modNo off)

def sdlaUsbFxoWrite (card : Card) (modNo : Fin 2) (off data : Octet) : Card :=
  if card.txCmdFreeList = 0 then queueCmd card (writeFxoCmd modNo off data)
  else
    { queueCmd card (writeFxoCmd modNo off data) with
      regs := Function.update card.regs modNo (Function.update (card.regs modNo) off data) }

/-- `__sdla_usb_cpu_read` up to its wait for the answer. -/
def sdlaUsbCpuRead (card : Card) (off : Octet) : Card := queueCmd card (readCpuCmd off)

def sdlaUsbCpuWrite (card : Card) (off data : Octet) : Card := queueCmd card (writeCpuCmd off data)

/-- An answer is read and its buffer goes back to `rx_cmd_free_list`. -/
def sdlaUsbReadPoll (card : Card) : Card × Option Octet :=
  match card.rxCmdList with
  | [] => (card, none)
  | cmd :: cmds =>
      ({ card with rxCmdList := cmds, rxCmdFreeList := card.rxCmdFreeList + 1 }, some (cmd.getD 2 0))

def sdlaUsbRxcmdDecode (card : Card) (rxCmd : List Octet) : Card :=
  let card := { card with rxCmds := card.rxCmds ++ [rxCmd] }
  let start := rxCmd.getD 0 0
  let ctrl := cmdTypeDecode start
  if ctrl = cmdTypeWriteCpu ∨ ctrl = cmdTypeReadCpu ∨ ctrl = cmdTypeWriteFxo ∨
      ctrl = cmdTypeReadFxo then
    { card with
      rxCmdFreeList := card.rxCmdFreeList - 1
      rxCmdList := card.rxCmdList ++ [rxCmd] }
  else if ctrl = cmdTypeEvent then
    let modNo : Fin 2 := if start.getLsbD 0 then 1 else 0
    { card with
      regs :=
        Function.update card.regs modNo
          (Function.update (card.regs modNo) (rxCmd.getD 1 0) (rxCmd.getD 2 0)) }
  else
    { card with stats := { card.stats with rxCmdUnknown := card.stats.rxCmdUnknown + 1 } }

/-- The module that an event is for. -/
def eventModNo (rxCmd : List Octet) : Fin 2 := if (rxCmd.getD 0 0).getLsbD 0 then 1 else 0

/-! ### A block is sent -/

/-- `WP_USB_CTRL_ENCODE`. -/
def ctrlEncode (buf : Buf) (ind : Nat) : Buf :=
  if ind % 4 = 0 ∧ ind % 32 = 0 then buf.set ind ((octetAt buf ind &&& 0xCF#8) ||| 0x30#8)
  else if ind % 4 = 0 then buf.set ind ((octetAt buf ind &&& 0xCF#8) ||| 0x10#8)
  else buf

/-- `WP_USB_DATA_ENCODE`. -/
def dataEncode (buf : Buf) (ind : Nat) (data : Octet) : Buf :=
  let buf := buf.set ind ((octetAt buf ind &&& 0xF0#8) ||| (data &&& 0x0F#8))
  buf.set (ind + 2) ((octetAt buf (ind + 2) &&& 0xF0#8) ||| ((data >>> 4) &&& 0x0F#8))

/-- `WP_USB_CMD_ENCODE`. -/
def cmdEncode (buf : Buf) (off : Nat) (cmd : Octet) : Buf :=
  let buf := buf.set off ((octetAt buf off &&& 0x3F#8) ||| (cmd &&& 0xC0#8))
  let buf := buf.set (off + 1) ((octetAt buf (off + 1) &&& 0x3F#8) ||| ((cmd &&& 0x30#8) <<< 2))
  let buf := buf.set (off + 2) ((octetAt buf (off + 2) &&& 0x3F#8) ||| ((cmd &&& 0x0C#8) <<< 4))
  buf.set (off + 3) ((octetAt buf (off + 3) &&& 0x3F#8) ||| ((cmd &&& 0x03#8) <<< 6))

def voiceEncode (card : Card) (buf : Buf) (x : Nat) (modNo : Fin 2) : Buf :=
  let ind := x * 4 + modNo
  dataEncode (ctrlEncode buf ind) ind (card.writechunk modNo x)

def cmdOctetsEncode (buf : Buf) (off : Nat) : List Octet → Buf
  | [] => buf
  | octet :: octets => cmdOctetsEncode (cmdEncode buf (off * 4) octet) (off + 1) octets

def sdlaUsbTxdataEncode (card : Card) : Card × Buf :=
  let buf :=
    (List.range wpUsbRxtxChunksize).foldl
      (fun buf x => voiceEncode card (voiceEncode card buf x 0) x 1) (idlebuf.take maxUsbTxLen)
  match card.txCmdList with
  | [] => (card, buf)
  | cmd :: cmds =>
      ({ card with txCmdList := cmds, txCmdFreeList := card.txCmdFreeList + 1 },
        cmdOctetsEncode buf 1 cmd)

/-! ### A block is received -/

/-- The card with the local `rx_cmd` and `rx_cmd_len` of `sdla_usb_rxdata_decode`. -/
structure Rx where
  card : Card
  rxCmd : Nat → Octet
  rxCmdLen : Nat

def cmdOctets (rx : Rx) : List Octet := (List.range rx.rxCmdLen).map rx.rxCmd

/-- There is no buffer for a command. -/
def dropCmd (rx : Rx) : Rx :=
  if rx.card.rxCmdFreeList = 0 then
    { rx with
      card :=
        { rx.card with
          stats := { rx.card.stats with rxCmdDropCnt := rx.card.stats.rxCmdDropCnt + 1 } }
      rxCmdLen := 0 }
  else rx

def deliverCmd (rx : Rx) : Card :=
  if 3 ≤ rx.rxCmdLen then sdlaUsbRxcmdDecode rx.card (cmdOctets rx)
  else
    { rx.card with
      stats := { rx.card.stats with rxCmdResetCnt := rx.card.stats.rxCmdResetCnt + 1 } }

/-- An idle octet ends a command. A dropped one stays in `rx_cmd`. -/
def endCmd (rx : Rx) : Rx :=
  let rx := dropCmd rx
  { card := deliverCmd rx
    rxCmd := fun i => if i < rx.rxCmdLen then 0#8 else rx.rxCmd i
    rxCmdLen := 0 }

/-- Four octets of the block have filled `rx_cmd[rx_cmd_len]`. -/
def cmdOctetDone (rx : Rx) : Rx :=
  if rx.rxCmd rx.rxCmdLen = wpUsbCtrlIdlePattern then
    let rx := { rx with rxCmd := Function.update rx.rxCmd rx.rxCmdLen 0#8 }
    if rx.rxCmdLen = 0 then rx else endCmd rx
  else { rx with rxCmdLen := rx.rxCmdLen + 1 }

def putNibble (card : Card) (modNo : Fin 2) (ind : Nat) (high : Bool) (data : Octet) : Card :=
  let chunk := card.readchunk modNo
  { card with
    readchunk :=
      Function.update card.readchunk modNo
        (Function.update chunk ind (if high then chunk ind ||| (data <<< 4) else data)) }

/-- A round of the loop whose start bits are there. -/
def rxdataField (rx : Rx) (x : Nat) (octet : Octet) : Rx :=
  let ind := x / 4
  let modNo : Fin 2 := ⟨x % 2, Nat.mod_lt x Nat.two_pos⟩
  let high := x % 4 / 2
  let rx := { rx with card := putNibble rx.card modNo ind (high ≠ 0) (octet &&& 0x0F#8) }
  let shift := x % 4 * 2
  let cmd := (octet &&& 0xC0#8) >>> shift
  let rx := if ind ≠ 0 ∧ shift = 0 then cmdOctetDone rx else rx
  { rx with rxCmd := Function.update rx.rxCmd rx.rxCmdLen (rx.rxCmd rx.rxCmdLen ||| cmd) }

/-- A round of the loop has put its nibble. -/
def heard (rx : Rx) (x : Nat) (octet : Octet) : Rx :=
  { rx with
    card :=
      putNibble rx.card ⟨x % 2, Nat.mod_lt x Nat.two_pos⟩ (x / 4) (x % 4 / 2 ≠ 0)
        (octet &&& 0x0F#8) }

/-- One round of the loop, with whether the loop goes on. -/
def rxdataOctet (rxdata : Buf) (rx : Rx) (x : Nat) : Rx × Bool :=
  let octet := octetAt rxdata x
  let stats := rx.card.stats
  if x % 2 = 0 ∧ x % 4 / 2 = 0 ∧ x / 4 % wpUsbChunksize = 0 ∧ octet &&& 0x20#8 = 0#8 then
    ({ rx with
        card :=
          { rx.card with stats := { stats with rxStartFrErrCnt := stats.rxStartFrErrCnt + 1 } } },
      false)
  else if x % 4 = 0 ∧ octet &&& 0x10#8 = 0#8 then
    ({ rx with
        card := { rx.card with stats := { stats with rxStartErrCnt := stats.rxStartErrCnt + 1 } } },
      false)
  else (rxdataField rx x octet, true)

def rxdataLoop (rxdata : Buf) (rx : Rx) (x : Nat) : Nat → Rx
  | 0 => rx
  | n + 1 =>
      match rxdataOctet rxdata rx x with
      | (rx, true) => rxdataLoop rxdata rx (x + 1) n
      | (rx, false) => rx

def sdlaUsbRxdataDecode (card : Card) (rxdata : Buf) : Card :=
  (rxdataLoop rxdata ⟨card, fun _ => 0#8, 0⟩ 0 maxUsbRxLen).card

end Wanpipe.Usb
