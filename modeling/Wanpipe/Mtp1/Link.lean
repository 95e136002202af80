import Wanpipe.Line.Stuffing
import Wanpipe.Line.Fcs

/-! The MTP1 link of `wanpipe_mtp1.c`: its configuration, its state and its frame check. -/

namespace Wanpipe.Mtp1

open Line

def flagOctet : BitVec 32 := 0x7e#32
def txBufSize : Nat := 1024 * 10
def rxBufSize : Nat := 1024 * 8
def maxTxQ : Nat := 10

inductive OpMode
  | hdlc8Bit
  | hdlc7Bit
  deriving DecidableEq, Repr

inductive BitEndian
  | bit0First
  | bit7First
  deriving DecidableEq, Repr

def crcErrorBit : Nat := 1
def abortErrorBit : Nat := 2
def frameErrorBit : Nat := 3

structure Cfg where
  hdlcOpMode : OpMode
  hdlcBitEndian : BitEndian
  paramN : Nat
  maxMru : Nat
  deriving DecidableEq, Repr

/-- The callbacks of `wp_mtp1_reg_t` that the link tests against NULL, and the configuration. -/
structure Reg where
  rxData : Bool
  rxSuerm : Bool
  trace : Bool
  cfg : Cfg
  deriving DecidableEq, Repr

structure Skb where
  data : List Octet
  csum : BitVec 32
  deriving DecidableEq, Repr

structure Tbs where
  cur1sBitCount : Nat
  curBitPos : Nat
  curIndex : Nat
  cardIndex : Nat
  buf : Nat → Octet
  txQ : List Skb
  txRQ : List Skb
  txQDealloc : List Skb

inductive State
  | init
  | daedrx0
  | daedrx1
  | daedrx2
  deriving DecidableEq, Repr

/-- What the link tells the layer above. -/
inductive Indication
  | rxData (data : List Octet) (errCode : Nat)
  | rxSuerm
  deriving DecidableEq, Repr

/-- What a pass of the encoding loop sends: a frame of `tx_q`, the frame kept in `tx_r_q`, or
nothing but the opening flag. -/
inductive Dequeued
  | data (skb : Skb)
  | repeated (skb : Skb)
  | idle
  deriving DecidableEq, Repr

/-- The receiver's octets `rx_buf[0 .. rx_buf_len)` are one list; counters that nothing reads are
left out. The last four fields are history: the callbacks made and the frames dequeued, oldest
first. -/
structure Link where
  stateDaedr : State
  rFlagAccum : BitVec 32
  rAccum : BitVec 32
  r1sBitCount : Nat
  rOctetCountingMode : Bool
  rOctetCountingCount : Nat
  rOctetBitCount : Nat
  rBitGateCount : Nat
  rxBuf : List Octet
  tbs : Tbs
  reg : Reg
  cfg : Cfg
  indications : List Indication
  traces : List (List Octet × Bool)
  wakeups : Nat
  dequeued : List Dequeued

def crcTssRevTable : List (BitVec 16) :=
  [
    0x0000, 0x1189, 0x2312, 0x329B, 0x4624, 0x57AD, 0x6536, 0x74BF,
    0x8C48, 0x9DC1, 0xAF5A, 0xBED3, 0xCA6C, 0xDBE5, 0xE97E, 0xF8F7,
    0x1081, 0x0108, 0x3393, 0x221A, 0x56A5, 0x472C, 0x75B7, 0x643E,
    0x9CC9, 0x8D40, 0xBFDB, 0xAE52, 0xDAED, 0xCB64, 0xF9FF, 0xE876,
    0x2102, 0x308B, 0x0210, 0x1399, 0x6726, 0x76AF, 0x4434, 0x55BD,
    0xAD4A, 0xBCC3, 0x8E58, 0x9FD1, 0xEB6E, 0xFAE7, 0xC87C, 0xD9F5,
    0x3183, 0x200A, 0x1291, 0x0318, 0x77A7, 0x662E, 0x54B5, 0x453C,
    0xBDCB, 0xAC42, 0x9ED9, 0x8F50, 0xFBEF, 0xEA66, 0xD8FD, 0xC974,
    0x4204, 0x538D, 0x6116, 0x709F, 0x0420, 0x15A9, 0x2732, 0x36BB,
    0xCE4C, 0xDFC5, 0xED5E, 0xFCD7, 0x8868, 0x99E1, 0xAB7A, 0xBAF3,
    0x5285, 0x430C, 0x7197, 0x601E, 0x14A1, 0x0528, 0x37B3, 0x263A,
    0xDECD, 0xCF44, 0xFDDF, 0xEC56, 0x98E9, 0x8960, 0xBBFB, 0xAA72,
    0x6306, 0x728F, 0x4014, 0x519D, 0x2522, 0x34AB, 0x0630, 0x17B9,
    0xEF4E, 0xFEC7, 0xCC5C, 0xDDD5, 0xA96A, 0xB8E3, 0x8A78, 0x9BF1,
    0x7387, 0x620E, 0x5095, 0x411C, 0x35A3, 0x242A, 0x16B1, 0x0738,
    0xFFCF, 0xEE46, 0xDCDD, 0xCD54, 0xB9EB, 0xA862, 0x9AF9, 0x8B70,
    0x8408, 0x9581, 0xA71A, 0xB693, 0xC22C, 0xD3A5, 0xE13E, 0xF0B7,
    0x0840, 0x19C9, 0x2B52, 0x3ADB, 0x4E64, 0x5FED, 0x6D76, 0x7CFF,
    0x9489, 0x8500, 0xB79B, 0xA612, 0xD2AD, 0xC324, 0xF1BF, 0xE036,
    0x18C1, 0x0948, 0x3BD3, 0x2A5A, 0x5EE5, 0x4F6C, 0x7DF7, 0x6C7E,
    0xA50A, 0xB483, 0x8618, 0x9791, 0xE32E, 0xF2A7, 0xC03C, 0xD1B5,
    0x2942, 0x38CB, 0x0A50, 0x1BD9, 0x6F66, 0x7EEF, 0x4C74, 0x5DFD,
    0xB58B, 0xA402, 0x9699, 0x8710, 0xF3AF, 0xE226, 0xD0BD, 0xC134,
    0x39C3, 0x284A, 0x1AD1, 0x0B58, 0x7FE7, 0x6E6E, 0x5CF5, 0x4D7C,
    0xC60C, 0xD785, 0xE51E, 0xF497, 0x8028, 0x91A1, 0xA33A, 0xB2B3,
    0x4A44, 0x5BCD, 0x6956, 0x78DF, 0x0C60, 0x1DE9, 0x2F72, 0x3EFB,
    0xD68D, 0xC704, 0xF59F, 0xE416, 0x90A9, 0x8120, 0xB3BB, 0xA232,
    0x5AC5, 0x4B4C, 0x79D7, 0x685E, 0x1CE1, 0x0D68, 0x3FF3, 0x2E7A,
    0xE70E, 0xF687, 0xC41C, 0xD595, 0xA12A, 0xB0A3, 0x8238, 0x93B1,
    0x6B46, 0x7ACF, 0x4854, 0x59DD, 0x2D62, 0x3CEB, 0x0E70, 0x1FF9,
    0xF78F, 0xE606, 0xD49D, 0xC514, 0xB1AB, 0xA022, 0x92B9, 0x8330,
    0x7BC7, 0x6A4E, 0x58D5, 0x495C, 0x3DE3, 0x2C6A, 0x1EF1, 0x0F78]

def crcTssRevStep (crc : BitVec 16) (octet : Octet) : BitVec 16 :=
  (crc >>> 8) ^^^ crcTssRevTable.getD ((crc ^^^ octet.setWidth 16) &&& 0xff#16).toNat 0#16

def crcTssRev (crc : BitVec 16) (buf : List Octet) : BitVec 16 := buf.foldl crcTssRevStep crc

private theorem table_entry :
    ∀ i < 256, crcTssRevTable.getD i 0#16 = fcsShifts 8 (BitVec.ofNat 16 i) := by
  decide +kernel

theorem crcTssRev_eq_fcs (crc : BitVec 16) (buf : List Octet) :
    crcTssRev crc buf = fcs crc buf := by
  have step : crcTssRevStep = fcsOctet := by
    funext crc octet
    have small : ((crc ^^^ octet.setWidth 16) &&& 0xff#16).toNat < 256 := by
      rw [BitVec.toNat_and]
      exact Nat.lt_of_le_of_lt Nat.and_le_right (by decide)
    rw [crcTssRevStep, table_entry _ small, BitVec.ofNat_toNat, BitVec.setWidth_eq, fcsOctet_table]
  rw [crcTssRev, fcs, step]

/-- `wp_mtp1_register`: no link without a `max_mru`, and none above the receive buffer. -/
def wpMtp1Register (reg : Reg) : Option Link :=
  if reg.cfg.maxMru = 0 then none
  else
    let cfg := { reg.cfg with maxMru := min reg.cfg.maxMru rxBufSize }
    some
      { stateDaedr := .init
        rFlagAccum := 0
        rAccum := 0
        r1sBitCount := 0
        rOctetCountingMode := false
        rOctetCountingCount := 0
        rOctetBitCount := 0
        rBitGateCount := 0
        rxBuf := []
        tbs :=
          { cur1sBitCount := 0
            curBitPos := 0
            curIndex := 0
            cardIndex := 0
            buf := fun _ => 0
            txQ := []
            txRQ := []
            txQDealloc := [] }
        reg := { reg with cfg := cfg }
        cfg := cfg
        indications := []
        traces := []
        wakeups := 0
        dequeued := [] }

end Wanpipe.Mtp1
