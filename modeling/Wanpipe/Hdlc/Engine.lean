import Wanpipe.Line.Fcs
import Wanpipe.Line.BitBuffer

/-! The HDLC engine of `wanpipe_hdlc.c` and of its copy in the LIP kernel driver,
`wanpipe_hdlc_eng.c`. -/

namespace Wanpipe.Hdlc

open Line

/-- What differs between the two copies: the two buffers, the length at which a decode call gives
up, the idle octets sent before a packet and whether an encoding is padded. -/
structure Build where
  maxSockHdlcBuf : Nat
  hdlcEngBufLen : Nat
  maxDecodeLen : Nat
  preamble : Nat
  padded : Bool
  deriving DecidableEq, Repr

/-- `src/api/lib/hdlc`: the limit is `MAX_SOCK_HDLC_LIMIT`. -/
def library : Build := ⟨15000, 8000, 15000 - 500, 4, false⟩

/-- `lip_hdlc`: the limit is `HDLC_ENG_BUF_LEN - 1`. -/
def kernel : Build := ⟨10000, 10000, 10000 - 1, 2, true⟩

def magicNums : List (BitVec 16) :=
  [0x1189, 0x2312, 0x4624, 0x8C48, 0x1081, 0x2102, 0x4204, 0x8408]

def flagTable : List Octet := [0x7E, 0xFC, 0xF9, 0xF3, 0xE7, 0xCF, 0x9F, 0x3F]

/-- An entry of `CRC_TABLE` as `init_crc` fills it. -/
def crcTable (i : BitVec 8) : BitVec 16 :=
  (List.range 8).foldl (fun crc j => if i.getLsbD j then crc ^^^ magicNums.getD j 0 else crc) 0

def incCrcCnt (a : Nat) : Nat := if 3 ≤ a + 1 then 0 else a + 1

def decCrcCnt (a : Nat) : Nat := if a = 0 then 3 - 1 else a - 1

def getFinCrcCnt (a : Nat) : Nat := decCrcCnt (decCrcCnt a)

def flipCrc (a : BitVec 16) : BitVec 16 :=
  ((a &&& 0x000F#16) <<< 12) ||| ((a &&& 0x00F0#16) <<< 4) ||| ((a &&& 0x0F00#16) >>> 4) |||
    ((a &&& 0xF000#16) >>> 12)

def decodeCrc (a : BitVec 16) : BitVec 16 :=
  ((~~~ a &&& 0x000F#16) <<< 4) ||| ((~~~ a &&& 0x00F0#16) >>> 4) |||
    ((~~~ a &&& 0x0F00#16) <<< 4) ||| ((~~~ a &&& 0xF000#16) >>> 4)

def crcStep (crc : BitVec 16) (data : Octet) : BitVec 16 :=
  ((crc >>> 8) &&& 0x00FF#16) ^^^ crcTable (((data.setWidth 16 ^^^ crc) &&& 0xFF#16).setWidth 8)

/-- The one bit set in `hdlc_flag`. -/
inductive HdlcFlag
  | noFlag
  | openFlag
  | closingFlag
  deriving DecidableEq, Repr

structure Stats where
  packets : Nat
  errors : Nat
  crc : Nat
  abort : Nat
  frameOverflow : Nat
  deriving DecidableEq, Repr

/-- The decoder, with the flag of the running call and with the packets handed to `hdlc_data`, a
callback being set. The ring of raw input that is kept for dumping is left out. -/
structure Decoder where
  rxDecodeBuf : Nat → Octet
  rxDecodeLen : Nat
  rxDecodeBitCnt : Nat
  rxDecodeOnecnt : Nat
  hdlcFlag : HdlcFlag
  rxOrigCrc : BitVec 16
  rxCrc : Nat → BitVec 16
  crcCur : Nat
  crcPrv : Nat
  crcFin : BitVec 16
  stats : Stats
  gotdata : Bool
  hdlcData : List (List Octet)

/-- The part of `init_hdlc_decoder` that every flag repeats. -/
def restartPacket (chan : Decoder) : Decoder :=
  { chan with
    rxDecodeLen := 0
    rxDecodeBuf := Function.update chan.rxDecodeBuf 0 0
    rxDecodeBitCnt := 0
    rxCrc := fun _ => 0xFFFF#16
    crcCur := 0
    crcPrv := 0 }

def initHdlcDecoder (chan : Decoder) : Decoder :=
  { restartPacket chan with hdlcFlag := .noFlag, rxDecodeOnecnt := 0 }

def calcRxCrc (chan : Decoder) : Decoder :=
  let data := chan.rxDecodeBuf chan.rxDecodeLen
  let cur := incCrcCnt chan.crcCur
  { chan with
    crcCur := cur
    rxOrigCrc := ((chan.rxOrigCrc <<< 8) &&& 0xFF00#16) ||| data.setWidth 16
    rxCrc := Function.update chan.rxCrc cur (crcStep (chan.rxCrc chan.crcPrv) data)
    crcPrv := incCrcCnt chan.crcPrv }

/-- An octet is complete. With a length of `MAX_SOCK_HDLC_BUF` the source clears one octet behind
the buffer here. -/
def nextOctet (build : Build) (chan : Decoder) : Decoder :=
  let chan := calcRxCrc chan
  let chan := { chan with rxDecodeLen := chan.rxDecodeLen + 1 }
  if build.maxSockHdlcBuf < chan.rxDecodeLen then
    initHdlcDecoder
      { chan with
        stats :=
          { chan.stats with
            errors := chan.stats.errors + 1
            frameOverflow := chan.stats.frameOverflow + 1 } }
  else
    { chan with
      rxDecodeBuf := Function.update chan.rxDecodeBuf chan.rxDecodeLen 0
      rxDecodeBitCnt := 0
      hdlcFlag := .closingFlag }

/-- Both kinds of data bit move on to the next place. -/
def nextBit (build : Build) (chan : Decoder) : Decoder :=
  let chan := { chan with rxDecodeBitCnt := chan.rxDecodeBitCnt + 1 }
  if 8 ≤ chan.rxDecodeBitCnt then nextOctet build chan else chan

/-- The packet between two flags. -/
def endPacket (chan : Decoder) : Decoder :=
  let chan := { chan with hdlcFlag := .openFlag }
  if 3 ≤ chan.rxDecodeLen then
    let cur := getFinCrcCnt chan.crcCur
    let fin := decodeCrc (flipCrc (chan.rxCrc cur))
    let chan := { chan with crcCur := cur, crcFin := fin }
    if fin = chan.rxOrigCrc then
      { chan with
        stats := { chan.stats with packets := chan.stats.packets + 1 }
        gotdata := true
        hdlcData := chan.hdlcData ++ [(List.range chan.rxDecodeLen).map chan.rxDecodeBuf] }
    else
      initHdlcDecoder
        { chan with
          stats := { chan.stats with errors := chan.stats.errors + 1, crc := chan.stats.crc + 1 } }
  else
    { chan with
      stats := { chan.stats with errors := chan.stats.errors + 1, abort := chan.stats.abort + 1 } }

def gotFlag (chan : Decoder) : Decoder :=
  restartPacket
    (match chan.hdlcFlag with
      | .closingFlag => endPacket chan
      | .noFlag => { chan with hdlcFlag := .openFlag }
      | .openFlag => chan)

def gotOne (build : Build) (chan : Decoder) : Decoder :=
  let chan := { chan with rxDecodeOnecnt := (chan.rxDecodeOnecnt + 1) % 256 }
  if chan.hdlcFlag = .noFlag then chan
  else
    nextBit build
      { chan with
        rxDecodeBuf := orBit chan.rxDecodeBuf chan.rxDecodeLen chan.rxDecodeBitCnt true }

def gotZero (build : Build) (chan : Decoder) : Decoder :=
  let chan :=
    if chan.rxDecodeOnecnt = 5 then chan
    else if chan.rxDecodeOnecnt = 6 then gotFlag chan
    else if chan.hdlcFlag = .noFlag then chan
    else nextBit build chan
  { chan with rxDecodeOnecnt := 0 }

def decodeBit (build : Build) (chan : Decoder) (bit : Bool) : Decoder :=
  if bit then gotOne build chan else gotZero build chan

/-- The bits of an octet that `decode_byte` looks at. -/
def decodedBits (sevenBitHdlc : Bool) (byte : Octet) : List Bool :=
  (octetBits byte).take (if sevenBitHdlc then 7 else 8)

def decodeByte (build : Build) (sevenBitHdlc : Bool) (chan : Decoder) (byte : Octet) : Decoder :=
  (decodedBits sevenBitHdlc byte).foldl (decodeBit build) chan

def wanpipeHdlcDecode (build : Build) (sevenBitHdlc : Bool) (chan : Decoder)
    (buf : List Octet) : Decoder :=
  let chan := buf.foldl (decodeByte build sevenBitHdlc) { chan with gotdata := false }
  if build.maxDecodeLen ≤ chan.rxDecodeLen then
    initHdlcDecoder
      { chan with
        stats :=
          { chan.stats with
            errors := chan.stats.errors + 1
            frameOverflow := chan.stats.frameOverflow + 1 } }
  else chan

structure Encoder where
  txDecodeBuf : Nat → Octet
  txDecodeLen : Nat
  txDecodeBitCnt : Nat
  txDecodeOnecnt : Nat
  txCrc : BitVec 16
  txCrcFin : BitVec 16
  txFlag : Octet
  txFlagOffset : Nat
  txFlagOffsetData : Octet
  txFlagIdle : Octet
  bitsInByte : Nat

def advance (chan : Encoder) : Encoder :=
  if chan.bitsInByte ≤ chan.txDecodeBitCnt + 1 then
    { chan with
      txDecodeLen := chan.txDecodeLen + 1
      txDecodeBuf := Function.update chan.txDecodeBuf (chan.txDecodeLen + 1) 0
      txDecodeBitCnt := 0 }
  else { chan with txDecodeBitCnt := chan.txDecodeBitCnt + 1 }

/-- One bit of `encode_byte`; a fifth one is followed by a zero when `flag` is 0. -/
def encodeBit (flag : Nat) (chan : Encoder) (bit : Bool) : Encoder :=
  let put :=
    advance
      { chan with
        txDecodeBuf := orBit chan.txDecodeBuf chan.txDecodeLen chan.txDecodeBitCnt bit }
  if bit then
    if chan.txDecodeOnecnt + 1 = 5 then
      { (if flag = 0 then advance put else put) with txDecodeOnecnt := 0 }
    else { put with txDecodeOnecnt := chan.txDecodeOnecnt + 1 }
  else { put with txDecodeOnecnt := 0 }

def encodeByte (flag : Nat) (chan : Encoder) (byte : Octet) : Encoder :=
  let chan := (octetBits byte).foldl (encodeBit flag) chan
  if flag = 1 then
    { chan with
      txFlagIdle := flagTable.getD chan.txDecodeBitCnt 0
      txFlagOffset := chan.txDecodeBitCnt
      txFlagOffsetData := chan.txDecodeBuf chan.txDecodeLen }
  else chan

def calcTxCrc (chan : Encoder) (byte : Octet) : Encoder :=
  { chan with txCrc := crcStep chan.txCrc byte }

/-- The start of a call; `memset` clears three octets, `encode_byte` each further one. -/
def startCall (sevenBitHdlc : Bool) (chan : Encoder) : Encoder :=
  { chan with
    txDecodeLen := 0
    txCrc := 0xFFFF#16
    txCrcFin := 0
    txDecodeOnecnt := 0
    bitsInByte := if sevenBitHdlc then 7 else 8
    txDecodeBuf := fun i => if i < 3 then 0 else chan.txDecodeBuf i
    txDecodeBitCnt := 0 }

def encodeIdle : Nat → Encoder → Encoder
  | 0, chan => chan
  | n + 1, chan => encodeIdle n (encodeByte 2 chan chan.txFlagIdle)

/-- The idle octets before a packet and the rest of the last closing flag. -/
def encodePreamble (build : Build) (sevenBitHdlc : Bool) (chan : Encoder) : Encoder :=
  let chan := encodeIdle build.preamble (startCall sevenBitHdlc chan)
  let chan := encodeByte 2 chan chan.txFlagOffsetData
  { chan with
    txDecodeLen :=
      if sevenBitHdlc = false ∨ chan.txFlagOffset < 5 then chan.txDecodeLen - 1
      else chan.txDecodeLen
    txDecodeBitCnt :=
      if sevenBitHdlc then (chan.txFlagOffset + 2) % chan.bitsInByte else chan.txFlagOffset
    txDecodeOnecnt := 0 }

def encodePacket (chan : Encoder) (usrData : List Octet) : Encoder :=
  let chan := usrData.foldl (fun chan byte => encodeByte 0 (calcTxCrc chan byte) byte) chan
  let chan := { chan with txCrcFin := decodeCrc (flipCrc chan.txCrc) }
  let chan := encodeByte 0 chan (((chan.txCrcFin >>> 8) &&& 0xFF#16).setWidth 8)
  let chan := encodeByte 0 chan ((chan.txCrcFin &&& 0xFF#16).setWidth 8)
  encodeByte 1 chan chan.txFlag

/-- The padding loop of the kernel copy, with the rounds that `maxpad` leaves. -/
def encodePadding : Nat → Encoder → Encoder
  | 0, chan => chan
  | rounds + 1, chan =>
      if chan.txDecodeLen % 4 = 0 then chan
      else encodePadding rounds (encodeByte 2 chan chan.txFlagIdle)

/-- `wanpipe_hdlc_encode`: the encoder, the octets of `hdlc_data` and the next idle octet. -/
def wanpipeHdlcEncode (build : Build) (sevenBitHdlc : Bool) (chan : Encoder)
    (usrData : List Octet) : Encoder × List Octet × Octet :=
  let chan := encodePacket (encodePreamble build sevenBitHdlc chan) usrData
  let chan := if build.padded then encodePadding 7 chan else chan
  ({ chan with txDecodeLen := 0 }, (List.range chan.txDecodeLen).map chan.txDecodeBuf,
    chan.txFlagIdle)

/-- The engine's two halves as `wanpipe_reg_hdlc_engine` leaves them. -/
def freshDecoder : Decoder :=
  initHdlcDecoder
    { rxDecodeBuf := fun _ => 0
      rxDecodeLen := 0
      rxDecodeBitCnt := 0
      rxDecodeOnecnt := 0
      hdlcFlag := .noFlag
      rxOrigCrc := 0
      rxCrc := fun _ => 0
      crcCur := 0
      crcPrv := 0
      crcFin := 0
      stats := ⟨0, 0, 0, 0, 0⟩
      gotdata := false
      hdlcData := [] }

def freshEncoder : Encoder where
  txDecodeBuf := fun _ => 0
  txDecodeLen := 0
  txDecodeBitCnt := 0
  txDecodeOnecnt := 0
  txCrc := 0xFFFF#16
  txCrcFin := 0
  txFlag := 0x7E
  txFlagOffset := 0
  txFlagOffsetData := 0
  txFlagIdle := 0x7E
  bitsInByte := 8

end Wanpipe.Hdlc
