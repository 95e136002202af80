import Wanpipe.Mtp1.Link

/-! The receiver of `wanpipe_mtp1.c`. -/

namespace Wanpipe.Mtp1

open Line

def bump (count : Nat) : Nat := (count + 1) % 2 ^ 32

def rxBit (bit : Bool) : BitVec 32 := if bit then 0x80#32 else 0#32

def suerm (link : Link) : Link :=
  if link.reg.rxSuerm then { link with indications := link.indications ++ [.rxSuerm] } else link

def suAccept (link : Link) (errCode : Nat) : Link :=
  if link.rxBuf.length < 3 then suerm link
  else
    let link :=
      if link.reg.trace ∧ errCode = 0 then
        { link with traces := link.traces ++ [(link.rxBuf.take (link.rxBuf.length - 2), true)] }
      else link
    if link.reg.rxData then
      { link with indications := link.indications ++ [.rxData link.rxBuf errCode] }
    else link

def octetCountInc (link : Link) : Link :=
  let link := { link with rOctetBitCount := bump link.rOctetBitCount }
  if 8 ≤ link.rOctetBitCount then
    let link := { link with rOctetCountingCount := bump link.rOctetCountingCount }
    if link.cfg.paramN ≤ link.rOctetCountingCount then suerm { link with rOctetCountingCount := 0 }
    else link
  else link

def octetCountStart (link : Link) : Link :=
  { octetCountInc { link with rOctetCountingMode := true, rOctetCountingCount := 0 } with
    stateDaedr := .daedrx0 }

def octetCountMode (link : Link) : Link :=
  if link.rOctetCountingMode then octetCountInc link else link

def shiftFlagAccum (link : Link) (bit : Bool) : Link :=
  { link with rFlagAccum := (link.rFlagAccum >>> 1) ||| rxBit bit }

def flagFound (link : Link) : Link :=
  { link with rBitGateCount := 7, stateDaedr := .daedrx1 }

/-- The two accumulators that show seven consecutive ones. -/
def tooManyOnes (accum : BitVec 32) : Prop := accum = 0x7f#32 ∨ accum = 0xfe#32

instance (accum : BitVec 32) : Decidable (tooManyOnes accum) :=
  inferInstanceAs (Decidable (accum = 0x7f#32 ∨ accum = 0xfe#32))

def abortFound (link : Link) : Link := octetCountStart (suAccept link (1 <<< abortErrorBit))

/-- The `switch` over the flag accumulator of `DAEDRX_0` and `DAEDRX_1`. -/
def openCheckFlag (link : Link) : Link :=
  if link.rFlagAccum = flagOctet then flagFound link
  else if tooManyOnes link.rFlagAccum then abortFound link
  else link

def daedrx0 (link : Link) (bit : Bool) : Link :=
  openCheckFlag (shiftFlagAccum (octetCountMode link) bit)

def startCollecting (link : Link) : Link :=
  { link with
    rAccum := 0
    rOctetBitCount := 0
    rxBuf := []
    r1sBitCount := 0
    stateDaedr := .daedrx2 }

def daedrx1 (link : Link) (bit : Bool) : Link :=
  let link := octetCountMode (shiftFlagAccum link bit)
  if 0 < link.rBitGateCount then { link with rBitGateCount := link.rBitGateCount - 1 }
  else openCheckFlag (startCollecting link)

/-- What a closing flag makes of the octets collected. -/
def closeSu (link : Link) : Link :=
  if link.rOctetBitCount ≠ 0 then suAccept (suerm link) (1 <<< frameErrorBit)
  else if link.rxBuf.length < 3 then suAccept (suerm link) (1 <<< frameErrorBit)
  else if crcTssRev 0xffff#16 link.rxBuf ≠ 0xf0b8#16 then
    suAccept (suerm link) (1 <<< crcErrorBit)
  else suAccept link 0

/-- The `switch` over the flag accumulator of `DAEDRX_2`. -/
def closeCheckFlag (link : Link) : Link :=
  if link.rFlagAccum = flagOctet then { flagFound (closeSu link) with rxBuf := [] }
  else if tooManyOnes link.rFlagAccum then abortFound link
  else link

def daedrx2CheckFlag (link : Link) (bit : Bool) : Link := closeCheckFlag (shiftFlagAccum link bit)

/-- An octet is complete. A signal unit may hold one octet more than `max_mru` here: when that is
`RX_BUF_SIZE` the source writes it behind the array. -/
def storeOctet (link : Link) (bit : Bool) : Link :=
  if link.cfg.maxMru < link.rxBuf.length then
    octetCountStart { suAccept link (1 <<< frameErrorBit) with rxBuf := [] }
  else
    daedrx2CheckFlag
      { link with
        rxBuf := link.rxBuf ++ [link.rAccum.setWidth 8]
        rOctetBitCount := 0
        rAccum := 0 } bit

def keepBit (link : Link) (suBit bit : Bool) : Link :=
  let link :=
    { link with
      rAccum := (link.rAccum >>> 1) ||| rxBit suBit
      rOctetBitCount := bump link.rOctetBitCount }
  if link.rOctetBitCount < 8 then daedrx2CheckFlag link bit
  else if link.rOctetBitCount = 8 then storeOctet link bit
  else daedrx2CheckFlag { link with stateDaedr := .init } bit

def daedrx2 (link : Link) (bit : Bool) : Link :=
  let link := octetCountMode link
  if link.rFlagAccum.getLsbD 0 then
    let link := { link with r1sBitCount := link.r1sBitCount + 1 }
    if 7 ≤ link.r1sBitCount then octetCountStart link else keepBit link true bit
  else if link.r1sBitCount = 5 then daedrx2CheckFlag { link with r1sBitCount := 0 } bit
  else keepBit { link with r1sBitCount := 0 } false bit

def rxBitToSu (link : Link) (bit : Bool) : Link :=
  match link.stateDaedr with
  | .init =>
      daedrx0
        { link with rFlagAccum := 0, rOctetCountingMode := false, stateDaedr := .daedrx0 } bit
  | .daedrx0 => daedrx0 link bit
  | .daedrx1 => daedrx1 link bit
  | .daedrx2 => daedrx2 link bit

/-- The bits of a line octet in the order `daed_rx` looks at them; bit 7 of a 56k octet is not
used. -/
def rxOctetBits (cfg : Cfg) (octet : Octet) : List Bool :=
  let used :=
    match cfg.hdlcOpMode with
    | .hdlc8Bit => octetBits octet
    | .hdlc7Bit => (octetBits octet).take 7
  match cfg.hdlcBitEndian with
  | .bit0First => used
  | .bit7First => used.reverse

def daedRx (link : Link) (octet : Octet) : Link :=
  (rxOctetBits link.cfg octet).foldl rxBitToSu link

def wpMtp1RxHandler (link : Link) (data : List Octet) : Link := data.foldl daedRx link

def wpMtp1Reset (link : Link) : Link := { link with stateDaedr := .init }

end Wanpipe.Mtp1
