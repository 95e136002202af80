import Wanpipe.Store
import Wanpipe.Usb.Block

/-! The receive ring of the USB card. The transfers write in place, behind the end of the ring too,
and their completion moves the offsets. -/

namespace Wanpipe.Usb.RxRing

open Line Store

def maxReadBufLen : Nat := maxUsbRxLen * 100

/-- `urbcount_read`. -/
def urbcountRead : Nat := 1

inductive Opmode
  | voice
  | api
  deriving DecidableEq, Repr

/-- An octet that has left the ring: a read returned it or the verification passed over it. -/
inductive Gone
  | returned (octet : Octet)
  | passed (octet : Octet)
  deriving DecidableEq

def Gone.octet : Gone → Octet
  | .returned octet => octet
  | .passed octet => octet

/-- The receiving side of `sdlahw_usb_t`, with the one URB: `nextOff` is its `next_off`, `transfer`
is where its transfer buffer starts. `delivered` are the octets of the completions since the last
reset, `gone` those that have left the ring since then. -/
structure Ring where
  readbuf : Nat → Octet
  nextRxInd : Nat
  nextReadInd : Nat
  nextOff : Nat
  transfer : Nat
  opmode : Opmode
  coreRev : Octet
  rxSync : Bool
  txSync : Bool
  rxOverrunCnt : Nat
  rxSyncErrCnt : Nat
  devSyncErrCnt : Nat
  delivered : List Octet
  gone : List Gone

/-- What a transfer has received. -/
structure Block where
  octets : List Octet
  some : octets ≠ []
  fits : octets.length ≤ maxUsbRxLen

section Reading

def between (nextReadInd nextRxInd : Nat) : Nat :=
  if nextReadInd < nextRxInd then nextRxInd - nextReadInd
  else if nextRxInd < nextReadInd then maxReadBufLen - nextReadInd + nextRxInd
  else 0

def rxLen (ring : Ring) : Nat := between ring.nextReadInd ring.nextRxInd

/-- The octets of a read, which may cross the end. -/
def copyOut (ring : Ring) (len : Nat) : List Octet :=
  if ring.nextReadInd + len < maxReadBufLen then load ring.readbuf ring.nextReadInd len
  else
    load ring.readbuf ring.nextReadInd (maxReadBufLen - ring.nextReadInd) ++
      load ring.readbuf 0 (len - (maxReadBufLen - ring.nextReadInd))

def moveRead (ring : Ring) (count : Nat) (gone : List Gone) : Ring :=
  { ring with
    nextReadInd := (ring.nextReadInd + count) % maxReadBufLen
    gone := ring.gone ++ gone }

def takeOut (ring : Ring) (len : Nat) : Ring :=
  moveRead ring len ((copyOut ring len).map .returned)

def getLen (ring : Ring) (maxLen : Nat) : Nat := min (min (rxLen ring) maxLen) maxUsbRxLen

/-- `sdla_usb_rxdata_get`; `rxdata` is never `NULL`. -/
def sdlaUsbRxdataGet (ring : Ring) (maxLen : Nat) : Ring × List Octet :=
  if rxLen ring = 0 then (ring, [])
  else (takeOut ring (getLen ring maxLen), copyOut ring (getLen ring maxLen))

end Reading

section Sync

/-- `WP_USB_CTRL_DECODE`. -/
def ctrlDecode (buf : Nat → Octet) (ind : Nat) : Octet :=
  (buf ind &&& 0xC0#8) ||| ((buf (ind + 1) &&& 0xC0#8) >>> 2) |||
    ((buf (ind + 2) &&& 0xC0#8) >>> 4) ||| ((buf (ind + 3) &&& 0xC0#8) >>> 6)

def skip (ring : Ring) (count : Nat) : Ring :=
  moveRead ring count
    ((around ring.readbuf maxReadBufLen ring.nextReadInd count).map .passed)

/-- A block can start here: both of its start bits are there. -/
def starts (ring : Ring) : Bool := ring.readbuf ring.nextReadInd &&& 0x30#8 = 0x30#8

def idle (ring : Ring) : Bool := ctrlDecode ring.readbuf ring.nextReadInd = 0x7E#8

def searchSync : Nat → Ring → Ring
  | 0, ring => ring
  | len + 1, ring =>
      if !starts ring then searchSync len (skip ring 1)
      else if len + 1 < 4 then ring
      else if idle ring then { ring with rxSync := true }
      else searchSync (len + 1 - 4) (skip ring 4)
termination_by len => len
decreasing_by
  · exact Nat.lt_succ_self _
  · exact Nat.sub_lt (Nat.succ_pos _) (Nat.succ_pos 3)

def loseSync (ring : Ring) : Ring :=
  { skip ring 1 with rxSyncErrCnt := ring.rxSyncErrCnt + 1, rxSync := false }

/-- The other side tells whether it is in sync. -/
def checkTxSync (ring : Ring) : Ring :=
  if ring.coreRev.ult 0x20#8 then ring
  else if ring.readbuf (ring.nextReadInd + 1) &&& 0x20#8 = 0x20#8 then { ring with txSync := true }
  else if ring.coreRev ≠ 0xFF#8 ∧ ring.txSync = true then
    { ring with txSync := false, devSyncErrCnt := ring.devSyncErrCnt + 1 }
  else { ring with txSync := false }

def sdlausbSyncverify (ring : Ring) (len : Nat) : Ring :=
  if !ring.rxSync then searchSync len ring
  else if !starts ring then loseSync ring
  else if !idle ring then loseSync ring
  else checkTxSync ring

end Sync

section Completion

/-- Where a block goes: it is an overrun, or the offsets behind it. -/
inductive Placed
  | overrun (readbuf : Nat → Octet)
  | taken (readbuf : Nat → Octet) (nextRxInd nextRxOff : Nat)

/-- What lies behind the end of the ring is copied to its start. -/
def copySlack (readbuf : Nat → Octet) (len : Nat) : Nat → Octet :=
  store readbuf 0 (load readbuf maxReadBufLen len)

def placeBlock (ring : Ring) (readbuf : Nat → Octet) (nextRxInd nextRxOff : Nat) : Placed :=
  if ring.nextRxInd < ring.nextReadInd then
    if ring.nextReadInd < nextRxOff then .overrun readbuf
    else .taken readbuf (nextRxInd % maxReadBufLen) (nextRxOff % maxReadBufLen)
  else if ring.nextReadInd < ring.nextRxInd then
    if maxReadBufLen < nextRxInd then
      if ring.nextReadInd < nextRxOff % maxReadBufLen then
        .overrun (copySlack readbuf (nextRxInd - maxReadBufLen))
      else
        .taken (copySlack readbuf (nextRxInd - maxReadBufLen)) (nextRxInd % maxReadBufLen)
          (nextRxOff % maxReadBufLen)
    else .taken readbuf (nextRxInd % maxReadBufLen) (nextRxOff % maxReadBufLen)
  else .taken readbuf (nextRxInd % maxReadBufLen) (nextRxOff % maxReadBufLen)

/-- What the transfer leaves in the buffer. -/
def arrived (ring : Ring) (block : Block) : Placed :=
  placeBlock ring (store ring.readbuf ring.transfer block.octets)
    (ring.nextRxInd + block.octets.length)
    (ring.nextRxInd + block.octets.length * urbcountRead)

def resubmit (ring : Ring) : Ring := { ring with transfer := ring.nextOff }

def pending (ring : Ring) : Nat :=
  if ring.nextReadInd ≤ ring.nextRxInd then ring.nextRxInd - ring.nextReadInd
  else maxReadBufLen - ring.nextReadInd + ring.nextRxInd

def verify (ring : Ring) : Ring :=
  if ring.opmode = .voice ∧ 4 < pending ring then sdlausbSyncverify ring (pending ring) else ring

def accept (ring : Ring) (block : Block) (readbuf : Nat → Octet) (nextRxInd nextRxOff : Nat) :
    Ring :=
  { ring with
    readbuf := readbuf, nextRxInd := nextRxInd, nextOff := nextRxOff
    delivered := ring.delivered ++ block.octets }

/-- `sdlausb_read_complete` of a transfer without an error. -/
def sdlausbReadComplete (ring : Ring) (block : Block) : Ring :=
  match arrived ring block with
  | .overrun readbuf =>
      resubmit { ring with readbuf := readbuf, rxOverrunCnt := ring.rxOverrunCnt + 1 }
  | .taken readbuf nextRxInd nextRxOff =>
      resubmit (verify (accept ring block readbuf nextRxInd nextRxOff))

end Completion

/-- `sdla_usb_rxurb_reset`. -/
def sdlaUsbRxurbReset (ring : Ring) : Ring :=
  { ring with nextRxInd := 0, nextReadInd := 0, transfer := 0, delivered := [], gone := [] }

inductive Op
  | complete (block : Block)
  | get (maxLen : Nat)
  | reset

def step (ring : Ring) : Op → Ring
  | .complete block => sdlausbReadComplete ring block
  | .get maxLen => (sdlaUsbRxdataGet ring maxLen).1
  | .reset => sdlaUsbRxurbReset ring

end Wanpipe.Usb.RxRing
