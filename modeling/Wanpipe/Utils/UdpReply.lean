import Mathlib.Data.List.Basic
import Wanpipe.Line.Octets
import Wanpipe.OnesComplement
import Wanpipe.Store
import Wanpipe.Words

/-! The reply to a request of the UDP management. It is made in place of the request. -/

namespace Wanpipe.Utils.UdpReply

open Line Store Words OnesComplement

section Layout

/-- `sizeof(struct iphdr)`, `sizeof(struct udphdr)`, and of the parts of `wan_udp_hdr_t`. -/
def ipSize : Nat := 20

def udpSize : Nat := 8

def mgmtSize : Nat := 16

def cmdSize : Nat := 16

def traceSize : Nat := 2

/-- The places of the fields in `wan_udp_pkt_t`. -/
def ipLenPlace : Nat := 2

def ipProtocolPlace : Nat := 9

def ipSumPlace : Nat := 10

def ipSrcPlace : Nat := 12

def ipDstPlace : Nat := 16

def udpSportPlace : Nat := 20

def udpDportPlace : Nat := 22

def udpLenPlace : Nat := 24

def udpSumPlace : Nat := 26

def signaturePlace : Nat := 28

def requestReplyPlace : Nat := 36

def tracePlace : Nat := 60

def dataPlace : Nat := 62

def wanMaxDataSize : Nat := 5000

def udpOffset : Nat := 12

def udpmgmtUdpProtocol : Octet := 0x11

def udpmgmtRequest : Octet := 0x01

def udpmgmtReply : Octet := 0x02

def wanconfigChdlc : Nat := 104

def wanconfigSdlc : Nat := 114

end Layout

section Words

/-- The octets of a word in the other order. -/
def swap (word : BitVec 16) : BitVec 16 := word <<< 8 ||| word >>> 8

def get (data : Nat → Octet) (place : Nat) : BitVec 16 :=
  BitVec.ofNat 16 (wordValue (load data place 2))

def put (data : Nat → Octet) (place : Nat) (word : BitVec 16) : Nat → Octet :=
  store data place (wordOctets 2 word.toNat)

/-- What stands in two places of `count` octets is exchanged. -/
def exchange (data : Nat → Octet) (left right count : Nat) : Nat → Octet :=
  store (store data left (load data right count)) right (load data left count)

end Words

section Request

/-- `GLOBAL_UDP_SIGNATURE`, "WANPIPE". -/
def globalUdpSignature : List Octet := [0x57, 0x41, 0x4E, 0x50, 0x49, 0x50, 0x45]

/-- `UDP_INVALID_TYPE`. -/
def udpInvalidType : Nat := 0x05

def wanUdpPktType (udpPort : BitVec 16) (data : Nat → Octet) : Nat :=
  if data 0 >>> 4 = 4 ∧ data ipProtocolPlace = udpmgmtUdpProtocol ∧
      get data udpDportPlace = swap udpPort ∧ data requestReplyPlace = udpmgmtRequest then
    if load data signaturePlace 7 = globalUdpSignature then 0 else udpInvalidType
  else udpInvalidType

end Request

section Checksum

/-- The loop of `wan_calc_checksum` in an `u_int32_t`. -/
def addWords (data : Nat → Octet) : Nat → Nat → Nat → Nat
  | _, 0, sum => sum
  | place, words + 1, sum =>
      addWords data (place + 2) words ((sum + (get data place).toNat) % 0x100000000)

def wanCalcChecksum (data : Nat → Octet) (place len : Nat) : BitVec 16 :=
  if ~~~BitVec.ofNat 16 (fold (addWords data place ((len + 1) / 2) 0)) = 0 then 0xFFFF
  else ~~~BitVec.ofNat 16 (fold (addWords data place ((len + 1) / 2) 0))

end Checksum

section Reply

/-- The cards whose length takes the trace information in. -/
def traced (configId : Nat) : Bool := configId = wanconfigChdlc || configId = wanconfigSdlc

def rawLength (configId mboxLen : Nat) : BitVec 16 :=
  BitVec.ofNat 16 (udpSize + mgmtSize + cmdSize + mboxLen) +
    if traced configId then BitVec.ofNat 16 traceSize else 0

def evenBound (configId mboxLen : Nat) : Nat :=
  if rawLength configId mboxLen &&& 1 = 0 then 0 else 1

def udpLength (configId mboxLen : Nat) : BitVec 16 :=
  rawLength configId mboxLen + BitVec.ofNat 16 (evenBound configId mboxLen)

def replyLength (configId mboxLen : Nat) : BitVec 16 :=
  BitVec.ofNat 16 ipSize + rawLength configId mboxLen +
    BitVec.ofNat 16 (evenBound configId mboxLen)

def pseudoPlace (configId mboxLen : Nat) : Nat :=
  dataPlace + mboxLen + evenBound configId mboxLen

/-- Up to the pseudo header, with no checksum. -/
def filled (configId mboxLen : Nat) (data : Nat → Octet) : Nat → Octet :=
  put
    (put
      (put
        (exchange
          (put (store data requestReplyPlace [udpmgmtReply]) udpLenPlace
            (swap (udpLength configId mboxLen)))
          udpSportPlace udpDportPlace 2)
        (pseudoPlace configId mboxLen) 0x1100)
      (pseudoPlace configId mboxLen + 2) (swap (udpLength configId mboxLen)))
    udpSumPlace 0

def summed (configId mboxLen : Nat) (data : Nat → Octet) : Nat → Octet :=
  put data udpSumPlace
    (wanCalcChecksum data udpOffset ((udpLength configId mboxLen).toNat + udpOffset))

/-- The fields of the IP header, with no checksum. -/
def headed (configId mboxLen : Nat) (data : Nat → Octet) : Nat → Octet :=
  put
    (exchange (put data ipLenPlace (swap (replyLength configId mboxLen))) ipSrcPlace ipDstPlace 4)
    ipSumPlace 0

def wanReplyUdp (configId mboxLen : Nat) (data : Nat → Octet) : (Nat → Octet) × Nat :=
  (put (headed configId mboxLen (summed configId mboxLen (filled configId mboxLen data))) ipSumPlace
    (wanCalcChecksum
      (headed configId mboxLen (summed configId mboxLen (filled configId mboxLen data))) 0 ipSize),
    (replyLength configId mboxLen).toNat)

end Reply

section Property

/-- A number of two octets on the network. -/
def netOctets (number : Nat) : List Octet :=
  [BitVec.ofNat 8 (number / 256), BitVec.ofNat 8 (number % 256)]

/-- The pseudo header of a packet: its addresses, its protocol and its UDP length. -/
def pseudoHeader (data : Nat → Octet) : List Octet :=
  load data ipSrcPlace 8 ++ [0, data ipProtocolPlace] ++ load data udpLenPlace 2

/-- The first `len` octets of `reply` are a datagram that answers the one in `data`. -/
structure Answers (mboxLen : Nat) (data reply : Nat → Octet) (len : Nat) : Prop where
  ipLen : load reply ipLenPlace 2 = netOctets len
  udpLen : ipSize + udpSize ≤ len ∧ load reply udpLenPlace 2 = netOctets (len - ipSize)
  ipSum : Verifies (load reply 0 ipSize)
  udpSum : Verifies (pseudoHeader reply ++ load reply ipSize (len - ipSize))
  addresses : load reply ipSrcPlace 4 = load data ipDstPlace 4 ∧
    load reply ipDstPlace 4 = load data ipSrcPlace 4
  ports : load reply udpSportPlace 2 = load data udpDportPlace 2 ∧
    load reply udpDportPlace 2 = load data udpSportPlace 2
  kept : load reply dataPlace mboxLen = load data dataPlace mboxLen
  traceKept : load reply tracePlace traceSize = load data tracePlace traceSize

/-- A request that `wan_udp_pkt_type` takes, with a length that fits the packet. -/
structure Request where
  udpPort : BitVec 16
  data : Nat → Octet
  accepted : wanUdpPktType udpPort data = 0
  mboxLen : Nat
  fits : mboxLen ≤ wanMaxDataSize

end Property

end Wanpipe.Utils.UdpReply
