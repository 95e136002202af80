import Mathlib.Data.BitVec
import Wanpipe.Line.Octets
import Wanpipe.Words

/-! A synchronous PPP link: its negotiation of LCP and IPCP. A copy that leaves the memory it is made
for faults. -/

namespace Wanpipe.Syncppp

open Line Words

def pppLcp : BitVec 16 := 0xC021#16

def pppIpcp : BitVec 16 := 0x8021#16

def pppIp : BitVec 16 := 0x0021#16

def pppPap : BitVec 16 := 0xC023#16

def pppChap : BitVec 16 := 0xC223#16

def confReq : Octet := 1#8

def confAck : Octet := 2#8

def confNak : Octet := 3#8

def confRej : Octet := 4#8

def termReq : Octet := 5#8

def termAck : Octet := 6#8

def codeRej : Octet := 7#8

def protoRej : Octet := 8#8

def echoReq : Octet := 9#8

def echoReply : Octet := 10#8

def discReq : Octet := 11#8

def optMru : Octet := 1#8

def optAsyncMap : Octet := 2#8

def optAuthProto : Octet := 3#8

def optMagic : Octet := 5#8

def papReq : Octet := 1#8

def papAck : Octet := 2#8

def chapChallenge : Octet := 1#8

def chapResponse : Octet := 2#8

def chapSuccess : Octet := 3#8

def chapMd5 : Octet := 5#8

/-- The states of LCP and of IPCP. -/
inductive CpState
  | closed
  | ackRcvd
  | ackSent
  | opened
  deriving DecidableEq, Repr

structure Slcp where
  state : CpState
  magic : BitVec 32
  echoid : Octet
  confid : Octet
  deriving DecidableEq, Repr

structure Sipcp where
  state : CpState
  confid : Octet
  deriving DecidableEq, Repr

/-- A frame of a control protocol. -/
structure Packet where
  proto : BitVec 16
  kind : Octet
  ident : Octet
  data : List Octet
  deriving DecidableEq, Repr

/-- `struct sppp`: `seq` is `pp_seq[IDX_LCP]`, `timo` and `needAuth` are the flags of these names,
`out` is what `sppp_cp_send` has been called for. -/
structure Sppp where
  alivecnt : BitVec 16
  loopcnt : BitVec 16
  lcp : Slcp
  ipcp : Sipcp
  seq : BitVec 32
  papConfid : Octet
  timo : Bool
  needAuth : Bool
  linkUp : Bool
  localIp : BitVec 64
  remoteIp : BitVec 64
  dynamicFailures : Int
  out : List Packet
  deriving DecidableEq, Repr

/-- How the interface is set up. -/
structure Config where
  keepalive : Bool
  maxKeepaliveCount : BitVec 32
  dynamicIp : Bool
  authProto : BitVec 16
  name : List Octet
  secret : List Octet

/-- What a call finds around it: the flag `IFF_UP`, the clock, a random number, the addresses of the
interface, whether `kmalloc` gives memory, and what stands behind a frame that has come. -/
structure Around where
  up : Bool
  jiffies : BitVec 32
  random : BitVec 32
  localAddr : BitVec 32
  pointopoint : BitVec 32
  room : Bool
  behind : List Octet

def setTimeout (sp : Sppp) : Sppp := { sp with timo := true }

def clearTimeout (sp : Sppp) : Sppp := { sp with timo := false }

def ifDown (sp : Sppp) : Sppp := { sp with linkUp := false }

def lcpState (state : CpState) (sp : Sppp) : Sppp := { sp with lcp := { sp.lcp with state := state } }

def ipcpState (state : CpState) (sp : Sppp) : Sppp :=
  { sp with ipcp := { sp.ipcp with state := state } }

/-- Both protocols go to the closed state. -/
def closed (sp : Sppp) : Sppp := ipcpState .closed (lcpState .closed sp)

def cpSend (proto : BitVec 16) (kind ident : Octet) (data : List Octet) (sp : Sppp) : Sppp :=
  { sp with out := sp.out ++ [⟨proto, kind, ident, data⟩] }

/-- A number of 32 bits as it stands on the line. -/
def longOctets (value : BitVec 32) : List Octet := (wordOctets 4 value.toNat).reverse

/-- The number in the first four octets. -/
def longAt (octets : List Octet) : BitVec 32 := BitVec.ofNat 32 (wordValue (octets.take 4).reverse)

def magicOption (magic : BitVec 32) : List Octet := optMagic :: 6#8 :: longOctets magic

/-- The number that goes with the next request. -/
def nextSeq (sp : Sppp) : Sppp := { sp with seq := sp.seq + 1#32 }

def ident (sp : Sppp) : Octet := sp.seq.setWidth 8

def lcpOpen (config : Config) (around : Around) (before : Sppp) : Sppp :=
  let sp := if config.dynamicIp then { before with localIp := 0#64, remoteIp := 0#64 } else before
  let magic := if sp.lcp.magic = 0#32 then around.jiffies else sp.lcp.magic
  let sp := nextSeq sp
  let sp := { sp with lcp := { sp.lcp with magic := magic, confid := ident sp } }
  setTimeout (cpSend pppLcp confReq sp.lcp.confid (magicOption magic) sp)

def ipcpOpen (config : Config) (before : Sppp) : Sppp :=
  let sp := nextSeq before
  let sp := { sp with ipcp := { sp.ipcp with confid := ident sp } }
  let data := if config.dynamicIp then [3#8, 6#8, 0#8, 0#8, 0#8, 0#8] else []
  setTimeout (cpSend pppIpcp confReq sp.ipcp.confid data sp)

/-- `sppp_auth_send`: the pieces up to the first empty one. -/
def authSend (around : Around) (proto : BitVec 16) (kind ident : Octet)
    (pieces : List (List Octet)) (sp : Sppp) : Sppp :=
  let data := (pieces.takeWhile fun piece => !piece.isEmpty).flatten
  if around.room && decide (data.length ≤ 256) then cpSend proto kind ident data sp else sp

def papScr (config : Config) (around : Around) (sp : Sppp) : Sppp :=
  authSend around pppPap papReq sp.papConfid
    [[BitVec.ofNat 8 config.name.length], config.name,
      [BitVec.ofNat 8 config.secret.length], config.secret] sp

/-- LCP has come up: the link authenticates itself first, if that is asked for. -/
def lcpUp (config : Config) (around : Around) (ident : Octet) (before : Sppp) : Sppp :=
  let sp := lcpState .opened before
  if sp.needAuth then papScr config around { sp with papConfid := ident }
  else ipcpOpen config sp

/-- What becomes of an option of a request. -/
inductive Verdict
  | agreed (magic : BitVec 32)
  | authenticate
  | rejected (needAuth : Bool)

/-- An authentication protocol is asked for. -/
def authOption (config : Config) (size : Nat) (mem : List Octet) : Verdict :=
  if size < 4 then .rejected false
  else if config.authProto = 0#16 then .rejected false
  else if config.authProto ≠ (mem.getD 2 0#8) ++ (mem.getD 3 0#8) then .rejected false
  else if config.authProto = pppPap then .authenticate
  else if config.authProto = pppChap ∧ mem.getD 4 0#8 = chapMd5 then .authenticate
  else .rejected true

def optionVerdict (config : Config) (len : Nat) (mem : List Octet) (magic : BitVec 32) : Verdict :=
  let kind := mem.getD 0 0#8
  let size := (mem.getD 1 0#8).toNat
  let body := mem.drop 2
  if kind = optMagic then
    if 6 ≤ len ∧ size = 6 then .agreed (longAt body) else .rejected false
  else if kind = optAsyncMap then
    if 6 ≤ len ∧ size = 6 ∧ body.take 4 = [0#8, 0#8, 0#8, 0#8] then .agreed magic
    else .rejected false
  else if kind = optMru then .agreed magic
  else if kind = optAuthProto then authOption config size mem
  else .rejected false

/-- What `sppp_lcp_conf_parse_options` finds out. -/
structure Options where
  fine : Bool
  magic : BitVec 32
  needAuth : Bool
  rejected : List Octet

/-- The loop over the options, with `size` octets for the rejected ones. -/
def parseOptions (config : Config) (size : Nat) :
    Nat → Nat → List Octet → Options → Option Options
  | 0, _, _, options => some options
  | rounds + 1, len, mem, options =>
      let step := (mem.getD 1 0#8).toNat
      if len ≤ 1 ∨ step = 0 then some options
      else
        match optionVerdict config len mem options.magic with
        | .agreed magic =>
            parseOptions config size rounds (len - step) (mem.drop step)
              { options with magic := magic }
        | .authenticate => some { options with fine := true, needAuth := true, rejected := [] }
        | .rejected needAuth =>
            if size < options.rejected.length + step then none
            else
              parseOptions config size rounds (len - step) (mem.drop step)
                { options with
                  fine := false
                  needAuth := options.needAuth || needAuth
                  rejected := options.rejected ++ mem.take step }

def lcpConfParseOptions (config : Config) (around : Around) (len : Nat) (mem : List Octet) :
    Option Options :=
  if around.room then parseOptions config len len len mem ⟨true, 0#32, false, []⟩
  else some ⟨false, 0#32, false, []⟩

/-- The head of a control frame: what it is, its number, and how many octets it says it has. -/
structure LcpHeader where
  kind : Octet
  ident : Octet
  len : Nat

def header (body : List Octet) : LcpHeader :=
  ⟨body.getD 0 0#8, body.getD 1 0#8, 256 * (body.getD 2 0#8).toNat + (body.getD 3 0#8).toNat⟩

/-- A request that is not acknowledged. -/
def badReq (config : Config) (around : Around) (sp : Sppp) : Sppp :=
  match sp.lcp.state with
  | .opened => closed (lcpOpen config around sp)
  | .ackSent => closed sp
  | .closed => sp
  | .ackRcvd => sp

/-- The peer has the same magic number. -/
def sameMagic (config : Config) (around : Around) (ident : Octet) (sp : Sppp) : Sppp :=
  let sp :=
    if 5 * config.maxKeepaliveCount.toNat ≤ sp.loopcnt.toNat then
      { sp with loopcnt := 0#16, linkUp := sp.linkUp && !around.up }
    else sp
  let sp := { sp with loopcnt := sp.loopcnt + 1#16 }
  cpSend pppLcp confNak ident (magicOption (~~~sp.lcp.magic)) sp

/-- A request is acknowledged with its own options. -/
def ackReq (config : Config) (around : Around) (ident : Octet) (data : List Octet) (sp : Sppp) :
    Sppp :=
  match sp.lcp.state with
  | .closed => lcpState .ackSent (cpSend pppLcp confAck ident data sp)
  | .ackRcvd => lcpUp config around ident (cpSend pppLcp confAck ident data sp)
  | .ackSent => cpSend pppLcp confAck ident data sp
  | .opened =>
      lcpState .ackSent (cpSend pppLcp confAck ident data (lcpOpen config around (closed sp)))

def lcpConfReq (config : Config) (around : Around) (ident : Octet) (len : Nat) (mem : List Octet)
    (before : Sppp) : Option Sppp :=
  if len < 4 then some before
  else
    (lcpConfParseOptions config around (len - 4) mem).map fun options =>
      let sp := { before with needAuth := before.needAuth || options.needAuth }
      let sp :=
        if options.rejected.isEmpty then sp
        else cpSend pppLcp confRej ident options.rejected sp
      if 4 < len ∧ options.fine = false then badReq config around sp
      else if options.magic = sp.lcp.magic then badReq config around (sameMagic config around ident sp)
      else ackReq config around ident (mem.take (len - 4)) { sp with loopcnt := 0#16 }

def lcpConfAck (config : Config) (around : Around) (ident : Octet) (before : Sppp) : Sppp :=
  if ident ≠ before.lcp.confid then before
  else
    let sp := clearTimeout before
    let sp := { sp with linkUp := sp.linkUp || around.up }
    match sp.lcp.state with
    | .closed => setTimeout (lcpState .ackRcvd sp)
    | .ackSent => lcpUp config around ident sp
    | .ackRcvd => sp
    | .opened => sp

/-- The magic number after a negative acknowledgement. -/
def nakMagic (around : Around) (len : Nat) (mem : List Octet) (magic : BitVec 32) : BitVec 32 :=
  if 10 ≤ len ∧ mem.getD 0 0#8 = optMagic ∧ 4 ≤ (mem.getD 1 0#8).toNat then
    if longAt (mem.drop 2) = ~~~magic then magic + around.random else longAt (mem.drop 2)
  else magic

/-- The states after a request was refused. -/
def refused (sp : Sppp) : Sppp := if sp.lcp.state = .ackSent then sp else closed sp

def lcpConfNak (around : Around) (ident : Octet) (len : Nat) (mem : List Octet) (sp : Sppp) : Sppp :=
  if ident ≠ sp.lcp.confid then sp
  else
    let magic := nakMagic around len mem sp.lcp.magic
    setTimeout (clearTimeout (refused { sp with lcp := { sp.lcp with magic := magic } }))

def lcpConfRej (config : Config) (around : Around) (ident : Octet) (sp : Sppp) : Sppp :=
  if ident ≠ sp.lcp.confid then sp else refused (lcpOpen config around (clearTimeout sp))

def lcpTermReq (config : Config) (around : Around) (ident : Octet) (sp : Sppp) : Sppp :=
  lcpOpen config around
    (ifDown (closed (cpSend pppLcp termAck ident [] (clearTimeout sp))))

/-- The answer to an echo: the magic number is put in as a number of 64 bits. -/
def echoData (magic : BitVec 32) (data : List Octet) : List Octet :=
  (longOctets magic ++ [0#8, 0#8, 0#8, 0#8] ++ data.drop 8).take data.length

def lcpEchoReq (config : Config) (around : Around) (ident : Octet) (len : Nat) (mem : List Octet)
    (sp : Sppp) : Sppp :=
  if sp.lcp.state ≠ .opened then sp
  else if len < 8 then sp
  else if longAt mem = sp.lcp.magic then
    lcpOpen config around (clearTimeout (closed (ifDown sp)))
  else cpSend pppLcp echoReply ident (echoData sp.lcp.magic (mem.take (len - 4))) sp

def lcpEchoReply (ident : Octet) (len : Nat) (mem : List Octet) (sp : Sppp) : Sppp :=
  if ident ≠ sp.lcp.echoid then sp
  else if len < 8 then sp
  else if longAt mem ≠ sp.lcp.magic then { sp with alivecnt := 0#16 }
  else sp

/-- `skb->len` after the pull of the size of a pointer. -/
def pulled (len : Nat) : Nat := if 8 ≤ len then len - 8 else len

def lcpInput (config : Config) (around : Around) (body : List Octet) (sp : Sppp) : Option Sppp :=
  if body.length < 4 then some sp
  else
    let h := header body
    let len := if h.len < body.length then h.len else body.length
    let mem := body.drop 4 ++ around.behind
    if h.kind = confReq then lcpConfReq config around h.ident len mem sp
    else if h.kind = confAck then some (lcpConfAck config around h.ident sp)
    else if h.kind = confNak then some (lcpConfNak around h.ident len mem sp)
    else if h.kind = confRej then some (lcpConfRej config around h.ident sp)
    else if h.kind = termReq then some (lcpTermReq config around h.ident sp)
    else if h.kind = termAck ∨ h.kind = codeRej ∨ h.kind = protoRej ∨ h.kind = discReq then some sp
    else if h.kind = echoReq then some (lcpEchoReq config around h.ident len mem sp)
    else if h.kind = echoReply then some (lcpEchoReply h.ident len mem sp)
    else
      let sp := nextSeq sp
      some (cpSend pppLcp codeRej (ident sp) (body.take (pulled body.length)) sp)

end Wanpipe.Syncppp
