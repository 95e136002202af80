import Wanpipe.Syncppp.Link
import Wanpipe.Syncppp.Md5

/-! The frames and the timers of a synchronous PPP link. -/

namespace Wanpipe.Syncppp

open Line Words

def pppAllstations : Octet := 0xFF#8

def pppUi : Octet := 0x03#8

/-- A `long` that is read from memory. -/
def longOf (mem : List Octet) : BitVec 64 := BitVec.ofNat 64 (wordValue (mem.take 8))

/-- A request with an address is refused. -/
def ipcpRefuse (config : Config) (ident : Octet) (data : List Octet) (before : Sppp) : Sppp :=
  let failures := before.dynamicFailures + 1
  if 10 < failures then
    let sp := { before with dynamicFailures := 0 }
    setTimeout (ipcpState .closed (cpSend pppIpcp termReq ident [] sp))
  else
    let sp := cpSend pppIpcp confRej ident data { before with dynamicFailures := failures }
    match sp.ipcp.state with
    | .opened => ipcpState .closed (ipcpOpen config sp)
    | .ackSent => ipcpState .closed sp
    | .closed => sp
    | .ackRcvd => sp

/-- `mem` is what stands behind the header of the frame. -/
def ipcpConfReq (config : Config) (around : Around) (ident : Octet) (len : Nat) (mem : List Octet)
    (sp : Sppp) : Sppp :=
  let data := mem.take (len - 4)
  let addr := longOf (mem.drop 2)
  if len < 4 then sp
  else if len = 4 then
    let state := if sp.ipcp.state = .ackRcvd then .opened else .ackSent
    ipcpState state (cpSend pppIpcp confAck ident [] sp)
  else if config.dynamicIp then
    clearTimeout (cpSend pppIpcp confAck ident data { sp with remoteIp := addr })
  else if around.pointopoint.setWidth 64 = addr then
    clearTimeout (cpSend pppIpcp confAck ident data sp)
  else
    ipcpRefuse config ident data
      { sp with
        localIp := around.localAddr.setWidth 64, remoteIp := around.pointopoint.setWidth 64 }

def ipcpConfAck (ident : Octet) (before : Sppp) : Sppp :=
  if ident ≠ before.ipcp.confid then before
  else
    let sp := clearTimeout before
    match sp.ipcp.state with
    | .closed => setTimeout (ipcpState .ackRcvd sp)
    | .ackSent => ipcpState .opened sp
    | .ackRcvd => sp
    | .opened => sp

def ipcpConfRej (config : Config) (ident : Octet) (before : Sppp) : Sppp :=
  if ident ≠ before.ipcp.confid then before
  else
    let sp := ipcpOpen config (clearTimeout before)
    if sp.ipcp.state = .ackSent then sp else ipcpState .closed sp

/-- An address is proposed. Where the frame says that it is shorter than its header, the copy of the
options leaves it. -/
def ipcpConfNak (config : Config) (around : Around) (ident : Octet) (len : Nat) (mem : List Octet)
    (sp : Sppp) : Option Sppp :=
  let data := mem.take (len - 4)
  let addr := longOf (mem.drop 2)
  if ident ≠ sp.ipcp.confid then some sp
  else if (mem.getD 1 0#8).toNat < 6 then some (ipcpConfRej config ident sp)
  else if len < 4 then none
  else if config.dynamicIp then
    some (ipcpState .ackSent (cpSend pppIpcp confReq ident data { sp with localIp := addr }))
  else if around.localAddr.setWidth 64 = addr then
    some (ipcpState .ackSent (cpSend pppIpcp confReq ident data sp))
  else some (ipcpConfRej config ident (cpSend pppIpcp confRej ident data sp))

def ipcpTermReq (config : Config) (ident : Octet) (sp : Sppp) : Sppp :=
  ipcpOpen config (ipcpState .closed (cpSend pppIpcp termAck ident [] sp))

def ipcpInput (config : Config) (around : Around) (body : List Octet) (sp : Sppp) : Option Sppp :=
  if body.length < 4 then some sp
  else
    let h := header body
    let len := if h.len < body.length then h.len else body.length
    let mem := body.drop 4 ++ around.behind
    if h.kind = confReq then some (ipcpConfReq config around h.ident len mem sp)
    else if h.kind = confAck then some (ipcpConfAck h.ident sp)
    else if h.kind = confNak then ipcpConfNak config around h.ident len mem sp
    else if h.kind = confRej then some (ipcpConfRej config h.ident sp)
    else if h.kind = termReq then some (ipcpTermReq config h.ident sp)
    else if h.kind = termAck ∨ h.kind = codeRej then some sp
    else
      let sp := nextSeq sp
      some (cpSend pppIpcp codeRej (ident sp) (body.take len) sp)

/-- The peer has accepted the authentication. -/
def authenticated (config : Config) (sp : Sppp) : Sppp := ipcpOpen config (lcpState .opened sp)

def papInput (config : Config) (body : List Octet) (sp : Sppp) : Sppp :=
  if body.getD 0 0#8 = papAck then authenticated config sp else sp

/-- The digest that answers a challenge. What stands in the context before is the stack's. -/
def chapDigest (config : Config) (ident : Octet) (value : List Octet) : List Octet :=
  wpMd5Final ([[ident], config.secret, value].foldl wpMd5Update
    (wpMd5Init ⟨md5Initial, 0#32, 0#32, zeros 64⟩))

theorem chapDigest_md5 (config : Config) (ident : Octet) (value : List Octet)
    (secret : config.secret.length < 4294967296) (short : value.length < 4294967296) :
    chapDigest config ident value = md5 (ident :: config.secret ++ value) := by
  have full : (zeros 64).length = 64 := List.length_replicate
  have start := @wpMd5Init_taken ⟨md5Initial, 0#32, 0#32, zeros 64⟩ full
  have taken := start.pieces [[ident], config.secret, value] (by simp [secret, short])
  rw [List.nil_append] at taken
  rw [chapDigest, wpMd5Final_taken taken]
  simp only [List.flatten_cons, List.flatten_nil, List.append_nil, List.cons_append, List.nil_append]

/-- The answer to a challenge. -/
def chapAnswer (config : Config) (around : Around) (ident : Octet) (value : List Octet) (sp : Sppp) :
    Sppp :=
  authSend around pppChap chapResponse ident
    [[16#8], chapDigest config ident value, config.name] sp

def chapInput (config : Config) (around : Around) (body : List Octet) (sp : Sppp) : Sppp :=
  if body.length < 4 then sp
  else
    let h := header body
    let len := if h.len < body.length then h.len else body.length
    let valueLen := ((body ++ around.behind).getD 4 0#8).toNat
    if h.kind = chapChallenge then
      if len < valueLen + 5 then sp
      else chapAnswer config around h.ident ((body.drop 5).take valueLen) sp
    else if h.kind = chapSuccess then authenticated config { sp with needAuth := false }
    else sp

/-- A frame of a protocol that is not known. -/
def unknownProtocol (octets : List Octet) (before : Sppp) : Sppp :=
  if before.lcp.state = .opened then
    let sp := nextSeq before
    cpSend pppLcp protoRej (ident sp) (octets.drop 2) sp
  else before

/-- `wp_sppp_input` of a link that is not in Cisco mode. -/
def wpSpppInput (config : Config) (around : Around) (octets : List Octet) (sp : Sppp) :
    Option Sppp :=
  let proto : BitVec 16 := octets.getD 2 0#8 ++ octets.getD 3 0#8
  let body := octets.drop 4
  if octets.length ≤ 4 then some sp
  else if octets.getD 0 0#8 ≠ pppAllstations ∨ octets.getD 1 0#8 ≠ pppUi then some sp
  else if proto = pppLcp then lcpInput config around body sp
  else if proto = pppIpcp then
    if sp.lcp.state = .opened then ipcpInput config around body sp else some sp
  else if proto = pppIp then some sp
  else if proto = pppPap then some (papInput config body sp)
  else if proto = pppChap then some (chapInput config around body sp)
  else some (unknownProtocol octets sp)

/-- `sppp_cp_timeout`. -/
def cpTimeout (config : Config) (around : Around) (before : Sppp) : Sppp :=
  let sp := clearTimeout before
  if around.up = false then sp
  else
    match sp.lcp.state with
    | .closed => lcpOpen config around sp
    | .ackRcvd => lcpState .closed (lcpOpen config around sp)
    | .ackSent => lcpOpen config around sp
    | .opened =>
        match sp.ipcp.state with
        | .closed => ipcpOpen config sp
        | .ackRcvd => ipcpState .closed (ipcpOpen config sp)
        | .ackSent => ipcpOpen config sp
        | .opened => sp

/-- No keepalive has come for too long. -/
def spppDown (config : Config) (around : Around) (sp : Sppp) : Sppp :=
  if sp.alivecnt.toNat = config.maxKeepaliveCount.toNat then
    let sp := { ifDown sp with lcp := { sp.lcp with magic := around.jiffies } }
    lcpOpen config around (clearTimeout (closed sp))
  else sp

def echo (before : Sppp) : Sppp :=
  let sp := nextSeq before
  cpSend pppLcp echoReq (ident sp) (longOctets sp.lcp.magic)
    { sp with lcp := { sp.lcp with echoid := ident sp } }

/-- `sppp_keepalive`, for a link that is not in Cisco mode. -/
def spppKeepalive (config : Config) (around : Around) (before : Sppp) : Sppp :=
  if config.keepalive = false ∨ around.up = false then before
  else if before.lcp.state ≠ .opened then before
  else
    let sp := spppDown config around before
    let sp :=
      if sp.alivecnt.toNat ≤ config.maxKeepaliveCount.toNat then
        { sp with alivecnt := sp.alivecnt + 1#16 }
      else sp
    if sp.lcp.state = .opened then echo sp else sp

def wpSpppClose (sp : Sppp) : Sppp := clearTimeout (closed (ifDown sp))

def wpSpppOpen (config : Config) (around : Around) (sp : Sppp) : Sppp :=
  ifDown (lcpOpen config around (wpSpppClose sp))

/-- The physical link was lost. -/
def wpSpppReopen (around : Around) (before : Sppp) : Sppp :=
  let sp := wpSpppClose before
  let sp := nextSeq { sp with lcp := { sp.lcp with magic := around.jiffies } }
  ifDown (setTimeout (closed sp))

/-- What `wp_sppp_attach` leaves in a cleared structure. -/
def attached : Sppp where
  alivecnt := 0#16
  loopcnt := 0#16
  lcp := ⟨.closed, 0#32, 0#8, 0#8⟩
  ipcp := ⟨.closed, 0#8⟩
  seq := 0#32
  papConfid := 0#8
  timo := false
  needAuth := false
  linkUp := false
  localIp := 0#64
  remoteIp := 0#64
  dynamicFailures := 0
  out := []

/-- What is called on a link. -/
inductive Call
  | input (octets : List Octet)
  | timeout
  | keepalive
  | open
  | close
  | reopen

/-- A call, which starts with nothing given to the device. A timer that is not set does not come. -/
def call (config : Config) (around : Around) (before : Sppp) : Call → Option Sppp
  | .input octets => wpSpppInput config around octets { before with out := [] }
  | .timeout =>
      let sp := { before with out := [] }
      some (if sp.timo then cpTimeout config around sp else sp)
  | .keepalive => some (spppKeepalive config around { before with out := [] })
  | .open => some (wpSpppOpen config around { before with out := [] })
  | .close => some (wpSpppClose { before with out := [] })
  | .reopen => some (wpSpppReopen around { before with out := [] })

/-- A link that asks for no address and knows no authentication. -/
def plainConfig : Config := ⟨true, 3#32, false, 0#16, [], []⟩

/-- A device that is up at a time. -/
def plainAround (jiffies : BitVec 32) : Around := ⟨true, jiffies, 1#32, 0#32, 0#32, true, []⟩

end Wanpipe.Syncppp
