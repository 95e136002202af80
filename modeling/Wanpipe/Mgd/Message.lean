import Wanpipe.Mgd.NextPair
import Wanpipe.Store

/-! The messages of a client of `sangoma_mgd`, as they are read from its socket. An access outside of
the buffer, or behind the body of the message structure, faults. -/

namespace Wanpipe.Mgd.Message

open Line CString Store
open NextPair (cr lf space)

def colon : Octet := 0x3A

def woomeraStrlen : Nat := 256

def woomeraArrayLen : Nat := 50

def woomeraBodylen : Nat := 2048

def bufSize : Nat := 2048

def woomeraLineSeperator : List Octet := [cr, lf]

def woomeraRecordSeperator : List Octet := [cr, lf, cr, lf]

/-- `content-type`. -/
def contentType : List Octet :=
  [0x63, 0x6F, 0x6E, 0x74, 0x65, 0x6E, 0x74, 0x2D, 0x74, 0x79, 0x70, 0x65]

/-- `content-length`. -/
def contentLength : List Octet :=
  [0x63, 0x6F, 0x6E, 0x74, 0x65, 0x6E, 0x74, 0x2D, 0x6C, 0x65, 0x6E, 0x67, 0x74, 0x68]

def toLower (octet : Octet) : Octet :=
  if 0x41 ≤ octet.toNat ∧ octet.toNat ≤ 0x5A then octet + 0x20 else octet

/-- `strcasecmp` finds no difference. -/
def sameCase (left right : List Octet) : Bool := decide (left.map toLower = right.map toLower)

def isSpace (octet : Octet) : Bool :=
  decide (octet.toNat = 0x20 ∨ 0x09 ≤ octet.toNat ∧ octet.toNat ≤ 0x0D)

def digit (octet : Octet) : Option Nat :=
  if 0x30 ≤ octet.toNat ∧ octet.toNat ≤ 0x39 then some (octet.toNat - 0x30) else none

def digitsValue : Nat → List Octet → Nat
  | value, [] => value
  | value, octet :: rest =>
      match digit octet with
      | some number => digitsValue (10 * value + number) rest
      | none => value

/-- `atoi`: a long of 64 bits, which is not exceeded, cut to an int. -/
def atoi (text : List Octet) : Int :=
  let start := text.dropWhile isSpace
  let minus := decide (start.head? = some (0x2D : Octet))
  let plus := decide (start.head? = some (0x2B : Octet))
  let value : Int := digitsValue 0 (if minus || plus then start.tail else start)
  let long :=
    if minus then if value < 9223372036854775808 then -value else -9223372036854775808
    else if value < 9223372036854775808 then value else 9223372036854775807
  long.bmod 4294967296

/-- The stream of a client: what has arrived and was not read, and what is yet to come. -/
structure Socket where
  arrived : List Octet
  coming : List Octet
  deriving DecidableEq

def Socket.arrive (socket : Socket) (count : Nat) : Socket :=
  ⟨socket.arrived ++ socket.coming.take count, socket.coming.drop count⟩

def Socket.read (socket : Socket) (count : Nat) : List Octet × Socket :=
  (socket.arrived.take count, { socket with arrived := socket.arrived.drop count })

/-- What `waitfor_socket` and `recv` find: nothing yet, an error, or what there is to read, which is
nothing if the client is gone. -/
inductive Poll
  | quiet
  | failed
  | readable
  deriving DecidableEq

/-- What a turn of the loop finds: how many octets more, how long the call has lasted, and the flags
of the daemon and of the session. -/
structure Round where
  arrives : Nat
  poll : Poll
  elapsed : Int
  masterRunning : Bool
  running : Bool
  mediaEnd : Bool
  hangup : Bool
  event : Bool

/-- `struct woomera_message`: the strings in `callid`, `command` and `command_args`, and the octets of
`names`, `values` and `body`, which stand one after the other; `present` and `content` are the flags
`MFLAG_EXISTS` and `MFLAG_CONTENT`. -/
structure WoomeraMessage where
  callid : List Octet
  command : List Octet
  commandArgs : List Octet
  rows : Nat → Octet
  present : Bool
  content : Bool
  last : Nat

def emptyMessage : WoomeraMessage := ⟨[], [], [], fun _ => 0, false, false, 0⟩

def namePlace (index : Nat) : Nat := index * woomeraArrayLen

def valuePlace (index : Nat) : Nat := woomeraStrlen * woomeraArrayLen + index * woomeraArrayLen

def bodyPlace : Nat := 2 * (woomeraStrlen * woomeraArrayLen)

def rowsSize : Nat := bodyPlace + woomeraBodylen

/-- The string at a place of the rows, as far as these go. -/
def textAt (rows : Nat → Octet) (place : Nat) : List Octet :=
  string (load rows place (rowsSize - place))

def woomeraMessageHeaderFrom (rows : Nat → Octet) (key : List Octet) :
    Nat → Nat → Option (List Octet)
  | 0, _ => none
  | count + 1, x =>
      if sameCase (textAt rows (namePlace x)) key then some (textAt rows (valuePlace x))
      else woomeraMessageHeaderFrom rows key count (x + 1)

def woomeraMessageHeader (wmsg : WoomeraMessage) (key : List Octet) : Option (List Octet) :=
  woomeraMessageHeaderFrom wmsg.rows key wmsg.last 0

/-- The buffer of the call, cleared, with octets at its start. -/
def filled (octets : List Octet) : List Octet :=
  octets ++ List.replicate (bufSize - octets.length) 0

/-- `recv` with `MSG_PEEK`. -/
def peek (buf arrived : List Octet) : List Octet :=
  let seen := arrived.take bufSize
  seen ++ buf.drop seen.length

/-- The end of the head in the buffer, if it is there. -/
def findRecord (buf : List Octet) : Option (Option Nat) :=
  match strstr woomeraRecordSeperator (string buf) with
  | some eor => some (some eor)
  | none => if (string buf).length = buf.length then none else some none

/-- The variables of the loop that waits for a head. -/
structure Peeking where
  buf : List Octet
  sanity : Nat
  loops : Nat
  packet : Nat

inductive Turn
  | goes (socket : Socket) (peeking : Peeking)
  | returns (socket : Socket) (res : Int)

/-- There is nothing to read. -/
def idle (round : Round) (socket : Socket) (peeking : Peeking) : Turn :=
  if !round.masterRunning || round.mediaEnd || round.hangup then .returns socket (-1)
  else .goes socket { peeking with sanity := peeking.sanity + 1 }

/-- There is something to read. -/
def ready (timeout : Int) (failto : Bool) (round : Round) (socket : Socket) (peeking : Peeking) :
    Turn :=
  if 0 < peeking.packet ∧ 150 < peeking.loops then .returns socket (-1)
  else if 0 < timeout ∧ timeout < round.elapsed then .returns socket (if failto then -1 else 0)
  else if round.event then .returns socket 0
  else if !round.masterRunning || !round.running then .returns socket (-1)
  else .goes socket { peeking with loops := peeking.loops + 1 }

/-- A turn of the loop that waits for a head. -/
def turn (timeout : Int) (failto : Bool) (round : Round) (before : Socket) (peeking : Peeking) :
    Turn :=
  let socket := before.arrive round.arrives
  if 1000 < peeking.sanity then .returns before (-1)
  else
    match round.poll with
    | .quiet => idle round socket peeking
    | .failed =>
        if peeking.buf.take 2 = woomeraLineSeperator then .returns (socket.read 2).2 0
        else .returns socket (-1)
    | .readable =>
        let res := (socket.arrived.take bufSize).length
        let packet := if 1 < res then peeking.packet + 1 else peeking.packet
        let seen := { peeking with buf := peek peeking.buf socket.arrived, packet := packet }
        if seen.buf.take 2 = woomeraLineSeperator then .returns (socket.read 2).2 0
        else if res = 0 then idle round socket seen
        else ready timeout failto round socket seen

/-- What comes of the loop: the end of the head, a result, or nothing yet in these turns. -/
inductive Awaited
  | found (socket : Socket) (eor : Nat)
  | returns (socket : Socket) (res : Int)
  | waits
  | faults

def awaitHead (timeout : Int) (failto : Bool) : List Round → Socket → Peeking → Awaited
  | [], socket, peeking =>
      match findRecord peeking.buf with
      | none => .faults
      | some (some eor) => .found socket eor
      | some none => .waits
  | round :: rounds, socket, peeking =>
      match findRecord peeking.buf with
      | none => .faults
      | some (some eor) => .found socket eor
      | some none =>
          match turn timeout failto round socket peeking with
          | .returns socket res => .returns socket res
          | .goes socket peeking => awaitHead timeout failto rounds socket peeking

/-- The variables of the loop over the lines. -/
structure Reading where
  wmsg : WoomeraMessage
  bytes : Int

/-- `strncpy` into one of the strings that hold `WOOMERA_STRLEN` octets, which are clear. -/
def strncpy (text : List Octet) : List Octet := text.take (woomeraStrlen - 1)

/-- `strncpy` of `WOOMERA_STRLEN` octets to a place of the rows. -/
def strncpyRow (rows : Nat → Octet) (place : Nat) (text : List Octet) : Option (Nat → Octet) :=
  if place + woomeraStrlen ≤ rowsSize then
    some (store rows place ((text ++ List.replicate woomeraStrlen 0).take woomeraStrlen))
  else none

def commandLine (cmd : List Octet) (wmsg : WoomeraMessage) : WoomeraMessage :=
  let found := { wmsg with present := true }
  match strchr space cmd with
  | none => { found with command := strncpy cmd }
  | some (cmd, id) =>
      match strchr space id with
      | none => { found with callid := strncpy id, command := strncpy cmd }
      | some (id, args) =>
          { found with
            commandArgs := strncpy args, callid := strncpy id, command := strncpy cmd }

/-- A header tells how long the body is. -/
def contentHeader (key name val : List Octet) (reading : Reading) : Reading :=
  if sameCase name key then
    { wmsg := { reading.wmsg with content := true }, bytes := atoi val }
  else reading

def headerLine (line : List Octet) (reading : Reading) : Option Reading :=
  let index := reading.wmsg.last - 1
  match strchr colon line with
  | none =>
      (strncpyRow reading.wmsg.rows (namePlace index) line).map fun rows =>
        { reading with wmsg := { reading.wmsg with rows := rows } }
  | some (name, behind) =>
      let val := behind.dropWhile fun octet => decide (octet = space)
      (strncpyRow reading.wmsg.rows (valuePlace index) val).bind fun rows =>
        (strncpyRow rows (namePlace index) name).map fun rows =>
          let named := { reading with wmsg := { reading.wmsg with rows := rows } }
          contentHeader contentLength name val (contentHeader contentType name val named)

def counted (reading : Reading) : Reading :=
  { reading with wmsg := { reading.wmsg with last := reading.wmsg.last + 1 } }

def readLine (line : List Octet) (reading : Reading) : Option Reading :=
  if reading.wmsg.last = 0 then
    some (counted { reading with wmsg := commandLine line reading.wmsg })
  else (headerLine line reading).map counted

/-- The loop over the lines of a head. A last line without a separator is taken again and again, and
the rows overrun. -/
def readLines : Nat → List Octet → Reading → Option Reading
  | 0, _, _ => none
  | rounds + 1, cur, reading =>
      match strstr woomeraLineSeperator cur with
      | some stop =>
          let next := cur.drop (stop + 2)
          if next = woomeraRecordSeperator then some reading
          else if cur.take stop = [] then some reading
          else (readLine (cur.take stop) reading).bind fun reading => readLines rounds next reading
      | none => if cur = [] then some reading else none

/-- How many octets of the body are asked for; a negative number counts as a large one. -/
def bodyCount (bytes : Int) : Nat :=
  if bytes < 0 ∨ woomeraBodylen < bytes then woomeraBodylen else bytes.toNat

/-- What a call gives: the stream it leaves, its result and the message, or nothing yet. -/
inductive Outcome
  | returns (socket : Socket) (res : Int) (wmsg : WoomeraMessage)
  | waits
  | faults

/-- The one read for a body. `arrives` octets come before it. -/
def readBody (socket : Socket) (reading : Reading) (arrives : Nat) : Socket × WoomeraMessage :=
  let wmsg := { reading.wmsg with last := reading.wmsg.last - 1 }
  if !decide (reading.bytes = 0) && wmsg.content then
    let read := (socket.arrive arrives).read (bodyCount reading.bytes)
    (read.2, { wmsg with rows := store wmsg.rows bodyPlace read.1 })
  else (socket, wmsg)

/-- The end of a call that has found a head. -/
def readMessage (socket : Socket) (eor arrives : Nat) : Outcome :=
  let read := socket.read (eor + 4)
  let text := string (filled read.1)
  if text.length = bufSize then .faults
  else
    match readLines bufSize text ⟨emptyMessage, eor + 4⟩ with
    | none => .faults
    | some reading =>
        let out := readBody read.2 reading arrives
        .returns out.1 (if out.2.present then 1 else 0) out.2

/-- What a call meets: the flags of the session when it starts, the turns of its loop, and how many
octets come between its reads of the head and of the body. -/
structure Call where
  socketOpen : Bool
  mediaEnd : Bool
  hangup : Bool
  rounds : List Round
  bodyArrives : Nat

/-- `WOOMERA_HARD_TIMEOUT`, with which a session calls. -/
def woomeraHardTimeout : Int := 0

def woomeraMessageParse (socket : Socket) (timeout : Int) (call : Call) : Outcome :=
  if !call.socketOpen || call.mediaEnd || call.hangup then .returns socket (-1) emptyMessage
  else
    let failto := decide (timeout < 0)
    let limit := if timeout < 0 then -timeout else if timeout = 0 then -1 else timeout
    match awaitHead limit failto call.rounds socket ⟨filled [], 0, 0, 0⟩ with
    | .found socket eor => readMessage socket eor call.bodyArrives
    | .returns socket res => .returns socket res emptyMessage
    | .waits => .waits
    | .faults => .faults

end Wanpipe.Mgd.Message
