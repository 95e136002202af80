import Mathlib.Data.List.Basic
import Wanpipe.Line.Octets
import Wanpipe.Store
import Wanpipe.Words

/-! The log of the debug card. Its memory holds an info record, and behind it the messages, each with
a header. A read passes whole messages on until one does not fit. -/

namespace Wanpipe.Utils.DebugLog

open Line Store Words

def routerMagic : Nat := 0x524D4157

/-- `sizeof(wanpipe_kernel_msg_info_t)`, two longs. -/
def infoSize : Nat := 16

/-- `sizeof(wanpipe_kernel_msg_hdr_t)`, an int and, on the next boundary, the time. -/
def hdrSize : Nat := 16

/-- `hwcpu->memory` of the debug card. -/
def memorySize : Nat := 256 * 1024

/-- A value in an `unsigned long`. -/
def ulong (value : Int) : Nat := (value % 0x10000000000000000).toNat

section Message

/-- The octets of a header behind its length. -/
abbrev Stamp := {octets : List Octet // octets.length = 12}

structure Message where
  text : List Octet
  stamp : Stamp

/-- `strlen` in an int. -/
def msgLen (text : List Octet) : BitVec 32 := BitVec.ofNat 32 text.length

def hdrOctets (message : Message) : List Octet :=
  wordOctets 4 (msgLen message.text).toNat ++ message.stamp.val

def Message.octets (message : Message) : List Octet := hdrOctets message ++ message.text

end Message

section Memory

structure Info where
  magic : Nat
  totalLen : Nat

def infoOctets (info : Info) : List Octet := wordOctets 8 info.magic ++ wordOctets 8 info.totalLen

def infoOf (octets : List Octet) : Info where
  magic := wordValue (octets.take 8)
  totalLen := wordValue (octets.drop 8)

/-- The card and its `u.debug`. An access that is not inside of the memory is `refused`. -/
structure Log where
  memory : Nat → Octet
  refused : Bool
  currentOffset : Nat
  totalLen : Nat
  totalNum : Nat
  reading : Bool
  full : Bool
  trigger : Bool

def poke (log : Log) (addr : Nat) (octets : List Octet) : Log :=
  if memorySize < addr + octets.length then { log with refused := true }
  else { log with memory := store log.memory addr octets }

def info (log : Log) : Info := infoOf (load log.memory 0 infoSize)

end Memory

section Write

/-- Nothing is stored, or nothing that this driver has stored. -/
def empty (log : Log) : Bool := (info log).magic ≠ routerMagic || log.totalLen = 0

def emptied (log : Log) : Log :=
  { poke log 0 (infoOctets ⟨routerMagic, 0⟩) with
    totalLen := 0, totalNum := 0, currentOffset := infoSize }

def storedLen (log : Log) : Nat := if empty log then 0 else (info log).totalLen

/-- The header is not counted. -/
def overLimit (log : Log) (text : List Octet) : Bool :=
  memorySize < ulong (storedLen log + infoSize + (msgLen text).toInt)

def pokeHdr (log : Log) (message : Message) : Log :=
  { poke log (log.totalLen + infoSize) (hdrOctets message) with
    totalLen := log.totalLen + hdrSize }

def pokeText (log : Log) (text : List Octet) : Log :=
  { poke log (log.totalLen + infoSize) (text.take (msgLen text).toNat) with
    totalLen := ulong (log.totalLen + (msgLen text).toInt), totalNum := log.totalNum + 1 }

def pokeInfo (log : Log) : Log := poke log 0 (infoOctets ⟨routerMagic, log.totalLen⟩)

/-- No early return. -/
def tries (log : Log) (text : List Octet) : Bool :=
  log.trigger && !(log.reading || log.full) && msgLen text ≠ 0

def accepts (log : Log) (text : List Octet) : Bool := tries log text && !overLimit log text

def begun (log : Log) : Log := if empty log then emptied log else log

def wanDebugWrite (log : Log) (message : Message) : Log :=
  if tries log message.text then
    if overLimit log message.text then { begun log with full := true }
    else pokeInfo (pokeText (pokeHdr (begun log) message) message.text)
  else log

end Write

section Read

inductive Errno
  | fault
  | invalid
  | noMemory

/-- A request as `debug_read` prepares it, with `is_more` not set, and what becomes of it: `early` is
the error before the log is read (the request cannot be copied, has no magic, or there is no memory
for it). An area of the user that cannot be written stays so. -/
structure Request where
  maxLen : Nat
  early : Option Errno
  dataFault : Bool
  replyFault : Bool

structure Reply where
  err : Option Errno
  data : List Octet
  num : Nat
  isMore : Bool

/-- The variables of the loop, `buffer` is the allocated one. -/
structure Reader where
  nextOffset : Nat
  offset : Nat
  buffer : Nat → Octet
  num : Nat
  refused : Bool

def peek (log : Log) (reader : Reader) (addr place len : Nat) : Reader :=
  if memorySize < addr + len then { reader with refused := true }
  else { reader with buffer := store reader.buffer place (load log.memory addr len) }

def peekHdr (log : Log) (reader : Reader) : Reader :=
  peek log reader reader.nextOffset reader.offset hdrSize

/-- `wan_dbg->len`. -/
def dbgLen (reader : Reader) : BitVec 32 :=
  BitVec.ofNat 32 (wordValue (load reader.buffer reader.offset 4))

def fits (reader : Reader) (maxLen : Nat) : Bool :=
  ulong (reader.offset + hdrSize + (dbgLen reader).toInt) < maxLen

def takeMessage (log : Log) (reader : Reader) : Reader :=
  { peek log reader (reader.nextOffset + hdrSize) (reader.offset + hdrSize)
      (dbgLen reader).toNat with
    nextOffset := ulong (reader.nextOffset + hdrSize + (dbgLen reader).toInt)
    offset := ulong (reader.offset + hdrSize + (dbgLen reader).toInt)
    num := reader.num + 1 }

/-- The loop. A header that is read to outside of the allocated buffer leaves no result. A round that
does not end it takes a header at least, as no length is negative. -/
def readLoop (log : Log) (totalLen maxLen : Nat) : Nat → Reader → Option Reader
  | 0, _ => none
  | rounds + 1, reader =>
      if maxLen < reader.offset + hdrSize then none
      else if fits (peekHdr log reader) maxLen then
        if totalLen ≤ (takeMessage log (peekHdr log reader)).nextOffset then
          some (takeMessage log (peekHdr log reader))
        else readLoop log totalLen maxLen rounds (takeMessage log (peekHdr log reader))
      else some (peekHdr log reader)

def cleared (log : Log) : Log :=
  { poke log 0 (infoOctets ⟨routerMagic, 0⟩) with
    currentOffset := infoSize, totalLen := 0, totalNum := 0, full := false, reading := false }

/-- From `wan_get_dbg_msg_done` on. After a copy that fails it starts again there, so that it does not
come back. -/
def readDone (log : Log) (request : Request) (data : List Octet) (num : Nat) (isMore : Bool) :
    Option (Log × Reply) :=
  if data ≠ [] ∧ request.dataFault = true then none
  else if request.replyFault then none
  else some (if isMore then log else cleared log, ⟨none, data, num, isMore⟩)

def moreThan (log : Log) (maxLen : Nat) : Bool :=
  maxLen < ulong ((info log).totalLen - log.currentOffset)

def readStored (log : Log) (request : Request) : Option (Log × Reply) :=
  match readLoop log (info log).totalLen request.maxLen (request.maxLen + 1)
      ⟨log.currentOffset, 0, fun _ => 0, 0, log.refused⟩ with
  | none => none
  | some reader =>
      readDone { log with currentOffset := reader.nextOffset, refused := reader.refused } request
        (load reader.buffer 0 reader.offset) reader.num (moreThan log request.maxLen)

def wanDebugRead (log : Log) (request : Request) : Option (Log × Reply) :=
  match request.early with
  | some errno => some ({ log with reading := false }, ⟨some errno, [], 0, false⟩)
  | none =>
      if (info log).totalLen = 0 ∨ (info log).magic ≠ routerMagic then
        readDone { log with reading := true } request [] 0 false
      else readStored { log with reading := true } request

end Read

section Session

/-- The memory of a card that holds no messages. -/
structure Blank where
  memory : Nat → Octet
  none : (infoOf (load memory 0 infoSize)).magic ≠ routerMagic ∨
    (infoOf (load memory 0 infoSize)).totalLen = 0

/-- What `setup` leaves. -/
def started (blank : Blank) : Log where
  memory := blank.memory
  refused := false
  currentOffset := hdrSize
  totalLen := 0
  totalNum := 0
  reading := false
  full := false
  trigger := false

/-- The log with the messages that writes have accepted, how many of them reads have reported, all
octets that reads have returned and the last reply. -/
structure Session where
  log : Log
  accepted : List Message
  taken : Nat
  returned : List Octet
  reply : Reply

inductive Op
  | trigger (flag : Bool)
  | write (message : Message)
  | read (request : Request)

def report (session : Session) (outcome : Log × Reply) : Session :=
  { session with
    log := outcome.1
    taken := session.taken + outcome.2.num
    returned := session.returned ++ outcome.2.data
    reply := outcome.2 }

def step (session : Session) : Op → Option Session
  | .trigger flag => some { session with log := { session.log with trigger := flag } }
  | .write message =>
      some { session with
        log := wanDebugWrite session.log message
        accepted :=
          if accepts session.log message.text then session.accepted ++ [message]
          else session.accepted }
  | .read request => (wanDebugRead session.log request).map (report session)

def start (blank : Blank) : Session := ⟨started blank, [], 0, [], ⟨none, [], 0, false⟩⟩

end Session

end Wanpipe.Utils.DebugLog
