import Mathlib.Data.BitVec
import Wanpipe.CString
import Wanpipe.Line.Octets

/-! The sections of a configuration file of `wanconfig`, and how one of them is read into a buffer of
records. A write outside of the buffer has no result. -/

namespace Wanpipe.Wanconfig.ConfSection

open Line CString

def tab : Octet := 0x09

def lf : Octet := 0x0A

def cr : Octet := 0x0D

def space : Octet := 0x20

def hash : Octet := 0x23

def semicolon : Octet := 0x3B

def openBracket : Octet := 0x5B

def closeBracket : Octet := 0x5D

def blank (octet : Octet) : Bool := octet = space || octet = tab

def comment (octet : Octet) : Bool := octet = hash || octet = semicolon

/-- The octets of `strcspn(str, "#;\n\r")`. -/
def ends (octet : Octet) : Bool := comment octet || octet = lf || octet = cr

def maxCfgline : Nat := 256

/-- What the calls of `fgets` get from a file, one after the other; `read` is what the next one has
got so far. -/
def chunksFrom : List Octet → List Octet → List (List Octet)
  | read, [] => if read = [] then [] else [read]
  | read, octet :: file =>
      if octet = lf ∨ read.length + 2 = maxCfgline then (read ++ [octet]) :: chunksFrom [] file
      else chunksFrom (read ++ [octet]) file

/-- The text of a line in the buffer: no leading blanks, no comment. -/
def textOf (buf : List Octet) : List Octet :=
  ((string buf).dropWhile blank).takeWhile fun octet => !ends octet

/-- The length that is returned, the key, and what is left of the file. -/
def readConfRecord (maxLen : Nat) : List (List Octet) → Option (Nat × List Octet × List (List Octet))
  | [] => none
  | chunk :: file =>
      if (textOf chunk).length ≠ 0 then
        some ((textOf chunk).length + 1, (textOf chunk).take (maxLen - 1), file)
      else readConfRecord maxLen file

/-- The old octets, and then what the new memory happens to hold. -/
def realloc (fresh : Nat → Octet) (buf : List Octet) (size : Nat) : List Octet :=
  buf.take size ++ (List.range' buf.length (size - buf.length)).map fresh

def strlcpy (buf : List Octet) (place : Nat) (text : List Octet) (size : Nat) :
    Option (List Octet) :=
  if size = 0 then some buf
  else
    let copied := text.take (size - 1) ++ [0]
    if place + copied.length ≤ buf.length then
      some (buf.take place ++ (copied ++ buf.drop (place + copied.length)))
    else none

/-- The variables of `read_conf_section`. -/
structure Reading where
  found : Bool
  buf : Option (List Octet)
  offs : Nat
  deriving DecidableEq, Repr

def maxLen (reading : Reading) (len : Nat) : Nat :=
  if reading.buf.isSome then len + reading.offs else len

/-- A record goes to the end of the buffer. -/
def append (fresh : Nat → Octet) (reading : Reading) (len : Nat) (key : List Octet) :
    Option Reading :=
  let grown := realloc fresh (reading.buf.getD []) (maxLen reading len + 1)
  (strlcpy grown reading.offs key (maxLen reading len - reading.offs)).bind fun copied =>
    (poke copied (reading.offs + len) 0).map fun buf =>
      { reading with buf := some buf, offs := reading.offs + len }

def bracketed (key : List Octet) : Bool := key.head? = some openBracket

/-- The head of the section of that name: what is between the brackets. -/
def heads (name key : List Octet) : Bool :=
  bracketed key && (key.contains closeBracket && (key.takeWhile (· ≠ closeBracket)).drop 1 = name)

theorem readConfRecord_shorter {size len : Nat} {file rest : List (List Octet)} {key : List Octet}
    (next : readConfRecord size file = some (len, key, rest)) : rest.length < file.length := by
  induction file with
  | nil => exact absurd next (by simp [readConfRecord])
  | cons chunk file ih =>
      unfold readConfRecord at next
      split at next
      · cases next
        exact Nat.lt_succ_self _
      · exact Nat.lt_succ_of_lt (ih next)

def sectionFrom (fresh : Nat → Octet) (name : List Octet) (file : List (List Octet))
    (reading : Reading) : Option Reading :=
  match _ : readConfRecord maxCfgline file with
  | none => some reading
  | some (len, key, rest) =>
      if reading.found then
        if bracketed key then some reading
        else (append fresh reading len key).bind (sectionFrom fresh name rest)
      else sectionFrom fresh name rest { reading with found := heads name key }
termination_by file.length
decreasing_by all_goals exact readConfRecord_shorter ‹_›

def readConfSection (fresh : Nat → Octet) (file name : List Octet) : Option (Option (List Octet)) :=
  (sectionFrom fresh name (chunksFrom [] file) ⟨false, none, 0⟩).map Reading.buf

section Meaning

/-- A line without its leading blanks, up to the first octet that stops it. -/
def recordOf (stops : Octet → Bool) (line : List Octet) : List Octet :=
  (line.dropWhile blank).takeWhile fun octet => !stops octet

def records (stops : Octet → Bool) (lines : List (List Octet)) : List (List Octet) :=
  (lines.map (recordOf stops)).filter (· ≠ [])

def lines (file : List Octet) : List (List Octet) := splitFrom lf [] file

/-- What is behind the first head of the name, up to the next record with a bracket. -/
def sectionOf (name : List Octet) (all : List (List Octet)) : List (List Octet) :=
  ((all.dropWhile fun record => !heads name record).drop 1).takeWhile fun record =>
    !bracketed record

end Meaning

end Wanpipe.Wanconfig.ConfSection
