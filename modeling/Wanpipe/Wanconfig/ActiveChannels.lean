import Mathlib.Algebra.Group.Nat.Defs
import Mathlib.Data.List.DropRight
import Mathlib.Tactic.Common
import Wanpipe.Line.Octets

/-! The active channels of `wanconfig`: a text of channels and of ranges, and the word with a bit for
each of them. A shift by a negative amount, or by the size of the word, has no result. -/

namespace Wanpipe.Wanconfig.ActiveChannels

open Line

def dash : Octet := 0x2D

def all : List Octet := [0x41, 0x4C, 0x4C]

def zero : List Octet := [0x30]

def isdigit (octet : Octet) : Bool := 0x30 ≤ octet && octet ≤ 0x39

def singleChannel : Nat := 0x2

def rangeChannel : Nat := 0x1

def enableAllChannels : BitVec 32 := 0xFFFFFFFF

def ulongMax : Nat := 2 ^ 64 - 1

def decimal (digits : List Octet) : Nat :=
  digits.foldl (fun value digit => 10 * value + (digit.toNat - 0x30)) 0

/-- What `strtoul` makes of digits, kept in an `int`. -/
def number (digits : List Octet) : Int := (BitVec.ofNat 32 (min (decimal digits) ulongMax)).toInt

/-- `1 << place`. -/
def bit (place : Int) : Option (BitVec 32) :=
  if 0 ≤ place ∧ place < 32 then some ((1 : BitVec 32) <<< place.toNat) else none

/-- The loop over the channels of a range, `count` of them from `i` on. -/
def rangeFrom : Nat → Int → BitVec 32 → Option (BitVec 32)
  | 0, _, tmp => some tmp
  | count + 1, i, tmp => (bit (i - 1)).bind fun mask => rangeFrom count (i + 1) (tmp ||| mask)

def getActiveChannels (channelFlag : Nat) (startChannel stopChannel : Int) : Option (BitVec 32) :=
  if stopChannel < 1 then some 0
  else if channelFlag &&& (singleChannel ||| rangeChannel) = 0 then some 0
  else if channelFlag &&& rangeChannel ≠ 0 then
    rangeFrom (stopChannel + 1 - startChannel).toNat startChannel 0
  else (bit (stopChannel - 1)).map fun mask => 0 ||| mask

/-- The variables of the loop. -/
structure Scan where
  channelFlag : Nat
  channel : Int
  startChannel : Int
  tmp : BitVec 32
  deriving DecidableEq, Repr

def start : Scan := ⟨0, 0, 0, 0⟩

def readNumber (scan : Scan) (digits : List Octet) : Scan :=
  { scan with channel := number digits, channelFlag := scan.channelFlag ||| singleChannel }

def readDash (scan : Scan) : Scan :=
  { scan with channelFlag := scan.channelFlag ||| rangeChannel, startChannel := scan.channel }

/-- The channels since the last separator. -/
def found (scan : Scan) : Option (BitVec 32) :=
  getActiveChannels scan.channelFlag scan.startChannel scan.channel

def readSeparator (scan : Scan) : Option Scan :=
  (found scan).map fun word => { scan with tmp := scan.tmp ||| word, channelFlag := 0 }

def scanFrom : List Octet → Scan → Option Scan
  | [], scan => some scan
  | first :: rest, scan =>
      if isdigit first then
        scanFrom (rest.dropWhile isdigit) (readNumber scan (first :: rest.takeWhile isdigit))
      else if first = dash then scanFrom rest (readDash scan)
      else (readSeparator scan).bind (scanFrom rest)
termination_by text => text.length
decreasing_by
  · exact Nat.lt_succ_of_le (List.dropWhile_suffix isdigit).length_le
  · exact Nat.lt_succ_self _
  · exact Nat.lt_succ_self _

def finish (scan : Scan) : Option (BitVec 32) :=
  if scan.channelFlag ≠ 0 then (found scan).map fun word => scan.tmp ||| word else some scan.tmp

def parseActiveChannel (val : List Octet) : Option (BitVec 32) :=
  if val = all then some enableAllChannels
  else if val = zero then some 0
  else (scanFrom val start).bind finish

section Grammar

def separates (octet : Octet) : Bool := !isdigit octet && octet != dash

/-- The items of a text, each with what stands before it. -/
def itemsFrom (before item : List Octet) : List Octet → List (List Octet × List Octet)
  | [] => [(before, item)]
  | octet :: text =>
      if separates octet then (before, item) :: itemsFrom (before ++ item ++ [octet]) [] text
      else itemsFrom before (item ++ [octet]) text

def items (text : List Octet) : List (List Octet × List Octet) := itemsFrom [] [] text

def Digits (digits : List Octet) : Prop := digits ≠ [] ∧ ∀ digit ∈ digits, isdigit digit = true

/-- A well-formed item, with its first and its last channel. -/
inductive Spells : List Octet → Nat → Nat → Prop
  | channel {digits : List Octet} (spelled : Digits digits) (low : 1 ≤ decimal digits)
      (high : decimal digits ≤ 32) : Spells digits (decimal digits) (decimal digits)
  | range {left right : List Octet} (first : Digits left) (last : Digits right)
      (low : 1 ≤ decimal left) (rises : decimal left ≤ decimal right)
      (high : decimal right ≤ 32) :
      Spells (left ++ dash :: right) (decimal left) (decimal right)

def WellFormed (item : List Octet) : Prop := ∃ first last, Spells item first last

/-- A well-formed item of the text has the channel. -/
def Names (text : List Octet) (channel : Nat) : Prop :=
  ∃ entry ∈ items text, ∃ first last, Spells entry.2 first last ∧ first ≤ channel ∧ channel ≤ last

/-- The union of the well-formed items. -/
def Selects (word : BitVec 32) (text : List Octet) : Prop :=
  ∀ i, word.getLsbD i = true ↔ Names text (i + 1)

/-- What `parseActiveChannel` is for. -/
def Faithful (val : List Octet) : Prop :=
  ∃ word, parseActiveChannel val = some word ∧
    (val = all → ∀ i < 32, word.getLsbD i = true) ∧
    (val = zero → word = 0) ∧
    (val ≠ all → (∀ entry ∈ items val, WellFormed entry.2) → Selects word val) ∧
    (val ≠ all → (Selects word val ∨ word = 0) ∧
      ∀ i, word.getLsbD i = true → Names val (i + 1))

end Grammar

section Taken

/-- The last number of a text, or 0. -/
def lastNumber (text : List Octet) : Int :=
  number ((text.rdropWhile fun octet => !isdigit octet).rtakeWhile isdigit)

/-- The last channel an item is taken for: the last number up to its end, be it of this item or of
one before. -/
def lastTaken (entry : List Octet × List Octet) : Int := lastNumber (entry.1 ++ entry.2)

/-- The first channel an item is taken for: with a dash, the last number before its last dash. -/
def firstTaken (entry : List Octet × List Octet) : Int :=
  if entry.2.contains dash then
    lastNumber ((entry.1 ++ entry.2).rdropWhile fun octet => octet != dash)
  else lastTaken entry

/-- An item that does no harm: nothing is taken from it, or nothing but channels that well-formed
items have too. -/
def Harmless (text : List Octet) (entry : List Octet × List Octet) : Prop :=
  entry.2 = [] ∨ lastTaken entry < 1 ∨ lastTaken entry < firstTaken entry ∨
    1 ≤ firstTaken entry ∧ lastTaken entry ≤ 32 ∧
      ∀ channel : Nat, firstTaken entry ≤ channel → channel ≤ lastTaken entry →
        Names text channel

end Taken

end Wanpipe.Wanconfig.ActiveChannels
