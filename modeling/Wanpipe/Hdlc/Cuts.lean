import Wanpipe.Hdlc.Decoder
import Wanpipe.Runs

/-! Decode calls as one sequence of bits and call ends, for runs that are cut anywhere. -/

namespace Wanpipe.Hdlc

open Line

/-- What reaches the decoder, in order: the bits that it looks at and the ends of its calls. -/
inductive Feed
  | bit (value : Bool)
  | callEnd
  deriving DecidableEq, Repr

def Feed.bit? : Feed → Option Bool
  | .bit value => some value
  | .callEnd => none

def feedBits (feeds : List Feed) : List Bool := feeds.filterMap Feed.bit?

def callFeeds (sevenBitHdlc : Bool) (buf : List Octet) : List Feed :=
  (unitBits (bitsPerByte sevenBitHdlc) buf).map Feed.bit ++ [.callEnd]

/-- Calls one after another. -/
def callsFeeds (sevenBitHdlc : Bool) (calls : List (List Octet)) : List Feed :=
  calls.flatMap (callFeeds sevenBitHdlc)

/-- The check of `rx_decode_len` behind the loop of a call. -/
def checkLen (build : Build) (chan : Decoder) : Decoder :=
  if build.maxDecodeLen ≤ chan.rxDecodeLen then
    initHdlcDecoder
      { chan with
        stats :=
          { chan.stats with
            errors := chan.stats.errors + 1
            frameOverflow := chan.stats.frameOverflow + 1 } }
  else chan

/-- The flag of a call is dropped with the call. -/
def feed (build : Build) (chan : Decoder) : Feed → Decoder
  | .bit bit => decodeBit build chan bit
  | .callEnd => { checkLen build chan with gotdata := false }

def feedAll (build : Build) (chan : Decoder) (feeds : List Feed) : Decoder :=
  feeds.foldl (feed build) chan

/-- The steps of a run over what is fed. -/
def feedStep (build : Build) (chan : Decoder) (next : Feed) : Option Decoder :=
  some (feed build chan next)

@[simp] theorem feedAll_nil (build : Build) (chan : Decoder) : feedAll build chan [] = chan := rfl

@[simp] theorem feedAll_cons (build : Build) (chan : Decoder) (next : Feed) (feeds : List Feed) :
    feedAll build chan (next :: feeds) = feedAll build (feed build chan next) feeds := rfl

theorem feedAll_append (build : Build) (chan : Decoder) (left right : List Feed) :
    feedAll build chan (left ++ right) = feedAll build (feedAll build chan left) right := by
  simp [feedAll]

theorem feedAll_bits (build : Build) (chan : Decoder) (bits : List Bool) :
    feedAll build chan (bits.map Feed.bit) = bits.foldl (decodeBit build) chan := by
  rw [feedAll, List.foldl_map]
  rfl

@[simp] theorem feedBits_nil : feedBits [] = [] := rfl

@[simp] theorem feedBits_bit (bit : Bool) (feeds : List Feed) :
    feedBits (.bit bit :: feeds) = bit :: feedBits feeds :=
  List.filterMap_cons_some rfl

@[simp] theorem feedBits_callEnd (feeds : List Feed) :
    feedBits (.callEnd :: feeds) = feedBits feeds :=
  List.filterMap_cons_none rfl

/-- A call decodes its bits and then checks the length. -/
theorem decode_feeds (build : Build) (sevenBitHdlc : Bool) (chan : Decoder) (buf : List Octet) :
    { wanpipeHdlcDecode build sevenBitHdlc chan buf with gotdata := false } =
      feedAll build { chan with gotdata := false } (callFeeds sevenBitHdlc buf) := by
  rw [callFeeds, feedAll_append, feedAll_bits, ← decodeBytes_eq]
  rfl

/-- The flag that a call returns apart, calls are the run over their feeds. -/
theorem decodeCalls_feeds (build : Build) (sevenBitHdlc : Bool) (chan : Decoder)
    (calls : List (List Octet)) :
    { decodeCalls build sevenBitHdlc chan calls with gotdata := false } =
      feedAll build { chan with gotdata := false } (callsFeeds sevenBitHdlc calls) := by
  induction calls generalizing chan with
  | nil => rfl
  | cons buf calls ih =>
      rw [callsFeeds, List.flatMap_cons, feedAll_append, ← decode_feeds]
      exact ih (wanpipeHdlcDecode build sevenBitHdlc chan buf)

/-- Where `rx_decode_buf` is read or written when an octet is complete. -/
def octetIndices (build : Build) (chan : Decoder) : List Nat :=
  [chan.rxDecodeLen,
    if build.maxSockHdlcBuf < chan.rxDecodeLen + 1 then 0 else chan.rxDecodeLen + 1]

def dataIndices (build : Build) (chan : Decoder) (bit : Bool) : List Nat :=
  if chan.hdlcFlag = .noFlag then []
  else
    (if bit then [chan.rxDecodeLen] else []) ++
      (if 8 ≤ chan.rxDecodeBitCnt + 1 then octetIndices build chan else [])

/-- A flag hands up the octets before `rx_decode_len` and clears the first one. -/
def flagIndices (chan : Decoder) : List Nat :=
  if chan.hdlcFlag = .closingFlag then List.range chan.rxDecodeLen ++ [0] else [0]

/-- Where `rx_decode_buf` is read or written. -/
def indices (build : Build) (chan : Decoder) : Feed → List Nat
  | .bit true => dataIndices build chan true
  | .bit false =>
      if chan.rxDecodeOnecnt = 5 then []
      else if chan.rxDecodeOnecnt = 6 then flagIndices chan
      else dataIndices build chan false
  | .callEnd => if build.maxDecodeLen ≤ chan.rxDecodeLen then [0] else []

namespace Reader

/-- A stretch is too long; the next flag has to open anew. -/
def giveUp (reader : Reader) : Reader :=
  { reader with ones := 0, got := none, frameOverflow := reader.frameOverflow + 1 }

def feed (build : Build) (reader : Reader) : Feed → Reader
  | .bit bit =>
      if build.maxSockHdlcBuf < (reader.bit bit).collected then (reader.bit bit).giveUp
      else reader.bit bit
  | .callEnd => if build.maxDecodeLen ≤ reader.collected then reader.giveUp else reader

def feedAll (build : Build) (reader : Reader) (feeds : List Feed) : Reader :=
  feeds.foldl (feed build) reader

@[simp] theorem feedAll_nil (build : Build) (reader : Reader) :
    reader.feedAll build [] = reader := rfl

@[simp] theorem feedAll_cons (build : Build) (reader : Reader) (next : Feed) (feeds : List Feed) :
    reader.feedAll build (next :: feeds) = (reader.feed build next).feedAll build feeds := rfl

theorem feedAll_append (build : Build) (reader : Reader) (left right : List Feed) :
    reader.feedAll build (left ++ right) = (reader.feedAll build left).feedAll build right := by
  simp [feedAll]

theorem giveUp_collected (reader : Reader) : reader.giveUp.collected = 0 := by
  simp [giveUp, collected]

theorem mark_collected (reader : Reader) : reader.mark.collected = 0 := by
  rw [collected, mark]
  split
  · simp
  · simp [judge_got]

/-- No more octets are kept than the buffer holds. -/
theorem feed_held {build : Build} {reader : Reader} (next : Feed)
    (held : reader.collected ≤ build.maxSockHdlcBuf) :
    (reader.feed build next).collected ≤ build.maxSockHdlcBuf := by
  cases next with
  | bit bit =>
      rw [feed]
      split
      · rw [giveUp_collected]
        exact Nat.zero_le _
      · omega
  | callEnd =>
      rw [feed]
      split
      · rw [giveUp_collected]
        exact Nat.zero_le _
      · exact held

theorem feed_bit {build : Build} {reader : Reader} {bit : Bool}
    (room : (reader.bit bit).collected ≤ build.maxSockHdlcBuf) :
    reader.feed build (.bit bit) = reader.bit bit := if_neg (Nat.not_lt.mpr room)

theorem feed_full {build : Build} {reader : Reader} {bit : Bool}
    (full : build.maxSockHdlcBuf < (reader.bit bit).collected) :
    reader.feed build (.bit bit) = (reader.bit bit).giveUp := if_pos full

end Reader

/-- The octet behind the last one in the buffer gives the packet up. -/
theorem put_gives_up {build : Build} {chan : Decoder} {reader : Reader} (bit : Bool)
    (tracks : Tracks chan reader) (held : reader.collected ≤ build.maxSockHdlcBuf)
    (full : build.maxSockHdlcBuf < (reader.put bit).collected) :
    Tracks
      (if chan.hdlcFlag = .noFlag then chan
        else nextBit build
          { chan with
            rxDecodeBuf := orBit chan.rxDecodeBuf chan.rxDecodeLen chan.rxDecodeBitCnt bit })
      (reader.put bit).giveUp := by
  cases got : reader.got with
  | none =>
      simp [Reader.collected, Reader.put, got] at full
  | some bits =>
      have receiving := tracks.opened bits got
      have grown : (reader.put bit).got = some (bits ++ [bit]) := by
        rw [Reader.put, got]
        rfl
      rw [Reader.collected, got, Option.getD_some] at held
      rw [Reader.collected, grown, Option.getD_some, List.length_append,
        List.length_singleton] at full
      have size := receiving.held.size
      have len := receiving.len
      have last : 8 ≤ chan.rxDecodeBitCnt + 1 := by omega
      have past : build.maxSockHdlcBuf < chan.rxDecodeLen + 1 := by omega
      rw [if_neg receiving.not_noFlag]
      simp only [nextBit, last, if_true, nextOctet, calcRxCrc, past]
      refine ⟨rfl, tracks.data, ?_, fun _ => ⟨rfl, rfl⟩, ?_⟩
      · simp only [initHdlcDecoder, restartPacket, tracks.stats, Reader.giveUp, Reader.put,
          Stats.mk.injEq, and_true, true_and]
        omega
      · intro rest none_
        contradiction

theorem decodeBit_gives_up {build : Build} {chan : Decoder} {reader : Reader} (bit : Bool)
    (tracks : Tracks chan reader) (held : reader.collected ≤ build.maxSockHdlcBuf)
    (full : build.maxSockHdlcBuf < (reader.bit bit).collected) :
    Tracks (decodeBit build chan bit) (reader.bit bit).giveUp := by
  cases bit with
  | true =>
      have counted := tracks.count ((reader.ones + 1) % 256)
      simp only [decodeBit, gotOne, if_true, tracks.ones]
      exact put_gives_up true counted held full
  | false =>
      simp only [decodeBit, gotZero, Bool.false_eq_true, if_false, tracks.ones]
      rw [Reader.bit, if_neg Bool.false_ne_true] at full ⊢
      by_cases stuffed : reader.ones = 5
      · rw [if_pos stuffed] at full
        exact absurd held (Nat.not_le.mpr full)
      · by_cases six : reader.ones = 6
        · rw [if_neg stuffed, if_pos six] at full
          have empty : reader.mark.collected = 0 := Reader.mark_collected reader
          exact absurd (empty ▸ full) (Nat.not_lt_zero _)
        · simp only [stuffed, six, if_false] at full ⊢
          have placed := (put_gives_up false tracks held full).count 0
          rwa [orBit_false] at placed

/-- What is fed moves the decoder as it moves the reader. -/
theorem feed_tracks {build : Build} {chan : Decoder} {reader : Reader} (next : Feed)
    (tracks : Tracks chan reader) (held : reader.collected ≤ build.maxSockHdlcBuf) :
    Tracks (feed build chan next) (reader.feed build next) := by
  cases next with
  | bit bit =>
      rcases Nat.lt_or_ge build.maxSockHdlcBuf (reader.bit bit).collected with full | room
      · rw [Reader.feed_full full]
        exact decodeBit_gives_up bit tracks held full
      · rw [Reader.feed_bit room]
        exact decodeBit_tracks bit tracks room
  | callEnd =>
      rw [feed, Reader.feed, checkLen, tracks.len]
      split
      · refine ⟨rfl, tracks.data, ?_, fun _ => ⟨rfl, rfl⟩, ?_⟩
        · simp only [initHdlcDecoder, restartPacket, tracks.stats, Reader.giveUp, Stats.mk.injEq,
            and_true, true_and]
          omega
        · intro rest none_
          contradiction
      · exact tracks.idle

theorem feedAll_tracks {build : Build} {chan : Decoder} {reader : Reader} (feeds : List Feed)
    (tracks : Tracks chan reader) (held : reader.collected ≤ build.maxSockHdlcBuf) :
    Tracks (feedAll build chan feeds) (reader.feedAll build feeds) ∧
      (reader.feedAll build feeds).collected ≤ build.maxSockHdlcBuf := by
  induction feeds generalizing chan reader with
  | nil => exact ⟨tracks, held⟩
  | cons next feeds ih => exact ih (feed_tracks next tracks held) (Reader.feed_held next held)

/-- Every state that a fresh decoder reaches is a reader's. -/
theorem fresh_reaches (build : Build) (feeds : List Feed) :
    Tracks (feedAll build freshDecoder feeds) (Reader.start.feedAll build feeds) ∧
      (Reader.start.feedAll build feeds).collected ≤ build.maxSockHdlcBuf := by
  apply feedAll_tracks feeds freshDecoder_tracks
  simp [Reader.start, Reader.collected]

end Wanpipe.Hdlc
