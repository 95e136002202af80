import Wanpipe.Hdlc.Resync

/-! Where the cuts of a stream into decode calls show, and where the decode buffer is indexed. -/

namespace Wanpipe.Hdlc

open Line Runs

/-- An octet of the buffer is left behind the one that is being built. -/
def Roomy (build : Build) (reader : Reader) (_next : Feed) : Prop :=
  reader.collected + 1 < build.maxSockHdlcBuf

theorem indices_low {build : Build} {chan : Decoder} (next : Feed)
    (room : chan.rxDecodeLen + 1 < build.maxSockHdlcBuf) :
    ∀ i ∈ indices build chan next, i < build.maxSockHdlcBuf := by
  have octet : ∀ i ∈ octetIndices build chan, i < build.maxSockHdlcBuf := by
    intro i member
    simp only [octetIndices, List.mem_cons, List.not_mem_nil, or_false] at member
    rcases member with rfl | rfl
    · omega
    · split <;> omega
  have data : ∀ bit, ∀ i ∈ dataIndices build chan bit, i < build.maxSockHdlcBuf := by
    intro bit i member
    rw [dataIndices] at member
    split at member
    · contradiction
    · rcases List.mem_append.mp member with written | done
      · split at written
        · obtain rfl := List.mem_singleton.mp written
          omega
        · contradiction
      · split at done
        · exact octet i done
        · contradiction
  have flag : ∀ i ∈ flagIndices chan, i < build.maxSockHdlcBuf := by
    intro i member
    rw [flagIndices] at member
    split at member
    · rcases List.mem_append.mp member with packet | first
      · have := List.mem_range.mp packet
        omega
      · obtain rfl := List.mem_singleton.mp first
        omega
    · obtain rfl := List.mem_singleton.mp member
      omega
  intro i member
  cases next with
  | bit value =>
      cases value with
      | true => exact data true i member
      | false =>
          rw [indices] at member
          split at member
          · contradiction
          · split at member
            · exact flag i member
            · exact data false i member
  | callEnd =>
      rw [indices] at member
      split at member
      · obtain rfl := List.mem_singleton.mp member
        omega
      · contradiction

namespace Reader

/-- The reader behind some octets, without the end of a call. -/
def octets (build : Build) (width : Nat) (reader : Reader) (buf : List Octet) : Reader :=
  reader.feedAll build ((unitBits width buf).map .bit)

/-- No octet but the last one leaves the reader with a packet of `maxDecodeLen` octets. -/
def Low (build : Build) (width : Nat) (reader : Reader) (buf : List Octet) : Prop :=
  ∀ n < buf.length, (reader.octets build width (buf.take n)).collected < build.maxDecodeLen

theorem octets_nil (build : Build) (width : Nat) (reader : Reader) :
    reader.octets build width [] = reader := rfl

theorem octets_append (build : Build) (width : Nat) (reader : Reader) (left right : List Octet) :
    reader.octets build width (left ++ right) =
      (reader.octets build width left).octets build width right := by
  rw [octets, octets, octets, unitBits_append, List.map_append, feedAll_append]

theorem Low.nil (build : Build) (width : Nat) (reader : Reader) : Low build width reader [] := by
  intro n inside
  exact absurd inside (Nat.not_lt_zero n)

theorem Low.right {build : Build} {width : Nat} {reader : Reader} {left right : List Octet}
    (low : Low build width reader (left ++ right)) :
    Low build width (reader.octets build width left) right := by
  intro n inside
  have whole := low (left.length + n) (by rw [List.length_append]; omega)
  rwa [List.take_length_add_append, octets_append] at whole

theorem Low.left {build : Build} {width : Nat} {reader : Reader} {left right : List Octet}
    (low : Low build width reader (left ++ right)) : Low build width reader left := by
  intro n inside
  have whole := low n (by rw [List.length_append]; omega)
  rwa [List.take_append_of_le_length (Nat.le_of_lt inside)] at whole

theorem callEnd_low {build : Build} {reader : Reader}
    (low : reader.collected < build.maxDecodeLen) : reader.feed build .callEnd = reader :=
  if_neg (Nat.not_le.mpr low)

theorem callEnd_collected {build : Build} (reader : Reader) (some_ : 0 < build.maxDecodeLen) :
    (reader.feed build .callEnd).collected < build.maxDecodeLen := by
  rw [feed]
  split
  · rwa [giveUp_collected]
  · omega

theorem callFeeds_feedAll (build : Build) (sevenBitHdlc : Bool) (reader : Reader)
    (buf : List Octet) :
    reader.feedAll build (callFeeds sevenBitHdlc buf) =
      (reader.octets build (bitsPerByte sevenBitHdlc) buf).feed build .callEnd := by
  rw [callFeeds, feedAll_append]
  rfl

/-- Cuts among octets that leave the packet short do not show. -/
theorem callsFeeds_feedAll {build : Build} (sevenBitHdlc : Bool) (reader : Reader)
    (calls : List (List Octet)) (some_ : 0 < build.maxDecodeLen)
    (start : reader.collected < build.maxDecodeLen)
    (low : Low build (bitsPerByte sevenBitHdlc) reader calls.flatten) :
    reader.feedAll build (callsFeeds sevenBitHdlc calls) =
      (reader.octets build (bitsPerByte sevenBitHdlc) calls.flatten).feed build .callEnd := by
  induction calls generalizing reader with
  | nil => exact (callEnd_low start).symm
  | cons buf calls ih =>
      rw [List.flatten_cons] at low
      rw [callsFeeds, List.flatMap_cons, feedAll_append, callFeeds_feedAll, List.flatten_cons,
        octets_append]
      have ended := callEnd_collected (reader.octets build (bitsPerByte sevenBitHdlc) buf) some_
      rcases Nat.eq_zero_or_pos calls.flatten.length with empty | more
      · have nothing := List.eq_nil_of_length_eq_zero empty
        have later := ih _ ended (nothing ▸ Low.nil build _ _)
        rw [nothing, octets_nil, callEnd_low ended] at later
        rw [nothing, octets_nil]
        exact later
      · have short := low.right 0 more
        rw [List.take_zero, octets_nil] at short
        rw [callEnd_low short]
        exact ih _ short low.right

theorem run_feedStep (build : Build) (reader : Reader) (feeds : List Feed) :
    run (feedStep build) reader feeds = some (reader.feedAll build feeds) := by
  induction feeds generalizing reader with
  | nil => rfl
  | cons next feeds ih => exact ih (reader.feed build next)

theorem along_append {build : Build} {allowed : Reader → Feed → Prop} {reader : Reader}
    {left right : List Feed} (first : Along (feedStep build) allowed reader left)
    (second : Along (feedStep build) allowed (reader.feedAll build left) right) :
    Along (feedStep build) allowed reader (left ++ right) := by
  apply Along.append first
  intro next ran
  rw [run_feedStep, Option.some.injEq] at ran
  rwa [← ran]

/-- Bits add at most themselves. -/
theorem bits_grow (build : Build) (reader : Reader) (bits : List Bool) :
    ((reader.feedAll build (bits.map .bit)).got.getD []).length ≤
      (reader.got.getD []).length + bits.length := by
  induction bits generalizing reader with
  | nil => exact Nat.le_refl _
  | cons bit bits ih =>
      have grows := bit_grows reader bit
      have later := ih (reader.feed build (.bit bit))
      rw [List.map_cons, feedAll_cons, List.length_cons]
      rcases Nat.lt_or_ge build.maxSockHdlcBuf (reader.bit bit).collected with full | room
      · have empty : (reader.bit bit).giveUp.got.getD [] = [] := rfl
        rw [feed_full full, empty, List.length_nil] at later
        rw [feed_full full]
        omega
      · rw [feed_bit room] at later ⊢
        omega

theorem octet_length (width : Nat) (octet : Octet) : (unitBits width [octet]).length ≤ 8 := by
  rw [unitBits, List.flatMap_singleton, List.length_take, octetBits_length]
  exact Nat.min_le_right _ _

theorem octets_collected {build : Build} (width : Nat) (reader : Reader) (buf : List Octet)
    (start : reader.collected < build.maxDecodeLen) (low : Low build width reader buf) :
    (reader.octets build width buf).collected ≤ build.maxDecodeLen := by
  induction buf generalizing reader with
  | nil => exact Nat.le_of_lt start
  | cons octet buf ih =>
      have split : octet :: buf = [octet] ++ buf := rfl
      rw [split] at low ⊢
      rw [octets_append]
      rcases Nat.eq_zero_or_pos buf.length with empty | more
      · have grown := bits_grow build reader (unitBits width [octet])
        have few := octet_length width octet
        rw [List.eq_nil_of_length_eq_zero empty, octets_nil]
        rw [collected] at start ⊢
        rw [octets]
        omega
      · have short := low.right 0 more
        rw [List.take_zero, octets_nil] at short
        exact ih _ short low.right

/-- A few bits do not fill the buffer. -/
theorem bits_roomy {build : Build} (reader : Reader) (bits : List Bool)
    (short : (reader.got.getD []).length + bits.length ≤ 8 * (build.maxSockHdlcBuf - 1)) :
    Along (feedStep build) (Roomy build) reader (bits.map .bit) := by
  induction bits generalizing reader with
  | nil => trivial
  | cons bit bits ih =>
      have grows := bit_grows reader bit
      rw [List.length_cons] at short
      have here : Roomy build reader (.bit bit) := by
        rw [Roomy, collected]
        omega
      have room : (reader.bit bit).collected ≤ build.maxSockHdlcBuf := by
        rw [collected]
        omega
      rw [List.map_cons, feedStep_along, feed_bit room]
      exact ⟨here, ih _ (by omega)⟩

theorem octets_roomy {build : Build} (width : Nat) (reader : Reader) (buf : List Octet)
    (gap : build.maxDecodeLen + 2 ≤ build.maxSockHdlcBuf) (low : Low build width reader buf) :
    Along (feedStep build) (Roomy build) reader ((unitBits width buf).map .bit) := by
  induction buf generalizing reader with
  | nil => trivial
  | cons octet buf ih =>
      have start := low 0 (Nat.zero_lt_succ _)
      rw [List.take_zero, octets_nil, collected] at start
      have few := octet_length width octet
      have split : octet :: buf = [octet] ++ buf := rfl
      rw [split] at low ⊢
      rw [unitBits_append, List.map_append]
      exact along_append (bits_roomy reader _ (by omega)) (ih _ low.right)

/-- Calls over octets that leave the packet short stay within the buffer. -/
theorem callsFeeds_roomy {build : Build} (sevenBitHdlc : Bool) (reader : Reader)
    (calls : List (List Octet)) (some_ : 0 < build.maxDecodeLen)
    (gap : build.maxDecodeLen + 2 ≤ build.maxSockHdlcBuf)
    (start : reader.collected < build.maxDecodeLen)
    (low : Low build (bitsPerByte sevenBitHdlc) reader calls.flatten) :
    Along (feedStep build) (Roomy build) reader (callsFeeds sevenBitHdlc calls) := by
  induction calls generalizing reader with
  | nil => trivial
  | cons buf calls ih =>
      rw [List.flatten_cons] at low
      have ended := callEnd_collected (reader.octets build (bitsPerByte sevenBitHdlc) buf) some_
      have rest : Low build (bitsPerByte sevenBitHdlc)
          ((reader.octets build (bitsPerByte sevenBitHdlc) buf).feed build .callEnd)
          calls.flatten := by
        rcases Nat.eq_zero_or_pos calls.flatten.length with empty | more
        · rw [List.eq_nil_of_length_eq_zero empty]
          exact Low.nil build _ _
        · have short := low.right 0 more
          rw [List.take_zero, octets_nil] at short
          rw [callEnd_low short]
          exact low.right
      have room := octets_roomy (bitsPerByte sevenBitHdlc) reader buf gap low.left
      have most := octets_collected (bitsPerByte sevenBitHdlc) reader buf start low.left
      have last : Roomy build (reader.octets build (bitsPerByte sevenBitHdlc) buf) .callEnd := by
        rw [Roomy]
        omega
      rw [callsFeeds, List.flatMap_cons]
      apply along_append
      · exact along_append room (feedStep_along.mpr ⟨last, trivial⟩)
      · rw [callFeeds_feedAll]
        exact ih _ ended rest

end Reader

theorem roomy_iff {build : Build} {chan : Decoder} {reader : Reader} (next : Feed)
    (tracks : Tracks chan reader) :
    chan.rxDecodeLen + 1 < build.maxSockHdlcBuf ↔ Roomy build reader next := by
  rw [Roomy, tracks.len]

/-- The uncut decoder's length is the uncut reader's. -/
theorem octets_tracks {build : Build} {chan : Decoder} {reader : Reader} (sevenBitHdlc : Bool)
    (buf : List Octet) (tracks : Tracks chan reader)
    (held : reader.collected ≤ build.maxSockHdlcBuf) :
    Tracks (buf.foldl (decodeByte build sevenBitHdlc) chan)
      (reader.octets build (bitsPerByte sevenBitHdlc) buf) := by
  rw [decodeBytes_eq, ← feedAll_bits]
  exact (feedAll_tracks _ tracks held).1

/-- Calls from a decoder that is at a call's start. -/
theorem calls_tracks {build : Build} {chan : Decoder} {reader : Reader} (sevenBitHdlc : Bool)
    (calls : List (List Octet)) (tracks : Tracks chan reader) (idle : chan.gotdata = false)
    (held : reader.collected ≤ build.maxSockHdlcBuf) :
    Tracks { decodeCalls build sevenBitHdlc chan calls with gotdata := false }
      (reader.feedAll build (callsFeeds sevenBitHdlc calls)) := by
  have same : { chan with gotdata := false } = chan := by
    rw [← idle]
  rw [decodeCalls_feeds, same]
  exact (feedAll_tracks _ tracks held).1

/-- Where no octet but the last leaves `MAX_SOCK_HDLC_LIMIT` octets in the buffer, the cuts do not
show and the buffer is not left. -/
theorem wanpipe_hdlc_chunks (sevenBitHdlc : Bool) (stream : List Octet)
    (low : ∀ n < stream.length,
      ((stream.take n).foldl (decodeByte library sevenBitHdlc) freshDecoder).rxDecodeLen <
        library.maxDecodeLen)
    (calls other : List (List Octet)) (cut : calls.flatten = stream)
    (cut' : other.flatten = stream) :
    (decodeCalls library sevenBitHdlc freshDecoder calls).hdlcData =
        (decodeCalls library sevenBitHdlc freshDecoder other).hdlcData ∧
      (decodeCalls library sevenBitHdlc freshDecoder calls).stats =
        (decodeCalls library sevenBitHdlc freshDecoder other).stats ∧
      Along (feedStep library)
        (fun chan next => ∀ i ∈ indices library chan next, i < library.maxSockHdlcBuf)
        freshDecoder (callsFeeds sevenBitHdlc calls) := by
  have none_ : Reader.start.collected = 0 := by simp [Reader.start, Reader.collected]
  have held : Reader.start.collected ≤ library.maxSockHdlcBuf := none_ ▸ Nat.zero_le _
  have some_ : 0 < library.maxDecodeLen := by decide
  have start : Reader.start.collected < library.maxDecodeLen := none_ ▸ some_
  have short : Reader.Low library (bitsPerByte sevenBitHdlc) Reader.start stream := by
    intro n inside
    rw [← (octets_tracks sevenBitHdlc (stream.take n) freshDecoder_tracks held).len]
    exact low n inside
  have ends : ∀ calls : List (List Octet), calls.flatten = stream →
      Reader.start.feedAll library (callsFeeds sevenBitHdlc calls) =
        (Reader.start.octets library (bitsPerByte sevenBitHdlc) stream).feed library .callEnd := by
    intro calls cut
    rw [← cut] at short ⊢
    exact Reader.callsFeeds_feedAll sevenBitHdlc Reader.start calls some_ start short
  have left := calls_tracks sevenBitHdlc calls freshDecoder_tracks rfl held
  have right := calls_tracks sevenBitHdlc other freshDecoder_tracks rfl held
  rw [ends calls cut] at left
  rw [ends other cut'] at right
  refine ⟨left.data.trans right.data.symm, left.stats.trans right.stats.symm, ?_⟩
  rw [← cut] at short
  have roomy := Reader.callsFeeds_roomy sevenBitHdlc Reader.start calls some_ (by decide) start short
  rw [← along_tracks (fun _ _ next tracks _ => roomy_iff next tracks) _ freshDecoder_tracks held]
    at roomy
  exact roomy.mono fun _ next room => indices_low next room

theorem octetBits_flag : octetBits 0x7E = flag := by decide

theorem stuff_zeros (ones count : Nat) :
    stuff ones (List.replicate count false) = List.replicate count false := by
  induction count generalizing ones with
  | zero => rfl
  | succ count ih => rw [List.replicate_succ, stuff, ih]

theorem lineBits_zeros (count : Nat) :
    lineBits (List.replicate count 0x00) = List.replicate (8 * count) false := by
  induction count with
  | zero => rfl
  | succ count ih =>
      have octet : octetBits 0x00 = List.replicate 8 false := by decide
      rw [List.replicate_succ, lineBits_cons, ih, octet, List.replicate_append_replicate]
      congr 1
      omega

/-- A flag and zero octets. -/
def longCall (count : Nat) : List Octet := 0x7E :: List.replicate count 0x00

namespace Reader

theorem judge_frameOverflow (reader : Reader) (octets : List Octet) :
    (reader.judge octets).frameOverflow = reader.frameOverflow := by
  rw [judge]
  split
  · rfl
  · split
    · rfl
    · split <;> rfl

theorem line_zeros (frames : List (List Octet)) (crc abort overflow count : Nat)
    (got : List Bool) :
    line ⟨0, some got, frames, crc, abort, overflow⟩ (List.replicate count false) =
      ⟨0, some (got ++ List.replicate count false), frames, crc, abort, overflow⟩ := by
  have ones : stuffOnes 0 (List.replicate count false) = 0 := by
    induction count with
    | zero => rfl
    | succ count ih => rw [List.replicate_succ, stuffOnes, ih]
  have read := line_stuff frames crc abort overflow (List.replicate count false) 0 got (by decide)
  rwa [stuff_zeros, ones] at read

theorem line_longCall (count : Nat) :
    start.line (lineBits (longCall count)) =
      ⟨0, some (List.replicate (8 * count) false), [], 0, 0, 0⟩ := by
  rw [longCall, lineBits_cons, octetBits_flag, lineBits_zeros, line_append, start, line_first_flag,
    line_zeros, List.nil_append]

end Reader

theorem longCall_length (count : Nat) : (lineBits (longCall count)).length = 8 * (count + 1) := by
  rw [lineBits_length, longCall, List.length_cons, List.length_replicate]

/-- A flag behind `count` octets ends them in the same call; in the next call they are gone. -/
theorem closing_flag_cut {count : Nat} (long : library.maxDecodeLen ≤ count)
    (fits : count + 2 ≤ library.maxSockHdlcBuf) :
    (decodeCalls library false freshDecoder [longCall count ++ [0x7E]]).stats.frameOverflow = 0 ∧
      (decodeCalls library false freshDecoder [longCall count, [0x7E]]).stats.frameOverflow = 1 := by
  have whole : unitBits (bitsPerByte false) = lineBits := funext unitBits_eight
  have mark : lineBits [0x7E] = flag := by rw [lineBits_cons, octetBits_flag]; rfl
  have size := longCall_length count
  have collected : (⟨0, some (List.replicate (8 * count) false), [], 0, 0, 0⟩ : Reader).collected =
      count := by
    rw [Reader.collected, Option.getD_some, List.length_replicate]
    omega
  constructor
  · have room : CallsWithin library.maxSockHdlcBuf library.maxDecodeLen Reader.start
        [lineBits (longCall count ++ [0x7E])] := by
      refine ⟨Reader.Within.of_length ?_, trivial⟩
      rw [lineBits_append, mark, List.length_append, size]
      simp only [Reader.start, Option.getD_none, List.length_nil, flag, List.length_cons]
      omega
    have tracks := decodeCalls_tracks false [longCall count ++ [0x7E]] freshDecoder_tracks
      (by rw [whole]; exact room)
    have flagged := Reader.line_flag [] 0 0 0 (List.replicate (8 * count) false)
      (by decide : 0 ≠ 5) (by decide)
    rw [tracks.stats, whole, List.map_singleton, List.foldl_cons, List.foldl_nil, Reader.call,
      lineBits_append, mark, Reader.line_append, Reader.line_longCall, flagged, Reader.close,
      if_neg]
    · exact Reader.judge_frameOverflow _ _
    · rw [Reader.collected, Reader.judge_got]
      decide
  · have gave : Reader.start.call library.maxDecodeLen (lineBits (longCall count)) =
        ⟨0, none, [], 0, 0, 1⟩ := by
      rw [Reader.call, Reader.line_longCall, Reader.close, collected, if_pos long]
    have room : CallsWithin library.maxSockHdlcBuf library.maxDecodeLen Reader.start
        [lineBits (longCall count), lineBits [0x7E]] := by
      refine ⟨Reader.Within.of_length ?_, ?_, trivial⟩
      · rw [size]
        simp only [Reader.start, Option.getD_none, List.length_nil]
        omega
      · rw [gave, mark]
        decide
    have tracks := decodeCalls_tracks false [longCall count, [0x7E]] freshDecoder_tracks
      (by rw [whole]; exact room)
    rw [tracks.stats, whole, List.map_cons, List.map_singleton, List.foldl_cons, List.foldl_cons,
      List.foldl_nil, gave, mark]
    decide

theorem run_feeds (build : Build) (chan : Decoder) (feeds : List Feed) :
    run (feedStep build) chan feeds = some (feedAll build chan feeds) := by
  induction feeds generalizing chan with
  | nil => rfl
  | cons next feeds ih => exact ih (feed build chan next)

theorem Reader.feedAll_line {build : Build} {reader : Reader} {bits : List Bool}
    (room : reader.Within build.maxSockHdlcBuf bits) :
    reader.feedAll build (bits.map .bit) = reader.line bits := by
  induction bits generalizing reader with
  | nil => rfl
  | cons bit bits ih =>
      rw [List.map_cons, Reader.feedAll_cons, Reader.feed_bit room.1]
      exact ih room.2

/-- Two calls of zero octets behind a flag, but for the last bit. -/
def zerosBut (first second : Nat) : List Feed :=
  callFeeds false (longCall first) ++ (List.replicate (8 * second - 1) false).map .bit

theorem callsFeeds_zeros {first second : Nat} (some_ : 0 < second) :
    callsFeeds false [longCall first, List.replicate second 0x00] =
      zerosBut first second ++ (.bit false :: [.callEnd]) := by
  have whole : unitBits (bitsPerByte false) = lineBits := funext unitBits_eight
  have zeros : List.replicate (8 * second) false =
      List.replicate (8 * second - 1) false ++ [false] := by
    rw [← List.replicate_succ', Nat.sub_add_cancel (by omega)]
  have last : callFeeds false (List.replicate second 0x00) =
      (List.replicate (8 * second - 1) false).map .bit ++ (.bit false :: [.callEnd]) := by
    rw [callFeeds, whole, lineBits_zeros, zeros, List.map_append, List.append_assoc]
    rfl
  rw [callsFeeds, List.flatMap_cons, List.flatMap_singleton, last, ← List.append_assoc, zerosBut]

theorem Reader.zerosBut_read {first second : Nat} (low : first < library.maxDecodeLen)
    (full : first + second = library.maxSockHdlcBuf) :
    Reader.start.feedAll library (zerosBut first second) =
      ⟨0, some (List.replicate (8 * first + (8 * second - 1)) false), [], 0, 0, 0⟩ := by
  have limits : library.maxDecodeLen ≤ library.maxSockHdlcBuf := by decide
  have whole : unitBits (bitsPerByte false) = lineBits := funext unitBits_eight
  have inside : Reader.start.Within library.maxSockHdlcBuf (lineBits (longCall first)) := by
    apply Reader.Within.of_length
    rw [longCall_length]
    simp only [Reader.start, Option.getD_none, List.length_nil]
    omega
  have more : Reader.Within library.maxSockHdlcBuf
      ⟨0, some (List.replicate (8 * first) false), [], 0, 0, 0⟩
      (List.replicate (8 * second - 1) false) := by
    apply Reader.Within.of_length
    rw [Option.getD_some, List.length_replicate, List.length_replicate]
    omega
  have short : Reader.collected ⟨0, some (List.replicate (8 * first) false), [], 0, 0, 0⟩ <
      library.maxDecodeLen := by
    rw [Reader.collected, Option.getD_some, List.length_replicate]
    omega
  rw [zerosBut, Reader.feedAll_append, Reader.callFeeds_feedAll, Reader.octets, whole,
    Reader.feedAll_line inside, Reader.line_longCall, Reader.callEnd_low short,
    Reader.feedAll_line more, Reader.line_zeros, List.replicate_append_replicate]

/-- Zero octets in two calls fill the buffer to its end, and one octet more is cleared. -/
theorem buffer_left {first second : Nat} (low : first < library.maxDecodeLen)
    (full : first + second = library.maxSockHdlcBuf) (some_ : 0 < second) :
    ¬ Along (feedStep library)
      (fun chan next => ∀ i ∈ indices library chan next, i < library.maxSockHdlcBuf)
      freshDecoder (callsFeeds false [longCall first, List.replicate second 0x00]) := by
  have tracks := (fresh_reaches library (zerosBut first second)).1
  rw [Reader.zerosBut_read low full] at tracks
  have receiving := tracks.opened _ rfl
  have size := receiving.held.size
  have pos := receiving.held.low
  have ones : (feedAll library freshDecoder (zerosBut first second)).rxDecodeOnecnt = 0 :=
    tracks.ones
  rw [List.length_replicate] at size
  have last : 8 ≤ (feedAll library freshDecoder (zerosBut first second)).rxDecodeBitCnt + 1 := by
    omega
  have past : ¬ library.maxSockHdlcBuf <
      (feedAll library freshDecoder (zerosBut first second)).rxDecodeLen + 1 := by
    omega
  intro along
  rw [callsFeeds_zeros some_] at along
  have allowed := (along.drop (run_feeds library freshDecoder (zerosBut first second))).1
    library.maxSockHdlcBuf
  apply Nat.lt_irrefl library.maxSockHdlcBuf
  apply allowed
  rw [indices, ones, if_neg (by decide), if_neg (by decide), dataIndices,
    if_neg receiving.not_noFlag, if_neg Bool.false_ne_true, if_pos last, octetIndices, if_neg past]
  simp only [List.nil_append, List.mem_cons, List.not_mem_nil, or_false]
  omega

theorem wanpipe_hdlc_chunks_short :
    (decodeCalls library false freshDecoder [[0x7E, 0x00], [0x78, 0xF0, 0x7E]]).hdlcData =
      (decodeCalls library false freshDecoder [[0x7E], [], [0x00, 0x78, 0xF0, 0x7E]]).hdlcData :=
  (wanpipe_hdlc_chunks false [0x7E, 0x00, 0x78, 0xF0, 0x7E] (by decide +kernel)
    [[0x7E, 0x00], [0x78, 0xF0, 0x7E]] [[0x7E], [], [0x00, 0x78, 0xF0, 0x7E]] rfl rfl).1

/-- Two cuts of one stream with different counts, and two calls that leave the buffer. -/
theorem wanpipe_hdlc_chunks_long :
    ((∀ buf ∈ [longCall 14500 ++ [0x7E]], buf.length ≤ library.maxSockHdlcBuf) ∧
      (∀ buf ∈ [longCall 14500, [0x7E]], buf.length ≤ library.maxSockHdlcBuf) ∧
      [longCall 14500 ++ [0x7E]].flatten = [longCall 14500, [0x7E]].flatten ∧
      (decodeCalls library false freshDecoder [longCall 14500 ++ [0x7E]]).stats ≠
        (decodeCalls library false freshDecoder [longCall 14500, [0x7E]]).stats) ∧
    ¬ Along (feedStep library)
      (fun chan next => ∀ i ∈ indices library chan next, i < library.maxSockHdlcBuf)
      freshDecoder (callsFeeds false [longCall 14000, List.replicate 1000 0x00]) := by
  have length : ∀ count, (longCall count).length = count + 1 := by
    intro count
    rw [longCall, List.length_cons, List.length_replicate]
  have size : library.maxSockHdlcBuf = 15000 := rfl
  rcases closing_flag_cut (by decide : library.maxDecodeLen ≤ 14500) (by decide) with ⟨none_, one⟩
  refine ⟨⟨?_, ?_, ?_, ?_⟩, buffer_left (by decide) (by decide) (by decide)⟩
  · intro buf member
    rw [List.mem_singleton.mp member, List.length_append, length, size]
    decide
  · intro buf member
    rcases List.mem_cons.mp member with rfl | single
    · rw [length, size]
      decide
    · rw [List.mem_singleton.mp single]
      decide
  · simp only [List.flatten_cons, List.flatten_nil, List.append_nil]
  · intro same
    rw [same, one] at none_
    contradiction

end Wanpipe.Hdlc
