import Wanpipe.Hdlc.Crc
import Wanpipe.Hdlc.Reader

/-! The decoder's buffer, check sum ring and flag states hold what a reader of the line knows. -/

namespace Wanpipe.Hdlc

open Line

theorem wholeOctets_length (bits : List Bool) : (wholeOctets bits).length = bits.length / 8 := by
  rw [wholeOctets, unitOctets_length]

/-- Behind a flag, with the destuffed bits since then. -/
structure Receiving (chan : Decoder) (bits : List Bool) : Prop where
  held : Filled 8 chan.rxDecodeBuf chan.rxDecodeLen chan.rxDecodeBitCnt bits
  flag : chan.hdlcFlag = if chan.rxDecodeLen = 0 then .openFlag else .closingFlag
  cur : chan.crcCur = chan.rxDecodeLen % 3
  prv : chan.crcPrv = chan.rxDecodeLen % 3
  ring : ∀ i ≤ chan.rxDecodeLen, chan.rxDecodeLen < i + 3 →
    chan.rxCrc (i % 3) = fcs 0xFFFF#16 ((wholeOctets bits).take i)
  low : 1 ≤ chan.rxDecodeLen → (wholeOctets bits).drop (chan.rxDecodeLen - 1) =
    [(chan.rxOrigCrc &&& 0xFF#16).setWidth 8]
  orig : 2 ≤ chan.rxDecodeLen → (wholeOctets bits).drop (chan.rxDecodeLen - 2) =
    wordOctets chan.rxOrigCrc

/-- What data bits leave alone. -/
structure Unreported (before after : Decoder) : Prop where
  ones : after.rxDecodeOnecnt = before.rxDecodeOnecnt
  data : after.hdlcData = before.hdlcData
  stats : after.stats = before.stats

theorem Receiving.len {chan : Decoder} {bits : List Bool} (receiving : Receiving chan bits) :
    chan.rxDecodeLen = bits.length / 8 := receiving.held.len_eq

theorem Receiving.octets {chan : Decoder} {bits : List Bool} (receiving : Receiving chan bits) :
    (List.range chan.rxDecodeLen).map chan.rxDecodeBuf = wholeOctets bits := by
  rw [receiving.held.octets, wholeOctets, receiving.len]

theorem restart_receiving (chan : Decoder) (opened : chan.hdlcFlag = .openFlag) :
    Receiving { restartPacket chan with rxDecodeOnecnt := 0 } [] := by
  have clear : (restartPacket chan).rxDecodeBuf 0 = 0 := by simp [restartPacket]
  refine ⟨?_, opened, rfl, rfl, ?_, ?_, ?_⟩
  · exact filled_start 8 _ (Nat.le_refl 8) (by decide) clear
  · intro i none_ _
    obtain rfl : i = 0 := Nat.eq_zero_of_le_zero none_
    rfl
  · intro some_
    exact absurd some_ (by decide : ¬ 1 ≤ 0)
  · intro some_
    exact absurd some_ (by decide : ¬ 2 ≤ 0)

/-- The check sum ring takes the octet that `data` completes. -/
theorem ring_next {len : Nat} {octets : List Octet} {rxCrc : Nat → BitVec 16} (data : Octet)
    (size : octets.length = len)
    (ring : ∀ i ≤ len, len < i + 3 → rxCrc (i % 3) = fcs 0xFFFF#16 (octets.take i)) :
    ∀ i ≤ len + 1, len + 1 < i + 3 →
      Function.update rxCrc ((len + 1) % 3) (crcStep (rxCrc (len % 3)) data) (i % 3) =
        fcs 0xFFFF#16 ((octets ++ [data]).take i) := by
  intro i most near
  rcases Nat.lt_or_ge len i with last | early
  · obtain rfl : i = len + 1 := by omega
    have whole : (octets ++ [data]).take (len + 1) = octets ++ [data] :=
      List.take_of_length_le (by rw [List.length_append, List.length_singleton, size])
    have before : rxCrc (len % 3) = fcs 0xFFFF#16 octets := by
      rw [ring len (Nat.le_refl len) (by omega), List.take_of_length_le (Nat.le_of_eq size)]
    rw [Function.update_self, whole, fcs_append, before, crcStep_eq]
    rfl
  · have other : i % 3 ≠ (len + 1) % 3 := by omega
    rw [Function.update_of_ne other, ring i early (by omega),
      List.take_append_of_le_length (by omega)]

theorem incCrcCnt_mod (len : Nat) : incCrcCnt (len % 3) = (len + 1) % 3 := by
  unfold incCrcCnt
  split <;> omega

theorem getFinCrcCnt_mod (len : Nat) (some_ : 2 ≤ len) :
    getFinCrcCnt (len % 3) = (len - 2) % 3 := by
  unfold getFinCrcCnt decCrcCnt
  split <;> split <;> omega

/-- The bit that completes an octet. -/
theorem nextOctet_receiving {build : Build} {chan : Decoder} {bits : List Bool} (bit : Bool)
    (receiving : Receiving chan bits) (full : chan.rxDecodeBitCnt + 1 = 8)
    (room : chan.rxDecodeLen + 1 ≤ build.maxSockHdlcBuf) (count : Nat) :
    Receiving
        (nextOctet build
          { chan with
            rxDecodeBuf := orBit chan.rxDecodeBuf chan.rxDecodeLen chan.rxDecodeBitCnt bit
            rxDecodeBitCnt := count })
        (bits ++ [bit]) ∧
      Unreported chan
        (nextOctet build
          { chan with
            rxDecodeBuf := orBit chan.rxDecodeBuf chan.rxDecodeLen chan.rxDecodeBitCnt bit
            rxDecodeBitCnt := count }) := by
  have fits : ¬ build.maxSockHdlcBuf < chan.rxDecodeLen + 1 := Nat.not_lt.mpr room
  have size : (wholeOctets bits).length = chan.rxDecodeLen := by
    rw [wholeOctets_length, receiving.len]
  have joined : wholeOctets (bits ++ [bit]) = wholeOctets bits ++
      [orBit chan.rxDecodeBuf chan.rxDecodeLen chan.rxDecodeBitCnt bit chan.rxDecodeLen] := by
    have closed := receiving.held.close bit full
    rw [wholeOctets, ← closed.len_eq, receiving.held.close_octets bit full, wholeOctets,
      receiving.len]
  simp only [nextOctet, calcRxCrc, fits, if_false]
  refine ⟨⟨receiving.held.close bit full, rfl, ?_, ?_, ?_, ?_, ?_⟩, rfl, rfl, rfl⟩
  · rw [receiving.cur]
    exact incCrcCnt_mod _
  · rw [receiving.prv]
    exact incCrcCnt_mod _
  · rw [joined, receiving.cur, receiving.prv, incCrcCnt_mod]
    exact ring_next _ size receiving.ring
  · intro _
    have second := congrArg (fun octets => octets.drop 1)
      (wordOctets_shift chan.rxOrigCrc _ (orBit chan.rxDecodeBuf chan.rxDecodeLen
        chan.rxDecodeBitCnt bit chan.rxDecodeLen) rfl)
    rw [joined, Nat.add_sub_cancel, ← size, List.drop_left, size]
    exact second.symm
  · intro two
    have one : 1 ≤ chan.rxDecodeLen := Nat.le_of_succ_le_succ two
    have last := receiving.low one
    rw [joined, show chan.rxDecodeLen + 1 - 2 = chan.rxDecodeLen - 1 by omega,
      List.drop_append_of_le_length (by omega), last]
    exact (wordOctets_shift chan.rxOrigCrc _ _ rfl).symm

theorem nextBit_receiving {build : Build} {chan : Decoder} {bits : List Bool} (bit : Bool)
    (receiving : Receiving chan bits)
    (room : (bits ++ [bit]).length / 8 ≤ build.maxSockHdlcBuf) :
    Receiving
        (nextBit build
          { chan with
            rxDecodeBuf := orBit chan.rxDecodeBuf chan.rxDecodeLen chan.rxDecodeBitCnt bit })
        (bits ++ [bit]) ∧
      Unreported chan
        (nextBit build
          { chan with
            rxDecodeBuf :=
              orBit chan.rxDecodeBuf chan.rxDecodeLen chan.rxDecodeBitCnt bit }) := by
  have size := receiving.held.size
  have low := receiving.held.low
  rw [List.length_append, List.length_singleton] at room
  rcases Nat.lt_or_ge (chan.rxDecodeBitCnt + 1) 8 with open_ | full
  · have partial_ : ¬ 8 ≤ chan.rxDecodeBitCnt + 1 := Nat.not_le.mpr open_
    have same : wholeOctets (bits ++ [bit]) = wholeOctets bits := by
      have within := receiving.held.within bit open_
      rw [wholeOctets, ← within.len_eq, unitOctets_append _ _ _ _ _ (by omega), wholeOctets,
        receiving.len]
    simp only [nextBit, partial_, if_false]
    refine ⟨⟨receiving.held.within bit open_, receiving.flag, receiving.cur, receiving.prv,
      ?_, ?_, ?_⟩, rfl, rfl, rfl⟩
    · rw [same]
      exact receiving.ring
    · rw [same]
      exact receiving.low
    · rw [same]
      exact receiving.orig
  · simp only [nextBit, full, if_true]
    exact nextOctet_receiving bit receiving (by omega) (by omega) _

/-- The decoder is where the reader is. -/
structure Tracks (chan : Decoder) (reader : Reader) : Prop where
  ones : chan.rxDecodeOnecnt = reader.ones
  data : chan.hdlcData = reader.frames
  stats : chan.stats =
    ⟨reader.frames.length, reader.crc + reader.abort + reader.frameOverflow, reader.crc,
      reader.abort, reader.frameOverflow⟩
  closed : reader.got = none → chan.hdlcFlag = .noFlag ∧ chan.rxDecodeLen = 0
  opened : ∀ bits, reader.got = some bits → Receiving chan bits

theorem freshDecoder_tracks : Tracks freshDecoder Reader.start := by
  refine ⟨rfl, rfl, rfl, ?_, ?_⟩
  · intro _
    exact ⟨rfl, rfl⟩
  · intro bits none_
    contradiction

theorem Receiving.not_noFlag {chan : Decoder} {bits : List Bool}
    (receiving : Receiving chan bits) : chan.hdlcFlag ≠ .noFlag := by
  rw [receiving.flag]
  split <;> decide

theorem judge_empty (reader : Reader) : reader.judge [] = { reader with got := some [] } := rfl

/-- A packet of three octets or more is good when the ring and the last two octets agree. -/
theorem Receiving.fin_iff {chan : Decoder} {bits : List Bool} (receiving : Receiving chan bits)
    (long : 3 ≤ chan.rxDecodeLen) :
    decodeCrc (flipCrc (chan.rxCrc (getFinCrcCnt chan.crcCur))) = chan.rxOrigCrc ↔
      GoodFcs (wholeOctets bits) := by
  have size : (wholeOctets bits).length = chan.rxDecodeLen := by
    rw [wholeOctets_length, receiving.len]
  have sum := receiving.ring (chan.rxDecodeLen - 2) (by omega) (by omega)
  have last := receiving.orig (by omega)
  have fin := wordOctets_fin ((wholeOctets bits).take (chan.rxDecodeLen - 2))
  rw [receiving.cur, getFinCrcCnt_mod _ (by omega), sum, GoodFcs, size, last, ← fin]
  constructor
  · intro same
    rw [same]
  · intro same
    exact (wordOctets_inj same).symm

theorem endPacket_tracks {chan : Decoder} {reader : Reader} {bits : List Bool}
    (tracks : Tracks chan reader) (receiving : Receiving chan bits)
    (some_ : 1 ≤ chan.rxDecodeLen) :
    Tracks { restartPacket (endPacket chan) with rxDecodeOnecnt := 0 }
      { reader.judge (wholeOctets bits) with ones := 0 } := by
  have size : (wholeOctets bits).length = chan.rxDecodeLen := by
    rw [wholeOctets_length, receiving.len]
  have filled : wholeOctets bits ≠ [] := by
    intro empty
    rw [empty, List.length_nil] at size
    omega
  unfold endPacket Reader.judge
  rw [if_neg filled, size, tracks.stats]
  by_cases long : 3 ≤ chan.rxDecodeLen
  · rw [if_neg (Nat.not_lt.mpr long)]
    simp only [long, if_true]
    by_cases good : GoodFcs (wholeOctets bits)
    · rw [if_pos good]
      simp only [(receiving.fin_iff long).mpr good, if_true]
      refine ⟨rfl, ?_, ?_, nofun, ?_⟩
      · exact congrArg₂ (· ++ ·) tracks.data (congrArg (fun octets => [octets]) receiving.octets)
      · simp [restartPacket]
      · intro rest none_
        obtain rfl : [] = rest := Option.some.inj none_
        apply restart_receiving
        rfl
    · rw [if_neg good]
      simp only [mt (receiving.fin_iff long).mp good, if_false]
      refine ⟨rfl, tracks.data, ?_, fun _ => ⟨rfl, rfl⟩, nofun⟩
      simp [restartPacket, initHdlcDecoder]
      omega
  · rw [if_pos (Nat.lt_of_not_le long)]
    simp only [long, if_false]
    refine ⟨rfl, tracks.data, ?_, nofun, ?_⟩
    · simp [restartPacket]
      omega
    · intro rest none_
      obtain rfl : [] = rest := Option.some.inj none_
      apply restart_receiving
      rfl

theorem gotFlag_noFlag {chan : Decoder} (flag : chan.hdlcFlag = .noFlag) :
    gotFlag chan = restartPacket { chan with hdlcFlag := .openFlag } := by
  rw [gotFlag, flag]

theorem gotFlag_openFlag {chan : Decoder} (flag : chan.hdlcFlag = .openFlag) :
    gotFlag chan = restartPacket chan := by
  rw [gotFlag, flag]

theorem gotFlag_closingFlag {chan : Decoder} (flag : chan.hdlcFlag = .closingFlag) :
    gotFlag chan = restartPacket (endPacket chan) := by
  rw [gotFlag, flag]

theorem mark_none {reader : Reader} (got : reader.got = none) :
    reader.mark = { reader with got := some [] } := by
  rw [Reader.mark, got]

theorem mark_some {reader : Reader} {bits : List Bool} (got : reader.got = some bits) :
    reader.mark = reader.judge (wholeOctets bits) := by
  rw [Reader.mark, got]

theorem gotFlag_tracks {chan : Decoder} {reader : Reader} (tracks : Tracks chan reader) :
    Tracks { gotFlag chan with rxDecodeOnecnt := 0 } { reader.mark with ones := 0 } := by
  cases got : reader.got with
  | none =>
      rcases tracks.closed got with ⟨flag, _⟩
      rw [gotFlag_noFlag flag, mark_none got]
      refine ⟨rfl, tracks.data, tracks.stats, ?_, ?_⟩
      · intro none_
        contradiction
      · intro rest none_
        obtain rfl : [] = rest := Option.some.inj none_
        apply restart_receiving
        rfl
  | some bits =>
      have receiving := tracks.opened bits got
      have flag := receiving.flag
      rw [mark_some got]
      rcases Nat.eq_zero_or_pos chan.rxDecodeLen with empty | some_
      · have nothing : wholeOctets bits = [] := by
          apply List.eq_nil_of_length_eq_zero
          rw [wholeOctets_length, ← receiving.len, empty]
        rw [if_pos empty] at flag
        rw [nothing, judge_empty, gotFlag_openFlag flag]
        refine ⟨rfl, tracks.data, tracks.stats, ?_, ?_⟩
        · intro none_
          contradiction
        · intro rest none_
          obtain rfl : [] = rest := Option.some.inj none_
          exact restart_receiving _ flag
      · rw [if_neg (Nat.ne_of_gt some_)] at flag
        rw [gotFlag_closingFlag flag]
        exact endPacket_tracks tracks receiving some_

theorem put_tracks {build : Build} {chan : Decoder} {reader : Reader} (bit : Bool)
    (tracks : Tracks chan reader)
    (room : (reader.put bit).collected ≤ build.maxSockHdlcBuf) :
    Tracks
      (if chan.hdlcFlag = .noFlag then chan
        else nextBit build
          { chan with
            rxDecodeBuf := orBit chan.rxDecodeBuf chan.rxDecodeLen chan.rxDecodeBitCnt bit })
      (reader.put bit) := by
  cases got : reader.got with
  | none =>
      have same : reader.put bit = reader := by
        rw [Reader.put, got, Option.map_none, ← got]
      rw [if_pos (tracks.closed got).1, same]
      exact tracks
  | some bits =>
      have receiving := tracks.opened bits got
      have grown : (reader.put bit).got = some (bits ++ [bit]) := by
        rw [Reader.put, got]
        rfl
      rw [Reader.collected, grown] at room
      rcases nextBit_receiving bit receiving room with ⟨next, same⟩
      rw [if_neg receiving.not_noFlag]
      refine ⟨same.ones.trans tracks.ones, same.data.trans tracks.data,
        same.stats.trans tracks.stats, ?_, ?_⟩
      · intro none_
        rw [grown] at none_
        contradiction
      · intro more some_
        rw [grown, Option.some.injEq] at some_
        rwa [← some_]

theorem Tracks.count {chan : Decoder} {reader : Reader} (tracks : Tracks chan reader)
    (ones : Nat) : Tracks { chan with rxDecodeOnecnt := ones } { reader with ones := ones } := by
  refine ⟨rfl, tracks.data, tracks.stats, tracks.closed, ?_⟩
  intro bits got
  have receiving := tracks.opened bits got
  exact ⟨receiving.held, receiving.flag, receiving.cur, receiving.prv, receiving.ring,
    receiving.low, receiving.orig⟩

theorem Tracks.idle {chan : Decoder} {reader : Reader} (tracks : Tracks chan reader) :
    Tracks { chan with gotdata := false } reader := by
  refine ⟨tracks.ones, tracks.data, tracks.stats, tracks.closed, ?_⟩
  intro bits got
  have receiving := tracks.opened bits got
  exact ⟨receiving.held, receiving.flag, receiving.cur, receiving.prv, receiving.ring,
    receiving.low, receiving.orig⟩

theorem decodeBit_tracks {build : Build} {chan : Decoder} {reader : Reader} (bit : Bool)
    (tracks : Tracks chan reader) (room : (reader.bit bit).collected ≤ build.maxSockHdlcBuf) :
    Tracks (decodeBit build chan bit) (reader.bit bit) := by
  cases bit with
  | true =>
      have counted := tracks.count ((reader.ones + 1) % 256)
      simp only [decodeBit, gotOne, if_true, tracks.ones]
      exact put_tracks true counted room
  | false =>
      simp only [decodeBit, gotZero, Bool.false_eq_true, if_false, tracks.ones]
      rw [Reader.bit, if_neg Bool.false_ne_true] at room ⊢
      by_cases stuffed : reader.ones = 5
      · simp only [stuffed, if_true]
        exact tracks.count 0
      · by_cases six : reader.ones = 6
        · simp only [six, if_true]
          exact gotFlag_tracks tracks
        · simp only [stuffed, six, if_false] at room ⊢
          have placed := (put_tracks false tracks room).count 0
          rwa [orBit_false] at placed

theorem decodeBits_tracks {build : Build} {chan : Decoder} {reader : Reader} (bits : List Bool)
    (tracks : Tracks chan reader) (room : reader.Within build.maxSockHdlcBuf bits) :
    Tracks (bits.foldl (decodeBit build) chan) (reader.line bits) := by
  induction bits generalizing chan reader with
  | nil => exact tracks
  | cons bit bits ih => exact ih (decodeBit_tracks bit tracks room.1) room.2

theorem Tracks.len {chan : Decoder} {reader : Reader} (tracks : Tracks chan reader) :
    chan.rxDecodeLen = reader.collected := by
  cases got : reader.got with
  | none => rw [(tracks.closed got).2, Reader.collected, got]; rfl
  | some bits => rw [(tracks.opened bits got).len, Reader.collected, got]; rfl

def bitsPerByte (sevenBitHdlc : Bool) : Nat := if sevenBitHdlc then 7 else 8

theorem decodeBytes_eq (build : Build) (sevenBitHdlc : Bool) (chan : Decoder)
    (buf : List Octet) :
    buf.foldl (decodeByte build sevenBitHdlc) chan =
      (unitBits (bitsPerByte sevenBitHdlc) buf).foldl (decodeBit build) chan := by
  rw [unitBits, List.foldl_flatMap]
  rfl

/-- A decode call is a call on the reader. -/
theorem decode_tracks {build : Build} {chan : Decoder} {reader : Reader} (sevenBitHdlc : Bool)
    (buf : List Octet) (tracks : Tracks chan reader)
    (room : reader.Within build.maxSockHdlcBuf (unitBits (bitsPerByte sevenBitHdlc) buf)) :
    Tracks (wanpipeHdlcDecode build sevenBitHdlc chan buf)
      (reader.call build.maxDecodeLen (unitBits (bitsPerByte sevenBitHdlc) buf)) := by
  have read := decodeBits_tracks _ tracks.idle room
  rw [← decodeBytes_eq] at read
  rw [wanpipeHdlcDecode, Reader.call, Reader.close, read.len]
  split
  · refine ⟨rfl, read.data, ?_, fun _ => ⟨rfl, rfl⟩, nofun⟩
    simp only [initHdlcDecoder, restartPacket, read.stats, Stats.mk.injEq, and_true, true_and]
    omega
  · exact read

/-- Decode calls one after another. -/
def decodeCalls (build : Build) (sevenBitHdlc : Bool) (chan : Decoder)
    (calls : List (List Octet)) : Decoder :=
  calls.foldl (wanpipeHdlcDecode build sevenBitHdlc) chan

/-- No call collects more octets than the buffer holds. -/
def CallsWithin (bound limit : Nat) : Reader → List (List Bool) → Prop
  | _, [] => True
  | reader, bits :: calls =>
      reader.Within bound bits ∧ CallsWithin bound limit (reader.call limit bits) calls

theorem decodeCalls_tracks {build : Build} {chan : Decoder} {reader : Reader}
    (sevenBitHdlc : Bool) (calls : List (List Octet)) (tracks : Tracks chan reader)
    (room : CallsWithin build.maxSockHdlcBuf build.maxDecodeLen reader
      (calls.map (unitBits (bitsPerByte sevenBitHdlc)))) :
    Tracks (decodeCalls build sevenBitHdlc chan calls)
      ((calls.map (unitBits (bitsPerByte sevenBitHdlc))).foldl
        (Reader.call build.maxDecodeLen) reader) := by
  induction calls generalizing chan reader with
  | nil => exact tracks
  | cons buf calls ih => exact ih (decode_tracks sevenBitHdlc buf tracks room.1) room.2

theorem callsWithin_short {bound limit : Nat} (calls : List (List Bool)) (reader : Reader)
    (most : limit ≤ bound) (start : reader.collected < limit)
    (short : reader.Within (limit - 1) calls.flatten) : CallsWithin bound limit reader calls := by
  induction calls generalizing reader with
  | nil => trivial
  | cons bits calls ih =>
      rw [List.flatten_cons] at short
      have low : (reader.line bits).collected < limit := by
        have := Reader.Within.last (by omega) short.left
        omega
      have kept : reader.call limit bits = reader.line bits := if_neg (Nat.not_le.mpr low)
      refine ⟨Reader.Within.mono (by omega) short.left, ?_⟩
      rw [kept]
      exact ih _ low short.right

theorem unitBits_flatten (width : Nat) (calls : List (List Octet)) :
    (calls.map (unitBits width)).flatten = unitBits width calls.flatten := by
  induction calls with
  | nil => rfl
  | cons buf calls ih =>
      rw [List.map_cons, List.flatten_cons, ih, ← unitBits_append, List.flatten_cons]

/-- While every stretch stays below the limit, the cuts between the calls do not show. -/
theorem decodeCalls_short {build : Build} {chan : Decoder} {reader : Reader}
    (sevenBitHdlc : Bool) (calls : List (List Octet))
    (most : build.maxDecodeLen ≤ build.maxSockHdlcBuf) (tracks : Tracks chan reader)
    (start : reader.collected < build.maxDecodeLen)
    (short : reader.Within (build.maxDecodeLen - 1)
      (unitBits (bitsPerByte sevenBitHdlc) calls.flatten)) :
    Tracks (decodeCalls build sevenBitHdlc chan calls)
      (reader.line (unitBits (bitsPerByte sevenBitHdlc) calls.flatten)) := by
  rw [← unitBits_flatten] at short ⊢
  have room := callsWithin_short _ reader most start short
  have read := decodeCalls_tracks sevenBitHdlc calls tracks room
  rwa [Reader.calls_line _ reader start short] at read

/-- Octets fed to a fresh engine in 8-bit mode. -/
theorem fresh_decoded {build : Build} (calls : List (List Octet))
    (most : build.maxDecodeLen ≤ build.maxSockHdlcBuf) (some_ : 0 < build.maxDecodeLen)
    (short : Reader.start.Within (build.maxDecodeLen - 1) (lineBits calls.flatten)) :
    Tracks (decodeCalls build false freshDecoder calls)
      (Reader.start.line (lineBits calls.flatten)) := by
  rw [← unitBits_eight] at short ⊢
  exact decodeCalls_short false calls most freshDecoder_tracks some_ short

end Wanpipe.Hdlc
