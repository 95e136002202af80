import Wanpipe.Hdlc.EncoderLine
import Wanpipe.Hdlc.Decoder
import Wanpipe.Hdlc.Transmit

/-! How many octets an encoding has, and which buffers they fit in. -/

namespace Wanpipe.Hdlc

open Line

/-- What `wanpipe_hdlc_encode` returns and leaves at `hdlc_data`, `hdlc_len` and `next_idle`. -/
structure Encoded where
  err : Int
  hdlcData : List Octet
  hdlcLen : Nat
  nextIdle : Octet
  deriving DecidableEq, Repr

/-- The encoder called with a capacity in `*hdlc_len`: it is copied to `max_hdlc_len` and not looked
at again. -/
def encodeInto (build : Build) (sevenBitHdlc : Bool) (chan : Encoder) (usrData : List Octet)
    (_maxHdlcLen : Nat) : Encoder × Encoded :=
  let (chan, hdlcData, nextIdle) := wanpipeHdlcEncode build sevenBitHdlc chan usrData
  (chan, ⟨0, hdlcData, hdlcData.length, nextIdle⟩)

/-- The capacity for a packet in `wp_lip_hdlc_rx`. -/
def lipCapacity (txData : List Octet) : Nat := txData.length * 2

/-- What the caller of the encoder needs. -/
def Encoded.Fits (encoded : Encoded) (capacity : Nat) : Prop :=
  encoded.err ≠ 0 ∨ encoded.hdlcData.length ≤ capacity

instance (encoded : Encoded) (capacity : Nat) : Decidable (encoded.Fits capacity) :=
  inferInstanceAs (Decidable (_ ∨ _))

/-- The place of the next bit: octets of `width` bits, and `pos` bits in all. -/
structure Place (chan : Encoder) (width pos : Nat) : Prop where
  wide : chan.bitsInByte = width
  low : chan.txDecodeBitCnt < width
  spot : width * chan.txDecodeLen + chan.txDecodeBitCnt = pos

theorem Place.len {chan : Encoder} {width pos : Nat} (place : Place chan width pos) :
    chan.txDecodeLen = pos / width := by
  have low := place.low
  rw [← place.spot, Nat.mul_add_div (by omega), Nat.div_eq_of_lt low, Nat.add_zero]

theorem advance_place {chan : Encoder} {width pos : Nat} (place : Place chan width pos) :
    Place (advance chan) width (pos + 1) := by
  rcases place with ⟨rfl, low, rfl⟩
  rcases Nat.lt_or_ge (chan.txDecodeBitCnt + 1) chan.bitsInByte with open_ | full
  · rw [advance, if_neg (Nat.not_le.mpr open_)]
    exact ⟨rfl, open_, rfl⟩
  · have last : chan.bitsInByte = chan.txDecodeBitCnt + 1 := by omega
    rw [advance, if_pos full]
    refine ⟨rfl, Nat.zero_lt_of_lt low, ?_⟩
    simp only [Nat.mul_succ]
    omega

theorem putBits_place {chan : Encoder} {width pos : Nat} (bits : List Bool)
    (place : Place chan width pos) :
    Place (bits.foldl putBit chan) width (pos + bits.length) := by
  induction bits generalizing chan pos with
  | nil => exact place
  | cons bit bits ih =>
      have next : Place (putBit chan bit) width (pos + 1) :=
        advance_place ⟨place.wide, place.low, place.spot⟩
      rw [List.length_cons, Nat.add_comm bits.length, ← Nat.add_assoc]
      exact ih next

theorem Place.count {chan : Encoder} {width pos : Nat} (place : Place chan width pos)
    (ones : Nat) : Place { chan with txDecodeOnecnt := ones } width pos :=
  ⟨place.wide, place.low, place.spot⟩

theorem encodeBits_place {chan : Encoder} {width pos : Nat} (flag : Nat) (bits : List Bool)
    (place : Place chan width pos) :
    Place (bits.foldl (encodeBit flag) chan) width
        (pos + (sentBits flag chan.txDecodeOnecnt bits).length) ∧
      (bits.foldl (encodeBit flag) chan).txDecodeOnecnt = stuffOnes chan.txDecodeOnecnt bits ∧
      Settled chan (bits.foldl (encodeBit flag) chan) := by
  refine ⟨?_, encodeBits_ones flag chan bits, encodeBits_settled flag chan bits⟩
  rw [encodeBits_puts]
  exact (putBits_place _ place).count _

/-- An octet that is no closing flag. -/
theorem encodeByte_place {chan : Encoder} {width pos : Nat} (flag : Nat) (byte : Octet)
    (place : Place chan width pos) (inner : flag ≠ 1) :
    Place (encodeByte flag chan byte) width
        (pos + (sentBits flag chan.txDecodeOnecnt (octetBits byte)).length) ∧
      (encodeByte flag chan byte).txDecodeOnecnt =
        stuffOnes chan.txDecodeOnecnt (octetBits byte) ∧
      Settled chan (encodeByte flag chan byte) := by
  have whole := encodeBits_place flag (octetBits byte) place
  simp only [encodeByte, inner, if_false]
  exact whole

theorem encodeIdle_place {width pos : Nat} (n : Nat) {chan : Encoder}
    (place : Place chan width pos) :
    Place (encodeIdle n chan) width (pos + 8 * n) ∧ Settled chan (encodeIdle n chan) := by
  induction n generalizing chan pos with
  | zero => exact ⟨place, Settled.refl chan⟩
  | succ n ih =>
      rcases encodeByte_place 2 chan.txFlagIdle place (by decide) with ⟨next, _, settled⟩
      rw [sentBits, if_neg (by decide), octetBits_length] at next
      rcases ih next with ⟨last, rest⟩
      rw [encodeIdle, Nat.mul_succ, Nat.add_comm (8 * n), ← Nat.add_assoc]
      exact ⟨last, settled.trans rest⟩

/-- Where the data of a call begins, once its first octets are written. -/
def reopen (sevenBitHdlc : Bool) (chan : Encoder) : Encoder :=
  { chan with
    txDecodeLen :=
      if sevenBitHdlc = false ∨ chan.txFlagOffset < 5 then chan.txDecodeLen - 1
      else chan.txDecodeLen
    txDecodeBitCnt :=
      if sevenBitHdlc then (chan.txFlagOffset + 2) % chan.bitsInByte else chan.txFlagOffset
    txDecodeOnecnt := 0 }

theorem reopen_place {sevenBitHdlc : Bool} {chan : Encoder}
    (place : Place chan (bitsPerByte sevenBitHdlc) 24)
    (carried : chan.txFlagOffset < bitsPerByte sevenBitHdlc) :
    Place (reopen sevenBitHdlc chan) (bitsPerByte sevenBitHdlc) (16 + chan.txFlagOffset) := by
  have len := place.len
  have wide := place.wide
  cases sevenBitHdlc with
  | false =>
      have eight : bitsPerByte false = 8 := rfl
      rw [eight] at carried len wide ⊢
      refine ⟨wide, ?_, ?_⟩
      · simpa [reopen] using carried
      · simp only [reopen, true_or, if_true, Bool.false_eq_true, if_false]
        omega
  | true =>
      have seven : bitsPerByte true = 7 := rfl
      rw [seven] at carried len wide ⊢
      rcases Nat.lt_or_ge chan.txFlagOffset 5 with early | late
      · refine ⟨wide, ?_, ?_⟩
        · simp only [reopen, if_true, wide]
          omega
        · simp only [reopen, early, or_true, if_true, wide]
          omega
      · have past : ¬ chan.txFlagOffset < 5 := Nat.not_lt.mpr late
        refine ⟨wide, ?_, ?_⟩
        · simp only [reopen, if_true, wide]
          omega
        · simp only [reopen, past, or_false, Bool.true_eq_false, if_false, if_true, wide]
          omega

/-- Two idle octets and the rest of the last closing flag. -/
theorem encodePreamble_place {sevenBitHdlc : Bool} {chan : Encoder}
    (carried : chan.txFlagOffset < bitsPerByte sevenBitHdlc) :
    Place (encodePreamble kernel sevenBitHdlc chan) (bitsPerByte sevenBitHdlc)
        (16 + chan.txFlagOffset) ∧
      (encodePreamble kernel sevenBitHdlc chan).txDecodeOnecnt = 0 ∧
      (encodePreamble kernel sevenBitHdlc chan).txCrc = 0xFFFF#16 := by
  have start : Place (startCall sevenBitHdlc chan) (bitsPerByte sevenBitHdlc) 0 := by
    refine ⟨rfl, ?_, rfl⟩
    show 0 < bitsPerByte sevenBitHdlc
    cases sevenBitHdlc <;> decide
  rcases encodeIdle_place 2 start with ⟨idles, settled⟩
  rcases encodeByte_place 2 (encodeIdle 2 (startCall sevenBitHdlc chan)).txFlagOffsetData idles
    (by decide) with ⟨tail, _, settled'⟩
  have both := settled.trans settled'
  have step : encodePreamble kernel sevenBitHdlc chan =
      reopen sevenBitHdlc (encodeByte 2 (encodeIdle 2 (startCall sevenBitHdlc chan))
        (encodeIdle 2 (startCall sevenBitHdlc chan)).txFlagOffsetData) := rfl
  have offset : (startCall sevenBitHdlc chan).txFlagOffset = chan.txFlagOffset := rfl
  have crc : (startCall sevenBitHdlc chan).txCrc = 0xFFFF#16 := rfl
  rw [sentBits, if_neg (by decide), octetBits_length] at tail
  rw [← offset, ← both.offset] at carried ⊢
  rw [← crc, ← both.crc, step]
  exact ⟨reopen_place tail carried, rfl, rfl⟩

theorem encodeData_place {width pos : Nat} (usrData : List Octet) {chan : Encoder}
    (place : Place chan width pos) :
    ∃ last, usrData.foldl (fun chan byte => encodeByte 0 (calcTxCrc chan byte) byte) chan = last ∧
      Place last width (pos + (stuff chan.txDecodeOnecnt (lineBits usrData)).length) ∧
      last.txDecodeOnecnt = stuffOnes chan.txDecodeOnecnt (lineBits usrData) ∧
      last.txCrc = fcs chan.txCrc usrData := by
  induction usrData generalizing chan pos with
  | nil => exact ⟨chan, rfl, place, rfl, rfl⟩
  | cons byte usrData ih =>
      have summed : Place (calcTxCrc chan byte) width pos := ⟨place.wide, place.low, place.spot⟩
      rcases encodeByte_place 0 byte summed (by decide) with ⟨next, ones, settled⟩
      rcases ih next with ⟨last, spelled, placed, count, crc⟩
      rw [ones] at placed count
      refine ⟨last, spelled, ?_, ?_, ?_⟩
      · rw [lineBits_cons, stuff_append, List.length_append, ← Nat.add_assoc]
        exact placed
      · rw [lineBits_cons, stuffOnes_append]
        exact count
      · rw [crc, settled.crc, calcTxCrc, crcStep_eq]
        rfl

theorem encodeClosing_place {chan : Encoder} {width pos : Nat} (byte : Octet)
    (place : Place chan width pos) : Place (encodeByte 1 chan byte) width (pos + 8) := by
  have written := (encodeBits_place 1 (octetBits byte) place).1
  rw [sentBits, if_neg (by decide), octetBits_length] at written
  exact ⟨written.wide, written.low, written.spot⟩

/-- A packet takes its stuffed bits and eight for the closing flag. -/
theorem encodePacket_place {width pos : Nat} (usrData : List Octet) {chan : Encoder}
    (place : Place chan width pos) (ones : chan.txDecodeOnecnt = 0)
    (crc : chan.txCrc = 0xFFFF#16) :
    Place (encodePacket chan usrData) width (pos + (packetBits usrData).length + 8) := by
  rcases encodeData_place usrData place with ⟨sent, spelled, data, count, sum⟩
  have check := wordOctets_fin usrData
  rw [← crc, ← sum] at check
  rw [ones] at data count
  rw [encodePacket, spelled]
  generalize decodeCrc (flipCrc sent.txCrc) = word at check
  have summed : Place { sent with txCrcFin := word } width
      (pos + (stuff 0 (lineBits usrData)).length) :=
    ⟨data.wide, data.low, data.spot⟩
  rcases encodeByte_place 0 (((word >>> 8) &&& 0xFF#16).setWidth 8) summed (by decide) with
    ⟨high, highOnes, settled⟩
  rcases encodeByte_place 0 ((word &&& 0xFF#16).setWidth 8) high (by decide) with ⟨low, _, _⟩
  have closed := encodeClosing_place
    (encodeByte 0 (encodeByte 0 { sent with txCrcFin := word }
      (((word >>> 8) &&& 0xFF#16).setWidth 8)) ((word &&& 0xFF#16).setWidth 8)).txFlag low
  have joined : packetBits usrData =
      stuff 0 (lineBits usrData) ++
        (sentBits 0 sent.txDecodeOnecnt (octetBits (((word >>> 8) &&& 0xFF#16).setWidth 8)) ++
          sentBits 0
            (stuffOnes sent.txDecodeOnecnt (octetBits (((word >>> 8) &&& 0xFF#16).setWidth 8)))
            (octetBits ((word &&& 0xFF#16).setWidth 8))) := by
    rw [packetBits, ← check, wordOctets, lineBits_append, stuff_append, ← count,
      lineBits_cons, lineBits_cons, stuff_append, show lineBits [] = [] from rfl, List.append_nil]
    rfl
  rw [highOnes] at closed
  rw [joined, List.length_append, List.length_append, ← Nat.add_assoc, ← Nat.add_assoc]
  simp only [settled.fin]
  exact closed

/-- The place behind the padding loop, with the rounds that are left. -/
def padPlace (width : Nat) : Nat → Nat → Nat
  | 0, pos => pos
  | rounds + 1, pos => if pos / width % 4 = 0 then pos else padPlace width rounds (pos + 8)

theorem encodePadding_place {width : Nat} (rounds : Nat) {chan : Encoder} {pos : Nat}
    (place : Place chan width pos) :
    Place (encodePadding rounds chan) width (padPlace width rounds pos) := by
  induction rounds generalizing chan pos with
  | zero => exact place
  | succ rounds ih =>
      rw [encodePadding, padPlace, place.len]
      split
      · exact place
      · have next := (encodeByte_place 2 chan.txFlagIdle place (by decide)).1
        rw [sentBits, if_neg (by decide), octetBits_length] at next
        exact ih next

theorem encodePadding_offset {width : Nat} (rounds : Nat) {chan : Encoder} {pos : Nat}
    (place : Place chan width pos) :
    (encodePadding rounds chan).txFlagOffset = chan.txFlagOffset := by
  induction rounds generalizing chan pos with
  | zero => rfl
  | succ rounds ih =>
      rw [encodePadding]
      split
      · rfl
      · rcases encodeByte_place 2 chan.txFlagIdle place (by decide) with ⟨next, _, settled⟩
        exact (ih next).trans settled.offset

/-- The octets of an encoding, from the mode, the carried offset and the stuffed bits. -/
def encodedLen (sevenBitHdlc : Bool) (txFlagOffset : Nat) (usrData : List Octet) : Nat :=
  padPlace (bitsPerByte sevenBitHdlc) 7 (24 + txFlagOffset + (packetBits usrData).length) /
    bitsPerByte sevenBitHdlc

theorem wanpipeHdlcEncode_length {sevenBitHdlc : Bool} {chan : Encoder} (usrData : List Octet)
    (carried : chan.txFlagOffset < bitsPerByte sevenBitHdlc) :
    (wanpipeHdlcEncode kernel sevenBitHdlc chan usrData).2.1.length =
      encodedLen sevenBitHdlc chan.txFlagOffset usrData := by
  rcases encodePreamble_place carried with ⟨opened, ones, crc⟩
  have packet := encodePacket_place usrData opened ones crc
  have padded := (encodePadding_place 7 packet).len
  have start : 16 + chan.txFlagOffset + (packetBits usrData).length + 8 =
      24 + chan.txFlagOffset + (packetBits usrData).length := by omega
  rw [start] at padded
  have whole : (wanpipeHdlcEncode kernel sevenBitHdlc chan usrData).2.1.length =
      (encodePadding 7 (encodePacket (encodePreamble kernel sevenBitHdlc chan) usrData)).txDecodeLen
      := by
    simp only [wanpipeHdlcEncode, show kernel.padded = true from rfl, if_true, List.length_map,
      List.length_range]
  rw [whole, padded, encodedLen]

/-- The offset that a call leaves is one that a call can be given. -/
theorem wanpipeHdlcEncode_carried {sevenBitHdlc : Bool} {chan : Encoder} (usrData : List Octet)
    (carried : chan.txFlagOffset < bitsPerByte sevenBitHdlc) :
    (wanpipeHdlcEncode kernel sevenBitHdlc chan usrData).1.txFlagOffset <
      bitsPerByte sevenBitHdlc := by
  rcases encodePreamble_place carried with ⟨opened, ones, crc⟩
  have packet := encodePacket_place usrData opened ones crc
  have offset : ∀ chan : Encoder, (encodePacket chan usrData).txFlagOffset =
      (encodePacket chan usrData).txDecodeBitCnt := fun _ => rfl
  have kept := encodePadding_offset 7 packet
  have whole : (wanpipeHdlcEncode kernel sevenBitHdlc chan usrData).1.txFlagOffset =
      (encodePadding 7 (encodePacket (encodePreamble kernel sevenBitHdlc chan) usrData)).txFlagOffset
      := by
    simp only [wanpipeHdlcEncode, show kernel.padded = true from rfl, if_true]
  rw [whole, kept, offset]
  exact packet.low

/-- At most one bit is inserted for every five. -/
theorem stuff_length_most (ones : Nat) (bits : List Bool) (few : ones < 5) :
    5 * (stuff ones bits).length ≤ 6 * bits.length + ones := by
  induction bits generalizing ones with
  | nil => simp [stuff]
  | cons bit bits ih =>
      cases bit with
      | false =>
          have rest := ih 0 (by decide)
          simp only [stuff, List.length_cons]
          omega
      | true =>
          by_cases fifth : ones + 1 = 5
          · have rest := ih 0 (by decide)
            simp only [stuff, fifth, if_true, List.length_cons]
            omega
          · have rest := ih (ones + 1) (by omega)
            simp only [stuff, fifth, if_false, List.length_cons]
            omega

theorem packetBits_length (usrData : List Octet) :
    8 * (usrData.length + 2) ≤ (packetBits usrData).length ∧
      5 * (packetBits usrData).length ≤ 48 * (usrData.length + 2) := by
  have least := stuff_length_le 0 (lineBits (usrData ++ fcsOctets usrData))
  have most := stuff_length_most 0 (lineBits (usrData ++ fcsOctets usrData)) (by decide)
  rw [lineBits_length, List.length_append, fcsOctets_length] at least most
  rw [packetBits]
  omega

/-- Whole groups of four octets before do not change the padding. -/
theorem padPlace_shift {width : Nat} (some_ : 0 < width) (rounds groups pos : Nat) :
    padPlace width rounds (width * (4 * groups) + pos) =
      width * (4 * groups) + padPlace width rounds pos := by
  induction rounds generalizing pos with
  | zero => rfl
  | succ rounds ih =>
      have group : (width * (4 * groups) + pos) / width % 4 = pos / width % 4 := by
        rw [Nat.mul_add_div some_]
        omega
      rw [padPlace, padPlace, group, Nat.add_assoc, ih (pos + 8)]
      split <;> rfl

theorem padPlace_eight (pos : Nat) :
    padPlace 8 7 pos / 8 % 4 = 0 ∧ pos / 8 ≤ padPlace 8 7 pos / 8 ∧
      padPlace 8 7 pos / 8 ≤ pos / 8 + 3 := by
  have groups : ∀ rest < 32, padPlace 8 7 rest / 8 % 4 = 0 ∧ rest / 8 ≤ padPlace 8 7 rest / 8 ∧
      padPlace 8 7 rest / 8 ≤ rest / 8 + 3 := by decide
  have small := groups (pos % 32) (Nat.mod_lt _ (by decide))
  have split : pos = 8 * (4 * (pos / 32)) + pos % 32 := by omega
  rw [split, padPlace_shift (by decide)]
  omega

/-- In 7-bit mode a round can step over a multiple of four octets, and three more follow. -/
theorem padPlace_seven (pos : Nat) :
    padPlace 7 7 pos / 7 % 4 = 0 ∧ pos / 7 ≤ padPlace 7 7 pos / 7 ∧
      7 * (padPlace 7 7 pos / 7) ≤ pos + 45 := by
  have groups : ∀ rest < 28, padPlace 7 7 rest / 7 % 4 = 0 ∧ rest / 7 ≤ padPlace 7 7 rest / 7 ∧
      7 * (padPlace 7 7 rest / 7) ≤ rest + 45 := by decide
  have small := groups (pos % 28) (Nat.mod_lt _ (by decide))
  have split : pos = 7 * (4 * (pos / 28)) + pos % 28 := by omega
  rw [split, padPlace_shift (by decide)]
  omega

/-- Packets of five octets or less are too short for their flags, long ones are not. -/
theorem encodedLen_double (sevenBitHdlc : Bool) {txFlagOffset : Nat} (usrData : List Octet)
    (carried : txFlagOffset < bitsPerByte sevenBitHdlc) :
    (usrData.length ≤ 5 → lipCapacity usrData < encodedLen sevenBitHdlc txFlagOffset usrData) ∧
      ((if sevenBitHdlc then 18 else 10) ≤ usrData.length →
        encodedLen sevenBitHdlc txFlagOffset usrData ≤ lipCapacity usrData) := by
  rcases packetBits_length usrData with ⟨least, most⟩
  rw [encodedLen, lipCapacity]
  cases sevenBitHdlc with
  | false =>
      have eight : bitsPerByte false = 8 := rfl
      rw [eight] at carried ⊢
      have padded := padPlace_eight (24 + txFlagOffset + (packetBits usrData).length)
      simp only [Bool.false_eq_true, if_false]
      omega
  | true =>
      have seven : bitsPerByte true = 7 := rfl
      rw [seven] at carried ⊢
      have padded := padPlace_seven (24 + txFlagOffset + (packetBits usrData).length)
      simp only [if_true]
      omega

end Wanpipe.Hdlc
