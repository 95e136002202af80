import Wanpipe.Hdlc.Extends
import Wanpipe.Hdlc.Fill

/-! The library in `seven_bit_hdlc` mode: where the first packet's data begins. -/

namespace Wanpipe.Hdlc

open Line

/-- The octets that were complete before stay as they are. -/
structure Keeps (n : Nat) (before after : Encoder) : Prop where
  len : n ≤ after.txDecodeLen
  octets : ∀ j < n, after.txDecodeBuf j = before.txDecodeBuf j

theorem Keeps.trans {n : Nat} {first second third : Encoder} (left : Keeps n first second)
    (right : Keeps n second third) : Keeps n first third :=
  ⟨right.len, fun j early => (right.octets j early).trans (left.octets j early)⟩

theorem advance_keeps {n : Nat} {before chan : Encoder} (held : Keeps n before chan) :
    Keeps n before (advance chan) := by
  unfold advance
  split
  · refine ⟨Nat.le_succ_of_le held.len, ?_⟩
    intro j early
    have later : j ≠ chan.txDecodeLen + 1 :=
      Nat.ne_of_lt (Nat.lt_succ_of_lt (Nat.lt_of_lt_of_le early held.len))
    exact (Function.update_of_ne later ..).trans (held.octets j early)
  · exact ⟨held.len, held.octets⟩

theorem encodeBit_keeps {n : Nat} {before chan : Encoder} (flag : Nat) (bit : Bool)
    (held : Keeps n before chan) : Keeps n before (encodeBit flag chan bit) := by
  have put : Keeps n before (advance { chan with
      txDecodeBuf := orBit chan.txDecodeBuf chan.txDecodeLen chan.txDecodeBitCnt bit }) := by
    apply advance_keeps
    refine ⟨held.len, ?_⟩
    intro j early
    have full : j ≠ chan.txDecodeLen := Nat.ne_of_lt (Nat.lt_of_lt_of_le early held.len)
    exact (Function.update_of_ne full ..).trans (held.octets j early)
  unfold encodeBit
  split
  · split
    · split
      · exact ⟨(advance_keeps put).len, (advance_keeps put).octets⟩
      · exact ⟨put.len, put.octets⟩
    · exact ⟨put.len, put.octets⟩
  · exact ⟨put.len, put.octets⟩

theorem encodeByte_keeps {n : Nat} {before chan : Encoder} (flag : Nat) (byte : Octet)
    (held : Keeps n before chan) : Keeps n before (encodeByte flag chan byte) := by
  have bits : ∀ (bits : List Bool) (chan : Encoder), Keeps n before chan →
      Keeps n before (bits.foldl (encodeBit flag) chan) := by
    intro bits
    induction bits with
    | nil => exact fun _ held => held
    | cons bit bits ih => exact fun chan held => ih _ (encodeBit_keeps flag bit held)
  have sent := bits (octetBits byte) chan held
  simp only [encodeByte]
  split
  · exact ⟨sent.len, sent.octets⟩
  · exact sent

theorem encodePacket_keeps {n : Nat} {before chan : Encoder} (usrData : List Octet)
    (held : Keeps n before chan) : Keeps n before (encodePacket chan usrData) := by
  have data : ∀ (chan : Encoder), Keeps n before chan → Keeps n before
      (usrData.foldl (fun chan byte => encodeByte 0 (calcTxCrc chan byte) byte) chan) := by
    induction usrData with
    | nil => exact fun _ held => held
    | cons byte usrData ih =>
        intro chan held
        exact ih _ (encodeByte_keeps 0 byte ⟨held.len, held.octets⟩)
  have sent := data chan held
  simp only [encodePacket]
  apply encodeByte_keeps
  apply encodeByte_keeps
  apply encodeByte_keeps
  exact ⟨sent.len, sent.octets⟩

/-- Any call's first octet carries seven bits of the idle octet. -/
theorem sevenBit_first_octet (chan : Encoder) (usrData : List Octet) :
    ∃ rest, (wanpipeHdlcEncode library true chan usrData).2.1 =
      octetOf ((octetBits chan.txFlagIdle).take 7) :: rest := by
  have start : Writing (startCall true chan) [] := filled_start 7 _ (by decide) (by decide) rfl
  rcases encodeIdle_writing 4 start with ⟨idles, settled⟩
  rcases encodeByte_writing 2 (encodeIdle 4 (startCall true chan)).txFlagOffsetData idles
    (by decide) with ⟨tail, _, settled'⟩
  have filled : Filled _ _ _ _ _ := tail
  rw [(settled.trans settled').width, show (startCall true chan).bitsInByte = 7 from rfl, sentBits,
    if_neg (by decide), List.nil_append] at filled
  have len := filled.len_eq
  rw [List.length_append, repeated_length, octetBits_length, octetBits_length] at len
  have first := filled.done 0 (by omega)
  rw [Nat.mul_zero, List.drop_zero, repeated_succ, List.append_assoc,
    List.take_append_of_le_length (by rw [octetBits_length]; decide)] at first
  have opened : 1 ≤ (encodePreamble library true chan).txDecodeLen := by
    simp only [encodePreamble]
    split
    · show 1 ≤ _ - 1
      rw [show library.preamble = 4 from rfl]
      omega
    · rw [show library.preamble = 4 from rfl]
      omega
  have kept := encodePacket_keeps usrData
    (⟨opened, fun _ _ => rfl⟩ : Keeps 1 (encodePreamble library true chan) _)
  have some_ := kept.len
  obtain ⟨n, more⟩ : ∃ n, (encodePacket (encodePreamble library true chan) usrData).txDecodeLen =
      n + 1 := ⟨_, (Nat.sub_add_cancel some_).symm⟩
  have octet := (kept.octets 0 (by decide)).trans first
  simp only [wanpipeHdlcEncode, show library.padded = false from rfl, Bool.false_eq_true, if_false,
    more, List.range_succ_eq_map, List.map_cons]
  exact ⟨_, congrArg (· :: _) octet⟩

theorem encodeBit_crc (flag : Nat) (chan : Encoder) (bit : Bool) (crc : BitVec 16) :
    encodeBit flag { chan with txCrc := crc } bit =
      { encodeBit flag chan bit with txCrc := crc } := by
  have moved : ∀ chan : Encoder,
      advance { chan with txCrc := crc } = { advance chan with txCrc := crc } := by
    intro chan
    simp only [advance]
    split <;> rfl
  have put := moved { chan with
    txDecodeBuf := orBit chan.txDecodeBuf chan.txDecodeLen chan.txDecodeBitCnt bit }
  simp only [encodeBit, put]
  split
  · split
    · split
      · rw [moved]
      · rfl
    · rfl
  · rfl

private theorem first_bit_octets :
    ∀ bit : Bool, ∀ j < 5,
      (encodeBit 0 (encodePreamble library true freshEncoder) bit).txDecodeBuf j =
        octetOf (((repeated 3 flag ++ flag.take 7).drop (7 * j)).take 7) := by
  decide +kernel

private theorem first_bit_fields :
    ∀ bit : Bool,
      (encodeBit 0 (encodePreamble library true freshEncoder) bit).txDecodeLen = 4 ∧
        (encodeBit 0 (encodePreamble library true freshEncoder) bit).txDecodeBitCnt = 3 ∧
        (encodeBit 0 (encodePreamble library true freshEncoder) bit).bitsInByte = 7 ∧
        (encodeBit 0 (encodePreamble library true freshEncoder) bit).txFlag = 0x7E ∧
        (encodeBit 0 (encodePreamble library true freshEncoder) bit).txDecodeOnecnt =
          stuffOnes 0 [bit] := by
  decide +kernel

private theorem preamble_crc :
    (encodePreamble library true freshEncoder).txCrc = 0xFFFF#16 := by
  decide +kernel

/-- The first data bit lands on the seventh bit of the last idle flag, a one that stays set. -/
theorem first_bit_writing (bit : Bool) :
    Writing (encodeBit 0 (encodePreamble library true freshEncoder) bit)
      (repeated 3 flag ++ flag.take 7) := by
  rcases first_bit_fields bit with ⟨len, cnt, width, _, _⟩
  have octets := first_bit_octets bit
  rw [Writing, len, cnt, width]
  refine ⟨by decide, by decide, rfl, ?_, ?_⟩
  · intro j early
    exact octets j (Nat.lt_succ_of_lt early)
  · rw [octets 4 (by decide)]
    rfl

/-- The line of a fresh engine's first packet: flags, then the data bits but the first. -/
def shiftedLine (usrData : List Octet) : List Bool :=
  repeated 3 flag ++ flag.take 7 ++
    stuff (stuffOnes 0 ((lineBits (frame usrData)).take 1)) ((lineBits (frame usrData)).drop 1) ++
    flag

theorem first_packet_writing (byte : Octet) (usrData : List Octet) :
    ∃ last, encodePacket (encodePreamble library true freshEncoder) (byte :: usrData) = last ∧
      Writing last (shiftedLine (byte :: usrData)) ∧ last.bitsInByte = 7 ∧
      last.txFlagIdle = flagTable.getD last.txDecodeBitCnt 0 := by
  obtain ⟨bit, bits, spelled⟩ : ∃ bit bits, octetBits byte = bit :: bits := ⟨_, _, rfl⟩
  rcases first_bit_fields bit with ⟨_, _, width, flag_, ones⟩
  have first : Writing
      { encodeBit 0 (encodePreamble library true freshEncoder) bit with
        txCrc := fcsOctet 0xFFFF#16 byte }
      (repeated 3 flag ++ flag.take 7) := first_bit_writing bit
  have step : encodeByte 0 (calcTxCrc (encodePreamble library true freshEncoder) byte) byte =
      bits.foldl (encodeBit 0)
        { encodeBit 0 (encodePreamble library true freshEncoder) bit with
          txCrc := fcsOctet 0xFFFF#16 byte } := by
    rw [encodeByte, spelled, List.foldl_cons, calcTxCrc, encodeBit_crc, preamble_crc, crcStep_eq]
    rfl
  rcases encodeBits_writing 0 bits first with ⟨octet, count, settled⟩
  rw [← step] at octet count settled
  rcases encodePacket_writing usrData octet (settled.flag.trans flag_) (byte :: usrData)
    (by rw [settled.crc]; rfl) with ⟨last, encoded, line, _, width', idle, _⟩
  refine ⟨last, encoded, ?_, width'.trans (settled.width.trans width), idle⟩
  have joined : lineBits (frame (byte :: usrData)) =
      bit :: (bits ++ lineBits (usrData ++ fcsOctets (byte :: usrData))) := by
    rw [frame, List.cons_append, lineBits_cons, spelled, List.cons_append]
  rw [shiftedLine, joined, List.take_succ_cons, List.take_zero, List.drop_succ_cons, List.drop_zero,
    stuff_append, ← ones, ← List.append_assoc (_ ++ flag.take 7)]
  rw [count] at line
  exact line

/-- The first call's octets and the idle octet behind them. -/
theorem first_call (byte : Octet) (usrData : List Octet) :
    ∃ last, wanpipeHdlcEncode library true freshEncoder (byte :: usrData) =
        (last,
          unitOctets 7 [] ((shiftedLine (byte :: usrData)).length / 7)
            (shiftedLine (byte :: usrData)),
          flagTable.getD ((shiftedLine (byte :: usrData)).length % 7) 0) ∧
      last.txFlagIdle = flagTable.getD ((shiftedLine (byte :: usrData)).length % 7) 0 := by
  rcases first_packet_writing byte usrData with ⟨last, encoded, line, width, idle⟩
  have held : Filled last.bitsInByte _ _ _ _ := line
  rw [width] at held
  have octets := held.octets
  rw [held.len_eq] at octets
  rw [held.pos_eq] at idle
  refine ⟨{ last with txDecodeLen := 0 }, ?_, idle⟩
  simp only [wanpipeHdlcEncode, encoded, show library.padded = false from rfl, Bool.false_eq_true,
    if_false]
  rw [held.len_eq, octets, idle]

/-- The first call and the octet behind it: the closing flag comes complete. -/
theorem first_octets (byte : Octet) (usrData : List Octet) (idles : Nat)
    (packets : List (List Octet × Nat)) (followed : 1 ≤ idles ∨ packets ≠ []) :
    ∃ octet after, transmit library true freshEncoder ((byte :: usrData, idles) :: packets) =
        unitOctets 7 [] ((shiftedLine (byte :: usrData)).length / 7)
          (shiftedLine (byte :: usrData)) ++ [octet] ++ after ∧
      (octetBits octet).take 7 =
        (rotatedFlag ((shiftedLine (byte :: usrData)).length % 7)).take 7 := by
  rcases first_call byte usrData with ⟨last, encoded, idle⟩
  have seven : (shiftedLine (byte :: usrData)).length % 7 < 7 := Nat.mod_lt _ (by decide)
  have rotated := flagTable_rotated _ (Nat.lt_succ_of_lt seven)
  rcases idles with _ | idles
  · rcases packets with _ | ⟨⟨data, count⟩, packets⟩
    · simp at followed
    · rcases sevenBit_first_octet last data with ⟨rest, begins⟩
      rw [idle, rotated] at begins
      rcases called : wanpipeHdlcEncode library true last data with ⟨next, octets, nextIdle⟩
      rw [called] at begins
      simp only at begins
      refine ⟨octetOf ((rotatedFlag ((shiftedLine (byte :: usrData)).length % 7)).take 7),
        rest ++ (List.replicate count nextIdle ++ transmit library true next packets), ?_, ?_⟩
      · simp only [transmit, encoded, called, begins, List.replicate_zero, List.append_nil,
          List.cons_append, List.append_assoc, List.nil_append]
      · rw [octetBits_octetOf_take _ 7]
        · rw [List.take_take, Nat.min_self]
        · rw [List.length_take, rotatedFlag_length (Nat.lt_succ_of_lt seven)]
          decide
        · exact Nat.le_trans (List.length_take_le ..) (by decide)
  · refine ⟨flagTable.getD ((shiftedLine (byte :: usrData)).length % 7) 0,
      List.replicate idles (flagTable.getD ((shiftedLine (byte :: usrData)).length % 7) 0) ++
        transmit library true last packets, ?_, congrArg (List.take 7) rotated⟩
    simp only [transmit, encoded, List.replicate_succ, List.append_assoc, List.cons_append,
      List.nil_append]

/-- The bits of these octets: the whole line and part of one more flag. -/
theorem first_bits (usrData : List Octet) (octet : Octet)
    (begins : (octetBits octet).take 7 =
      (rotatedFlag ((shiftedLine usrData).length % 7)).take 7) :
    ∃ j < 8, unitBits 7
        (unitOctets 7 [] ((shiftedLine usrData).length / 7) (shiftedLine usrData) ++ [octet]) =
      shiftedLine usrData ++ flag.take j := by
  have eight : flag.length = 8 := rfl
  have seven : (shiftedLine usrData).length % 7 < 7 := Nat.mod_lt _ (by decide)
  have whole : 7 * ((shiftedLine usrData).length / 7) ≤ (shiftedLine usrData).length :=
    Nat.mul_div_le _ 7
  have parts : (shiftedLine usrData).length =
      7 * ((shiftedLine usrData).length / 7) + (shiftedLine usrData).length % 7 :=
    (Nat.div_add_mod _ 7).symm
  refine ⟨7 - (shiftedLine usrData).length % 7, by omega, ?_⟩
  have single : unitBits 7 [octet] = (octetBits octet).take 7 := List.append_nil _
  rw [unitBits_append, single, begins, unitBits_unitOctets 7 [] _ _ (by decide) whole]
  generalize (shiftedLine usrData).length % 7 = k at *
  generalize 7 * ((shiftedLine usrData).length / 7) = cut at *
  rw [shiftedLine] at parts ⊢
  generalize repeated 3 flag ++ flag.take 7 ++
    stuff (stuffOnes 0 ((lineBits (frame usrData)).take 1)) ((lineBits (frame usrData)).drop 1) =
    front at *
  have split : cut = front.length + (8 - k) := by
    rw [List.length_append] at parts
    omega
  have cross : ∀ k < 7, (rotatedFlag k).take 7 = flag.drop (8 - k) ++ flag.take (7 - k) := by
    decide
  rw [split, List.take_length_add_append, cross k seven, List.append_assoc front,
    ← List.append_assoc (flag.take (8 - k)), List.take_append_drop, List.append_assoc]

/-- A stuffed line behind seven ones: the first zero is data, stuffed or not. -/
theorem line_overrun (bits : List Bool) (sent ones : Nat) (got : List Bool) (few : sent < 5)
    (seven : 7 ≤ ones) (low : ones + (5 - sent) ≤ 100) :
    ∃ more count, Reader.line ⟨ones, some got, [], 0, 0, 0⟩ (stuff sent bits) =
        ⟨count, some (got ++ more), [], 0, 0, 0⟩ ∧
      bits.length ≤ more.length ∧ count ≠ 5 ∧ count ≠ 6 := by
  induction bits generalizing sent ones got with
  | nil => exact ⟨[], ones, by rw [List.append_nil]; rfl, Nat.le_refl 0, by omega, by omega⟩
  | cons bit bits ih =>
      have small : (ones + 1) % 256 = ones + 1 := Nat.mod_eq_of_lt (by omega)
      have rest := Reader.line_stuff [] 0 0 0 bits 0
      have ends : stuffOnes 0 bits < 5 := stuffOnes_lt 0 bits (by decide)
      cases bit with
      | false =>
          refine ⟨false :: bits, stuffOnes 0 bits, ?_, Nat.le_refl _, by omega, by omega⟩
          have zero : Reader.bit ⟨ones, some got, [], 0, 0, 0⟩ false =
              ⟨0, some (got ++ [false]), [], 0, 0, 0⟩ := by
            simp [Reader.bit, Reader.put, show ones ≠ 5 by omega, show ones ≠ 6 by omega]
          rw [stuff, Reader.line_cons, zero, rest _ (by decide), List.append_assoc]
          rfl
      | true =>
          have one : Reader.bit ⟨ones, some got, [], 0, 0, 0⟩ true =
              ⟨ones + 1, some (got ++ [true]), [], 0, 0, 0⟩ := by
            simp [Reader.bit, Reader.put, small]
          by_cases fifth : sent + 1 = 5
          · refine ⟨true :: false :: bits, stuffOnes 0 bits, ?_, by simp, by omega, by omega⟩
            have zero : Reader.bit ⟨ones + 1, some (got ++ [true]), [], 0, 0, 0⟩ false =
                ⟨0, some (got ++ [true] ++ [false]), [], 0, 0, 0⟩ := by
              simp [Reader.bit, Reader.put, show ones + 1 ≠ 5 by omega, show ones ≠ 5 by omega]
            rw [stuff, if_pos fifth, Reader.line_cons, one, Reader.line_cons, zero,
              rest _ (by decide), List.append_assoc, List.append_assoc]
            rfl
          · rcases ih (sent + 1) (ones + 1) (got ++ [true]) (by omega) (by omega) (by omega) with
              ⟨more, count, read, length, five, six⟩
            refine ⟨true :: more, count, ?_, Nat.succ_le_succ length, five, six⟩
            rw [stuff, if_neg fifth, Reader.line_cons, one, read, List.append_assoc]
            rfl

/-- Bits that come back two places late would have to alternate up to their end. -/
theorem shifted_ne (bit : Bool) (bits : List Bool) (n : Nat) (even : bits.length = 2 * n) :
    bit :: false :: bits ≠ bits ++ [false, true] := by
  induction n generalizing bit bits with
  | zero =>
      obtain rfl : bits = [] := List.eq_nil_of_length_eq_zero even
      simp
  | succ n ih =>
      rcases bits with _ | ⟨first, _ | ⟨second, bits⟩⟩
      · simp at even
      · simp at even
        omega
      · intro same
        simp only [List.cons_append, List.cons.injEq] at same
        rcases same with ⟨_, rfl, rest⟩
        exact ih first bits (by simp at even; omega) rest

theorem lineBits_wholeOctets (bits : List Bool) :
    lineBits (wholeOctets bits) = bits.take (8 * (bits.length / 8)) :=
  lineBits_unitOctets _ _ (Nat.mul_div_le _ 8)

/-- What a fresh reader makes of the first packet: the stretch it closes is not the frame. -/
theorem shiftedLine_read (byte : Octet) (usrData : List Octet) :
    ∃ got, wholeOctets got ≠ frame (byte :: usrData) ∧ 3 ≤ (wholeOctets got).length ∧
      Reader.start.line (shiftedLine (byte :: usrData)) =
        { Reader.judge ⟨6, some got, [], 0, 0, 0⟩ (wholeOctets got) with ones := 0 } := by
  have size : (lineBits (frame (byte :: usrData))).length = 8 * (usrData.length + 3) := by
    rw [lineBits_length, frame, List.length_append, fcsOctets_length, List.length_cons]
  obtain ⟨first, second, bits, spelled⟩ : ∃ first second bits,
      lineBits (frame (byte :: usrData)) = first :: second :: bits := ⟨_, _, _, rfl⟩
  have length : bits.length = 8 * (usrData.length + 3) - 2 := by
    rw [spelled, List.length_cons, List.length_cons] at size
    omega
  have opened : Reader.start.line (repeated 3 flag ++ flag.take 7) =
      ⟨6, some (flag.take 7), [], 0, 0, 0⟩ := rfl
  rw [shiftedLine, spelled, List.take_succ_cons, List.take_zero, List.drop_succ_cons,
    List.drop_zero, Reader.line_append, Reader.line_append, opened]
  cases second with
  | false =>
      -- the data's second bit ends the last flag
      have ended : Reader.bit ⟨6, some (flag.take 7), [], 0, 0, 0⟩ false = Reader.ready [] := rfl
      rw [stuff, Reader.line_cons, ended]
      have read : Reader.line (Reader.ready []) (stuff 0 bits) =
          ⟨stuffOnes 0 bits, some bits, [], 0, 0, 0⟩ :=
        Reader.line_stuff [] 0 0 0 bits 0 [] (by decide)
      have few : stuffOnes 0 bits < 5 := stuffOnes_lt 0 bits (by decide)
      have whole : (bits ++ flag.take 7).length / 8 = usrData.length + 3 := by
        rw [List.length_append, length]
        show (_ + 7) / 8 = _
        omega
      have octets : lineBits (wholeOctets (bits ++ flag.take 7)) = bits ++ [false, true] := by
        rw [lineBits_wholeOctets, whole, show 8 * (usrData.length + 3) = bits.length + 2 by omega,
          List.take_length_add_append]
        rfl
      refine ⟨bits ++ flag.take 7, ?_, ?_, ?_⟩
      · intro same
        rw [same, spelled] at octets
        exact shifted_ne first bits (4 * usrData.length + 11) (by omega) octets
      · rw [wholeOctets_length, whole]
        exact Nat.le_add_left 3 _
      · rw [read, Reader.line_flag _ _ _ _ _ (by omega) (by omega)]
  | true =>
      -- the last flag runs on into seven ones or more
      have run : Reader.bit ⟨6, some (flag.take 7), [], 0, 0, 0⟩ true =
          ⟨7, some (flag.take 7 ++ [true]), [], 0, 0, 0⟩ := rfl
      have sent : stuffOnes 0 [first] + 1 < 5 := by cases first <;> decide
      rcases line_overrun bits (stuffOnes 0 [first] + 1) 7 (flag.take 7 ++ [true]) sent
        (Nat.le_refl 7) (by omega) with ⟨more, count, read, longer, five, six⟩
      have long : usrData.length + 4 ≤
          (flag.take 7 ++ [true] ++ more ++ flag.take 7).length / 8 := by
        rw [List.length_append, List.length_append]
        show _ ≤ (8 + more.length + 7) / 8
        omega
      refine ⟨flag.take 7 ++ [true] ++ more ++ flag.take 7, ?_, ?_, ?_⟩
      · intro same
        have octets := congrArg List.length same
        rw [wholeOctets_length] at octets
        rw [lineBits_length] at size
        omega
      · rw [wholeOctets_length]
        omega
      · rw [stuff, if_neg (Nat.ne_of_lt sent), Reader.line_cons, run, read,
          Reader.line_flag _ _ _ _ _ five six]

/-- At the end of the first closing flag: another frame has been read, or a check sum error. -/
theorem shiftedLine_verdict (byte : Octet) (usrData : List Octet) :
    ∃ reader, Reader.start.line (shiftedLine (byte :: usrData)) = reader ∧ reader.ones = 0 ∧
      ((∃ octets, octets ≠ frame (byte :: usrData) ∧ reader.frames = [octets]) ∨
        reader.crc = 1) := by
  rcases shiftedLine_read byte usrData with ⟨got, wrong, long, read⟩
  have filled : wholeOctets got ≠ [] := by
    intro empty
    rw [empty] at long
    contradiction
  refine ⟨_, read, rfl, ?_⟩
  rw [Reader.judge, if_neg filled, if_neg (Nat.not_lt.mpr long)]
  by_cases good : GoodFcs (wholeOctets got)
  · rw [if_pos good]
    exact Or.inl ⟨wholeOctets got, wrong, rfl⟩
  · rw [if_neg good]
    exact Or.inr rfl

/-- Part of a flag leaves the frames and the check sum errors as they are. -/
theorem part_frames (reader : Reader) (start : reader.ones = 0) {j : Nat} (part : j < 8) :
    (reader.line (flag.take j)).frames = reader.frames ∧
      (reader.line (flag.take j)).crc = reader.crc := by
  interval_cases j <;> simp [flag, Reader.bit, Reader.put, start]

/-- A fresh engine in 7-bit mode never hands up its peer's first packet first, unless it counts a
check sum error. -/
theorem seven_bit_never (packet : List Octet × Nat) (expected more : List (List Octet × Nat))
    (calls : List (List Octet))
    (some_ : ∀ sent ∈ packet :: expected ++ more, sent.1 ≠ [])
    (fits : EncodingsFit library true freshEncoder (packet :: expected ++ more))
    (followed : more ≠ [] ∨ ∀ last ∈ (packet :: expected).getLast?, 1 ≤ last.2)
    (fed : calls.flatten = transmit library true freshEncoder (packet :: expected ++ more)) :
    ¬ ((packet :: expected).map (fun sent => sent.1 ++ fcsOctets sent.1) <+:
          (decodeCalls library true freshDecoder calls).hdlcData ∧
        (decodeCalls library true freshDecoder calls).stats.crc = 0) := by
  rcases packet with ⟨_ | ⟨byte, usrData⟩, idles⟩
  · exact absurd rfl (some_ ([], idles) List.mem_cons_self)
  have next : 1 ≤ idles ∨ expected ++ more ≠ [] := by
    rcases followed with some_more | idle
    · exact Or.inr (List.append_ne_nil_of_right_ne_nil _ some_more)
    · rcases expected with _ | ⟨other, expected⟩
      · exact Or.inl (idle (byte :: usrData, idles) rfl)
      · exact Or.inr nofun
  rcases first_octets byte usrData idles (expected ++ more) next with ⟨octet, after, line, begins⟩
  rcases first_bits (byte :: usrData) octet begins with ⟨j, part, bits⟩
  rcases shiftedLine_verdict byte usrData with ⟨reader, read, zero, verdict⟩
  rw [List.cons_append] at fits fed
  have short : Reader.start.Within (library.maxDecodeLen - 1)
      (unitBits 7 (unitOctets 7 [] ((shiftedLine (byte :: usrData)).length / 7)
        (shiftedLine (byte :: usrData)) ++ [octet])) := by
    rcases first_call byte usrData with ⟨last, encoded, _⟩
    have size := fits.1
    rw [encoded, unitOctets_length, show library.hdlcEngBufLen = 8000 from rfl] at size
    have some_flag : (flag.take j).length ≤ 8 := List.length_take_le' ..
    rw [bits, show library.maxDecodeLen = 14500 from rfl]
    apply Reader.Within.of_length
    rw [List.length_append]
    show 0 + _ < _
    omega
  rcases decodeCalls_prefix true calls (fed.trans line) (by decide) freshDecoder_tracks (by decide)
    short with ⟨middle, tracks, later⟩
  rw [show bitsPerByte true = 7 from rfl, bits, Reader.line_append, read] at tracks
  rcases part_frames reader zero part with ⟨frames, crc⟩
  rintro ⟨⟨others, delivered⟩, clean⟩
  rcases verdict with ⟨octets, wrong, first⟩ | error
  · rcases later.data with ⟨rest, data⟩
    rw [tracks.data, frames, first, ← delivered] at data
    simp only [List.cons_append, List.map_cons, List.cons.injEq] at data
    exact wrong data.1
  · have kept := later.crc
    rw [tracks.stats, crc, error, clean] at kept
    exact Nat.not_succ_le_zero 0 kept

theorem seven_bit_never_zeros :
    ¬ ([([0x00, 0x00], 0), ([0x55], 1)].map (fun sent => sent.1 ++ fcsOctets sent.1) <+:
          (decodeCalls library true freshDecoder
            [transmit library true freshEncoder [([0x00, 0x00], 0), ([0x55], 1)]]).hdlcData ∧
        (decodeCalls library true freshDecoder
          [transmit library true freshEncoder [([0x00, 0x00], 0), ([0x55], 1)]]).stats.crc = 0) :=
  seven_bit_never ([0x00, 0x00], 0) [([0x55], 1)] [] _ (by decide) (by decide +kernel)
    (Or.inr (by decide)) (List.append_nil _)

/-- One octet and an idle octet behind it: a check sum error, and nothing handed up. -/
theorem seven_bit_first_lost :
    EncodingsFit library true freshEncoder [([0x01], 1)] ∧
      (decodeCalls library true freshDecoder
        [transmit library true freshEncoder [([0x01], 1)]]).hdlcData = [] ∧
      (decodeCalls library true freshDecoder
        [transmit library true freshEncoder [([0x01], 1)]]).stats.crc = 1 := by
  decide +kernel

end Wanpipe.Hdlc
