import Wanpipe.Hdlc.Crc
import Wanpipe.Line.Stuffing

/-! The line bits that the encoder writes. -/

namespace Wanpipe.Hdlc

open Line

/-- The idle octet behind a closing flag of which `k` bits have crossed the octet's edge. -/
def rotatedFlag (k : Nat) : List Bool := flag.drop (8 - k) ++ flag.take (8 - k)

theorem flagTable_rotated : ∀ k < 8, octetBits (flagTable.getD k 0) = rotatedFlag k := by
  decide

def repeated (n : Nat) (bits : List Bool) : List Bool := (List.replicate n bits).flatten

@[simp] theorem repeated_zero (bits : List Bool) : repeated 0 bits = [] := rfl

theorem repeated_succ (n : Nat) (bits : List Bool) :
    repeated (n + 1) bits = bits ++ repeated n bits := by
  rw [repeated, List.replicate_succ, List.flatten_cons, repeated]

theorem repeated_snoc (n : Nat) (bits : List Bool) :
    repeated (n + 1) bits = repeated n bits ++ bits := by
  rw [repeated, List.replicate_succ', List.flatten_append, List.flatten_singleton, repeated]

theorem repeated_append (m n : Nat) (bits : List Bool) :
    repeated m bits ++ repeated n bits = repeated (m + n) bits := by
  rw [repeated, repeated, ← List.flatten_append, List.replicate_append_replicate, repeated]

theorem repeated_length (n : Nat) (bits : List Bool) :
    (repeated n bits).length = bits.length * n := by
  induction n with
  | zero => rfl
  | succ n ih => rw [repeated_succ, List.length_append, ih, Nat.mul_succ, Nat.add_comm]

/-- The bits that the encoder has written since the call began. -/
def Writing (chan : Encoder) (line : List Bool) : Prop :=
  Filled chan.bitsInByte chan.txDecodeBuf chan.txDecodeLen chan.txDecodeBitCnt line

/-- What bits leave alone. -/
structure Settled (before after : Encoder) : Prop where
  flag : after.txFlag = before.txFlag
  idle : after.txFlagIdle = before.txFlagIdle
  offset : after.txFlagOffset = before.txFlagOffset
  data : after.txFlagOffsetData = before.txFlagOffsetData
  width : after.bitsInByte = before.bitsInByte
  crc : after.txCrc = before.txCrc
  fin : after.txCrcFin = before.txCrcFin

theorem Settled.refl (chan : Encoder) : Settled chan chan := ⟨rfl, rfl, rfl, rfl, rfl, rfl, rfl⟩

theorem Settled.trans {first second third : Encoder} (left : Settled first second)
    (right : Settled second third) : Settled first third :=
  ⟨right.flag.trans left.flag, right.idle.trans left.idle, right.offset.trans left.offset,
    right.data.trans left.data, right.width.trans left.width, right.crc.trans left.crc,
    right.fin.trans left.fin⟩

theorem Settled.count {before after : Encoder} (settled : Settled before after) (ones : Nat) :
    Settled before { after with txDecodeOnecnt := ones } :=
  ⟨settled.flag, settled.idle, settled.offset, settled.data, settled.width, settled.crc,
    settled.fin⟩

/-- The bits sent for data bits: with `flag` 0 they are stuffed. -/
def sentBits (flag ones : Nat) (bits : List Bool) : List Bool :=
  if flag = 0 then stuff ones bits else bits

theorem advance_settled (chan : Encoder) : Settled chan (advance chan) := by
  unfold advance
  split <;> exact ⟨rfl, rfl, rfl, rfl, rfl, rfl, rfl⟩

theorem put_settled (chan : Encoder) (buf : Nat → Octet) :
    Settled chan (advance { chan with txDecodeBuf := buf }) := by
  rcases advance_settled { chan with txDecodeBuf := buf } with
    ⟨flag, idle, offset, data, width, crc, fin⟩
  exact ⟨flag, idle, offset, data, width, crc, fin⟩

/-- A bit at the place of the next one. -/
def putBit (chan : Encoder) (bit : Bool) : Encoder :=
  advance
    { chan with txDecodeBuf := orBit chan.txDecodeBuf chan.txDecodeLen chan.txDecodeBitCnt bit }

theorem advance_eq_putBit (chan : Encoder) : advance chan = putBit chan false := by
  rw [putBit, orBit_false]

theorem putBit_count (chan : Encoder) (bit : Bool) (ones : Nat) :
    putBit { chan with txDecodeOnecnt := ones } bit =
      { putBit chan bit with txDecodeOnecnt := ones } := by
  simp only [putBit, advance]
  split <;> rfl

theorem putBits_count (chan : Encoder) (bits : List Bool) (ones : Nat) :
    bits.foldl putBit { chan with txDecodeOnecnt := ones } =
      { bits.foldl putBit chan with txDecodeOnecnt := ones } := by
  induction bits generalizing chan with
  | nil => rfl
  | cons bit bits ih => rw [List.foldl_cons, putBit_count, ih, List.foldl_cons]

theorem sentBits_nil (flag ones : Nat) : sentBits flag ones [] = [] := by
  unfold sentBits
  split <;> rfl

theorem sentBits_cons (flag ones : Nat) (bit : Bool) (bits : List Bool) :
    sentBits flag ones (bit :: bits) =
      sentBits flag ones [bit] ++ sentBits flag (stuffOnes ones [bit]) bits := by
  unfold sentBits
  split
  · exact stuff_append ones [bit] bits
  · rfl

/-- What one bit does: it is put, with the bit that is stuffed behind it, and counted. -/
theorem encodeBit_puts (flag : Nat) (chan : Encoder) (bit : Bool) :
    encodeBit flag chan bit =
      { (sentBits flag chan.txDecodeOnecnt [bit]).foldl putBit chan with
        txDecodeOnecnt := stuffOnes chan.txDecodeOnecnt [bit] } := by
  cases bit with
  | false =>
      have same : sentBits flag chan.txDecodeOnecnt [false] = [false] := by
        unfold sentBits
        split <;> rfl
      rw [same]
      rfl
  | true =>
      by_cases fifth : chan.txDecodeOnecnt + 1 = 5
      · by_cases stuffing : flag = 0
        · have same : sentBits flag chan.txDecodeOnecnt [true] = [true, false] := by
            simp [sentBits, stuffing, stuff, fifth]
          rw [same, List.foldl_cons, List.foldl_cons, ← advance_eq_putBit]
          simp only [encodeBit, fifth, stuffing, stuffOnes, if_true]
          rfl
        · have same : sentBits flag chan.txDecodeOnecnt [true] = [true] := by
            simp [sentBits, stuffing]
          rw [same]
          simp only [encodeBit, fifth, stuffing, stuffOnes, if_true, if_false]
          rfl
      · have same : sentBits flag chan.txDecodeOnecnt [true] = [true] := by
          simp [sentBits, stuff, fifth]
        rw [same]
        simp only [encodeBit, fifth, stuffOnes, if_true, if_false]
        rfl

theorem encodeBits_puts (flag : Nat) (chan : Encoder) (bits : List Bool) :
    bits.foldl (encodeBit flag) chan =
      { (sentBits flag chan.txDecodeOnecnt bits).foldl putBit chan with
        txDecodeOnecnt := stuffOnes chan.txDecodeOnecnt bits } := by
  induction bits generalizing chan with
  | nil =>
      rw [sentBits_nil]
      rfl
  | cons bit bits ih =>
      have count : stuffOnes (stuffOnes chan.txDecodeOnecnt [bit]) bits =
          stuffOnes chan.txDecodeOnecnt (bit :: bits) :=
        (stuffOnes_append chan.txDecodeOnecnt [bit] bits).symm
      rw [List.foldl_cons, ih, encodeBit_puts, putBits_count,
        sentBits_cons flag chan.txDecodeOnecnt bit bits, List.foldl_append, ← count]

theorem encodeBits_ones (flag : Nat) (chan : Encoder) (bits : List Bool) :
    (bits.foldl (encodeBit flag) chan).txDecodeOnecnt = stuffOnes chan.txDecodeOnecnt bits := by
  rw [encodeBits_puts]

theorem putBits_settled (chan : Encoder) (bits : List Bool) :
    Settled chan (bits.foldl putBit chan) := by
  induction bits generalizing chan with
  | nil => exact Settled.refl chan
  | cons bit bits ih => exact (put_settled chan _).trans (ih _)

theorem encodeBits_settled (flag : Nat) (chan : Encoder) (bits : List Bool) :
    Settled chan (bits.foldl (encodeBit flag) chan) := by
  rw [encodeBits_puts]
  exact (putBits_settled chan _).count _

theorem put_writing {chan : Encoder} {line : List Bool} (bit : Bool)
    (writing : Writing chan line) : Writing (putBit chan bit) (line ++ [bit]) := by
  have low := writing.low
  rcases Nat.lt_or_ge (chan.txDecodeBitCnt + 1) chan.bitsInByte with within | full
  · simp only [putBit, advance, Nat.not_le.mpr within, if_false]
    exact writing.within bit within
  · simp only [putBit, advance, full, if_true]
    exact writing.close bit (by omega)

theorem putBits_writing {chan : Encoder} {line : List Bool} (bits : List Bool)
    (writing : Writing chan line) : Writing (bits.foldl putBit chan) (line ++ bits) := by
  induction bits generalizing chan line with
  | nil =>
      rw [List.append_nil]
      exact writing
  | cons bit bits ih =>
      rw [List.append_cons]
      exact ih (put_writing bit writing)

theorem encodeBits_writing {chan : Encoder} {line : List Bool} (flag : Nat) (bits : List Bool)
    (writing : Writing chan line) :
    Writing (bits.foldl (encodeBit flag) chan)
        (line ++ sentBits flag chan.txDecodeOnecnt bits) ∧
      (bits.foldl (encodeBit flag) chan).txDecodeOnecnt = stuffOnes chan.txDecodeOnecnt bits ∧
      Settled chan (bits.foldl (encodeBit flag) chan) := by
  refine ⟨?_, encodeBits_ones flag chan bits, encodeBits_settled flag chan bits⟩
  rw [encodeBits_puts]
  exact putBits_writing _ writing

/-- An octet that is no closing flag. -/
theorem encodeByte_writing {chan : Encoder} {line : List Bool} (flag : Nat) (byte : Octet)
    (writing : Writing chan line) (inner : flag ≠ 1) :
    Writing (encodeByte flag chan byte)
        (line ++ sentBits flag chan.txDecodeOnecnt (octetBits byte)) ∧
      (encodeByte flag chan byte).txDecodeOnecnt =
        stuffOnes chan.txDecodeOnecnt (octetBits byte) ∧
      Settled chan (encodeByte flag chan byte) := by
  have whole := encodeBits_writing flag (octetBits byte) writing
  simp only [encodeByte, inner, if_false]
  exact whole

/-- `n` idle octets. -/
theorem encodeIdle_writing (n : Nat) {chan : Encoder} {line : List Bool}
    (writing : Writing chan line) :
    Writing (encodeIdle n chan) (line ++ repeated n (octetBits chan.txFlagIdle)) ∧
      Settled chan (encodeIdle n chan) := by
  induction n generalizing chan line with
  | zero =>
      rw [repeated_zero, List.append_nil]
      exact ⟨writing, Settled.refl chan⟩
  | succ n ih =>
      rcases encodeByte_writing 2 chan.txFlagIdle writing (by decide) with ⟨next, _, settled⟩
      rcases ih next with ⟨last, rest⟩
      rw [settled.idle] at last
      rw [encodeIdle, repeated_succ, ← List.append_assoc]
      exact ⟨last, settled.trans rest⟩

/-- The data octets, and the check sum over them. -/
theorem encodeData_writing (usrData : List Octet) {chan : Encoder} {line : List Bool}
    (writing : Writing chan line) :
    ∃ last, usrData.foldl (fun chan byte => encodeByte 0 (calcTxCrc chan byte) byte) chan = last ∧
      Writing last (line ++ stuff chan.txDecodeOnecnt (lineBits usrData)) ∧
      last.txDecodeOnecnt = stuffOnes chan.txDecodeOnecnt (lineBits usrData) ∧
      last.txCrc = fcs chan.txCrc usrData ∧ last.txFlag = chan.txFlag ∧
      last.bitsInByte = chan.bitsInByte := by
  induction usrData generalizing chan line with
  | nil =>
      refine ⟨chan, rfl, ?_, rfl, rfl, rfl, rfl⟩
      rw [lineBits, List.flatMap_nil, stuff, List.append_nil]
      exact writing
  | cons byte usrData ih =>
      have summed : Writing (calcTxCrc chan byte) line := writing
      rcases encodeByte_writing 0 byte summed (by decide) with ⟨next, ones, settled⟩
      rcases ih next with ⟨last, spelled, written, count, crc, flag, width⟩
      rw [ones] at written count
      refine ⟨last, spelled, ?_, ?_, ?_, flag.trans settled.flag, width.trans settled.width⟩
      · rw [lineBits_cons, stuff_append, ← List.append_assoc]
        exact written
      · rw [lineBits_cons, stuffOnes_append]
        exact count
      · rw [crc, settled.crc, calcTxCrc, crcStep_eq]
        rfl

theorem flag_octetBits : octetBits 0x7E = flag := by decide

/-- The closing flag, and what the encoder keeps of it for the next call. -/
theorem encodeClosing_writing {chan : Encoder} {line : List Bool} (writing : Writing chan line)
    (flag_ : chan.txFlag = 0x7E) :
    ∃ last, encodeByte 1 chan chan.txFlag = last ∧ Writing last (line ++ flag) ∧
      last.txFlag = 0x7E ∧ last.bitsInByte = chan.bitsInByte ∧
      last.txFlagIdle = flagTable.getD last.txDecodeBitCnt 0 ∧
      last.txFlagOffset = last.txDecodeBitCnt ∧
      last.txFlagOffsetData = last.txDecodeBuf last.txDecodeLen := by
  rcases encodeBits_writing 1 flag writing with ⟨written, _, settled⟩
  have step : encodeByte 1 chan chan.txFlag =
      { flag.foldl (encodeBit 1) chan with
        txFlagIdle := flagTable.getD (flag.foldl (encodeBit 1) chan).txDecodeBitCnt 0
        txFlagOffset := (flag.foldl (encodeBit 1) chan).txDecodeBitCnt
        txFlagOffsetData := (flag.foldl (encodeBit 1) chan).txDecodeBuf
          (flag.foldl (encodeBit 1) chan).txDecodeLen } := by
    rw [flag_, encodeByte, if_pos rfl, flag_octetBits]
  generalize flag.foldl (encodeBit 1) chan = sent at written settled step
  exact ⟨_, step, written, settled.flag.trans flag_, settled.width, rfl, rfl, rfl⟩

/-- A packet behind whatever the call has written before. -/
theorem encodePacket_writing (usrData : List Octet) {chan : Encoder} {line : List Bool}
    (writing : Writing chan line) (flag_ : chan.txFlag = 0x7E) (frame : List Octet)
    (sum : fcs chan.txCrc usrData = fcs 0xFFFF#16 frame) :
    ∃ last, encodePacket chan usrData = last ∧
      Writing last
        (line ++ stuff chan.txDecodeOnecnt (lineBits (usrData ++ fcsOctets frame)) ++ flag) ∧
      last.txFlag = 0x7E ∧ last.bitsInByte = chan.bitsInByte ∧
      last.txFlagIdle = flagTable.getD last.txDecodeBitCnt 0 ∧
      last.txFlagOffset = last.txDecodeBitCnt ∧
      last.txFlagOffsetData = last.txDecodeBuf last.txDecodeLen := by
  rcases encodeData_writing usrData writing with ⟨sent, spelled, data, ones, crc, keeps, width⟩
  have check := wordOctets_fin frame
  rw [← sum, ← crc] at check
  generalize fin : decodeCrc (flipCrc sent.txCrc) = word at check
  have summed : Writing { sent with txCrcFin := word }
      (line ++ stuff chan.txDecodeOnecnt (lineBits usrData)) := data
  rcases encodeByte_writing 0 (((word >>> 8) &&& 0xFF#16).setWidth 8) summed (by decide) with
    ⟨high, highOnes, settled⟩
  rcases encodeByte_writing 0 ((word &&& 0xFF#16).setWidth 8) high (by decide) with
    ⟨low, _, settled'⟩
  have both := settled.trans settled'
  rcases encodeClosing_writing low (both.flag.trans (keeps.trans flag_)) with
    ⟨last, closes, written, flag', width', idle, offset, left⟩
  refine ⟨last, ?_, ?_, flag', ?_, idle, offset, left⟩
  · rw [← closes, encodePacket, spelled, fin]
    simp only [settled.fin]
  · have joined : stuff chan.txDecodeOnecnt (lineBits (usrData ++ fcsOctets frame)) =
        stuff chan.txDecodeOnecnt (lineBits usrData) ++
          (stuff sent.txDecodeOnecnt (octetBits (((word >>> 8) &&& 0xFF#16).setWidth 8)) ++
            stuff
              (stuffOnes sent.txDecodeOnecnt (octetBits (((word >>> 8) &&& 0xFF#16).setWidth 8)))
              (octetBits ((word &&& 0xFF#16).setWidth 8))) := by
      rw [← check, wordOctets, lineBits_append, stuff_append, ← ones, lineBits_cons, lineBits_cons,
        stuff_append, show lineBits [] = [] from rfl, List.append_nil]
    rw [highOnes] at written
    rw [joined, ← List.append_assoc line, ← List.append_assoc (line ++ _)]
    exact written
  · rw [width', both.width]
    exact width

end Wanpipe.Hdlc
