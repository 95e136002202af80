import Wanpipe.Hdlc.EncoderLine

/-! Packets encoded one after another, with idle octets between them. -/

namespace Wanpipe.Hdlc

open Line

/-- The octets on the line: each packet's encoding, then copies of the idle octet it returned. -/
def transmit (build : Build) (sevenBitHdlc : Bool) :
    Encoder → List (List Octet × Nat) → List Octet
  | _, [] => []
  | chan, (usrData, idles) :: packets =>
      let (chan, hdlcData, nextIdle) := wanpipeHdlcEncode build sevenBitHdlc chan usrData
      hdlcData ++ List.replicate idles nextIdle ++ transmit build sevenBitHdlc chan packets

/-- Between two packets: `k` bits of the last closing flag are still to be sent. -/
structure Carries (chan : Encoder) (k : Nat) : Prop where
  small : k < 8
  flag : chan.txFlag = 0x7E
  idle : chan.txFlagIdle = flagTable.getD k 0
  offset : chan.txFlagOffset = k
  data : chan.txFlagOffsetData = octetOf (Line.flag.drop (8 - k))

theorem freshEncoder_carries : Carries freshEncoder 0 :=
  ⟨by decide, rfl, rfl, rfl, rfl⟩

def packetBits (usrData : List Octet) : List Bool :=
  stuff 0 (lineBits (usrData ++ fcsOctets usrData))

/-- The line of one call, from its first idle octet to the end of its closing flag. -/
def callLine (build : Build) (k : Nat) (usrData : List Octet) : List Bool :=
  repeated build.preamble (rotatedFlag k) ++ flag.drop (8 - k) ++ packetBits usrData ++ flag

theorem rotatedFlag_length {k : Nat} (small : k < 8) : (rotatedFlag k).length = 8 := by
  rw [rotatedFlag, List.length_append, List.length_drop, List.length_take]
  simp only [flag, List.length_cons, List.length_nil]
  omega

theorem flagTail_length {k : Nat} (small : k < 8) : (flag.drop (8 - k)).length = k := by
  rw [List.length_drop]
  simp only [flag, List.length_cons, List.length_nil]
  omega

theorem callLine_length (build : Build) {k : Nat} (usrData : List Octet) (small : k < 8) :
    (callLine build k usrData).length =
      8 * build.preamble + k + (packetBits usrData).length + 8 := by
  rw [callLine, List.length_append, List.length_append, List.length_append, repeated_length,
    rotatedFlag_length small, flagTail_length small]
  rfl

private theorem carried_octet : ∀ k < 8,
    octetOf ((octetBits (octetOf (flag.drop (8 - k)))).take k) = octetOf (flag.drop (8 - k)) ∧
      (octetBits (octetOf (flag.drop (8 - k)))).take k = flag.drop (8 - k) := by
  decide

/-- The idle octets, and the rest of the last closing flag behind them. -/
theorem encodePreamble_writing (build : Build) {chan : Encoder} {k : Nat}
    (carries : Carries chan k) :
    ∃ next, encodePreamble build false chan = next ∧
      Writing next (repeated build.preamble (rotatedFlag k) ++ flag.drop (8 - k)) ∧
      next.txDecodeOnecnt = 0 ∧ next.txCrc = 0xFFFF#16 ∧ next.txFlag = 0x7E ∧
      next.bitsInByte = 8 := by
  have start : Writing (startCall false chan) [] :=
    filled_start 8 _ (Nat.le_refl 8) (by decide) rfl
  rcases encodeIdle_writing build.preamble start with ⟨idles, settled⟩
  have idleOctet : (startCall false chan).txFlagIdle = flagTable.getD k 0 := carries.idle
  rw [List.nil_append, idleOctet, flagTable_rotated k carries.small] at idles
  rcases encodeByte_writing 2 (encodeIdle build.preamble (startCall false chan)).txFlagOffsetData
    idles (by decide) with ⟨tail, _, settled'⟩
  have both := settled.trans settled'
  rw [settled.data.trans carries.data] at tail both
  have step : encodePreamble build false chan =
      { encodeByte 2 (encodeIdle build.preamble (startCall false chan))
          (octetOf (flag.drop (8 - k))) with
        txDecodeLen := (encodeByte 2 (encodeIdle build.preamble (startCall false chan))
          (octetOf (flag.drop (8 - k)))).txDecodeLen - 1
        txDecodeBitCnt := k
        txDecodeOnecnt := 0 } := by
    have offset := both.offset.trans carries.offset
    simp only [encodePreamble, Bool.false_eq_true, if_false, true_or, if_true,
      settled.data.trans carries.data, offset]
  generalize encodeByte 2 (encodeIdle build.preamble (startCall false chan))
    (octetOf (flag.drop (8 - k))) = sent at tail both step
  refine ⟨_, step, ?_, rfl, both.crc, both.flag.trans carries.flag, both.width⟩
  have width : sent.bitsInByte = 8 := both.width
  have idleSize : (repeated build.preamble (rotatedFlag k)).length = 8 * build.preamble := by
    rw [repeated_length, rotatedFlag_length carries.small]
  have size : (repeated build.preamble (rotatedFlag k) ++
      octetBits (octetOf (flag.drop (8 - k)))).length = 8 * (build.preamble + 1) := by
    rw [List.length_append, idleSize, octetBits_length, Nat.mul_succ]
  have full : Filled sent.bitsInByte _ _ _ _ := tail
  rw [sentBits, if_neg (by decide), width] at full
  have len : sent.txDecodeLen = build.preamble + 1 := by
    rw [full.len_eq, size, Nat.mul_div_cancel_left _ (by decide)]
  have pos : sent.txDecodeBitCnt = 0 := by
    rw [full.pos_eq, size, Nat.mul_mod_right]
  rw [len, pos] at full
  have short := full.reopen carries.small (by
    rw [List.drop_left' idleSize, (carried_octet k carries.small).1, octetOf_take,
      octetOf_octetBits])
  rw [← idleSize, List.take_length_add_append, (carried_octet k carries.small).2] at short
  show Filled sent.bitsInByte sent.txDecodeBuf (sent.txDecodeLen - 1) k _
  rw [width, len, Nat.add_sub_cancel]
  exact short

/-- The rounds of the padding loop. -/
def padRounds (len : Nat) : Nat := (4 - len % 4) % 4

theorem encodePadding_writing (rounds : Nat) {chan : Encoder} {line : List Bool}
    (writing : Writing chan line) (width : chan.bitsInByte = 8)
    (enough : padRounds chan.txDecodeLen ≤ rounds) :
    Writing (encodePadding rounds chan)
        (line ++ repeated (padRounds chan.txDecodeLen) (octetBits chan.txFlagIdle)) ∧
      (encodePadding rounds chan).txDecodeLen =
        chan.txDecodeLen + padRounds chan.txDecodeLen ∧
      Settled chan (encodePadding rounds chan) := by
  induction rounds generalizing chan line with
  | zero =>
      have none_ : padRounds chan.txDecodeLen = 0 := Nat.eq_zero_of_le_zero enough
      rw [none_, repeated_zero, List.append_nil]
      exact ⟨writing, rfl, Settled.refl chan⟩
  | succ rounds ih =>
      by_cases whole : chan.txDecodeLen % 4 = 0
      · have none_ : padRounds chan.txDecodeLen = 0 := by
          rw [padRounds, whole]
        rw [none_, repeated_zero, List.append_nil, encodePadding, if_pos whole]
        exact ⟨writing, rfl, Settled.refl chan⟩
      · rcases encodeByte_writing 2 chan.txFlagIdle writing (by decide) with ⟨next, _, settled⟩
        have grown : (encodeByte 2 chan chan.txFlagIdle).txDecodeLen = chan.txDecodeLen + 1 := by
          have before : Filled chan.bitsInByte _ _ _ _ := writing
          have after : Filled _ _ _ _ _ := next
          rw [after.len_eq, before.len_eq, settled.width, width, List.length_append, sentBits,
            if_neg (by decide), octetBits_length, Nat.add_div_right _ (by decide)]
        have rounds_ : padRounds chan.txDecodeLen =
            padRounds (encodeByte 2 chan chan.txFlagIdle).txDecodeLen + 1 := by
          rw [grown, padRounds, padRounds]
          omega
        rcases ih next (settled.width.trans width) (by omega) with ⟨last, len, rest⟩
        rw [settled.idle, sentBits, if_neg (by decide)] at last
        rw [rounds_, repeated_succ, ← List.append_assoc, encodePadding, if_neg whole]
        refine ⟨last, ?_, settled.trans rest⟩
        rw [len, grown]
        omega

/-- The octets of padding behind a call's line. -/
def padding (build : Build) (k : Nat) (usrData : List Octet) : Nat :=
  if build.padded then padRounds ((callLine build k usrData).length / 8) else 0

/-- The bits of the closing flag that the next call begins with. -/
def nextCarry (k : Nat) (usrData : List Octet) : Nat := (k + (packetBits usrData).length) % 8

theorem callLine_carry (build : Build) {k : Nat} (usrData : List Octet) (small : k < 8) :
    (callLine build k usrData).length % 8 = nextCarry k usrData := by
  rw [callLine_length build usrData small, nextCarry]
  omega

theorem callLine_end (build : Build) {k : Nat} (usrData : List Octet) (small : k < 8) :
    (callLine build k usrData).drop (8 * ((callLine build k usrData).length / 8)) =
      flag.drop (8 - nextCarry k usrData) := by
  have carry := callLine_carry build usrData small
  rw [callLine] at carry ⊢
  generalize repeated build.preamble (rotatedFlag k) ++ flag.drop (8 - k) ++ packetBits usrData =
    front at carry ⊢
  have size : (front ++ flag).length = front.length + 8 := List.length_append
  have cut : 8 * ((front ++ flag).length / 8) = front.length + (8 - nextCarry k usrData) := by
    omega
  rw [cut, List.drop_length_add_append]

/-- One call: its octets, its next idle octet and what it carries over. -/
theorem wanpipeHdlcEncode_line (build : Build) (usrData : List Octet) {chan : Encoder} {k : Nat}
    (carries : Carries chan k) :
    ∃ last, wanpipeHdlcEncode build false chan usrData =
        (last,
          unitOctets 8 []
            ((callLine build k usrData).length / 8 + padding build k usrData)
            (callLine build k usrData ++
              repeated (padding build k usrData) (rotatedFlag (nextCarry k usrData))),
          flagTable.getD (nextCarry k usrData) 0) ∧
      Carries last (nextCarry k usrData) := by
  rcases encodePreamble_writing build carries with ⟨pre, opened, before, ones, crc, flag_, width⟩
  rcases encodePacket_writing usrData before flag_ usrData (by rw [crc]) with
    ⟨sent, encoded, line, flag', width', idle, offset, data⟩
  have small : nextCarry k usrData < 8 := Nat.mod_lt _ (by decide)
  have eight := width'.trans width
  rw [ones, ← packetBits, ← callLine] at line
  have held : Filled sent.bitsInByte _ _ _ _ := line
  rw [eight] at held
  have cnt : sent.txDecodeBitCnt = nextCarry k usrData := by
    rw [held.pos_eq, callLine_carry build usrData carries.small]
  have kept : sent.txFlagOffsetData = octetOf (flag.drop (8 - nextCarry k usrData)) := by
    rw [data, held.building, held.len_eq, callLine_end build usrData carries.small]
  rw [cnt] at idle offset
  have padded : ∃ last, (if build.padded then encodePadding 7 sent else sent) = last ∧
      Writing last (callLine build k usrData ++
        repeated (padding build k usrData) (rotatedFlag (nextCarry k usrData))) ∧
      last.txDecodeLen =
        (callLine build k usrData).length / 8 + padding build k usrData ∧
      Settled sent last := by
    refine ⟨_, rfl, ?_⟩
    unfold padding
    cases build.padded with
    | false =>
        simp only [Bool.false_eq_true, if_false, repeated_zero, List.append_nil, Nat.add_zero]
        exact ⟨line, held.len_eq, Settled.refl sent⟩
    | true =>
        have rounds : padRounds sent.txDecodeLen ≤ 7 := by
          rw [padRounds]
          omega
        have pads := encodePadding_writing 7 line eight rounds
        rw [idle, flagTable_rotated _ small, held.len_eq] at pads
        exact pads
  rcases padded with ⟨last, pads, written, len, settled⟩
  have final : Filled last.bitsInByte _ _ _ _ := written
  rw [settled.width.trans eight] at final
  have octets := final.octets
  rw [len] at octets
  refine ⟨{ last with txDecodeLen := 0 }, ?_, small, settled.flag.trans flag',
    settled.idle.trans idle, settled.offset.trans offset, settled.data.trans kept⟩
  simp only [wanpipeHdlcEncode, opened, encoded, pads]
  rw [len, octets, settled.idle.trans idle]

end Wanpipe.Hdlc
