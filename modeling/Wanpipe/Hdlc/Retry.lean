import Wanpipe.Hdlc.EncoderLine

/-! What a call of the encoder reads of the state that the last call left, and the four fields that
are saved around a call. -/

namespace Wanpipe.Hdlc

open Line

/-- `encoder.backup`. -/
structure Backup where
  txFlagIdle : Octet
  txFlagOffset : Nat
  txDecodeBitCnt : Nat
  txFlagOffsetData : Octet
  deriving DecidableEq, Repr

def wanpipeHdlcBkp (chan : Encoder) : Backup :=
  ⟨chan.txFlagIdle, chan.txFlagOffset, chan.txDecodeBitCnt, chan.txFlagOffsetData⟩

def wanpipeHdlcRestore (backup : Backup) (chan : Encoder) : Encoder :=
  { chan with
    txFlagIdle := backup.txFlagIdle
    txFlagOffset := backup.txFlagOffset
    txDecodeBitCnt := backup.txDecodeBitCnt
    txFlagOffsetData := backup.txFlagOffsetData }

/-- The packets of several calls: the octets of each and the idle octet that follows it. -/
def encodings (build : Build) (sevenBitHdlc : Bool) : Encoder → List (List Octet) →
    List (List Octet × Octet)
  | _, [] => []
  | chan, usrData :: packets =>
      let call := wanpipeHdlcEncode build sevenBitHdlc chan usrData
      call.2 :: encodings build sevenBitHdlc call.1 packets

/-- The fields of the last call that the next one reads. -/
structure SameCarry (a b : Encoder) : Prop where
  txFlag : a.txFlag = b.txFlag
  txFlagOffset : a.txFlagOffset = b.txFlagOffset
  txFlagOffsetData : a.txFlagOffsetData = b.txFlagOffsetData
  txFlagIdle : a.txFlagIdle = b.txFlagIdle

/-- Within a call: the same but for octets of the buffer that were not begun. -/
def Alike (a b : Encoder) : Prop :=
  ∃ buf, b = { a with txDecodeBuf := buf } ∧ ∀ i ≤ a.txDecodeLen, a.txDecodeBuf i = buf i

section TwoRuns

variable {a b c : Encoder}

theorem SameCarry.refl (a : Encoder) : SameCarry a a := ⟨rfl, rfl, rfl, rfl⟩

theorem SameCarry.trans (first : SameCarry a b) (second : SameCarry b c) : SameCarry a c :=
  ⟨first.txFlag.trans second.txFlag, first.txFlagOffset.trans second.txFlagOffset,
    first.txFlagOffsetData.trans second.txFlagOffsetData,
    first.txFlagIdle.trans second.txFlagIdle⟩

theorem SameCarry.symm (same : SameCarry a b) : SameCarry b a :=
  ⟨same.txFlag.symm, same.txFlagOffset.symm, same.txFlagOffsetData.symm, same.txFlagIdle.symm⟩

/-- A change of the other fields, if it begins no octet. -/
theorem Alike.change {f : Encoder → Encoder} (alike : Alike a b)
    (swaps : ∀ chan buf, f { chan with txDecodeBuf := buf } = { f chan with txDecodeBuf := buf })
    (begins : (f a).txDecodeLen ≤ a.txDecodeLen) : Alike (f a) (f b) := by
  obtain ⟨buf, rfl, same⟩ := alike
  have kept : f a = { f a with txDecodeBuf := a.txDecodeBuf } := swaps a a.txDecodeBuf
  refine ⟨buf, swaps a buf, ?_⟩
  intro i begun
  rw [kept]
  exact same i (begun.trans begins)

/-- A field that is not the buffer. -/
theorem Alike.reads {α : Type} (alike : Alike a b) (field : Encoder → α)
    (other : ∀ chan buf, field { chan with txDecodeBuf := buf } = field chan) :
    field b = field a := by
  obtain ⟨buf, rfl, -⟩ := alike
  exact other a buf

theorem put_alike (alike : Alike a b) (bit : Bool) :
    Alike { a with txDecodeBuf := orBit a.txDecodeBuf a.txDecodeLen a.txDecodeBitCnt bit }
      { b with txDecodeBuf := orBit b.txDecodeBuf b.txDecodeLen b.txDecodeBitCnt bit } := by
  obtain ⟨buf, rfl, same⟩ := alike
  refine ⟨_, rfl, ?_⟩
  intro i begun
  by_cases here : i = a.txDecodeLen
  · simp only [orBit, here, Function.update_self, same a.txDecodeLen le_rfl]
  · simp only [orBit, Function.update_of_ne here]
    exact same i begun

/-- An octet is cleared where it is begun. -/
theorem advance_alike (alike : Alike a b) : Alike (advance a) (advance b) := by
  obtain ⟨buf, rfl, same⟩ := alike
  by_cases full : a.bitsInByte ≤ a.txDecodeBitCnt + 1
  · rw [advance, advance, if_pos full, if_pos full]
    refine ⟨_, rfl, ?_⟩
    intro i begun
    by_cases here : i = a.txDecodeLen + 1
    · simp only [here, Function.update_self]
    · simp only [Function.update_of_ne here]
      exact same i (Nat.le_of_lt_succ (lt_of_le_of_ne begun here))
  · rw [advance, advance, if_neg full, if_neg full]
    exact ⟨buf, rfl, same⟩

theorem count_alike (alike : Alike a b) (ones : Nat) :
    Alike { a with txDecodeOnecnt := ones } { b with txDecodeOnecnt := ones } :=
  alike.change (f := fun chan => { chan with txDecodeOnecnt := ones }) (fun _ _ => rfl) le_rfl

theorem encodeBit_alike (alike : Alike a b) (flag : Nat) (bit : Bool) :
    Alike (encodeBit flag a bit) (encodeBit flag b bit) := by
  have put := advance_alike (put_alike alike bit)
  have ones : b.txDecodeOnecnt + 1 = a.txDecodeOnecnt + 1 :=
    congrArg Nat.succ (alike.reads Encoder.txDecodeOnecnt fun _ _ => rfl)
  cases bit with
  | false => exact count_alike put 0
  | true =>
      by_cases fifth : a.txDecodeOnecnt + 1 = 5
      · have other := ones.trans fifth
        by_cases data : flag = 0
        · simp only [encodeBit, fifth, other, data, if_true]
          exact count_alike (advance_alike put) 0
        · simp only [encodeBit, fifth, other, data, if_true, if_false]
          exact count_alike put 0
      · simp only [encodeBit, ones, fifth, if_true, if_false]
        exact count_alike put _

theorem encodeBits_alike (alike : Alike a b) (flag : Nat) (bits : List Bool) :
    Alike (bits.foldl (encodeBit flag) a) (bits.foldl (encodeBit flag) b) := by
  induction bits generalizing a b with
  | nil => exact alike
  | cons bit bits ih => exact ih (encodeBit_alike alike flag bit)

theorem encodeByte_alike (alike : Alike a b) (flag : Nat) (byte : Octet) :
    Alike (encodeByte flag a byte) (encodeByte flag b byte) := by
  have bits := encodeBits_alike alike flag (octetBits byte)
  rw [encodeByte, encodeByte]
  split
  · obtain ⟨buf, other, same⟩ := bits
    rw [other]
    refine ⟨buf, ?_, same⟩
    simp only [same _ le_rfl]
  · exact bits

/-- An octet that the encoder holds itself. -/
theorem encodeOwn_alike (alike : Alike a b) (flag : Nat) (own : Encoder → Octet)
    (other : ∀ chan buf, own { chan with txDecodeBuf := buf } = own chan) :
    Alike (encodeByte flag a (own a)) (encodeByte flag b (own b)) := by
  rw [alike.reads own other]
  exact encodeByte_alike alike flag (own a)

theorem encodeIdle_alike (alike : Alike a b) (n : Nat) :
    Alike (encodeIdle n a) (encodeIdle n b) := by
  induction n generalizing a b with
  | zero => exact alike
  | succ n ih => exact ih (encodeOwn_alike alike 2 Encoder.txFlagIdle fun _ _ => rfl)

/-- A call clears the first octet and reads of the last call what `SameCarry` lists. -/
theorem startCall_alike (same : SameCarry a b) (sevenBitHdlc : Bool) :
    Alike (startCall sevenBitHdlc a) (startCall sevenBitHdlc b) := by
  refine ⟨(startCall sevenBitHdlc b).txDecodeBuf, ?_, ?_⟩
  · simp only [startCall, same.txFlag, same.txFlagOffset, same.txFlagOffsetData, same.txFlagIdle]
  · intro i begun
    have first : i < 3 := lt_of_le_of_lt begun (Nat.succ_pos 2)
    simp only [startCall, if_pos first]

theorem encodePreamble_alike (build : Build) (same : SameCarry a b) (sevenBitHdlc : Bool) :
    Alike (encodePreamble build sevenBitHdlc a) (encodePreamble build sevenBitHdlc b) := by
  have idles := encodeIdle_alike (startCall_alike same sevenBitHdlc) build.preamble
  have flag := encodeOwn_alike idles 2 Encoder.txFlagOffsetData fun _ _ => rfl
  let reopen (chan : Encoder) : Encoder :=
    { chan with
      txDecodeLen :=
        if sevenBitHdlc = false ∨ chan.txFlagOffset < 5 then chan.txDecodeLen - 1
        else chan.txDecodeLen
      txDecodeBitCnt :=
        if sevenBitHdlc then (chan.txFlagOffset + 2) % chan.bitsInByte else chan.txFlagOffset
      txDecodeOnecnt := 0 }
  -- The length may go back by one octet, never on.
  have back (chan : Encoder) : (reopen chan).txDecodeLen ≤ chan.txDecodeLen := by
    show ite _ _ _ ≤ _
    split <;> omega
  exact flag.change (f := reopen) (fun _ _ => rfl) (back _)

theorem encodeData_alike (alike : Alike a b) (usrData : List Octet) :
    Alike (usrData.foldl (fun chan byte => encodeByte 0 (calcTxCrc chan byte) byte) a)
      (usrData.foldl (fun chan byte => encodeByte 0 (calcTxCrc chan byte) byte) b) := by
  induction usrData generalizing a b with
  | nil => exact alike
  | cons byte usrData ih =>
      have crc : Alike (calcTxCrc a byte) (calcTxCrc b byte) :=
        alike.change (f := fun chan => calcTxCrc chan byte) (fun _ _ => rfl) le_rfl
      exact ih (encodeByte_alike crc 0 byte)

theorem encodePacket_alike (alike : Alike a b) (usrData : List Octet) :
    Alike (encodePacket a usrData) (encodePacket b usrData) := by
  have fin := (encodeData_alike alike usrData).change
    (f := fun chan => { chan with txCrcFin := decodeCrc (flipCrc chan.txCrc) })
    (fun _ _ => rfl) le_rfl
  have high := encodeOwn_alike fin 0
    (fun chan => ((chan.txCrcFin >>> 8) &&& 0xFF#16).setWidth 8) fun _ _ => rfl
  have low := encodeOwn_alike high 0
    (fun chan => (chan.txCrcFin &&& 0xFF#16).setWidth 8) fun _ _ => rfl
  exact encodeOwn_alike low 1 Encoder.txFlag fun _ _ => rfl

theorem encodePadding_alike (alike : Alike a b) (rounds : Nat) :
    Alike (encodePadding rounds a) (encodePadding rounds b) := by
  induction rounds generalizing a b with
  | zero => exact alike
  | succ rounds ih =>
      have len : b.txDecodeLen = a.txDecodeLen := alike.reads _ fun _ _ => rfl
      rw [encodePadding, encodePadding, len]
      split
      · exact alike
      · exact ih (encodeOwn_alike alike 2 Encoder.txFlagIdle fun _ _ => rfl)

/-- The octets of a call and what it leaves to the next one. -/
theorem wanpipeHdlcEncode_same (build : Build) (sevenBitHdlc : Bool) (same : SameCarry a b)
    (usrData : List Octet) :
    let one := wanpipeHdlcEncode build sevenBitHdlc a usrData
    let two := wanpipeHdlcEncode build sevenBitHdlc b usrData
    one.2 = two.2 ∧ SameCarry one.1 two.1 := by
  have packet := encodePacket_alike (encodePreamble_alike build same sevenBitHdlc) usrData
  have done : Alike
      (if build.padded then encodePadding 7 (encodePacket (encodePreamble build sevenBitHdlc a)
        usrData) else encodePacket (encodePreamble build sevenBitHdlc a) usrData)
      (if build.padded then encodePadding 7 (encodePacket (encodePreamble build sevenBitHdlc b)
        usrData) else encodePacket (encodePreamble build sevenBitHdlc b) usrData) := by
    split
    · exact encodePadding_alike packet 7
    · exact packet
  obtain ⟨buf, other, begun⟩ := done
  simp only [wanpipeHdlcEncode]
  rw [other]
  refine ⟨?_, ⟨rfl, rfl, rfl, rfl⟩⟩
  refine Prod.ext (List.map_congr_left ?_) rfl
  intro i inside
  exact begun i (Nat.le_of_lt (List.mem_range.mp inside))

theorem encodings_same (build : Build) (sevenBitHdlc : Bool) (same : SameCarry a b)
    (packets : List (List Octet)) :
    encodings build sevenBitHdlc a packets = encodings build sevenBitHdlc b packets := by
  induction packets generalizing a b with
  | nil => rfl
  | cons usrData packets ih =>
      have call := wanpipeHdlcEncode_same build sevenBitHdlc same usrData
      rw [encodings, encodings, call.1, ih call.2]

end TwoRuns

section Flag

variable (chan : Encoder)

theorem encodeByte_txFlag (flag : Nat) (byte : Octet) :
    (encodeByte flag chan byte).txFlag = chan.txFlag := by
  rw [encodeByte]
  split <;> exact (encodeBits_settled flag chan (octetBits byte)).flag

theorem encodeIdle_txFlag (n : Nat) : (encodeIdle n chan).txFlag = chan.txFlag := by
  induction n generalizing chan with
  | zero => rfl
  | succ n ih => rw [encodeIdle, ih, encodeByte_txFlag]

theorem encodeData_txFlag (usrData : List Octet) :
    (usrData.foldl (fun chan byte => encodeByte 0 (calcTxCrc chan byte) byte) chan).txFlag =
      chan.txFlag := by
  induction usrData generalizing chan with
  | nil => rfl
  | cons byte usrData ih =>
      rw [List.foldl_cons, ih, encodeByte_txFlag]
      rfl

theorem encodePadding_txFlag (rounds : Nat) :
    (encodePadding rounds chan).txFlag = chan.txFlag := by
  induction rounds generalizing chan with
  | zero => rfl
  | succ rounds ih =>
      rw [encodePadding]
      split
      · rfl
      · rw [ih, encodeByte_txFlag]

/-- `tx_flag`, which is not saved, is never changed. -/
theorem wanpipeHdlcEncode_txFlag (build : Build) (sevenBitHdlc : Bool) (usrData : List Octet) :
    (wanpipeHdlcEncode build sevenBitHdlc chan usrData).1.txFlag = chan.txFlag := by
  have preamble : (encodePreamble build sevenBitHdlc chan).txFlag = chan.txFlag := by
    simp only [encodePreamble, encodeByte_txFlag, encodeIdle_txFlag]
    rfl
  have packet : (encodePacket (encodePreamble build sevenBitHdlc chan) usrData).txFlag =
      chan.txFlag := by
    simp only [encodePacket, encodeByte_txFlag, encodeData_txFlag]
    exact preamble
  simp only [wanpipeHdlcEncode]
  split
  · rw [encodePadding_txFlag, packet]
  · exact packet

/-- What is restored behind a call is all that the next call reads. -/
theorem restore_same (build : Build) (sevenBitHdlc : Bool) (usrData : List Octet) :
    SameCarry
      (wanpipeHdlcRestore (wanpipeHdlcBkp chan)
        (wanpipeHdlcEncode build sevenBitHdlc chan usrData).1) chan :=
  ⟨wanpipeHdlcEncode_txFlag chan build sevenBitHdlc usrData, rfl, rfl, rfl⟩

end Flag

end Wanpipe.Hdlc
