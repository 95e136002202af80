import Wanpipe.Hdlc.Decoder
import Wanpipe.Hdlc.Transmit

/-! Lines on which nothing but flags fills the gaps between packets. -/

namespace Wanpipe.Hdlc

open Line

/-- A packet as it is handed up: its octets and the two check octets. -/
def frame (usrData : List Octet) : List Octet := usrData ++ fcsOctets usrData

/-- Behind a flag, with nothing dropped so far. -/
def Reader.ready (frames : List (List Octet)) : Reader := ⟨0, some [], frames, 0, 0, 0⟩

/-- The next flag closes whatever is open, and these are then the frames read. -/
structure Closes (bound : Nat) (reader : Reader) (frames : List (List Octet)) : Prop where
  reads : reader.line flag = Reader.ready frames
  within : reader.Within bound flag

theorem closes_start (bound : Nat) : Closes bound Reader.start [] :=
  ⟨rfl, Reader.Within.mono (Nat.zero_le bound) (by decide)⟩

theorem closes_ready (bound : Nat) (frames : List (List Octet)) :
    Closes bound (Reader.ready frames) frames := by
  refine ⟨rfl, Reader.Within.mono (Nat.zero_le bound) ?_⟩
  simp [Reader.Within, flag, Reader.ready, Reader.bit, Reader.put, Reader.mark, Reader.judge,
    Reader.collected, wholeOctets, unitOctets]

/-- Any number of flags. -/
theorem Closes.flags {bound : Nat} {reader : Reader} {frames : List (List Octet)}
    (closes : Closes bound reader frames) (n : Nat) :
    Closes bound (reader.line (repeated n flag)) frames ∧
      reader.Within bound (repeated n flag) := by
  induction n with
  | zero => exact ⟨closes, trivial⟩
  | succ n ih =>
      rcases ih with ⟨before, within⟩
      rw [repeated_snoc, Reader.line_append, before.reads]
      exact ⟨closes_ready bound frames, within.append before.within⟩

theorem Closes.some_flags {bound : Nat} {reader : Reader} {frames : List (List Octet)}
    (closes : Closes bound reader frames) (n : Nat) :
    reader.line (repeated (n + 1) flag) = Reader.ready frames := by
  rw [repeated_snoc, Reader.line_append, (closes.flags n).1.reads]

/-- A packet behind a flag. -/
theorem packet_closes {bound : Nat} (frames : List (List Octet)) (usrData : List Octet)
    (some_ : usrData ≠ []) (fits : (packetBits usrData).length + 8 < 8 * (bound + 1)) :
    Closes bound ((Reader.ready frames).line (packetBits usrData)) (frames ++ [frame usrData]) ∧
      (Reader.ready frames).Within bound (packetBits usrData) := by
  have within : (Reader.ready frames).Within bound (packetBits usrData ++ flag) := by
    apply Reader.Within.of_length
    rw [List.length_append]
    show 0 + (_ + 8) < _
    omega
  have good : GoodFcs (frame usrData) := goodFcs_frame usrData
  have few : stuffOnes 0 (lineBits (frame usrData)) < 5 := stuffOnes_lt 0 _ (by decide)
  have read : (Reader.ready frames).line (packetBits usrData) =
      ⟨stuffOnes 0 (lineBits (frame usrData)), some (lineBits (frame usrData)), frames, 0, 0, 0⟩ :=
    Reader.line_stuff frames 0 0 0 (lineBits (frame usrData)) 0 [] (by decide)
  have octets : wholeOctets (lineBits (frame usrData) ++ flag.take 7) = frame usrData :=
    wholeOctets_lineBits _ _ (by decide)
  have size : (frame usrData).length = usrData.length + 2 := by
    rw [frame, List.length_append, fcsOctets_length]
  have length : 0 < usrData.length := List.length_pos_iff.mpr some_
  have filled : frame usrData ≠ [] := by
    intro empty
    rw [empty] at size
    contradiction
  refine ⟨⟨?_, within.right⟩, within.left⟩
  rw [read, Reader.line_flag _ _ _ _ _ (by omega) (by omega), octets, Reader.judge, if_neg filled,
    if_neg (by omega), if_pos good]
  rfl

/-- The packets' line when each gap holds flags only, `k` bits of the last one being pending. -/
def bodyBits (build : Build) : Nat → List (List Octet × Nat) → List Bool
  | _, [] => []
  | k, (usrData, idles) :: packets =>
      repeated (build.preamble + 1) flag ++ packetBits usrData ++
        repeated (padding build k usrData + idles) flag ++
        bodyBits build (nextCarry k usrData) packets

def lastCarry : Nat → List (List Octet × Nat) → Nat
  | k, [] => k
  | k, (usrData, _) :: packets => lastCarry (nextCarry k usrData) packets

/-- Every packet's padding, if there is any, meets a closing flag that ends with an octet. -/
def PlainFill (build : Build) : Nat → List (List Octet × Nat) → Prop
  | _, [] => True
  | k, (usrData, _) :: packets =>
      (nextCarry k usrData = 0 ∨ padding build k usrData = 0) ∧
        PlainFill build (nextCarry k usrData) packets

instance PlainFill.decidable (build : Build) :
    (k : Nat) → (packets : List (List Octet × Nat)) → Decidable (PlainFill build k packets)
  | _, [] => isTrue trivial
  | k, (usrData, _) :: packets =>
      have : Decidable (PlainFill build (nextCarry k usrData) packets) :=
        PlainFill.decidable build _ packets
      inferInstanceAs (Decidable (_ ∧ _))

theorem plainFill_unpadded {build : Build} (unpadded : build.padded = false) (k : Nat)
    (packets : List (List Octet × Nat)) : PlainFill build k packets := by
  induction packets generalizing k with
  | nil => trivial
  | cons packet packets ih =>
      refine ⟨Or.inr ?_, ih _⟩
      rw [padding, unpadded]
      rfl

theorem body_closes (build : Build) {bound : Nat} (packets : List (List Octet × Nat))
    {reader : Reader} {frames : List (List Octet)} (k : Nat) (closes : Closes bound reader frames)
    (some_ : ∀ packet ∈ packets, packet.1 ≠ [])
    (fits : ∀ packet ∈ packets, (packetBits packet.1).length + 8 < 8 * (bound + 1)) :
    Closes bound (reader.line (bodyBits build k packets))
        (frames ++ packets.map fun packet => frame packet.1) ∧
      reader.Within bound (bodyBits build k packets) := by
  induction packets generalizing reader frames k with
  | nil =>
      rw [List.map_nil, List.append_nil]
      exact ⟨closes, trivial⟩
  | cons packet packets ih =>
      rcases packet with ⟨usrData, idles⟩
      have opened := closes.some_flags build.preamble
      have before := (closes.flags (build.preamble + 1)).2
      rcases packet_closes frames usrData (some_ _ List.mem_cons_self) (fits _ List.mem_cons_self)
        with ⟨pending, packet⟩
      rcases pending.flags (padding build k usrData + idles) with ⟨next, gap⟩
      rcases ih (nextCarry k usrData) next
        (fun later member => some_ later (List.mem_cons_of_mem _ member))
        (fun later member => fits later (List.mem_cons_of_mem _ member)) with ⟨last, rest⟩
      rw [bodyBits, Reader.line_append, Reader.line_append, Reader.line_append, opened]
      rw [List.append_assoc] at last
      refine ⟨last, Reader.Within.append (Reader.Within.append (before.append ?_) ?_) ?_⟩
      · rw [opened]
        exact packet
      · rw [Reader.line_append, opened]
        exact gap
      · rw [Reader.line_append, Reader.line_append, opened]
        exact rest

/-- Idle octets continue the closing flag they were rotated for. -/
theorem flags_rotated (k : Nat) (n : Nat) :
    flag.take (8 - k) ++ repeated n (rotatedFlag k) = repeated n flag ++ flag.take (8 - k) := by
  induction n with
  | zero => rw [repeated_zero, repeated_zero, List.append_nil, List.nil_append]
  | succ n ih =>
      rw [repeated_succ, repeated_succ, rotatedFlag, ← List.append_assoc, ← List.append_assoc,
        List.take_append_drop, ← rotatedFlag, List.append_assoc, ih, List.append_assoc]

/-- What an encoding adds behind its packet: the closing flag and the padding, up to the last whole
octet. -/
def closingBits (k pads : Nat) : List Bool :=
  (flag ++ repeated pads (rotatedFlag k)).take (8 + 8 * pads - k)

theorem closingBits_plain {k pads : Nat} (plain : k = 0 ∨ pads = 0) :
    closingBits k pads = repeated pads flag ++ flag.take (8 - k) := by
  rcases plain with rfl | rfl
  · have size : (flag ++ repeated pads (rotatedFlag 0)).length = 8 + 8 * pads := by
      rw [List.length_append, repeated_length]
      rfl
    rw [closingBits, Nat.sub_zero, ← size, List.take_length]
    exact flags_rotated 0 pads
  · rw [closingBits, repeated_zero, repeated_zero, List.append_nil, List.nil_append]

theorem lineBits_unitOctets (n : Nat) (bits : List Bool) (enough : 8 * n ≤ bits.length) :
    lineBits (unitOctets 8 [] n bits) = bits.take (8 * n) := by
  rw [← unitBits_eight, unitBits_unitOctets 8 [] n bits (Nat.le_refl 8) enough]

theorem lineBits_replicate (n : Nat) (octet : Octet) :
    lineBits (List.replicate n octet) = repeated n (octetBits octet) := by
  induction n with
  | zero => rfl
  | succ n ih => rw [List.replicate_succ, lineBits_cons, ih, repeated_succ]

/-- The octets of one call, as bits. -/
theorem callOctets_line (build : Build) {k : Nat} (usrData : List Octet) (small : k < 8) :
    lineBits (unitOctets 8 [] ((callLine build k usrData).length / 8 + padding build k usrData)
        (callLine build k usrData ++
          repeated (padding build k usrData) (rotatedFlag (nextCarry k usrData)))) =
      repeated build.preamble (rotatedFlag k) ++ flag.drop (8 - k) ++ packetBits usrData ++
        closingBits (nextCarry k usrData) (padding build k usrData) := by
  have size := callLine_length build usrData small
  have carry := callLine_carry build usrData small
  have small' : nextCarry k usrData < 8 := Nat.mod_lt _ (by decide)
  have padded : (repeated (padding build k usrData)
      (rotatedFlag (nextCarry k usrData))).length = 8 * padding build k usrData := by
    rw [repeated_length, rotatedFlag_length small']
  have front : (repeated build.preamble (rotatedFlag k) ++ flag.drop (8 - k) ++
      packetBits usrData).length + (8 + 8 * padding build k usrData - nextCarry k usrData) =
      8 * ((callLine build k usrData).length / 8 + padding build k usrData) := by
    rw [List.length_append, List.length_append, repeated_length, rotatedFlag_length small,
      flagTail_length small]
    omega
  rw [lineBits_unitOctets _ _ (by rw [List.length_append, padded]; omega), ← front, callLine,
    List.append_assoc _ flag, List.take_length_add_append, closingBits]

/-- One packet of a transmission, behind the pending bits of a flag. -/
theorem transmit_cons_line (build : Build) {chan : Encoder} {k : Nat} (carries : Carries chan k)
    (usrData : List Octet) :
    ∃ last, Carries last (nextCarry k usrData) ∧
      ∀ idles packets, flag.take (8 - k) ++
          lineBits (transmit build false chan ((usrData, idles) :: packets)) =
        repeated (build.preamble + 1) flag ++ packetBits usrData ++
          (closingBits (nextCarry k usrData) (padding build k usrData) ++
            repeated idles (rotatedFlag (nextCarry k usrData)) ++
            lineBits (transmit build false last packets)) := by
  rcases wanpipeHdlcEncode_line build usrData carries with ⟨last, encoded, carried⟩
  refine ⟨last, carried, ?_⟩
  intro idles packets
  have flags : flag.take (8 - k) ++ (repeated build.preamble (rotatedFlag k) ++
      flag.drop (8 - k)) = repeated (build.preamble + 1) flag := by
    rw [← List.append_assoc, flags_rotated, List.append_assoc, List.take_append_drop,
      repeated_snoc]
  rw [transmit, encoded, lineBits_append, lineBits_append, lineBits_replicate,
    flagTable_rotated _ carried.small, callOctets_line build usrData carries.small, ← flags]
  simp only [List.append_assoc]

/-- A transmission whose gaps hold nothing but flags. -/
theorem transmit_plain_line {build : Build} (packets : List (List Octet × Nat))
    {chan : Encoder} {k : Nat} (carries : Carries chan k) (plain : PlainFill build k packets) :
    ∃ last, Carries last (lastCarry k packets) ∧
      ∀ more, flag.take (8 - k) ++ lineBits (transmit build false chan (packets ++ more)) =
        bodyBits build k packets ++
          (flag.take (8 - lastCarry k packets) ++ lineBits (transmit build false last more)) := by
  induction packets generalizing chan k with
  | nil => exact ⟨chan, carries, fun _ => rfl⟩
  | cons packet packets ih =>
      rcases packet with ⟨usrData, idles⟩
      rcases plain with ⟨now, later⟩
      rcases transmit_cons_line build carries usrData with ⟨next, carried, line⟩
      rcases ih carried later with ⟨last, ends, rest⟩
      refine ⟨last, ends, ?_⟩
      intro more
      have idle : repeated (padding build k usrData + idles) flag =
          repeated (padding build k usrData) flag ++ repeated idles flag := by
        rw [repeated_append]
      have gap : closingBits (nextCarry k usrData) (padding build k usrData) ++
          repeated idles (rotatedFlag (nextCarry k usrData)) =
          repeated (padding build k usrData + idles) flag ++
            flag.take (8 - nextCarry k usrData) := by
        rw [closingBits_plain now, List.append_assoc, flags_rotated, idle, List.append_assoc]
      rw [List.cons_append, line idles, gap, List.append_assoc (repeated (_ + idles) flag), rest, bodyBits,
        lastCarry]
      simp only [List.append_assoc]

/-- Every call's encoding stays within the encoder's buffer. -/
def EncodingsFit (build : Build) (sevenBitHdlc : Bool) :
    Encoder → List (List Octet × Nat) → Prop
  | _, [] => True
  | chan, (usrData, _) :: packets =>
      (wanpipeHdlcEncode build sevenBitHdlc chan usrData).2.1.length ≤ build.hdlcEngBufLen ∧
        EncodingsFit build sevenBitHdlc (wanpipeHdlcEncode build sevenBitHdlc chan usrData).1 packets

instance EncodingsFit.decidable (build : Build) (sevenBitHdlc : Bool) :
    (chan : Encoder) → (packets : List (List Octet × Nat)) →
      Decidable (EncodingsFit build sevenBitHdlc chan packets)
  | _, [] => isTrue trivial
  | chan, (usrData, _) :: packets =>
      have : Decidable (EncodingsFit build sevenBitHdlc
          (wanpipeHdlcEncode build sevenBitHdlc chan usrData).1 packets) :=
        EncodingsFit.decidable build sevenBitHdlc _ packets
      inferInstanceAs (Decidable (_ ∧ _))

theorem EncodingsFit.short {build : Build} {chan : Encoder} {k : Nat}
    {packets : List (List Octet × Nat)} (fits : EncodingsFit build false chan packets)
    (carries : Carries chan k) :
    ∀ packet ∈ packets,
      8 * build.preamble + (packetBits packet.1).length + 8 < 8 * (build.hdlcEngBufLen + 1) := by
  induction packets generalizing chan k with
  | nil => simp
  | cons packet packets ih =>
      rcases packet with ⟨usrData, idles⟩
      rcases wanpipeHdlcEncode_line build usrData carries with ⟨last, encoded, carried⟩
      have size := callLine_length build usrData carries.small
      rcases fits with ⟨now, later⟩
      rw [encoded] at now later
      rw [unitOctets_length] at now
      rintro packet (_ | ⟨_, member⟩)
      · show 8 * build.preamble + (packetBits usrData).length + 8 < _
        omega
      · exact ih later carried packet member

/-- Part of a flag says nothing. -/
theorem ready_part {j : Nat} (frames : List (List Octet)) (part : j ≤ 8) :
    ∃ ones got, (Reader.ready frames).line (flag.take j) = ⟨ones, got, frames, 0, 0, 0⟩ := by
  interval_cases j <;> exact ⟨_, _, rfl⟩

/-- The first octets of a fresh encoder. -/
theorem fresh_first_flag {build : Build} (packet : List Octet × Nat)
    (packets : List (List Octet × Nat)) (flags : 1 ≤ build.preamble) :
    ∃ rest, lineBits (transmit build false freshEncoder (packet :: packets)) = flag ++ rest := by
  rcases transmit_cons_line build freshEncoder_carries packet.1 with
    ⟨last, _, line⟩
  have whole := line packet.2 packets
  obtain ⟨preamble, more⟩ : ∃ n, build.preamble = n + 1 := ⟨_, (Nat.sub_add_cancel flags).symm⟩
  rw [more, repeated_succ, repeated_succ, List.append_assoc, List.append_assoc, List.append_assoc]
    at whole
  exact ⟨_, List.append_cancel_left whole⟩

/-- A fresh reader does not need the flag that a fresh encoder begins without. -/
theorem start_flags (line rest : List Bool) (opens : line = flag ++ rest) :
    Reader.start.line line = Reader.start.line (flag ++ line) := by
  have first : Reader.start.line flag = Reader.ready [] := rfl
  have again : (Reader.ready []).line flag = Reader.ready [] := rfl
  rw [opens, Reader.line_append, Reader.line_append, Reader.line_append, first, again]

theorem start_flags_within {bound : Nat} {line rest : List Bool} (opens : line = flag ++ rest)
    (within : Reader.start.Within bound (flag ++ line)) : Reader.start.Within bound line := by
  subst opens
  have later := within.right.right
  rw [(closes_start bound).reads, (closes_ready bound []).reads] at later
  refine (closes_start bound).within.append ?_
  rwa [(closes_start bound).reads]

end Wanpipe.Hdlc
