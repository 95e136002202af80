import Wanpipe.Hdlc.Extends
import Wanpipe.Hdlc.Fill

/-! The fill that the LIP driver puts between packets, as its own decoder reads it. -/

namespace Wanpipe.Hdlc

open Line

/-- What follows a packet until the next call: its closing flag, the padding and idle octets. -/
def gapBits (k pads idles : Nat) : List Bool :=
  closingBits k pads ++ repeated idles (rotatedFlag k)

/-- The last packet's closing flag comes complete and the fill behind it shows no stretch of an
octet: `k` bits of the flag overran an octet, `pads` octets pad the encoding. -/
def LastFill (k pads idles : Nat) : Prop :=
  k = 0 ∨ (pads = 0 ∧ 1 ≤ idles) ∨
    (idles ≤ 1 ∧ (pads = 1 ∨ (pads = 2 ∧ 5 ≤ k) ∨ (pads = 3 ∧ k = 7)))

instance (k pads idles : Nat) : Decidable (LastFill k pads idles) :=
  inferInstanceAs (Decidable (_ ∨ _))

/-- Every gap that is followed by another packet is plain, and the last one says nothing. -/
def CleanFill (build : Build) : Nat → List (List Octet × Nat) → Prop
  | _, [] => True
  | k, [(usrData, idles)] => LastFill (nextCarry k usrData) (padding build k usrData) idles
  | k, (usrData, _) :: packet :: packets =>
      (nextCarry k usrData = 0 ∨ padding build k usrData = 0) ∧
        CleanFill build (nextCarry k usrData) (packet :: packets)

theorem padding_le (build : Build) (k : Nat) (usrData : List Octet) :
    padding build k usrData ≤ 3 := by
  unfold padding padRounds
  split <;> omega

/-- The first gap that is not plain, or the last one. -/
theorem cleanFill_cases (build : Build) (packet : List Octet × Nat)
    (packets : List (List Octet × Nat)) (k : Nat) :
    ∃ front usrData idles rest, packet :: packets = front ++ (usrData, idles) :: rest ∧
      PlainFill build k front ∧
      ((rest = [] ∧ (CleanFill build k (packet :: packets) ↔
          LastFill (nextCarry (lastCarry k front) usrData)
            (padding build (lastCarry k front) usrData) idles)) ∨
        (rest ≠ [] ∧ ¬ CleanFill build k (packet :: packets) ∧
          nextCarry (lastCarry k front) usrData ≠ 0 ∧
          padding build (lastCarry k front) usrData ≠ 0)) := by
  induction packets generalizing packet k with
  | nil => exact ⟨[], packet.1, packet.2, [], rfl, trivial, Or.inl ⟨rfl, Iff.rfl⟩⟩
  | cons next packets ih =>
      rcases packet with ⟨usrData, idles⟩
      by_cases plain : nextCarry k usrData = 0 ∨ padding build k usrData = 0
      · rcases ih next (nextCarry k usrData) with ⟨front, data, count, rest, split, fills, ends⟩
        refine ⟨(usrData, idles) :: front, data, count, rest, by rw [split]; rfl,
          ⟨plain, fills⟩, ?_⟩
        have same : CleanFill build k ((usrData, idles) :: next :: packets) ↔
            CleanFill build (nextCarry k usrData) (next :: packets) := by
          rw [CleanFill]
          exact and_iff_right plain
        rw [same]
        exact ends
      · refine ⟨[], usrData, idles, next :: packets, rfl, trivial, Or.inr ⟨nofun, ?_, ?_⟩⟩
        · rw [CleanFill]
          exact fun clean => plain clean.1
        · exact not_or.mp plain

/-- Behind plain gaps: the reader at the end of a packet's bits. -/
theorem last_read {build : Build} {bound : Nat} (front : List (List Octet × Nat))
    (usrData : List Octet) (flags : 1 ≤ build.preamble) (plain : PlainFill build 0 front)
    (some_ : ∀ packet ∈ front ++ [(usrData, 0)], packet.1 ≠ [])
    (fits : ∀ packet ∈ front ++ [(usrData, 0)],
      (packetBits packet.1).length + 8 < 8 * (bound + 1)) :
    ∃ reader, Closes bound reader ((front.map fun packet => frame packet.1) ++ [frame usrData]) ∧
      (∀ j < 8, (reader.line (flag.take j)).frames = front.map fun packet => frame packet.1) ∧
      ∀ idles, Reader.start.line
          (lineBits (transmit build false freshEncoder (front ++ [(usrData, idles)]))) =
            reader.line (gapBits (nextCarry (lastCarry 0 front) usrData)
              (padding build (lastCarry 0 front) usrData) idles) ∧
        (reader.Within bound (gapBits (nextCarry (lastCarry 0 front) usrData)
            (padding build (lastCarry 0 front) usrData) idles) →
          Reader.start.Within bound
            (lineBits (transmit build false freshEncoder (front ++ [(usrData, idles)])))) := by
  simp only [List.forall_mem_append, List.forall_mem_singleton] at some_ fits
  rcases transmit_plain_line front freshEncoder_carries plain with ⟨before, carried, line⟩
  rcases transmit_cons_line build carried usrData with ⟨last, _, packet⟩
  rcases body_closes build front 0 (closes_start bound) some_.1 fits.1 with ⟨closes, body⟩
  rw [List.nil_append] at closes
  have opened := closes.some_flags build.preamble
  have opening := (closes.flags (build.preamble + 1)).2
  rcases packet_closes _ usrData some_.2 fits.2 with ⟨pending, within⟩
  refine ⟨_, pending, ?_, ?_⟩
  · intro j small
    have read := Reader.line_stuff (front.map fun packet => frame packet.1) 0 0 0
      (lineBits (frame usrData)) 0 [] (by decide)
    rw [packetBits, Reader.ready, ← frame, read]
    exact Reader.line_flag_part _ _ _ _ _ _ (stuffOnes_lt 0 _ (by decide)) small
  · intro idles
    have opens : ∃ rest, lineBits (transmit build false freshEncoder
        (front ++ [(usrData, idles)])) = flag ++ rest := by
      cases front with
      | nil => exact fresh_first_flag _ _ flags
      | cons packet front => exact fresh_first_flag _ _ flags
    rcases opens with ⟨rest, opens⟩
    have whole := line [(usrData, idles)]
    rw [packet idles [], show lineBits (transmit build false last []) = [] from rfl,
      List.append_nil, ← gapBits, Nat.sub_zero, show flag.take 8 = flag from rfl] at whole
    constructor
    · rw [start_flags _ rest opens, whole, Reader.line_append, Reader.line_append,
        Reader.line_append, opened]
    · intro gap
      apply start_flags_within opens
      rw [whole]
      refine body.append (Reader.Within.append (opening.append ?_) ?_)
      · rw [opened]
        exact within
      · rw [Reader.line_append, opened]
        exact gap

/-- Flags, and part of one more. -/
theorem flags_part {bound : Nat} {reader : Reader} {frames : List (List Octet)}
    (closes : Closes bound reader frames) (big : 1 ≤ bound) (n : Nat) {j : Nat} (part : j ≤ 8) :
    (∃ ones got, reader.line (repeated (n + 1) flag ++ flag.take j) =
        ⟨ones, got, frames, 0, 0, 0⟩) ∧
      reader.Within bound (repeated (n + 1) flag ++ flag.take j) := by
  rw [Reader.line_append, closes.some_flags]
  refine ⟨ready_part frames part, (closes.flags (n + 1)).2.append ?_⟩
  have short : (flag.take j).length ≤ 8 := List.length_take_le' ..
  rw [closes.some_flags]
  apply Reader.Within.of_length
  show 0 + _ < _
  omega

theorem gap_plain {bound : Nat} {reader : Reader} {frames : List (List Octet)}
    (closes : Closes bound reader frames) (big : 1 ≤ bound) {k pads idles : Nat}
    (plain : k = 0 ∨ (pads = 0 ∧ 1 ≤ idles)) :
    (∃ ones got, reader.line (gapBits k pads idles) = ⟨ones, got, frames, 0, 0, 0⟩) ∧
      reader.Within bound (gapBits k pads idles) := by
  have fills : k = 0 ∨ pads = 0 := plain.imp_right And.left
  have line : gapBits k pads idles =
      repeated pads flag ++ repeated idles flag ++ flag.take (8 - k) := by
    rw [gapBits, closingBits_plain fills, List.append_assoc, flags_rotated, List.append_assoc]
  rw [line, repeated_append]
  rcases plain with rfl | ⟨rfl, some_⟩
  · have whole : repeated (pads + idles) flag ++ flag.take 8 =
        repeated (pads + idles + 1) flag ++ flag.take 0 := by
      rw [repeated_snoc, List.take_zero, List.append_nil]
      rfl
    rw [Nat.sub_zero, whole]
    exact flags_part closes big _ (by decide)
  · obtain ⟨n, rfl⟩ : ∃ n, idles = n + 1 := ⟨_, (Nat.sub_add_cancel some_).symm⟩
    rw [Nat.zero_add]
    exact flags_part closes big n (by omega)

/-- The padding behind a closing flag, and some idle octets. -/
def paddedBits (k pads idles : Nat) : List Bool :=
  (repeated pads (rotatedFlag k)).take (8 * pads - k) ++ repeated idles (rotatedFlag k)

/-- No stretch of the padding reaches three octets: each is passed over or counted as an abort. -/
private def PassedOver (reader : Reader) (silent : Prop) : Prop :=
  reader.frames = [] ∧ reader.crc = 0 ∧ reader.frameOverflow = 0 ∧ (reader.abort = 0 ↔ silent)

private instance (reader : Reader) (silent : Prop) [Decidable silent] :
    Decidable (PassedOver reader silent) :=
  inferInstanceAs (Decidable (_ ∧ _))

private theorem paddedBits_start :
    ∀ k < 8, ∀ pads < 4, ∀ idles < 3, 1 ≤ k → 1 ≤ pads →
      PassedOver ((Reader.ready []).line (paddedBits k pads idles)) (LastFill k pads idles) := by
  decide +kernel

/-- Padding behind a flag that overran its octet. The idle octets are rotated for octet edges, the
padding is written where the flag ended. -/
theorem paddedBits_read (frames : List (List Octet)) {k pads idles : Nat} (some_ : 1 ≤ k)
    (small : k < 8) (padded : 1 ≤ pads) (most : pads ≤ 3) (few : idles ≤ 2) :
    ∃ ones got abort,
      (Reader.ready frames).line (paddedBits k pads idles) =
        ⟨ones, got, frames, 0, abort, 0⟩ ∧
      (abort = 0 ↔ LastFill k pads idles) := by
  have fill := paddedBits_start k small pads (Nat.lt_succ_of_le most) idles
    (Nat.lt_succ_of_le few) some_ padded
  have moved : Reader.ready frames = (Reader.ready []).behind frames := by
    simp [Reader.ready, Reader.behind]
  rw [moved, Reader.line_behind]
  generalize (Reader.ready []).line (paddedBits k pads idles) = reader at fill
  rcases fill with ⟨none_, crc, overflow, abort⟩
  refine ⟨reader.ones, reader.got, reader.abort, ?_, abort⟩
  rw [Reader.behind, none_, crc, overflow, List.append_nil]

theorem gap_padded {bound : Nat} {reader : Reader} {frames : List (List Octet)}
    (closes : Closes bound reader frames) (big : 5 ≤ bound) {k pads idles : Nat}
    (some_ : 1 ≤ k) (small : k < 8) (padded : 1 ≤ pads) (most : pads ≤ 3) (few : idles ≤ 2) :
    (∃ ones got abort, reader.line (gapBits k pads idles) = ⟨ones, got, frames, 0, abort, 0⟩ ∧
        (abort = 0 ↔ LastFill k pads idles)) ∧
      reader.Within bound (gapBits k pads idles) := by
  have eight : flag.length = 8 := rfl
  have line : gapBits k pads idles = flag ++ paddedBits k pads idles := by
    rw [gapBits, closingBits, show 8 + 8 * pads - k = flag.length + (8 * pads - k) by omega,
      List.take_length_add_append, List.append_assoc, paddedBits]
  rw [line, Reader.line_append, closes.reads]
  refine ⟨paddedBits_read frames some_ small padded most few, closes.within.append ?_⟩
  rw [closes.reads]
  apply Reader.Within.of_length
  rw [paddedBits, List.length_append, List.length_take, repeated_length, repeated_length,
    rotatedFlag_length small]
  show 0 + _ < _
  omega

theorem repeated_octets {k : Nat} (small : k < 8) (more : List Bool) (n : Nat) :
    unitOctets 8 [] n (repeated n (rotatedFlag k) ++ more) =
      List.replicate n (flagTable.getD k 0) := by
  induction n with
  | zero => rfl
  | succ n ih =>
      have eight := rotatedFlag_length small
      rw [repeated_succ, unitOctets_succ, List.append_assoc, List.take_left' eight,
        List.drop_left' eight, ih, List.append_nil, ← flagTable_rotated k small,
        octetOf_octetBits, List.replicate_succ]

/-- A call's octets begin with the idle octets of the last one. -/
theorem encode_idles (build : Build) (usrData : List Octet) {chan : Encoder} {k : Nat}
    (carries : Carries chan k) :
    ∃ rest, (wanpipeHdlcEncode build false chan usrData).2.1 =
      List.replicate build.preamble (flagTable.getD k 0) ++ rest := by
  rcases wanpipeHdlcEncode_line build usrData carries with ⟨last, encoded, _⟩
  have size := callLine_length build usrData carries.small
  obtain ⟨n, enough⟩ : ∃ n, (callLine build k usrData).length / 8 + padding build k usrData =
      build.preamble + n := ⟨_, (Nat.add_sub_cancel' (by omega)).symm⟩
  rw [encoded, enough, unitOctets_add]
  refine ⟨_, congrArg (· ++ _) ?_⟩
  rw [callLine, List.append_assoc, List.append_assoc, List.append_assoc,
    repeated_octets carries.small]

/-- A packet that two idle octets or another packet follow: two idle octets are on the line. -/
theorem two_idles {build : Build} (preamble : build.preamble = 2) (usrData : List Octet)
    (idles : Nat) (rest : List (List Octet × Nat)) {chan : Encoder} {k : Nat}
    (carries : Carries chan k) (enough : 2 ≤ idles ∨ rest ≠ []) :
    ∃ after, transmit build false chan ((usrData, idles) :: rest) =
      transmit build false chan [(usrData, 2)] ++ after := by
  rcases wanpipeHdlcEncode_line build usrData carries with ⟨last, encoded, carried⟩
  simp only [transmit, encoded, List.append_nil]
  have idle : ∃ after, List.replicate idles (flagTable.getD (nextCarry k usrData) 0) ++
      transmit build false last rest =
      List.replicate 2 (flagTable.getD (nextCarry k usrData) 0) ++ after := by
    rcases enough with two | more
    · obtain ⟨n, rfl⟩ : ∃ n, idles = 2 + n := ⟨_, (Nat.add_sub_cancel' two).symm⟩
      rw [← List.replicate_append_replicate, List.append_assoc]
      exact ⟨_, rfl⟩
    · rcases rest with _ | ⟨⟨data, count⟩, rest⟩
      · contradiction
      · rcases encode_idles build data carried with ⟨octets, begins⟩
        simp only [transmit, begins, preamble]
        rw [List.append_assoc, List.append_assoc, ← List.append_assoc (List.replicate idles _),
          List.replicate_append_replicate, Nat.add_comm, ← List.replicate_append_replicate,
          List.append_assoc]
        exact ⟨_, rfl⟩
  rcases idle with ⟨after, idle⟩
  refine ⟨after, ?_⟩
  rw [List.append_assoc, idle, List.append_assoc]

theorem transmit_append (build : Build) (packets : List (List Octet × Nat)) {chan : Encoder}
    {k : Nat} (carries : Carries chan k) :
    ∃ last, Carries last (lastCarry k packets) ∧
      ∀ more, transmit build false chan (packets ++ more) =
        transmit build false chan packets ++ transmit build false last more := by
  induction packets generalizing chan k with
  | nil => exact ⟨chan, carries, fun _ => rfl⟩
  | cons packet packets ih =>
      rcases packet with ⟨usrData, idles⟩
      rcases wanpipeHdlcEncode_line build usrData carries with ⟨next, encoded, carried⟩
      rcases ih carried with ⟨last, ends, rest⟩
      refine ⟨last, ends, ?_⟩
      intro more
      simp only [List.cons_append, transmit, encoded, rest, List.append_assoc]

/-- Each packet is handed up once, in order, and nothing is counted as an error. -/
def HeardClean (chan : Decoder) (packets : List (List Octet × Nat)) : Prop :=
  chan.hdlcData = packets.map (fun packet => packet.1 ++ fcsOctets packet.1) ∧
    chan.stats.errors = 0 ∧ chan.stats.crc = 0 ∧ chan.stats.abort = 0

instance (chan : Decoder) (packets : List (List Octet × Nat)) :
    Decidable (HeardClean chan packets) :=
  inferInstanceAs (Decidable (_ ∧ _))

/-- A stretch of the padding that is counted as an abort stays counted. -/
theorem padded_errors (front : List (List Octet × Nat)) (usrData : List Octet) (idles : Nat)
    (calls : List (List Octet)) (after : List Octet) (plain : PlainFill kernel 0 front)
    (some_ : ∀ packet ∈ front ++ [(usrData, 0)], packet.1 ≠ [])
    (fits : ∀ packet ∈ front ++ [(usrData, 0)],
      (packetBits packet.1).length + 8 < 8 * (kernel.maxDecodeLen - 1 + 1))
    (carry : nextCarry (lastCarry 0 front) usrData ≠ 0)
    (pads : padding kernel (lastCarry 0 front) usrData ≠ 0) (few : idles ≤ 2)
    (loud : ¬ LastFill (nextCarry (lastCarry 0 front) usrData)
      (padding kernel (lastCarry 0 front) usrData) idles)
    (fed : calls.flatten =
      transmit kernel false freshEncoder (front ++ [(usrData, idles)]) ++ after) :
    1 ≤ (decodeCalls kernel false freshDecoder calls).stats.errors := by
  rcases last_read front usrData (by decide) plain some_ fits with ⟨reader, closes, _, read⟩
  rcases gap_padded closes (by decide) (Nat.pos_of_ne_zero carry) (Nat.mod_lt _ (by decide))
    (Nat.pos_of_ne_zero pads) (padding_le ..) few with ⟨⟨ones, got, abort, gap, silent⟩, within⟩
  rcases read idles with ⟨line, short⟩
  have whole := short within
  rw [← unitBits_eight] at line whole
  have most : kernel.maxDecodeLen ≤ kernel.maxSockHdlcBuf := by decide
  have start : Reader.start.collected < kernel.maxDecodeLen := by decide
  rcases decodeCalls_prefix false calls fed most freshDecoder_tracks start whole with
    ⟨middle, tracks, later⟩
  rw [show bitsPerByte false = 8 from rfl, line, gap] at tracks
  have counted : middle.stats.errors = 0 + abort + 0 := by rw [tracks.stats]
  have aborted : abort ≠ 0 := mt silent.mp loud
  have kept := later.errors
  omega

theorem heardClean_iff {chan : Decoder} {packets : List (List Octet × Nat)} {ones : Nat}
    {got : Option (List Bool)} {frames : List (List Octet)} {abort : Nat}
    (tracks : Tracks chan ⟨ones, got, frames, 0, abort, 0⟩) :
    HeardClean chan packets ↔
      frames = packets.map (fun packet => frame packet.1) ∧ abort = 0 := by
  rw [HeardClean, tracks.data, tracks.stats]
  simp only [Nat.zero_add, Nat.add_zero, true_and, and_self]
  rfl

/-- Without idle octets behind it, an unpadded closing flag is cut off at the octet's edge. -/
theorem gap_cut (k : Nat) : gapBits k 0 0 = flag.take (8 - k) := by
  rw [gapBits, closingBits, repeated_zero, List.append_nil, List.append_nil]

/-- More idle octets than two add nothing new. -/
theorem last_two_idles (front : List (List Octet × Nat)) (usrData : List Octet) (idles : Nat)
    (rest : List (List Octet × Nat)) (enough : 2 ≤ idles ∨ rest ≠ []) :
    ∃ after, transmit kernel false freshEncoder (front ++ (usrData, idles) :: rest) =
      transmit kernel false freshEncoder (front ++ [(usrData, 2)]) ++ after := by
  rcases transmit_append kernel front freshEncoder_carries with ⟨last, carried, split⟩
  rcases two_idles (rfl : kernel.preamble = 2) usrData idles rest carried enough with
    ⟨after, idle⟩
  exact ⟨after, by rw [split, split, idle, List.append_assoc]⟩

/-- The last packet of a transmission whose earlier gaps are plain. -/
theorem last_heard (front : List (List Octet × Nat)) (usrData : List Octet) (idles : Nat)
    (calls : List (List Octet)) (plain : PlainFill kernel 0 front)
    (some_ : ∀ packet ∈ front ++ [(usrData, 0)], packet.1 ≠ [])
    (fits : ∀ packet ∈ front ++ [(usrData, 0)],
      (packetBits packet.1).length + 8 < 8 * (kernel.maxDecodeLen - 1 + 1))
    (fed : calls.flatten = transmit kernel false freshEncoder (front ++ [(usrData, idles)])) :
    HeardClean (decodeCalls kernel false freshDecoder calls) (front ++ [(usrData, idles)]) ↔
      LastFill (nextCarry (lastCarry 0 front) usrData)
        (padding kernel (lastCarry 0 front) usrData) idles := by
  have small : nextCarry (lastCarry 0 front) usrData < 8 := Nat.mod_lt _ (by decide)
  have most : kernel.maxDecodeLen ≤ kernel.maxSockHdlcBuf := by decide
  have frames : (front ++ [(usrData, idles)]).map (fun packet => frame packet.1) =
      (front.map fun packet => frame packet.1) ++ [frame usrData] := List.map_append
  have bound := padding_le kernel (lastCarry 0 front) usrData
  rcases last_read front usrData (by decide) plain some_ fits with ⟨reader, closes, part, read⟩
  rcases read idles with ⟨line, short⟩
  rw [← fed] at line short
  generalize carry : nextCarry (lastCarry 0 front) usrData = k at *
  generalize padded : padding kernel (lastCarry 0 front) usrData = pads at *
  by_cases silent : k = 0 ∨ (pads = 0 ∧ 1 ≤ idles)
  · rcases gap_plain closes (by decide) silent with ⟨⟨ones, got, gap⟩, within⟩
    have tracks := fresh_decoded calls most (by decide) (short within)
    rw [line, gap] at tracks
    rw [heardClean_iff tracks, frames]
    exact iff_of_true ⟨rfl, rfl⟩ (silent.imp_right Or.inl)
  · rcases not_or.mp silent with ⟨carried, unflagged⟩
    rcases Nat.eq_zero_or_pos pads with rfl | some_pads
    · -- the closing flag lacks its last bits
      obtain rfl : idles = 0 := by omega
      have within : reader.Within (kernel.maxDecodeLen - 1) (gapBits k 0 0) := by
        have whole := closes.within
        rw [← List.take_append_drop (8 - k) flag] at whole
        rw [gap_cut]
        exact whole.left
      have tracks := fresh_decoded calls most (by decide) (short within)
      rw [line, gap_cut] at tracks
      have unheard := tracks.data
      rw [part (8 - k) (by omega)] at unheard
      refine iff_of_false ?_ (by unfold LastFill; omega)
      intro heard
      have counts := congrArg List.length (unheard.symm.trans heard.1)
      rw [List.length_map, List.length_map, List.length_append] at counts
      exact absurd counts (Nat.ne_of_lt (Nat.lt_succ_self _))
    · rcases Nat.lt_or_ge 2 idles with more | few
      · rcases last_two_idles front usrData idles [] (Or.inl (Nat.le_of_lt more)) with
          ⟨after, split⟩
        have errors := padded_errors front usrData 2 calls after plain some_ fits
          (by rw [carry]; exact carried) (by rw [padded]; exact Nat.ne_of_gt some_pads)
          (Nat.le_refl 2) (by rw [carry, padded]; unfold LastFill; omega) (fed.trans split)
        refine iff_of_false ?_ (by unfold LastFill; omega)
        intro heard
        rw [heard.2.1] at errors
        exact absurd errors (by decide)
      · rcases gap_padded closes (by decide) (Nat.pos_of_ne_zero carried) small some_pads bound few
          with ⟨⟨ones, got, abort, gap, loud⟩, within⟩
        have tracks := fresh_decoded calls most (by decide) (short within)
        rw [line, gap] at tracks
        rw [heardClean_iff tracks, frames, ← loud]
        exact and_iff_right rfl

end Wanpipe.Hdlc
