import Wanpipe.Hdlc.Cuts

/-! What it takes for the decoder to find the next frame. -/

namespace Wanpipe.Hdlc

open Line Runs

/-- The six ones of the opening flag are counted anew: the packet before the flag is given up. -/
def losesFlag (build : Build) (chan : Decoder) : Feed → Prop
  | .bit _ =>
      chan.hdlcFlag ≠ .noFlag ∧ chan.rxDecodeBitCnt = 7 ∧ build.maxSockHdlcBuf ≤ chan.rxDecodeLen
  | .callEnd => chan.rxDecodeOnecnt ≠ 0 ∧ build.maxDecodeLen ≤ chan.rxDecodeLen

/-- A flag would end a packet with a bad check sum. -/
def spoiled (chan : Decoder) : Prop :=
  chan.hdlcFlag = .closingFlag ∧ 3 ≤ chan.rxDecodeLen ∧
    decodeCrc (flipCrc (chan.rxCrc (getFinCrcCnt chan.crcCur))) ≠ chan.rxOrigCrc

/-- A call ends within the packet and gives it up. -/
def cutsShort (build : Build) (chan : Decoder) : Feed → Prop
  | .bit _ => False
  | .callEnd => build.maxDecodeLen ≤ chan.rxDecodeLen

instance (build : Build) (chan : Decoder) : (next : Feed) → Decidable (losesFlag build chan next)
  | .bit _ => inferInstanceAs (Decidable (_ ∧ _ ∧ _))
  | .callEnd => inferInstanceAs (Decidable (_ ∧ _))

instance (chan : Decoder) : Decidable (spoiled chan) :=
  inferInstanceAs (Decidable (_ ∧ _ ∧ _))

instance (build : Build) (chan : Decoder) : (next : Feed) → Decidable (cutsShort build chan next)
  | .bit _ => inferInstanceAs (Decidable False)
  | .callEnd => inferInstanceAs (Decidable (_ ≤ _))

/-- No zero follows six ones or more, `ones` of which came before. -/
def Calm : Nat → List Bool → Prop
  | _, [] => True
  | ones, true :: bits => Calm (ones + 1) bits
  | ones, false :: bits => ones ≤ 5 ∧ Calm 0 bits

theorem calm_stuff (ones : Nat) (bits after : List Bool) (few : ones < 5)
    (rest : Calm (stuffOnes ones bits) after) : Calm ones (stuff ones bits ++ after) := by
  induction bits generalizing ones with
  | nil => exact rest
  | cons bit bits ih =>
      cases bit with
      | false => exact ⟨by omega, ih 0 (by decide) rest⟩
      | true =>
          by_cases fifth : ones + 1 = 5
          · rw [stuffOnes, if_pos fifth] at rest
            rw [stuff, if_pos fifth]
            exact ⟨by omega, ih 0 (by decide) rest⟩
          · rw [stuffOnes, if_neg fifth] at rest
            rw [stuff, if_neg fifth]
            exact ih (ones + 1) (by omega) rest

theorem calm_ones (ones count : Nat) : Calm ones (List.replicate count true) := by
  induction count generalizing ones with
  | zero => trivial
  | succ count ih => exact ih (ones + 1)

/-- What lies between the two flags of a frame, up to the last zero. -/
def frameBits (octets : List Octet) : List Bool :=
  stuff 0 (lineBits octets) ++ (false :: List.replicate 6 true)

theorem frameBits_calm (octets : List Octet) : Calm 0 (frameBits octets) := by
  have few := stuffOnes_lt 0 (lineBits octets) (by decide)
  exact calm_stuff 0 _ _ (by decide) ⟨by omega, calm_ones 0 6⟩

theorem frameBits_flag (octets : List Octet) :
    frameBits octets ++ [false] = stuff 0 (lineBits octets) ++ flag := by
  rw [frameBits, List.append_assoc]
  rfl

namespace Reader

def feedStep (build : Build) (reader : Reader) (next : Feed) : Option Reader :=
  some (reader.feed build next)

def keepsFlag (build : Build) (reader : Reader) : Feed → Prop
  | .bit _ => (reader.put true).collected ≤ build.maxSockHdlcBuf
  | .callEnd => reader.ones ≠ 0 → reader.collected < build.maxDecodeLen

def goesOn (build : Build) (reader : Reader) : Feed → Prop
  | .bit _ => True
  | .callEnd => reader.collected < build.maxDecodeLen

/-- A packet with a bad check sum is before the next flag. -/
def Spoiled (reader : Reader) : Prop :=
  ∃ bits, reader.got = some bits ∧ 3 ≤ (wholeOctets bits).length ∧ ¬ GoodFcs (wholeOctets bits)

theorem put_none {reader : Reader} (bit : Bool) (got : reader.got = none) :
    (reader.put bit).got = none := by
  rw [put, got]
  rfl

theorem mark_none_frames {reader : Reader} (got : reader.got = none) :
    reader.mark.frames = reader.frames := by
  rw [mark_none got]

/-- A bit that ends no flag. -/
theorem bit_calm {reader : Reader} {bit : Bool} (few : bit = false → reader.ones ≤ 5) :
    (reader.bit bit).frames = reader.frames ∧
      (reader.got = none → (reader.bit bit).got = none) := by
  cases bit with
  | true => exact ⟨rfl, put_none true⟩
  | false =>
      have plain : reader.ones ≠ 6 := by
        have := few rfl
        omega
      rw [Reader.bit, if_neg Bool.false_ne_true, if_neg plain]
      split
      · exact ⟨rfl, id⟩
      · exact ⟨rfl, put_none false⟩

/-- A reader that knows no flag hands nothing up, whatever the bit. -/
theorem bit_none {reader : Reader} (bit : Bool) (got : reader.got = none) :
    (reader.bit bit).frames = reader.frames := by
  cases bit with
  | true => rfl
  | false =>
      rw [Reader.bit, if_neg Bool.false_ne_true]
      split
      · rfl
      · split
        · exact mark_none_frames got
        · rfl

theorem bit_ones {reader : Reader} (bit : Bool) (most : Nat) (few : reader.ones ≤ most) :
    (reader.bit bit).ones ≤ if bit then most + 1 else 0 := by
  cases bit with
  | true => exact Nat.le_trans (Nat.mod_le _ _) (Nat.succ_le_succ few)
  | false => exact Nat.le_refl 0

/-- The next feed keeps what `giveUp` keeps. -/
theorem feed_cases (build : Build) (reader : Reader) (next : Feed) :
    (∃ bit, next = .bit bit ∧
      (reader.feed build next = reader.bit bit ∨
        reader.feed build next = (reader.bit bit).giveUp)) ∨
    (next = .callEnd ∧
      (reader.feed build next = reader ∨ reader.feed build next = reader.giveUp)) := by
  cases next with
  | bit bit =>
      rw [feed]
      split
      · exact .inl ⟨bit, rfl, .inr rfl⟩
      · exact .inl ⟨bit, rfl, .inl rfl⟩
  | callEnd =>
      rw [feed]
      split
      · exact .inr ⟨rfl, .inr rfl⟩
      · exact .inr ⟨rfl, .inl rfl⟩

/-- Bits without a flag hand nothing up and open nothing. -/
theorem calm_feedAll (build : Build) (reader : Reader) (feeds : List Feed) (most : Nat)
    (calm : Calm most (feedBits feeds)) (few : reader.ones ≤ most) :
    (reader.feedAll build feeds).frames = reader.frames ∧
      (reader.got = none → (reader.feedAll build feeds).got = none) := by
  induction feeds generalizing reader most with
  | nil => exact ⟨rfl, id⟩
  | cons next feeds ih =>
      rcases feed_cases build reader next with ⟨bit, rfl, moved⟩ | ⟨rfl, moved⟩
      · rw [feedBits_bit] at calm
        have low : bit = false → reader.ones ≤ 5 := by
          rintro rfl
          exact Nat.le_trans few calm.1
        have rest : Calm (if bit then most + 1 else 0) (feedBits feeds) := by
          cases bit with
          | true => exact calm
          | false => exact calm.2
        have same := bit_calm low
        have counted := bit_ones bit most few
        rw [feedAll_cons]
        rcases moved with moved | moved
        · have later := ih (reader.bit bit) _ rest counted
          rw [moved]
          exact ⟨later.1.trans same.1, fun none_ => later.2 (same.2 none_)⟩
        · have later := ih (reader.bit bit).giveUp _ rest (Nat.zero_le _)
          rw [moved]
          exact ⟨later.1.trans same.1, fun _ => later.2 rfl⟩
      · rw [feedBits_callEnd] at calm
        rw [feedAll_cons]
        rcases moved with moved | moved
        · rw [moved]
          exact ih reader most calm few
        · have later := ih reader.giveUp most calm (Nat.zero_le _)
          rw [moved]
          exact ⟨later.1, fun _ => later.2 rfl⟩

/-- The ones never count more than were read. -/
theorem ones_feedAll (build : Build) (reader : Reader) (feeds : List Feed) (count : Nat)
    (bits : feedBits feeds = List.replicate count true) :
    (reader.feedAll build feeds).ones ≤ reader.ones + count := by
  induction feeds generalizing reader count with
  | nil => exact Nat.le_add_right _ _
  | cons next feeds ih =>
      rcases feed_cases build reader next with ⟨bit, rfl, moved⟩ | ⟨rfl, moved⟩
      · rw [feedBits_bit] at bits
        cases count with
        | zero => contradiction
        | succ count =>
            rw [List.replicate_succ, List.cons.injEq] at bits
            rcases bits with ⟨rfl, bits⟩
            have counted := bit_ones true reader.ones (Nat.le_refl _)
            have later := ih (reader.feed build (.bit true)) count bits
            rw [feedAll_cons]
            rcases moved with moved | moved
            · rw [moved] at later ⊢
              rw [if_pos rfl] at counted
              omega
            · have empty : (reader.bit true).giveUp.ones = 0 := rfl
              rw [moved, empty] at later
              rw [moved]
              omega
      · rw [feedBits_callEnd] at bits
        have later := ih (reader.feed build .callEnd) count bits
        rw [feedAll_cons]
        rcases moved with moved | moved
        · rwa [moved] at later ⊢
        · have empty : reader.giveUp.ones = 0 := rfl
          rw [moved, empty] at later
          rw [moved]
          omega

theorem feedStep_along {build : Build} {allowed : Reader → Feed → Prop} {reader : Reader}
    {next : Feed} {feeds : List Feed} :
    Along (feedStep build) allowed reader (next :: feeds) ↔
      allowed reader next ∧ Along (feedStep build) allowed (reader.feed build next) feeds :=
  ⟨fun along => ⟨along.1, along.2 _ rfl⟩, fun along => Along.cons along.1 rfl along.2⟩

/-- A reader without a flag that has counted too few ones. -/
def Missed (reader : Reader) : Prop := reader.ones < 6 ∧ reader.got = none

theorem ones_missed {build : Build} (reader : Reader) (feeds : List Feed) (count : Nat)
    (bits : feedBits feeds = List.replicate count true) (few : reader.ones + count < 6)
    (got : reader.got = none) : Missed (reader.feedAll build feeds) := by
  have counted := ones_feedAll build reader feeds count bits
  have calm : Calm reader.ones (feedBits feeds) := by
    rw [bits]
    exact calm_ones _ _
  exact ⟨by omega, (calm_feedAll build reader feeds reader.ones calm (Nat.le_refl _)).2 got⟩

/-- The ones of a flag are counted to six, unless the packet before is given up among them. -/
theorem ones_counted (build : Build) (reader : Reader) (feeds : List Feed) (count : Nat)
    (bits : feedBits feeds = List.replicate count true) (ones : reader.ones + count = 6) :
    (Along (feedStep build) (keepsFlag build) reader feeds →
        (reader.feedAll build feeds).ones = 6) ∧
      (¬ Along (feedStep build) (keepsFlag build) reader feeds →
        Missed (reader.feedAll build feeds)) := by
  induction feeds generalizing reader count with
  | nil =>
      cases count with
      | zero => exact ⟨fun _ => ones, fun lost => absurd trivial lost⟩
      | succ count => contradiction
  | cons next feeds ih =>
      rw [feedStep_along, feedAll_cons]
      cases next with
      | bit bit =>
          rw [feedBits_bit] at bits
          cases count with
          | zero => contradiction
          | succ count =>
              rw [List.replicate_succ, List.cons.injEq] at bits
              rcases bits with ⟨rfl, bits⟩
              rcases Nat.lt_or_ge build.maxSockHdlcBuf (reader.put true).collected with full | room
              · have lost : ¬ keepsFlag build reader (.bit true) := Nat.not_le.mpr full
                rw [feed_full full]
                refine ⟨fun kept => absurd kept.1 lost, fun _ => ?_⟩
                exact ones_missed (reader.bit true).giveUp feeds count bits
                  (show 0 + count < 6 by omega) rfl
              · have kept : keepsFlag build reader (.bit true) := room
                have counted : (reader.bit true).ones = reader.ones + 1 :=
                  Nat.mod_eq_of_lt (by omega)
                have placed : (reader.bit true).collected ≤ build.maxSockHdlcBuf := room
                have later := ih (reader.bit true) count bits (by omega)
                rw [feed_bit placed]
                refine ⟨fun along => later.1 along.2, fun lost => later.2 ?_⟩
                exact fun along => lost ⟨kept, along⟩
      | callEnd =>
          rw [feedBits_callEnd] at bits
          by_cases long : build.maxDecodeLen ≤ reader.collected
          · have gave : reader.feed build .callEnd = reader.giveUp := if_pos long
            rw [gave]
            rcases Nat.eq_zero_or_pos reader.ones with none_ | some_
            · have kept : keepsFlag build reader .callEnd := fun some_ => absurd none_ some_
              have later := ih reader.giveUp count bits (show 0 + count = 6 by omega)
              refine ⟨fun along => later.1 along.2, fun lost => later.2 ?_⟩
              exact fun along => lost ⟨kept, along⟩
            · have lost : ¬ keepsFlag build reader .callEnd := by
                intro kept
                have short := kept (Nat.ne_of_gt some_)
                omega
              refine ⟨fun kept => absurd kept.1 lost, fun _ => ?_⟩
              exact ones_missed reader.giveUp feeds count bits (show 0 + count < 6 by omega) rfl
          · have same : reader.feed build .callEnd = reader := if_neg long
            have kept : keepsFlag build reader .callEnd := fun _ => Nat.lt_of_not_le long
            have later := ih reader count bits ones
            rw [same]
            refine ⟨fun along => later.1 along.2, fun lost => later.2 ?_⟩
            exact fun along => lost ⟨kept, along⟩

/-- A packet is read bit by bit, unless a call gives it up. -/
theorem body_read {build : Build} (reader : Reader) (feeds : List Feed) (most : Nat)
    (calm : Calm most (feedBits feeds)) (few : reader.ones ≤ most)
    (room : reader.Within build.maxSockHdlcBuf (feedBits feeds)) :
    (Along (feedStep build) (goesOn build) reader feeds →
        reader.feedAll build feeds = reader.line (feedBits feeds)) ∧
      (¬ Along (feedStep build) (goesOn build) reader feeds →
        (reader.feedAll build feeds).got = none) := by
  induction feeds generalizing reader most with
  | nil => exact ⟨fun _ => rfl, fun lost => absurd trivial lost⟩
  | cons next feeds ih =>
      rw [feedStep_along, feedAll_cons]
      cases next with
      | bit bit =>
          rw [feedBits_bit] at calm room ⊢
          have rest : Calm (if bit then most + 1 else 0) (feedBits feeds) := by
            cases bit with
            | true => exact calm
            | false => exact calm.2
          have later := ih (reader.bit bit) _ rest (bit_ones bit most few) room.2
          rw [feed_bit room.1]
          refine ⟨fun along => later.1 along.2, fun lost => later.2 ?_⟩
          exact fun along => lost ⟨trivial, along⟩
      | callEnd =>
          rw [feedBits_callEnd] at calm room ⊢
          by_cases long : build.maxDecodeLen ≤ reader.collected
          · have gave : reader.feed build .callEnd = reader.giveUp := if_pos long
            rw [gave]
            refine ⟨fun kept => absurd kept.1 (Nat.not_lt.mpr long), fun _ => ?_⟩
            exact (calm_feedAll build reader.giveUp feeds most calm (Nat.zero_le _)).2 rfl
          · have same : reader.feed build .callEnd = reader := if_neg long
            have later := ih reader most calm few room
            rw [same]
            refine ⟨fun along => later.1 along.2, fun lost => later.2 ?_⟩
            exact fun along => lost ⟨Nat.lt_of_not_le long, along⟩

/-- Six ones and a zero open a packet, unless they end a bad one. -/
theorem flag_opens (build : Build) {reader : Reader} (six : reader.ones = 6) :
    (¬ Spoiled reader → (reader.feed build (.bit false)).got = some []) ∧
      (Spoiled reader → (reader.feed build (.bit false)).got = none) := by
  have marked : reader.bit false = { reader.mark with ones := 0 } := by
    simp [Reader.bit, six]
  have empty : (reader.bit false).collected = 0 := by
    rw [marked]
    exact mark_collected reader
  rw [feed_bit (by omega), marked]
  cases got : reader.got with
  | none =>
      constructor
      · intro _
        rw [mark_none got]
      · rintro ⟨bits, some_, _⟩
        rw [got] at some_
        contradiction
  | some bits =>
      rw [mark_some got, judge]
      constructor
      · intro clean
        split
        · rfl
        · split
          · rfl
          · split
            · rfl
            · exact absurd ⟨bits, got, by omega, ‹_›⟩ clean
      · rintro ⟨other, some_, long, bad⟩
        rw [got, Option.some.injEq] at some_
        subst some_
        have filled : wholeOctets bits ≠ [] := by
          intro nil
          rw [nil] at long
          contradiction
        rw [if_neg filled, if_neg (Nat.not_lt.mpr long), if_neg bad]

/-- A zero where no flag is open and none is complete opens nothing. -/
theorem missed_zero {build : Build} {reader : Reader} (missed : Missed reader) :
    (reader.feed build (.bit false)).got = none := by
  have calm : Calm reader.ones (feedBits [.bit false]) := ⟨by have := missed.1; omega, trivial⟩
  exact (calm_feedAll build reader [.bit false] reader.ones calm (Nat.le_refl _)).2 missed.2

/-- Reading stuffed bits, the reader never holds more than their octets. -/
theorem within_stuff {bound : Nat} (reader : Reader) (got bits : List Bool)
    (open_ : reader.got = some got) (few : reader.ones < 5)
    (room : got.length + bits.length < 8 * (bound + 1)) :
    Within bound reader (stuff reader.ones bits) := by
  induction bits generalizing reader got with
  | nil => trivial
  | cons next bits ih =>
      rw [List.length_cons] at room
      have grown : ∀ bit, ({ reader.put bit with ones := 0 } : Reader).got = some (got ++ [bit]) := by
        intro bit
        simp [put, open_]
      have small : ∀ reader' : Reader, reader'.got = some (got ++ [next]) →
          reader'.collected ≤ bound := by
        intro reader' got'
        rw [collected, got', Option.getD_some, List.length_append, List.length_singleton]
        omega
      have length : (got ++ [next]).length + bits.length < 8 * (bound + 1) := by
        rw [List.length_append, List.length_singleton]
        omega
      cases next with
      | false =>
          have kept : reader.ones ≠ 5 := by omega
          have plain : reader.ones ≠ 6 := by omega
          have step : reader.bit false = { reader.put false with ones := 0 } := by
            simp [Reader.bit, kept, plain]
          rw [stuff]
          refine ⟨small _ (step ▸ grown false), ?_⟩
          rw [step]
          exact ih _ _ (grown false) (Nat.zero_lt_succ 4) length
      | true =>
          have counted : (reader.ones + 1) % 256 = reader.ones + 1 := Nat.mod_eq_of_lt (by omega)
          have step : reader.bit true = { reader.put true with ones := reader.ones + 1 } := by
            simp [Reader.bit, counted]
          have first : (reader.bit true).got = some (got ++ [true]) := grown true
          by_cases fifth : reader.ones + 1 = 5
          · have skipped : (reader.bit true).bit false = { reader.put true with ones := 0 } := by
              rw [step]
              simp [Reader.bit, fifth]
            rw [stuff, if_pos fifth]
            refine ⟨small _ first, small _ (skipped ▸ grown true), ?_⟩
            rw [skipped]
            exact ih _ _ (grown true) (Nat.zero_lt_succ 4) length
          · have ones : (reader.bit true).ones = reader.ones + 1 := by rw [step]
            rw [stuff, if_neg fifth, ← ones]
            refine ⟨small _ first, ?_⟩
            exact ih _ _ first (by omega) length

theorem frameBits_within {bound : Nat} {reader : Reader} (octets : List Octet)
    (open_ : reader.got = some []) (zero : reader.ones = 0) (room : octets.length ≤ bound) :
    reader.Within bound (frameBits octets) := by
  rcases reader with ⟨ones, got, frames, crc, abort, overflow⟩
  obtain rfl : got = some [] := open_
  obtain rfl : ones = 0 := zero
  have length := lineBits_length octets
  apply Within.append
  · apply within_stuff _ [] _ rfl (by decide : 0 < 5)
    rw [List.length_nil, length]
    omega
  · rw [line_stuff _ _ _ _ _ _ _ (by decide)]
    apply Within.of_length
    simp only [Option.getD_some, List.nil_append, length, List.length_cons, List.length_replicate]
    omega

theorem feed_zero_ones (build : Build) (reader : Reader) :
    (reader.feed build (.bit false)).ones = 0 := by
  rw [feed]
  split <;> rfl

theorem feed_none_frames {build : Build} {reader : Reader} (bit : Bool)
    (got : reader.got = none) : (reader.feed build (.bit bit)).frames = reader.frames := by
  rw [feed]
  split
  · exact bit_none bit got
  · exact bit_none bit got

/-- A good frame behind a flag is handed up with the last zero of the next flag. -/
theorem frame_read {reader : Reader} (data : List Octet) (open_ : reader.got = some [])
    (zero : reader.ones = 0) (some_ : 1 ≤ data.length) :
    ((reader.line (frameBits (data ++ fcsOctets data))).bit false).frames =
        reader.frames ++ [data ++ fcsOctets data] ∧
      ((reader.line (frameBits (data ++ fcsOctets data))).bit false).collected = 0 := by
  rcases reader with ⟨ones, got, frames, crc, abort, overflow⟩
  obtain rfl : got = some [] := open_
  obtain rfl : ones = 0 := zero
  have few := stuffOnes_lt 0 (lineBits (data ++ fcsOctets data)) (by decide)
  have whole := wholeOctets_lineBits (data ++ fcsOctets data) (flag.take 7) (by decide)
  have size : (data ++ fcsOctets data).length = data.length + 2 := by
    rw [List.length_append, fcsOctets_length]
  have filled : data ++ fcsOctets data ≠ [] := by
    intro nil
    rw [nil, List.length_nil] at size
    omega
  have long : ¬ (data ++ fcsOctets data).length < 3 := by omega
  have read : (line ⟨0, some [], frames, crc, abort, overflow⟩
        (frameBits (data ++ fcsOctets data))).bit false =
      ⟨0, some [], frames ++ [data ++ fcsOctets data], crc, abort, overflow⟩ := by
    calc (line ⟨0, some [], frames, crc, abort, overflow⟩
          (frameBits (data ++ fcsOctets data))).bit false
        = line ⟨0, some [], frames, crc, abort, overflow⟩
            (stuff 0 (lineBits (data ++ fcsOctets data)) ++ flag) := by
          rw [← frameBits_flag, line_append]
          rfl
      _ = line ⟨stuffOnes 0 (lineBits (data ++ fcsOctets data)),
            some (lineBits (data ++ fcsOctets data)), frames, crc, abort, overflow⟩ flag := by
          rw [line_append, line_stuff _ _ _ _ _ _ _ (by decide), List.nil_append]
      _ = ⟨0, some [], frames ++ [data ++ fcsOctets data], crc, abort, overflow⟩ := by
          rw [line_flag _ _ _ _ _ (by omega) (by omega), whole, judge, if_neg filled, if_neg long,
            if_pos (goodFcs_frame data)]
  rw [read]
  exact ⟨rfl, by simp [collected]⟩

end Reader

theorem losesFlag_iff {build : Build} {chan : Decoder} {reader : Reader} (next : Feed)
    (tracks : Tracks chan reader) (held : reader.collected ≤ build.maxSockHdlcBuf) :
    ¬ losesFlag build chan next ↔ reader.keepsFlag build next := by
  cases next with
  | bit bit =>
      rw [losesFlag, Reader.keepsFlag, Reader.collected, Reader.put]
      cases got : reader.got with
      | none => simp [(tracks.closed got).1]
      | some bits =>
          have receiving := tracks.opened bits got
          have size := receiving.held.size
          have low := receiving.held.low
          have len := receiving.len
          rw [Reader.collected, got, Option.getD_some] at held
          simp only [ne_eq, receiving.not_noFlag, not_false_eq_true, true_and, Option.map_some,
            Option.getD_some, List.length_append, List.length_singleton]
          omega
  | callEnd =>
      rw [losesFlag, Reader.keepsFlag, tracks.ones, tracks.len, not_and, Nat.not_le]

theorem cutsShort_iff {build : Build} {chan : Decoder} {reader : Reader} (next : Feed)
    (tracks : Tracks chan reader) : ¬ cutsShort build chan next ↔ reader.goesOn build next := by
  cases next with
  | bit bit => exact ⟨fun _ => trivial, fun _ cut => cut⟩
  | callEnd => rw [cutsShort, Reader.goesOn, tracks.len, Nat.not_le]

theorem spoiled_iff {chan : Decoder} {reader : Reader} (tracks : Tracks chan reader) :
    spoiled chan ↔ reader.Spoiled := by
  rw [spoiled]
  cases got : reader.got with
  | none =>
      rw [(tracks.closed got).1]
      constructor
      · rintro ⟨flag, _⟩
        contradiction
      · rintro ⟨bits, some_, _⟩
        rw [got] at some_
        contradiction
  | some bits =>
      have receiving := tracks.opened bits got
      have size : (wholeOctets bits).length = chan.rxDecodeLen := by
        rw [wholeOctets_length, receiving.len]
      constructor
      · rintro ⟨_, long, bad⟩
        exact ⟨bits, got, by omega, mt (receiving.fin_iff long).mpr bad⟩
      · rintro ⟨other, some_, long, bad⟩
        rw [got, Option.some.injEq] at some_
        subst some_
        rw [size] at long
        have closing : chan.hdlcFlag = .closingFlag := by
          rw [receiving.flag, if_neg (by omega)]
        exact ⟨closing, long, mt (receiving.fin_iff long).mp bad⟩

/-- A condition along a run of the decoder is one along the reader's. -/
theorem along_tracks {build : Build} {allowed : Decoder → Feed → Prop}
    {seen : Reader → Feed → Prop}
    (same : ∀ chan reader next, Tracks chan reader → reader.collected ≤ build.maxSockHdlcBuf →
      (allowed chan next ↔ seen reader next))
    {chan : Decoder} {reader : Reader} (feeds : List Feed) (tracks : Tracks chan reader)
    (held : reader.collected ≤ build.maxSockHdlcBuf) :
    Along (feedStep build) allowed chan feeds ↔
      Along (Reader.feedStep build) seen reader feeds := by
  induction feeds generalizing chan reader with
  | nil => exact Iff.rfl
  | cons next feeds ih =>
      have step : Along (feedStep build) allowed chan (next :: feeds) ↔
          allowed chan next ∧ Along (feedStep build) allowed (feed build chan next) feeds :=
        ⟨fun along => ⟨along.1, along.2 _ rfl⟩, fun along => Along.cons along.1 rfl along.2⟩
      rw [step, Reader.feedStep_along, same chan reader next tracks held,
        ih (feed_tracks next tracks held) (Reader.feed_held next held)]

/-- A flag and a frame, from any state of a reader. -/
theorem reader_resync {build : Build} (sound : build.maxDecodeLen ≤ build.maxSockHdlcBuf)
    {before flagged opened : Reader} (opening body : List Feed) (data : List Octet)
    (zero : before.ones = 0) (six : feedBits opening = List.replicate 6 true)
    (framed : feedBits body = frameBits (data ++ fcsOctets data)) (some_ : 1 ≤ data.length)
    (fits : data.length + 2 ≤ build.maxDecodeLen)
    (first : flagged = before.feedAll build opening)
    (second : opened = flagged.feed build (.bit false)) :
    ((opened.feedAll build body).feed build (.bit false)).frames =
        opened.frames ++ [data ++ fcsOctets data] ↔
      Along (Reader.feedStep build) (Reader.keepsFlag build) before opening ∧
        ¬ flagged.Spoiled ∧
        Along (Reader.feedStep build) (Reader.goesOn build) opened body := by
  have size : (data ++ fcsOctets data).length = data.length + 2 := by
    rw [List.length_append, fcsOctets_length]
  have calm : Calm 0 (feedBits body) := framed ▸ frameBits_calm _
  have start : opened.ones = 0 := second ▸ Reader.feed_zero_ones build flagged
  have quiet := Reader.calm_feedAll build opened body 0 calm (Nat.le_of_eq start)
  have lost : (opened.feedAll build body).got = none →
      ((opened.feedAll build body).feed build (.bit false)).frames ≠
        opened.frames ++ [data ++ fcsOctets data] := by
    intro got
    rw [Reader.feed_none_frames false got, quiet.1]
    exact fun same => List.cons_ne_nil _ _ (List.self_eq_append_right.mp same)
  have counted := Reader.ones_counted build before opening 6 six (by omega)
  by_cases kept : Along (Reader.feedStep build) (Reader.keepsFlag build) before opening
  · have opens := Reader.flag_opens build (first ▸ counted.1 kept)
    by_cases bad : flagged.Spoiled
    · have got : opened.got = none := second ▸ opens.2 bad
      exact iff_of_false (lost (quiet.2 got)) (fun holds => holds.2.1 bad)
    · have got : opened.got = some [] := second ▸ opens.1 bad
      have room : opened.Within build.maxSockHdlcBuf (feedBits body) := by
        rw [framed]
        exact Reader.frameBits_within _ got start (by omega)
      have read := Reader.body_read opened body 0 calm (Nat.le_of_eq start) room
      by_cases goes : Along (Reader.feedStep build) (Reader.goesOn build) opened body
      · have delivered := Reader.frame_read data got start some_
        rw [read.1 goes, framed, Reader.feed_bit (by omega)]
        exact iff_of_true delivered.1 ⟨kept, bad, goes⟩
      · exact iff_of_false (lost (read.2 goes)) (fun holds => goes holds.2.2)
  · have got : opened.got = none := second ▸ Reader.missed_zero (first ▸ counted.2 kept)
    exact iff_of_false (lost (quiet.2 got)) (fun holds => kept holds.1)

end Wanpipe.Hdlc
