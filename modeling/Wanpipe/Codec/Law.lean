import Mathlib.Data.BitVec
import Mathlib.Tactic.Common

/-! The companding of whole buffers: the tables, the conversion to linear and back. -/

namespace Wanpipe.Codec

/-- What the coded side speaks. -/
inductive SourceFormat
  | mulaw
  | alaw
  | lin16
  deriving DecidableEq, Repr

section Tables

/-- The positive half of the table, the only one that an index of seven bits reaches. -/
def u2s : List (BitVec 16) :=
  [0x7D7C, 0x797C, 0x757C, 0x717C, 0x6D7C, 0x697C, 0x657C, 0x617C,
   0x5D7C, 0x597C, 0x557C, 0x517C, 0x4D7C, 0x497C, 0x457C, 0x417C,
   0x3E7C, 0x3C7C, 0x3A7C, 0x387C, 0x367C, 0x347C, 0x327C, 0x307C,
   0x2E7C, 0x2C7C, 0x2A7C, 0x287C, 0x267C, 0x247C, 0x227C, 0x207C,
   0x1EFC, 0x1DFC, 0x1CFC, 0x1BFC, 0x1AFC, 0x19FC, 0x18FC, 0x17FC,
   0x16FC, 0x15FC, 0x14FC, 0x13FC, 0x12FC, 0x11FC, 0x10FC, 0x0FFC,
   0x0F3C, 0x0EBC, 0x0E3C, 0x0DBC, 0x0D3C, 0x0CBC, 0x0C3C, 0x0BBC,
   0x0B3C, 0x0ABC, 0x0A3C, 0x09BC, 0x093C, 0x08BC, 0x083C, 0x07BC,
   0x075C, 0x071C, 0x06DC, 0x069C, 0x065C, 0x061C, 0x05DC, 0x059C,
   0x055C, 0x051C, 0x04DC, 0x049C, 0x045C, 0x041C, 0x03DC, 0x039C,
   0x036C, 0x034C, 0x032C, 0x030C, 0x02EC, 0x02CC, 0x02AC, 0x028C,
   0x026C, 0x024C, 0x022C, 0x020C, 0x01EC, 0x01CC, 0x01AC, 0x018C,
   0x0174, 0x0164, 0x0154, 0x0144, 0x0134, 0x0124, 0x0114, 0x0104,
   0x00F4, 0x00E4, 0x00D4, 0x00C4, 0x00B4, 0x00A4, 0x0094, 0x0084,
   0x0078, 0x0070, 0x0068, 0x0060, 0x0058, 0x0050, 0x0048, 0x0040,
   0x0038, 0x0030, 0x0028, 0x0020, 0x0018, 0x0010, 0x0008, 0x0000]

/-- The half that an index of seven bits reaches. -/
def a2s : List (BitVec 16) :=
  [0x1500, 0x1400, 0x1700, 0x1600, 0x1100, 0x1000, 0x1300, 0x1200,
   0x1D00, 0x1C00, 0x1F00, 0x1E00, 0x1900, 0x1800, 0x1B00, 0x1A00,
   0x0A80, 0x0A00, 0x0B80, 0x0B00, 0x0880, 0x0800, 0x0980, 0x0900,
   0x0E80, 0x0E00, 0x0F80, 0x0F00, 0x0C80, 0x0C00, 0x0D80, 0x0D00,
   0x5400, 0x5000, 0x5C00, 0x5800, 0x4400, 0x4000, 0x4C00, 0x4800,
   0x7400, 0x7000, 0x7C00, 0x7800, 0x6400, 0x6000, 0x6C00, 0x6800,
   0x2A00, 0x2800, 0x2E00, 0x2C00, 0x2200, 0x2000, 0x2600, 0x2400,
   0x3A00, 0x3800, 0x3E00, 0x3C00, 0x3200, 0x3000, 0x3600, 0x3400,
   0x0150, 0x0140, 0x0170, 0x0160, 0x0110, 0x0100, 0x0130, 0x0120,
   0x01D0, 0x01C0, 0x01F0, 0x01E0, 0x0190, 0x0180, 0x01B0, 0x01A0,
   0x0050, 0x0040, 0x0070, 0x0060, 0x0010, 0x0000, 0x0030, 0x0020,
   0x00D0, 0x00C0, 0x00F0, 0x00E0, 0x0090, 0x0080, 0x00B0, 0x00A0,
   0x0540, 0x0500, 0x05C0, 0x0580, 0x0440, 0x0400, 0x04C0, 0x0480,
   0x0740, 0x0700, 0x07C0, 0x0780, 0x0640, 0x0600, 0x06C0, 0x0680,
   0x02A0, 0x0280, 0x02E0, 0x02C0, 0x0220, 0x0200, 0x0260, 0x0240,
   0x03A0, 0x0380, 0x03E0, 0x03C0, 0x0320, 0x0300, 0x0360, 0x0340]

/-- The segment of a biased magnitude, by its upper eight bits. -/
def expLut : List Nat :=
  List.replicate 2 0 ++ List.replicate 2 1 ++ List.replicate 4 2 ++ List.replicate 8 3 ++
    List.replicate 16 4 ++ List.replicate 32 5 ++ List.replicate 64 6 ++ List.replicate 128 7

/-- The bias of the samples of 16 bits. -/
def bias : BitVec 16 := 0x84

/-- The largest magnitude that is coded. -/
def clip : BitVec 16 := 32635

def wpLineartoulaw (sample : BitVec 16) : BitVec 8 :=
  let sign := sample.sshiftRight 8 &&& 0x80
  let sample := if sign ≠ 0 then -sample else sample
  let sample := if clip.slt sample then clip else sample
  let sample := sample + bias
  let exponent := expLut.getD (sample.sshiftRight 7 &&& 0xFF).toNat 0
  let mantissa := sample.sshiftRight (exponent + 3) &&& 0x0F
  let ulawbyte := (~~~(sign ||| BitVec.ofNat 16 exponent <<< 4 ||| mantissa)).setWidth 8
  let ulawbyte := if ulawbyte = 0 then 0x02 else ulawbyte
  if ulawbyte = 0xFF then 0x7F else ulawbyte

def segEnd : List Int :=
  [0xFF, 0x1FF, 0x3FF, 0x7FF, 0xFFF, 0x1FFF, 0x3FFF, 0x7FFF]

def amiMask : BitVec 32 := 0x55

def wpLineartoalaw (linear : BitVec 16) : BitVec 8 :=
  let mask := if 0 ≤ linear.toInt then amiMask ||| 0x80 else amiMask
  let pcmVal := if 0 ≤ linear.toInt then linear.toInt else -linear.toInt
  let seg := (segEnd.takeWhile fun last => last < pcmVal).length
  let shift := if seg ≠ 0 then seg + 3 else 4
  ((BitVec.ofNat 32 seg <<< 4 ||| BitVec.ofInt 32 pcmVal >>> shift &&& 0x0F) ^^^ mask).setWidth 8

def wpAlaw2linear (alaw : BitVec 8) : BitVec 16 :=
  let alaw := alaw.setWidth 32 ^^^ amiMask
  let i := (alaw &&& 0x0F) <<< 4
  let seg := ((alaw &&& 0x70) >>> 4).toNat
  let i := if seg ≠ 0 then (i + 0x100) <<< (seg - 1) else i
  (if alaw &&& 0x80 ≠ 0 then i else -i).setWidth 16

def etab : List (BitVec 16) := [0, 132, 396, 924, 1980, 4092, 8316, 16764]

/-- What the table `__wp_mulaw` is filled with. -/
def wpMulaw (code : BitVec 8) : BitVec 16 :=
  let mu : BitVec 16 := 255 - code.setWidth 16
  let e := ((mu &&& 0x70) / 16).toNat
  let f := mu &&& 0x0F
  let y := f * ((1 : BitVec 16) <<< (e + 3)) + etab.getD e 0
  if mu &&& 0x80 ≠ 0 then -y else y

/-- What the table `__wp_alaw` is filled with. -/
def wpAlaw (code : BitVec 8) : BitVec 16 :=
  wpAlaw2linear code

/-- The sample of one turn of the loop that fills the tables to the coded side. -/
def initSample (turn : Nat) : BitVec 16 :=
  BitVec.ofInt 16 (-32768 + 4 * (turn : Int))

/-- The tables to the coded side after some turns, by the upper 14 bits of the sample. -/
def fillCodes (encode : BitVec 16 → BitVec 8) : Nat → Nat → BitVec 8
  | 0 => fun _ => 0
  | turn + 1 => Function.update (fillCodes encode turn) ((initSample turn).toNat >>> 2)
      (encode (initSample turn))

def wpLin2mu : Nat → BitVec 8 :=
  fillCodes wpLineartoulaw 16384

def wpLin2a : Nat → BitVec 8 :=
  fillCodes wpLineartoalaw 16384

theorem initSample_toNat (turn : Nat) :
    ((initSample turn).toNat : Int) = (-32768 + 4 * (turn : Int)) % 65536 := by
  rw [initSample, BitVec.toNat_ofInt, Int.toNat_of_nonneg (Int.emod_nonneg _ (by decide))]
  rfl

theorem initSample_place (turn : Nat) :
    (initSample turn).toNat >>> 2 = (8192 + turn) % 16384 := by
  have value := initSample_toNat turn
  rw [Nat.shiftRight_eq_div_pow]
  omega

theorem fillCodes_filled (encode : BitVec 16 → BitVec 8) {turns : Nat} (few : turns ≤ 16384)
    {turn : Nat} (earlier : turn < turns) :
    fillCodes encode turns ((8192 + turn) % 16384) = encode (initSample turn) := by
  induction turns with
  | zero => omega
  | succ turns ih =>
      rw [fillCodes, initSample_place]
      by_cases same : turn = turns
      · rw [same, Function.update_self]
      · rw [Function.update_of_ne (by omega)]
        exact ih (by omega) (by omega)

/-- Every sample finds the code of the multiple of four at or below it. -/
theorem fillCodes_read (encode : BitVec 16 → BitVec 8) (sample : BitVec 16) :
    fillCodes encode 16384 (sample.toNat >>> 2) = encode (sample >>> 2 <<< 2) := by
  have small := sample.isLt
  have quarter : sample.toNat >>> 2 = sample.toNat / 4 := Nat.shiftRight_eq_div_pow _ _
  have place : (8192 + (8192 + sample.toNat / 4) % 16384) % 16384 = sample.toNat / 4 := by
    omega
  have sampled : initSample ((8192 + sample.toNat / 4) % 16384) = sample >>> 2 <<< 2 := by
    have value := initSample_toNat ((8192 + sample.toNat / 4) % 16384)
    apply BitVec.eq_of_toNat_eq
    rw [BitVec.toNat_shiftLeft, BitVec.toNat_ushiftRight, quarter, Nat.shiftLeft_eq]
    omega
  calc
    fillCodes encode 16384 (sample.toNat >>> 2) =
        fillCodes encode 16384 ((8192 + (8192 + sample.toNat / 4) % 16384) % 16384) := by
      rw [place, quarter]
    _ = encode (initSample ((8192 + sample.toNat / 4) % 16384)) :=
      fillCodes_filled encode (le_refl _) (Nat.mod_lt _ (by decide))
    _ = encode (sample >>> 2 <<< 2) := by rw [sampled]

end Tables

section Conversion

/-- The code that the encoder assigns to the linear value of a code. -/
def SourceFormat.recode : SourceFormat → BitVec 8 → BitVec 8
  | .mulaw, code => if code = 0x00 then 0x02 else if code = 0xFF then 0x7F else code
  | _, code => if code = 0x55 then 0xD5 else code

def SourceFormat.linear : SourceFormat → BitVec 8 → BitVec 16
  | .mulaw => wpMulaw
  | _ => wpAlaw

/-- The table of the magnitudes. -/
def SourceFormat.pcodec : SourceFormat → List (BitVec 16)
  | .mulaw => u2s
  | _ => a2s

def SourceFormat.encoder : SourceFormat → BitVec 16 → BitVec 8
  | .mulaw => wpLineartoulaw
  | _ => wpLineartoalaw

/-- The table to the coded side. -/
def SourceFormat.codes : SourceFormat → Nat → BitVec 8
  | .mulaw => wpLin2mu
  | _ => wpLin2a

theorem linear_quarter (source : SourceFormat) (code : BitVec 8) :
    source.linear code >>> 2 <<< 2 = source.linear code := by
  cases source <;> revert code <;> decide +kernel

theorem encoder_linear (source : SourceFormat) (code : BitVec 8) :
    source.encoder (source.linear code) = source.recode code := by
  cases source <;> revert code <;> decide +kernel

theorem pcodec_linear (source : SourceFormat) (code : BitVec 8) :
    (source.pcodec.getD (code &&& 0x7F).toNat 0).toNat = (source.linear code).toInt.natAbs := by
  cases source <;> revert code <;> decide +kernel

/-- The memory and the sum within the loop of a conversion to linear, and the places it went to. -/
structure LawLoop where
  data : Nat → BitVec 8
  buf : Nat → BitVec 16
  power : BitVec 16
  read : List Nat
  written : List Nat

/-- What a conversion to linear leaves and returns. -/
structure Law2s where
  loop : LawLoop
  power : BitVec 16
  ret : Int

/-- What a conversion back leaves and returns. -/
structure S2law where
  buf : Nat → BitVec 8
  written : List Nat
  ret : Int

def law2sTurn (source : SourceFormat) (gain : Option (BitVec 8 → BitVec 8)) (loop : LawLoop)
    (i : Nat) : LawLoop :=
  let data := match gain with
    | some gain => Function.update loop.data i (gain (loop.data i))
    | none => loop.data
  { data
    buf := Function.update loop.buf i (source.linear (data i))
    power := loop.power + source.pcodec.getD (data i &&& 0x7F).toNat 0
    read := loop.read ++ [i]
    written := loop.written ++ [i] }

def law2sLoop (source : SourceFormat) (gain : Option (BitVec 8 → BitVec 8))
    (data : Nat → BitVec 8) (buf : Nat → BitVec 16) : Nat → LawLoop
  | 0 => { data, buf, power := 0, read := [], written := [] }
  | i + 1 => law2sTurn source gain (law2sLoop source gain data buf i) i

/-- The length is doubled before the loop, in 32 bits. A length of zero is divided by. -/
def wanpipeCodecConvertLaw2s (source : SourceFormat) (data : Nat → BitVec 8) (len : Int)
    (buf : Nat → BitVec 16) (gain : Option (BitVec 8 → BitVec 8)) : Option Law2s :=
  let len := (len * 2).bmod 4294967296
  let loop := law2sLoop source gain data buf len.toNat
  if len = 0 then none
  else some { loop, power := BitVec.ofInt 16 ((loop.power.toNat : Int).tdiv len), ret := len }

def s2lawTurn (source : SourceFormat) (data : Nat → BitVec 16)
    (gain : Option (BitVec 8 → BitVec 8)) (buf : Nat → BitVec 8) (i : Nat) : Nat → BitVec 8 :=
  let code := source.codes ((data i).toNat >>> 2)
  Function.update buf i (match gain with
    | some gain => gain code
    | none => code)

def wanpipeCodecConvertS2law (source : SourceFormat) (data : Nat → BitVec 16) (len : Int)
    (buf : Nat → BitVec 8) (gain : Option (BitVec 8 → BitVec 8)) : S2law :=
  let len := len.tdiv 2
  { buf := (List.range len.toNat).foldl (s2lawTurn source data gain) buf
    written := List.range len.toNat
    ret := len }

/-- The magnitudes of the first samples, added up. -/
def magnitudes (source : SourceFormat) (data : Nat → BitVec 8) (count : Nat) : Nat :=
  ((List.range count).map fun i => (source.linear (data i)).toInt.natAbs).sum

theorem magnitudes_succ (source : SourceFormat) (data : Nat → BitVec 8) (count : Nat) :
    magnitudes source data (count + 1) =
      magnitudes source data count + (source.linear (data count)).toInt.natAbs := by
  rw [magnitudes, List.range_succ, List.map_append, List.sum_append, ← magnitudes]
  rfl

/-- What the first turns of the loop have done. -/
structure Converted (source : SourceFormat) (data : Nat → BitVec 8) (buf : Nat → BitVec 16)
    (turns : Nat) (loop : LawLoop) : Prop where
  kept : loop.data = data
  sampled : ∀ i < turns, loop.buf i = source.linear (data i)
  beyond : ∀ i, turns ≤ i → loop.buf i = buf i
  power : loop.power = BitVec.ofNat 16 (magnitudes source data turns)
  read : loop.read = List.range turns
  written : loop.written = List.range turns

theorem Converted.turn {source : SourceFormat} {data : Nat → BitVec 8} {buf : Nat → BitVec 16}
    {turns : Nat} {loop : LawLoop} (converted : Converted source data buf turns loop) :
    Converted source data buf (turns + 1) (law2sTurn source none loop turns) where
  kept := converted.kept
  sampled := by
    intro i inside
    by_cases last : i = turns
    · rw [last]
      exact (Function.update_self _ _ _).trans (by rw [converted.kept])
    · exact (Function.update_of_ne last _ _).trans (converted.sampled i (by omega))
  beyond := by
    intro i outside
    exact (Function.update_of_ne (by omega) _ _).trans (converted.beyond i (by omega))
  power := by
    have magnitude := pcodec_linear source (data turns)
    calc
      loop.power + source.pcodec.getD (loop.data turns &&& 0x7F).toNat 0 =
          BitVec.ofNat 16 (magnitudes source data turns) +
            source.pcodec.getD (data turns &&& 0x7F).toNat 0 := by
        rw [converted.power, converted.kept]
      _ = BitVec.ofNat 16 (magnitudes source data turns) +
            BitVec.ofNat 16 (source.linear (data turns)).toInt.natAbs := by
        rw [← magnitude, BitVec.ofNat_toNat, BitVec.setWidth_eq]
      _ = BitVec.ofNat 16 (magnitudes source data (turns + 1)) := by
        rw [magnitudes_succ, BitVec.ofNat_add]
  read := by
    rw [law2sTurn, converted.read, List.range_succ]
  written := by
    rw [law2sTurn, converted.written, List.range_succ]

theorem law2sLoop_converted (source : SourceFormat) (data : Nat → BitVec 8)
    (buf : Nat → BitVec 16) (turns : Nat) :
    Converted source data buf turns (law2sLoop source none data buf turns) := by
  induction turns with
  | zero =>
      exact {
        kept := rfl
        sampled := fun i inside => absurd inside (Nat.not_lt_zero i)
        beyond := fun i outside => rfl
        power := rfl
        read := rfl
        written := rfl }
  | succ turns ih => exact ih.turn

theorem s2law_turns (source : SourceFormat) (data : Nat → BitVec 16) (buf : Nat → BitVec 8)
    (turns : Nat) {i : Nat} (inside : i < turns) :
    (List.range turns).foldl (s2lawTurn source data none) buf i =
      source.codes ((data i).toNat >>> 2) := by
  induction turns with
  | zero => exact absurd inside (Nat.not_lt_zero i)
  | succ turns ih =>
      rw [List.range_succ, List.foldl_append]
      by_cases last : i = turns
      · rw [last]
        exact Function.update_self _ _ _
      · exact (Function.update_of_ne last _ _).trans (ih (by omega))

/-- The table gives a linear value its code. -/
theorem codes_linear (source : SourceFormat) (code : BitVec 8) :
    source.codes ((source.linear code).toNat >>> 2) = source.recode code := by
  have filled : source.codes = fillCodes source.encoder 16384 := by
    cases source <;> rfl
  rw [filled, fillCodes_read, linear_quarter, encoder_linear]

end Conversion

section Buffers

theorem doubled_small {len : Nat} (small : len < 1073741824) :
    ((len : Int) * 2).bmod 4294967296 = 2 * len := by
  rw [Int.bmod_def]
  omega

/-- A buffer that is not empty is converted over twice its length. -/
theorem convertLaw2s_some (source : SourceFormat) (data : Nat → BitVec 8) {len : Nat}
    (buf : Nat → BitVec 16) (nonempty : 0 < len) (small : len < 1073741824) :
    wanpipeCodecConvertLaw2s source data len buf none =
      some {
        loop := law2sLoop source none data buf (2 * len)
        power := BitVec.ofNat 16 (magnitudes source data (2 * len) % 65536 / (2 * len))
        ret := 2 * len } := by
  have converted := law2sLoop_converted source data buf (2 * len)
  have doubled := doubled_small small
  have turns : ((2 * len : Nat) : Int) = 2 * (len : Int) := by omega
  rw [wanpipeCodecConvertLaw2s, doubled, if_neg (by omega), ← turns, Int.toNat_natCast,
    converted.power, BitVec.toNat_ofNat, ← Int.ofNat_tdiv, BitVec.ofInt_natCast]

/-- With the count of the first conversion the second gives as many octets as the buffer has,
the codes of the linear values. -/
theorem convertS2law_back (source : SourceFormat) (data : Nat → BitVec 8) {len : Nat}
    {buf : Nat → BitVec 16} (back : Nat → BitVec 8) {loop : LawLoop}
    (converted : Converted source data buf (2 * len) loop) :
    let returned := wanpipeCodecConvertS2law source loop.buf (2 * len) back none
    returned.ret = len ∧ returned.written = List.range len ∧
      ∀ i < len, returned.buf i = source.recode (data i) := by
  have halved : (2 * (len : Int)).tdiv 2 = len := Int.mul_tdiv_cancel_left _ (by decide)
  rw [wanpipeCodecConvertS2law, halved, Int.toNat_natCast]
  refine ⟨rfl, rfl, ?_⟩
  intro i inside
  calc
    (List.range len).foldl (s2lawTurn source loop.buf none) back i =
        source.codes ((loop.buf i).toNat >>> 2) := s2law_turns source loop.buf back len inside
    _ = source.codes ((source.linear (data i)).toNat >>> 2) := by
      rw [converted.sampled i (by omega)]
    _ = source.recode (data i) := codes_linear source (data i)

/-- What is asked of the conversion of a buffer: only its octets are read, as many samples are
written, the count is that of the other direction, which gives the octets again as the encoder
has them, and the power is the mean of the magnitudes. -/
structure RoundTrips (source : SourceFormat) (data : Nat → BitVec 8) (len : Nat)
    (back : Nat → BitVec 8) (done : Law2s) : Prop where
  read : done.loop.read = List.range len
  written : done.loop.written = List.range len
  ret : (wanpipeCodecConvertS2law source done.loop.buf done.ret back none).ret = len
  filled : (wanpipeCodecConvertS2law source done.loop.buf done.ret back none).written =
    List.range len
  recoded : ∀ i < len,
    (wanpipeCodecConvertS2law source done.loop.buf done.ret back none).buf i =
      source.recode (data i)
  power : done.power.toNat = magnitudes source data len / len

theorem convertLaw2s_read {source : SourceFormat} {data : Nat → BitVec 8} {len : Int}
    {buf : Nat → BitVec 16} {done : Law2s}
    (ran : wanpipeCodecConvertLaw2s source data len buf none = some done) :
    (len * 2).bmod 4294967296 ≠ 0 ∧
      done.loop.read = List.range ((len * 2).bmod 4294967296).toNat := by
  rw [wanpipeCodecConvertLaw2s] at ran
  by_cases empty : (len * 2).bmod 4294967296 = 0
  · rw [if_pos empty] at ran
    cases ran
  · rw [if_neg empty] at ran
    cases ran
    exact ⟨empty, (law2sLoop_converted source data buf _).read⟩

/-- No buffer is converted as asked: one of no octets is not converted at all, and any other is
read over twice its length, or not read where twice its length is negative. -/
theorem codec_law (source : SourceFormat) (data : Nat → BitVec 8) (len : Nat)
    (buf : Nat → BitVec 16) (back : Nat → BitVec 8) :
    ¬ ∃ done, wanpipeCodecConvertLaw2s source data len buf none = some done ∧
      RoundTrips source data len back done := by
  rintro ⟨done, ran, trips⟩
  obtain ⟨nonzero, read⟩ := convertLaw2s_read ran
  have counts : ((len : Int) * 2).bmod 4294967296 = len ∨
      ((len : Int) * 2).bmod 4294967296 < 0 ∧ len = 0 := by
    have same := congrArg List.length (read.symm.trans trips.read)
    rw [List.length_range, List.length_range] at same
    omega
  rw [Int.bmod_def] at counts nonzero
  omega

/-- Of a buffer of one octet two are read. -/
theorem codec_law_one :
    ¬ ∃ done, wanpipeCodecConvertLaw2s .mulaw (fun _ => 0xFF) (1 : Nat) (fun _ => 0) none =
        some done ∧
      RoundTrips .mulaw (fun _ => 0xFF) 1 (fun _ => 0) done := by
  rintro ⟨done, ran, trips⟩
  have two : done.loop.read = [0, 1] := by
    cases ran
    rfl
  have one := two.symm.trans trips.read
  exact absurd one (by decide)

end Buffers

end Wanpipe.Codec
