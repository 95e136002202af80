import Wanpipe.Hdlc.Decoder

/-! Which stretches of a line the decoder hands up. -/

namespace Wanpipe.Hdlc

open Line

/-- The destuffed bits before the first flag, and those behind each flag: up to and with the six
ones of the next one, or to the end of the line. `ones` are the ones since the last zero, in the
decoder's octet. -/
def stretches : Nat → List Bool → List Bool × List (List Bool)
  | _, [] => ([], [])
  | ones, true :: bits =>
      let (first, later) := stretches ((ones + 1) % 256) bits
      (true :: first, later)
  | ones, false :: bits =>
      let (first, later) := stretches 0 bits
      if ones = 5 then (first, later)
      else if ones = 6 then ([], first :: later)
      else (false :: first, later)

/-- The frames among the stretches behind flags, and the stretch that is open at the end. A
stretch is cut to whole octets; behind one with a bad check sum the next one is lost. -/
def received : List (List Bool) → List (List Octet) × Option (List Bool)
  | [] => ([], none)
  | [unfinished] => ([], some unfinished)
  | stretch :: next :: later =>
      if (wholeOctets stretch).length < 3 then received (next :: later)
      else if GoodFcs (wholeOctets stretch) then
        let (frames, unfinished) := received (next :: later)
        (wholeOctets stretch :: frames, unfinished)
      else received later

/-- A line read from the start. -/
def reading (bits : List Bool) : List (List Octet) × Option (List Bool) :=
  received (stretches 0 bits).2

/-- Whole octets of the stretch that is open at the end of a line. -/
def openOctets (bits : List Bool) : Nat := ((reading bits).2.getD []).length / 8

/-- The octets of the calls, cut behind each call that ends in an open stretch of `limit` octets. -/
def segments (limit : Nat) : List Octet → List (List Octet) → List (List Octet)
  | octets, [] => [octets]
  | octets, buf :: calls =>
      if limit ≤ openOctets (lineBits (octets ++ buf)) then
        (octets ++ buf) :: segments limit [] calls
      else segments limit (octets ++ buf) calls

/-- The stretches a reader has before it, with what it has collected already. -/
def Reader.ahead (reader : Reader) (bits : List Bool) : List (List Bool) :=
  match reader.got with
  | none => (stretches reader.ones bits).2
  | some got => (got ++ (stretches reader.ones bits).1) :: (stretches reader.ones bits).2

theorem judge_ahead (reader : Reader) (got bits : List Bool) :
    (({ reader.judge (wholeOctets got) with ones := 0 } : Reader).frames ++
          (received (({ reader.judge (wholeOctets got) with ones := 0 } : Reader).ahead bits)).1 =
        reader.frames ++
          (received (got :: (stretches 0 bits).1 :: (stretches 0 bits).2)).1) ∧
      (received (({ reader.judge (wholeOctets got) with ones := 0 } : Reader).ahead bits)).2 =
        (received (got :: (stretches 0 bits).1 :: (stretches 0 bits).2)).2 := by
  rw [Reader.judge, received]
  by_cases empty : wholeOctets got = []
  · rw [if_pos empty, empty, if_pos (by decide)]
    exact ⟨rfl, rfl⟩
  · rw [if_neg empty]
    by_cases short : (wholeOctets got).length < 3
    · rw [if_pos short, if_pos short]
      exact ⟨rfl, rfl⟩
    · rw [if_neg short, if_neg short]
      by_cases good : GoodFcs (wholeOctets got)
      · rw [if_pos good, if_pos good]
        exact ⟨List.append_assoc .., rfl⟩
      · rw [if_neg good, if_neg good]
        exact ⟨rfl, rfl⟩

/-- One bit moves from the line into the reader. -/
theorem bit_ahead (reader : Reader) (bit : Bool) (bits : List Bool) :
    (reader.bit bit).frames ++ (received ((reader.bit bit).ahead bits)).1 =
        reader.frames ++ (received (reader.ahead (bit :: bits))).1 ∧
      (received ((reader.bit bit).ahead bits)).2 =
        (received (reader.ahead (bit :: bits))).2 := by
  rcases reader with ⟨ones, got, frames, crc, abort, overflow⟩
  cases bit with
  | true =>
      cases got with
      | none => exact ⟨rfl, rfl⟩
      | some got => simp [Reader.bit, Reader.put, Reader.ahead, stretches]
  | false =>
      by_cases stuffed : ones = 5
      · cases got <;> simp [Reader.bit, Reader.ahead, stretches, stuffed]
      · by_cases six : ones = 6
        · cases got with
          | none => simp [Reader.bit, Reader.mark, Reader.ahead, stretches, six]
          | some got =>
              have judged := judge_ahead ⟨6, some got, frames, crc, abort, overflow⟩ got bits
              simpa [Reader.bit, Reader.mark, Reader.ahead, stretches, six] using judged
        · cases got <;> simp [Reader.bit, Reader.put, Reader.ahead, stretches, stuffed, six]

/-- A reader's frames are those it had and those of the stretches before it. -/
theorem line_ahead (bits : List Bool) (reader : Reader) :
    (reader.line bits).frames = reader.frames ++ (received (reader.ahead bits)).1 ∧
      (reader.line bits).got = (received (reader.ahead bits)).2 := by
  induction bits generalizing reader with
  | nil => cases got : reader.got <;> simp [Reader.ahead, got, stretches, received]
  | cons bit bits ih =>
      rcases ih (reader.bit bit) with ⟨frames, got⟩
      rcases bit_ahead reader bit bits with ⟨same, unfinished⟩
      rw [Reader.line_cons]
      exact ⟨frames.trans same, got.trans unfinished⟩

/-- Where a segment begins: at the start or behind a call that gave up. -/
structure Fresh (reader : Reader) : Prop where
  ones : reader.ones = 0
  got : reader.got = none

theorem Fresh.line {reader : Reader} (fresh : Fresh reader) (bits : List Bool) :
    (reader.line bits).frames = reader.frames ++ (reading bits).1 ∧
      (reader.line bits).collected = openOctets bits := by
  have ahead : reader.ahead bits = (stretches 0 bits).2 := by
    rw [Reader.ahead, fresh.got, fresh.ones]
  rcases line_ahead bits reader with ⟨frames, got⟩
  rw [ahead] at frames got
  refine ⟨frames, ?_⟩
  rw [Reader.collected, got]
  rfl

/-- At no point is the open stretch of a segment as long as the decode buffer. -/
def NeverFull (build : Build) (octets : List Octet) : Prop :=
  ∀ n ≤ 8 * octets.length,
    openOctets ((lineBits octets).take n) < build.maxSockHdlcBuf

instance (build : Build) (octets : List Octet) : Decidable (NeverFull build octets) :=
  inferInstanceAs (Decidable (∀ n ≤ _, _))

/-- The octets that are read before a call's own belong to the same segment. -/
theorem segments_head (limit : Nat) (octets : List Octet) (calls : List (List Octet)) :
    ∃ more rest, segments limit octets calls = (octets ++ more) :: rest := by
  induction calls generalizing octets with
  | nil => exact ⟨[], [], by rw [segments, List.append_nil]⟩
  | cons buf calls ih =>
      rw [segments]
      split
      · exact ⟨buf, _, rfl⟩
      · rcases ih (octets ++ buf) with ⟨more, rest, split⟩
        exact ⟨buf ++ more, rest, by rw [split, List.append_assoc]⟩

theorem within_of_prefixes {bound : Nat} (bits : List Bool) (reader : Reader)
    (low : ∀ n ≤ bits.length, (reader.line (bits.take n)).collected ≤ bound) :
    reader.Within bound bits := by
  induction bits generalizing reader with
  | nil => trivial
  | cons bit bits ih =>
      refine ⟨low 1 (by simp), ih _ ?_⟩
      intro n early
      exact low (n + 1) (Nat.succ_le_succ early)

theorem neverFull_within {build : Build} {start : Reader} (fresh : Fresh start)
    (octets buf more : List Octet) (fits : NeverFull build (octets ++ buf ++ more)) :
    (start.line (lineBits octets)).Within build.maxSockHdlcBuf (lineBits buf) := by
  apply within_of_prefixes
  intro n early
  have inside : (lineBits (octets ++ buf ++ more)).take (8 * octets.length + n) =
      lineBits octets ++ (lineBits buf).take n := by
    rw [lineBits_append, lineBits_append, List.append_assoc, ← lineBits_length,
      List.take_length_add_append, List.take_append_of_le_length early]
  have low := fits (8 * octets.length + n) (by
    rw [lineBits_length] at early
    rw [List.length_append, List.length_append]
    omega)
  rw [inside] at low
  rw [← Reader.line_append, (fresh.line _).2]
  exact Nat.le_of_lt low

/-- The segments' frames are read in order, and the decode buffer is never overrun. -/
theorem calls_segments (build : Build) (calls : List (List Octet)) (octets : List Octet)
    (start : Reader) (fresh : Fresh start)
    (fits : ∀ segment ∈ segments build.maxDecodeLen octets calls, NeverFull build segment) :
    CallsWithin build.maxSockHdlcBuf build.maxDecodeLen (start.line (lineBits octets))
        (calls.map lineBits) ∧
      ((calls.map lineBits).foldl (Reader.call build.maxDecodeLen)
          (start.line (lineBits octets))).frames =
        start.frames ++ (segments build.maxDecodeLen octets calls).flatMap
          fun segment => (reading (lineBits segment)).1 := by
  induction calls generalizing octets start with
  | nil =>
      refine ⟨trivial, (fresh.line _).1.trans ?_⟩
      rw [segments, List.flatMap_singleton]
  | cons buf calls ih =>
      have joined : (start.line (lineBits octets)).line (lineBits buf) =
          start.line (lineBits (octets ++ buf)) := by
        rw [lineBits_append, Reader.line_append]
      have collected := (fresh.line (lineBits (octets ++ buf))).2
      rw [segments] at fits ⊢
      rw [List.map_cons, List.foldl_cons, CallsWithin, Reader.call, joined, Reader.close, collected]
      by_cases gave : build.maxDecodeLen ≤ openOctets (lineBits (octets ++ buf))
      · rw [if_pos gave] at fits ⊢
        have next := ih [] { start.line (lineBits (octets ++ buf)) with
            ones := 0
            got := none
            frameOverflow := (start.line (lineBits (octets ++ buf))).frameOverflow + 1 } ⟨rfl, rfl⟩
          (fun segment member => fits segment (List.mem_cons_of_mem _ member))
        have first := fits _ List.mem_cons_self
        rw [← List.append_nil (octets ++ buf)] at first
        rw [if_pos gave, List.flatMap_cons, ← List.append_assoc, ← (fresh.line _).1]
        exact ⟨⟨neverFull_within fresh octets buf [] first, next.1⟩, next.2⟩
      · rw [if_neg gave] at fits ⊢
        rcases segments_head build.maxDecodeLen (octets ++ buf) calls with ⟨more, rest, split⟩
        have first := fits (octets ++ buf ++ more) (by rw [split]; exact List.mem_cons_self)
        have next := ih (octets ++ buf) start fresh fits
        rw [if_neg gave]
        exact ⟨⟨neverFull_within fresh octets buf more first, next.1⟩, next.2⟩

end Wanpipe.Hdlc
