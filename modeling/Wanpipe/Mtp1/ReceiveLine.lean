import Wanpipe.Mtp1.Receive

/-! What the receiver makes of a stuffed signal unit between two flags. -/

namespace Wanpipe.Mtp1

open Line

def feed (link : Link) (bits : List Bool) : Link := bits.foldl rxBitToSu link

@[simp] theorem feed_nil (link : Link) : feed link [] = link := rfl

@[simp] theorem feed_cons (link : Link) (bit : Bool) (bits : List Bool) :
    feed link (bit :: bits) = feed (rxBitToSu link bit) bits := rfl

theorem feed_append (link : Link) (left right : List Bool) :
    feed link (left ++ right) = feed (feed link left) right := by
  simp [feed]

/-- A shift register that takes its bits in at bit 7, as both accumulators of the receiver do. -/
def accumOf (bits : List Bool) : BitVec 32 :=
  bits.foldl (fun accum bit => (accum >>> 1) ||| rxBit bit) 0#32

theorem accumOf_append_bit (bits : List Bool) (bit : Bool) :
    accumOf (bits ++ [bit]) = (accumOf bits >>> 1) ||| rxBit bit := by
  simp [accumOf]

private theorem accumOf_eight :
    ∀ a b c d e f g h : Bool,
      accumOf [a, b, c, d, e, f, g, h] = (octetOf [a, b, c, d, e, f, g, h]).setWidth 32 := by
  decide +kernel

private theorem eight_bits (bits : List Bool) (full : bits.length = 8) :
    ∃ a b c d e f g h, bits = [a, b, c, d, e, f, g, h] := by
  match bits, full with
  | [a, b, c, d, e, f, g, h], _ => exact ⟨a, b, c, d, e, f, g, h, rfl⟩

theorem accumOf_octet (bits : List Bool) (full : bits.length = 8) :
    accumOf bits = (octetOf bits).setWidth 32 := by
  obtain ⟨a, b, c, d, e, f, g, h, rfl⟩ := eight_bits bits full
  exact accumOf_eight a b c d e f g h

private theorem accumOf_drop_bits :
    ∀ a b c d e f g h i : Bool,
      (accumOf [a, b, c, d, e, f, g, h] >>> 1) ||| rxBit i = accumOf [b, c, d, e, f, g, h, i] := by
  decide +kernel

/-- A full register forgets its oldest bit. -/
theorem accumOf_shift (oldest next : Bool) (bits : List Bool) (seven : bits.length = 7) :
    (accumOf (oldest :: bits) >>> 1) ||| rxBit next = accumOf (bits ++ [next]) := by
  match bits, seven with
  | [b, c, d, e, f, g, h], _ => exact accumOf_drop_bits oldest b c d e f g h next

private theorem accumOf_low_bits :
    ∀ a b c d e f g h : Bool, (accumOf [a, b, c, d, e, f, g, h]).getLsbD 0 = a := by
  decide +kernel

theorem accumOf_low (oldest : Bool) (bits : List Bool) (seven : bits.length = 7) :
    (accumOf (oldest :: bits)).getLsbD 0 = oldest := by
  match bits, seven with
  | [b, c, d, e, f, g, h], _ => exact accumOf_low_bits oldest b c d e f g h

private theorem accumOf_plain_bits :
    ∀ a b c d e f g h : Bool, leadOnes [b, c, d, e, f, g, h] ≤ 5 →
      accumOf [a, b, c, d, e, f, g, h] ≠ flagOctet ∧
        ¬ tooManyOnes (accumOf [a, b, c, d, e, f, g, h]) := by
  decide +kernel

/-- Flags and aborts are seen in the register by the six ones behind its oldest bit. -/
theorem accumOf_plain (oldest : Bool) (bits : List Bool) (seven : bits.length = 7)
    (few : leadOnes bits ≤ 5) :
    accumOf (oldest :: bits) ≠ flagOctet ∧ ¬ tooManyOnes (accumOf (oldest :: bits)) := by
  match bits, seven with
  | [b, c, d, e, f, g, h], _ => exact accumOf_plain_bits oldest b c d e f g h few

theorem leadOnes_take (n : Nat) (bits : List Bool) : leadOnes (bits.take n) ≤ leadOnes bits := by
  induction bits generalizing n with
  | nil => simp
  | cons bit bits ih =>
      cases n with
      | zero => simp [leadOnes]
      | succ n =>
          cases bit
          · simp [leadOnes]
          · simpa [leadOnes] using ih n

/-- Nothing was told to the layer above, and the configuration stays. -/
structure Silent (before after : Link) : Prop where
  cfg : after.cfg = before.cfg
  reg : after.reg = before.reg
  indications : after.indications = before.indications

theorem Silent.refl (link : Link) : Silent link link := ⟨rfl, rfl, rfl⟩

theorem Silent.trans {first second third : Link} (left : Silent first second)
    (right : Silent second third) : Silent first third :=
  ⟨right.cfg.trans left.cfg, right.reg.trans left.reg,
    right.indications.trans left.indications⟩

/-- Until its last bit `bits` brings no indication. -/
def Quiet (told : List Indication) (link : Link) (bits : List Bool) : Prop :=
  ∀ j < bits.length, (feed link (bits.take j)).indications = told

theorem Quiet.nil (told : List Indication) (link : Link) : Quiet told link [] := by
  intro j hj
  exact absurd hj (Nat.not_lt_zero j)

theorem Quiet.cons {told : List Indication} {link : Link} {bit : Bool} {bits : List Bool}
    (now : link.indications = told) (later : Quiet told (rxBitToSu link bit) bits) :
    Quiet told link (bit :: bits) := by
  intro j hj
  cases j with
  | zero => exact now
  | succ j => exact later j (Nat.lt_of_succ_lt_succ hj)

theorem Quiet.append {told : List Indication} {link : Link} {left right : List Bool}
    (first : Quiet told link left) (second : Quiet told (feed link left) right) :
    Quiet told link (left ++ right) := by
  intro j hj
  rcases Nat.lt_or_ge j left.length with inside | past
  · rw [List.take_append_of_le_length (Nat.le_of_lt inside)]
    exact first j inside
  · rw [List.length_append] at hj
    rw [List.take_append, List.take_of_length_le past, feed_append]
    exact second (j - left.length) (by omega)

/-- In `DAEDRX_2` with the octets and the bits collected so far, `window` in the flag accumulator
and octet counting off. -/
structure Collecting (link : Link) (window : List Bool) (ones : Nat) (octets : List Octet)
    (part : List Bool) : Prop where
  state : link.stateDaedr = .daedrx2
  mode : link.rOctetCountingMode = false
  accum : link.rFlagAccum = accumOf window
  ones : link.r1sBitCount = ones
  octets : link.rxBuf = octets
  partial_ : link.rAccum = accumOf part
  count : link.rOctetBitCount = part.length
  short : part.length < 8

/-- The receiver's destuffing of one bit: its count of ones and what it keeps. -/
def destuffBit (ones : Nat) : Bool → Nat × List Bool
  | true => (ones + 1, [true])
  | false => (0, if ones = 5 then [] else [false])

theorem shiftFlagAccum_collecting {link : Link} {oldest next : Bool} {window : List Bool}
    {ones : Nat} {octets : List Octet} {part : List Bool} (seven : window.length = 7)
    (held : Collecting link (oldest :: window) ones octets part) :
    Collecting (shiftFlagAccum link next) (window ++ [next]) ones octets part := by
  refine ⟨held.state, held.mode, ?_, held.ones, held.octets, held.partial_, held.count,
    held.short⟩
  rw [shiftFlagAccum, ← accumOf_shift oldest next window seven, ← held.accum]

theorem bump_small (count : Nat) (small : count < 8) : bump count = count + 1 := by
  rw [bump, Nat.mod_eq_of_lt (by omega)]

theorem keepBit_collecting {before link : Link} {oldest : Bool} {window : List Bool} {ones : Nat}
    {octets : List Octet} {part : List Bool} (suBit bit : Bool) (seven : window.length = 7)
    (held : Collecting link (oldest :: window) ones octets part) (silent : Silent before link)
    (room : octets.length ≤ link.cfg.maxMru) :
    ∃ next octets' part', keepBit link suBit bit = closeCheckFlag next ∧
      Collecting next (window ++ [bit]) ones octets' part' ∧ Silent before next ∧
      lineBits octets' ++ part' = lineBits octets ++ part ++ [suBit] := by
  have grown : bump link.rOctetBitCount = (part ++ [suBit]).length := by
    rw [held.count, bump_small _ held.short, List.length_append, List.length_singleton]
  have shifted : (link.rAccum >>> 1) ||| rxBit suBit = accumOf (part ++ [suBit]) := by
    rw [held.partial_, accumOf_append_bit]
  simp only [keepBit, grown, shifted]
  by_cases open_ : (part ++ [suBit]).length < 8
  · rw [if_pos open_]
    let kept : Link :=
      { link with rAccum := accumOf (part ++ [suBit]), rOctetBitCount := (part ++ [suBit]).length }
    have collects : Collecting kept (oldest :: window) ones octets (part ++ [suBit]) :=
      ⟨held.state, held.mode, held.accum, held.ones, held.octets, rfl, rfl, open_⟩
    refine ⟨shiftFlagAccum kept bit, octets, part ++ [suBit], rfl,
      shiftFlagAccum_collecting seven collects, silent.trans ⟨rfl, rfl, rfl⟩, ?_⟩
    rw [List.append_assoc]
  · have full : (part ++ [suBit]).length = 8 := by
      have short := held.short
      rw [List.length_append, List.length_singleton] at open_ ⊢
      omega
    have fits : ¬ link.cfg.maxMru < link.rxBuf.length := by
      rw [held.octets]
      exact Nat.not_lt.mpr room
    have octet : (accumOf (part ++ [suBit])).setWidth 8 = octetOf (part ++ [suBit]) := by
      rw [accumOf_octet _ full, BitVec.setWidth_setWidth_of_le _ (by decide), BitVec.setWidth_eq]
    rw [if_neg open_, if_pos full]
    simp only [storeOctet, fits, if_false, octet]
    let stored : Link :=
      { link with
        rxBuf := link.rxBuf ++ [octetOf (part ++ [suBit])]
        rOctetBitCount := 0
        rAccum := 0 }
    have collects : Collecting stored (oldest :: window) ones
        (octets ++ [octetOf (part ++ [suBit])]) [] :=
      ⟨held.state, held.mode, held.accum, held.ones, by rw [← held.octets], rfl, rfl, by decide⟩
    refine ⟨shiftFlagAccum stored bit, _, [], rfl, shiftFlagAccum_collecting seven collects,
      silent.trans ⟨rfl, rfl, rfl⟩, ?_⟩
    rw [lineBits_append, lineBits_octetOf _ full, List.append_nil, List.append_assoc]

/-- One bit of `DAEDRX_2`: the oldest bit of the window is destuffed, the next one moves in. -/
theorem daedrx2_collecting {link : Link} {oldest : Bool} {window : List Bool} {ones : Nat}
    {octets : List Octet} {part : List Bool} (bit : Bool) (seven : window.length = 7)
    (held : Collecting link (oldest :: window) ones octets part)
    (few : (destuffBit ones oldest).1 < 7)
    (room : (destuffBit ones oldest).2 ≠ [] → octets.length ≤ link.cfg.maxMru) :
    ∃ next octets' part', rxBitToSu link bit = closeCheckFlag next ∧
      Collecting next (window ++ [bit]) (destuffBit ones oldest).1 octets' part' ∧
      Silent link next ∧
      lineBits octets' ++ part' = lineBits octets ++ part ++ (destuffBit ones oldest).2 := by
  have low : link.rFlagAccum.getLsbD 0 = oldest := by
    rw [held.accum, accumOf_low oldest window seven]
  have uncounted : octetCountMode link = link := by simp [octetCountMode, held.mode]
  have recount (count : Nat) :
      Collecting { link with r1sBitCount := count } (oldest :: window) count octets part :=
    ⟨held.state, held.mode, held.accum, rfl, held.octets, held.partial_, held.count, held.short⟩
  have step : rxBitToSu link bit = daedrx2 link bit := by simp [rxBitToSu, held.state]
  rw [step, daedrx2]
  simp only [uncounted, low, held.ones]
  cases oldest with
  | true =>
      have keeps : ¬ 7 ≤ ones + 1 := Nat.not_le.mpr few
      simp only [if_true, if_neg keeps]
      exact keepBit_collecting true bit seven (recount (ones + 1)) ⟨rfl, rfl, rfl⟩
        (room (by simp [destuffBit]))
  | false =>
      by_cases fifth : ones = 5
      · simp only [Bool.false_eq_true, if_false, if_pos fifth, destuffBit]
        exact ⟨_, octets, part, rfl, shiftFlagAccum_collecting seven (recount 0),
          ⟨rfl, rfl, rfl⟩, by rw [List.append_nil]⟩
      · simp only [Bool.false_eq_true, if_false, if_neg fifth, destuffBit]
        exact keepBit_collecting false bit seven (recount 0) ⟨rfl, rfl, rfl⟩
          (room (by simp [destuffBit, fifth]))

/-- No flag and no abort in the window: `DAEDRX_2` goes on collecting. -/
theorem closeCheckFlag_plain {link : Link} {oldest : Bool} {window : List Bool} {ones : Nat}
    {octets : List Octet} {part : List Bool} (seven : window.length = 7)
    (few : leadOnes window ≤ 5) (held : Collecting link (oldest :: window) ones octets part) :
    closeCheckFlag link = link ∧ openCheckFlag link = link := by
  have plain := accumOf_plain oldest window seven few
  rw [← held.accum] at plain
  constructor
  · rw [closeCheckFlag, if_neg plain.1, if_neg plain.2]
  · rw [openCheckFlag, if_neg plain.1, if_neg plain.2]

/-- What is left to show about the rest of a line once its first bit is destuffed. -/
structure Collects (link last : Link) (rest : List Bool) : Prop where
  feed : feed (closeCheckFlag link) rest = closeCheckFlag last
  quiet : Quiet link.indications (closeCheckFlag link) rest
  silent : Silent link last

theorem collect_bit {link : Link} {bit : Bool} {rest : List Bool} {ones : Nat}
    {octets : List Octet} {part : List Bool}
    (held : Collecting link ((bit :: rest).take 8) ones octets part) (long : 8 ≤ rest.length)
    (plain : leadOnes rest ≤ 5) (few : (destuffBit ones bit).1 < 7)
    (room : (destuffBit ones bit).2 ≠ [] → octets.length ≤ link.cfg.maxMru) :
    ∃ next octets' part', Collecting next (rest.take 8) (destuffBit ones bit).1 octets' part' ∧
      Silent link next ∧
      lineBits octets' ++ part' = lineBits octets ++ part ++ (destuffBit ones bit).2 ∧
      ∀ last, Collects next last (rest.drop 8) → Collects link last ((bit :: rest).drop 8) := by
  have seven : (rest.take 7).length = 7 := by rw [List.length_take]; omega
  have split : rest.drop 7 = rest[7] :: rest.drop 8 := List.drop_eq_getElem_cons long
  have window : rest.take 8 = rest.take 7 ++ [rest[7]] := List.take_succ_eq_append_getElem long
  have stays := closeCheckFlag_plain seven (Nat.le_trans (leadOnes_take 7 rest) plain) held
  obtain ⟨next, octets', part', step, collects, silent, bits⟩ :=
    daedrx2_collecting rest[7] seven held few room
  rw [← window] at collects
  refine ⟨next, octets', part', collects, silent, bits, ?_⟩
  intro last later
  rw [List.drop_succ_cons, split]
  refine ⟨?_, ?_, silent.trans later.silent⟩
  · rw [stays.1, feed_cons, step]
    exact later.feed
  · rw [stays.1]
    apply Quiet.cons rfl
    rw [step, ← silent.indications]
    exact later.quiet

/-- A line that shows neither a flag nor an abort before the flag that follows it. -/
def Clean : Nat → List Bool → Prop
  | _, [] => True
  | ones, bit :: bits =>
      leadOnes (bits ++ flag) ≤ 5 ∧ (destuffBit ones bit).1 < 7 ∧ Clean (destuffBit ones bit).1 bits

def destuff : Nat → List Bool → List Bool
  | _, [] => []
  | ones, bit :: bits => (destuffBit ones bit).2 ++ destuff (destuffBit ones bit).1 bits

theorem stuff_clean (ones : Nat) (bits : List Bool) (few : ones < 5) :
    Clean ones (stuff ones bits) ∧ destuff ones (stuff ones bits) = bits := by
  have low (count : Nat) (rest : List Bool) (small : count < 5) :
      leadOnes (stuff count rest ++ flag) ≤ 5 := by
    have := leadOnes_stuff_flag count rest [] small
    rw [List.append_nil] at this
    exact Nat.le_trans (Nat.le_add_right _ count) this
  induction bits generalizing ones with
  | nil => exact ⟨trivial, rfl⟩
  | cons bit bits ih =>
      cases bit with
      | false =>
          have keeps : ¬ ones = 5 := by omega
          rcases ih 0 (by decide) with ⟨clean, same⟩
          refine ⟨⟨low 0 bits (by decide), by simp [destuffBit], clean⟩, ?_⟩
          simp only [stuff, destuff, destuffBit, if_neg keeps, same, List.singleton_append]
      | true =>
          by_cases fifth : ones + 1 = 5
          · rcases ih 0 (by decide) with ⟨clean, same⟩
            obtain rfl : ones = 4 := Nat.succ.inj fifth
            have split : stuff 4 (true :: bits) = true :: false :: stuff 0 bits := rfl
            rw [split]
            refine ⟨⟨?_, by decide, low 0 bits (by decide), by decide, clean⟩, ?_⟩
            · simp [leadOnes]
            · exact congrArg (true :: ·) same
          · rcases ih (ones + 1) (by omega) with ⟨clean, same⟩
            simp only [stuff, if_neg fifth]
            refine ⟨⟨low (ones + 1) bits (by omega), ?_, clean⟩, ?_⟩
            · simp only [destuffBit]
              omega
            · simp only [destuff, destuffBit, same, List.singleton_append]

/-- A clean line and its closing flag: `DAEDRX_2` collects the destuffed bits, and says nothing
until the last bit of the flag. -/
theorem collect_clean (line : List Bool) (link : Link) (ones : Nat) (octets : List Octet)
    (part : List Bool) (clean : Clean ones line)
    (held : Collecting link ((line ++ flag).take 8) ones octets part)
    (room : (lineBits octets ++ part ++ destuff ones line).length ≤ 8 * (link.cfg.maxMru + 1)) :
    ∃ last lastOnes all rest, Collecting last flag lastOnes all rest ∧
      lineBits all ++ rest = lineBits octets ++ part ++ destuff ones line ∧
      Collects link last ((line ++ flag).drop 8) := by
  induction line generalizing link ones octets part with
  | nil =>
      exact ⟨link, ones, octets, part, held, by rw [destuff, List.append_nil], rfl,
        Quiet.nil _ _, Silent.refl link⟩
  | cons bit line ih =>
      rcases clean with ⟨plain, few, later⟩
      have long : 8 ≤ (line ++ flag).length := by
        rw [List.length_append]
        exact Nat.le_add_left 8 line.length
      have fits : (destuffBit ones bit).2 ≠ [] → octets.length ≤ link.cfg.maxMru := by
        intro kept
        have more : 0 < (destuffBit ones bit).2.length := List.length_pos_iff.mpr kept
        simp only [destuff, List.length_append, lineBits_length] at room
        omega
      rcases collect_bit held long plain few fits with
        ⟨next, octets', part', collects, silent, kept, after⟩
      have total : lineBits octets' ++ part' ++ destuff (destuffBit ones bit).1 line =
          lineBits octets ++ part ++ destuff ones (bit :: line) := by
        rw [kept, destuff, List.append_assoc (lineBits octets ++ part)]
      rcases ih next _ octets' part' later collects (by rw [total, silent.cfg]; exact room) with
        ⟨last, lastOnes, all, rest, closed, spelled, done⟩
      exact ⟨last, lastOnes, all, rest, closed, spelled.trans total, after last done⟩

/-- In `DAEDRX_1` with octet counting off: `gate` more bits push the flag out of the window. -/
structure Gated (link : Link) (gate : Nat) (window : List Bool) : Prop where
  state : link.stateDaedr = .daedrx1
  mode : link.rOctetCountingMode = false
  accum : link.rFlagAccum = accumOf window
  gate : link.rBitGateCount = gate
  size : window.length = 8

/-- A flag has just been seen. -/
def Synced (link : Link) : Prop := Gated link 7 flag

theorem daedrx1_gated {link : Link} {gate : Nat} {oldest : Bool} {window : List Bool} (bit : Bool)
    (held : Gated link (gate + 1) (oldest :: window)) :
    Gated (rxBitToSu link bit) gate (window ++ [bit]) ∧ Silent link (rxBitToSu link bit) := by
  have seven : window.length = 7 := Nat.succ.inj held.size
  have step : rxBitToSu link bit =
      { shiftFlagAccum link bit with rBitGateCount := gate } := by
    simp [rxBitToSu, held.state, daedrx1, octetCountMode, shiftFlagAccum, held.mode, held.gate]
  rw [step]
  refine ⟨⟨held.state, held.mode, ?_, rfl, ?_⟩, rfl, rfl, rfl⟩
  · rw [← accumOf_shift oldest bit window seven, ← held.accum]
    rfl
  · rw [List.length_append, seven, List.length_singleton]

theorem feed_gated (bits : List Bool) (link : Link) (window : List Bool)
    (held : Gated link bits.length window) :
    Gated (feed link bits) 0 ((window ++ bits).drop bits.length) ∧ Silent link (feed link bits) ∧
      Quiet link.indications link bits := by
  induction bits generalizing link window with
  | nil => exact ⟨by simpa using held, Silent.refl link, Quiet.nil _ _⟩
  | cons bit bits ih =>
      cases window with
      | nil => exact absurd held.size (by decide)
      | cons oldest window =>
          obtain ⟨next, silent⟩ := daedrx1_gated bit held
          obtain ⟨last, rest, quiet⟩ := ih _ _ next
          refine ⟨?_, silent.trans rest, ?_⟩
          · simpa using last
          · apply Quiet.cons rfl
            rw [← silent.indications]
            exact quiet

theorem daedrx1_opens {link : Link} {oldest : Bool} {window : List Bool} (bit : Bool)
    (held : Gated link 0 (oldest :: window)) :
    ∃ next, rxBitToSu link bit = openCheckFlag next ∧
      Collecting next (window ++ [bit]) 0 [] [] ∧ Silent link next := by
  have seven : window.length = 7 := Nat.succ.inj held.size
  refine ⟨startCollecting (shiftFlagAccum link bit), ?_, ?_, rfl, rfl, rfl⟩
  · simp [rxBitToSu, held.state, daedrx1, octetCountMode, shiftFlagAccum, held.mode, held.gate]
  · refine ⟨rfl, held.mode, ?_, rfl, rfl, rfl, rfl, by decide⟩
    rw [← accumOf_shift oldest bit window seven, ← held.accum]
    rfl

/-- The eight bits behind a flag. -/
theorem synced_opens {link : Link} (bits : List Bool) (eight : bits.length = 8)
    (synced : Synced link) :
    ∃ next, feed link bits = openCheckFlag next ∧ Collecting next bits 0 [] [] ∧
      Silent link next ∧ Quiet link.indications link bits := by
  obtain ⟨front, last, rfl⟩ : ∃ front last, bits = front ++ [last] :=
    ⟨_, _, (List.dropLast_concat_getLast (by rintro rfl; contradiction)).symm⟩
  have seven : front.length = 7 := by
    rw [List.length_append, List.length_singleton] at eight
    exact Nat.succ.inj eight
  have held : Gated link front.length flag := by
    rw [seven]
    exact synced
  obtain ⟨gated, silent, quiet⟩ := feed_gated front link flag held
  have window : (flag ++ front).drop front.length = false :: front := by
    rw [seven]
    rfl
  rw [window] at gated
  obtain ⟨next, step, collects, later⟩ := daedrx1_opens last gated
  refine ⟨next, ?_, collects, silent.trans later, ?_⟩
  · rw [feed_append, feed_cons, feed_nil, step]
  · apply Quiet.append quiet
    exact Quiet.cons silent.indications (Quiet.nil _ _)

/-- Back-to-back flags keep the receiver where it is. -/
theorem flag_received {link : Link} (synced : Synced link) :
    Synced (feed link flag) ∧ Silent link (feed link flag) ∧
      Quiet link.indications link flag := by
  obtain ⟨next, fed, collects, silent, quiet⟩ := synced_opens flag rfl synced
  have seen : next.rFlagAccum = flagOctet := by
    rw [collects.accum]
    decide
  rw [fed, openCheckFlag, if_pos seen]
  exact ⟨⟨rfl, collects.mode, collects.accum, rfl, rfl⟩,
    ⟨silent.cfg, silent.reg, silent.indications⟩, quiet⟩

/-- The first window of a clean line is no flag, so the two flag checks agree on it. -/
theorem openCheckFlag_clean {link : Link} {line : List Bool} {octets : List Octet}
    {part : List Bool} (some_ : line ≠ []) (clean : Clean 0 line)
    (held : Collecting link ((line ++ flag).take 8) 0 octets part) :
    openCheckFlag link = closeCheckFlag link := by
  cases line with
  | nil => exact absurd rfl some_
  | cons bit line =>
      have seven : ((line ++ flag).take 7).length = 7 := by
        rw [List.length_take, List.length_append]
        exact Nat.min_eq_left (Nat.le_trans (by decide) (Nat.le_add_left flag.length line.length))
      have stays := closeCheckFlag_plain seven
        (Nat.le_trans (leadOnes_take 7 (line ++ flag)) clean.1) held
      rw [stays.1, stays.2]

/-- From a flag on, a clean line is collected up to its closing flag. -/
theorem line_collected {link : Link} (line : List Bool) (some_ : line ≠ []) (clean : Clean 0 line)
    (synced : Synced link) (room : (destuff 0 line).length ≤ 8 * (link.cfg.maxMru + 1)) :
    ∃ last lastOnes all rest, feed link (line ++ flag) = closeCheckFlag last ∧
      Collecting last flag lastOnes all rest ∧ lineBits all ++ rest = destuff 0 line ∧
      Silent link last ∧ Quiet link.indications link (line ++ flag) := by
  have eight : ((line ++ flag).take 8).length = 8 := by
    rw [List.length_take, List.length_append]
    exact Nat.min_eq_left (Nat.le_add_left 8 _)
  rcases synced_opens _ eight synced with ⟨next, fed, collects, silent, quiet⟩
  rcases collect_clean line next 0 [] [] clean collects (by rw [silent.cfg]; exact room) with
    ⟨last, lastOnes, all, rest, closed, spelled, later⟩
  have agree := openCheckFlag_clean some_ clean collects
  have joined := List.take_append_drop 8 (line ++ flag)
  refine ⟨last, lastOnes, all, rest, ?_, closed, spelled, silent.trans later.silent, ?_⟩
  · rw [← joined, feed_append, fed, agree]
    exact later.feed
  · rw [← joined]
    apply Quiet.append quiet
    rw [fed, agree, ← silent.indications]
    exact later.quiet

/-- The closing flag of a good signal unit. -/
theorem su_closed {last : Link} {lastOnes : Nat} {all : List Octet}
    (held : Collecting last flag lastOnes all []) (size : 3 ≤ all.length)
    (good : fcs 0xffff#16 all = 0xf0b8#16) (told : last.reg.rxData = true) :
    Synced (closeCheckFlag last) ∧ (closeCheckFlag last).cfg = last.cfg ∧
      (closeCheckFlag last).reg = last.reg ∧
      (closeCheckFlag last).indications = last.indications ++ [.rxData all 0] := by
  have seen : last.rFlagAccum = flagOctet := by
    rw [held.accum]
    decide
  have aligned : ¬ last.rOctetBitCount ≠ 0 := by simp [held.count]
  have long : ¬ last.rxBuf.length < 3 := by
    rw [held.octets]
    exact Nat.not_lt.mpr size
  have checked : ¬ crcTssRev 0xffff#16 last.rxBuf ≠ 0xf0b8#16 := by
    rw [held.octets, crcTssRev_eq_fcs]
    exact not_not.mpr good
  have closes : closeSu last = suAccept last 0 := by
    rw [closeSu, if_neg aligned, if_neg long, if_neg checked]
  have accepted : (suAccept last 0).rOctetCountingMode = last.rOctetCountingMode ∧
      (suAccept last 0).rFlagAccum = last.rFlagAccum ∧ (suAccept last 0).cfg = last.cfg ∧
      (suAccept last 0).reg = last.reg ∧
      (suAccept last 0).indications = last.indications ++ [.rxData all 0] := by
    rw [suAccept, if_neg long]
    cases traced : last.reg.trace <;> simp [told, held.octets]
  obtain ⟨mode, accum, cfg, reg, indications⟩ := accepted
  rw [closeCheckFlag, if_pos seen, closes]
  exact ⟨⟨rfl, mode.trans held.mode, accum.trans held.accum, rfl, rfl⟩, cfg, reg, indications⟩

/-- A good signal unit behind a flag: told at the last bit of its closing flag, not before. One
octet more than `max_mru` is let through. -/
theorem su_received {link : Link} (octets : List Octet) (size : 3 ≤ octets.length)
    (short : octets.length ≤ link.cfg.maxMru + 1) (good : fcs 0xffff#16 octets = 0xf0b8#16)
    (told : link.reg.rxData = true) (synced : Synced link) :
    Synced (feed link (stuff 0 (lineBits octets) ++ flag)) ∧
      (feed link (stuff 0 (lineBits octets) ++ flag)).cfg = link.cfg ∧
      (feed link (stuff 0 (lineBits octets) ++ flag)).reg = link.reg ∧
      (feed link (stuff 0 (lineBits octets) ++ flag)).indications =
        link.indications ++ [.rxData octets 0] ∧
      Quiet link.indications link (stuff 0 (lineBits octets) ++ flag) := by
  rcases stuff_clean 0 (lineBits octets) (by decide) with ⟨clean, same⟩
  have some_ : stuff 0 (lineBits octets) ≠ [] := by
    intro empty
    have bound := stuff_length_le 0 (lineBits octets)
    rw [empty, lineBits_length, List.length_nil] at bound
    omega
  have room : (destuff 0 (stuff 0 (lineBits octets))).length ≤ 8 * (link.cfg.maxMru + 1) := by
    rw [same, lineBits_length]
    omega
  rcases line_collected _ some_ clean synced room with
    ⟨last, lastOnes, all, rest, fed, closed, spelled, silent, quiet⟩
  rw [same] at spelled
  have whole : rest = [] := by
    have length := congrArg List.length spelled
    rw [List.length_append, lineBits_length, lineBits_length] at length
    have few := closed.short
    exact List.eq_nil_of_length_eq_zero (by omega)
  subst whole
  obtain rfl : all = octets := lineBits_inj (by rw [← spelled, List.append_nil])
  rcases su_closed closed size good (by rw [silent.reg]; exact told) with
    ⟨next, cfg, reg, indications⟩
  rw [fed]
  refine ⟨next, cfg.trans silent.cfg, reg.trans silent.reg, ?_, quiet⟩
  rw [indications, silent.indications]

end Wanpipe.Mtp1
