import Wanpipe.Mtp1.Loopback

/-! The loopback with bit 7 first. The line octets are filled from bit 0 up all the same, so the
two sides agree only where neither of them stuffs. -/

namespace Wanpipe.Mtp1

open Line Runs

def flip (octet : Octet) : Octet := octetOf (octetBits octet).reverse

theorem octetBits_flip (octet : Octet) : octetBits (flip octet) = (octetBits octet).reverse := by
  rw [flip, octetBits_octetOf _ (by simp)]

theorem flip_flip (octet : Octet) : flip (flip octet) = octet := by
  rw [flip, octetBits_flip, List.reverse_reverse, octetOf_octetBits]

/-- No five ones in a row, in either bit order. -/
structure Plain (octets : List Octet) : Prop where
  low : stuff 0 (lineBits octets) = lineBits octets
  high : stuff 0 (suLine .bit7First octets) = suLine .bit7First octets

theorem suLine_bit7First (octets : List Octet) :
    suLine .bit7First octets = lineBits (octets.map flip) := by
  induction octets with
  | nil => rfl
  | cons octet octets ih =>
      have step : suLine .bit7First (octet :: octets) =
          (octetBits octet).reverse ++ suLine .bit7First octets := rfl
      rw [step, ih, ← octetBits_flip]
      rfl

/-- The octets of a line without any stuffing, in the receiver's order. -/
def wire (items : List Dequeued) : List Octet :=
  items.flatMap fun item => 0x7e#8 :: item.octets

theorem flag_octet : octetBits 0x7e#8 = flag := by decide

theorem flip_flag : flip 0x7e#8 = 0x7e#8 := by decide

theorem lineOf_wire (items : List Dequeued) (plain : ∀ item ∈ items, Plain item.octets) :
    lineOf .bit0First items = lineBits (wire items) ∧
      lineOf .bit7First items = lineBits ((wire items).map flip) := by
  induction items with
  | nil => exact ⟨rfl, rfl⟩
  | cons item items ih =>
      have head := plain item (by simp)
      rcases ih fun other member => plain other (List.mem_cons_of_mem item member) with ⟨low, high⟩
      have first : wire (item :: items) = (0x7e#8 :: item.octets) ++ wire items := rfl
      have line (endian : BitEndian) : lineOf endian (item :: items) =
          flag ++ stuff 0 (suLine endian item.octets) ++ lineOf endian items := rfl
      constructor
      · rw [line, low, suLine_bit0First, head.low, first, lineBits_append, ← flag_octet]
        rfl
      · rw [line, high, head.high, suLine_bit7First, first, List.map_append, lineBits_append,
          List.map_cons, flip_flag, ← flag_octet]
        rfl

theorem transmitted_bit7First (items : List Dequeued) (n : Nat)
    (plain : ∀ item ∈ items, Plain item.octets) :
    transmitted .bit7First items n = transmitted .bit0First items n := by
  induction items generalizing n with
  | nil => rfl
  | cons item items ih =>
      have rest (m : Nat) := ih m fun other member => plain other (List.mem_cons_of_mem item member)
      have head := plain item (by simp)
      have same : (item.line .bit7First).length = (item.line .bit0First).length := by
        rw [Dequeued.line, Dequeued.line, head.high, suLine_bit0First, head.low,
          suLine_bit7First]
        simp
      cases items with
      | nil => rfl
      | cons other items => rw [transmitted, transmitted, same, rest]

theorem rxOctetBits_bit7First (cfg : Cfg) (mode : cfg.hdlcOpMode = .hdlc8Bit)
    (order : cfg.hdlcBitEndian = .bit7First) (data : List Octet) :
    data.flatMap (rxOctetBits cfg) = lineBits (data.map flip) := by
  have octet : rxOctetBits cfg = fun octet => octetBits (flip octet) := by
    funext octet
    simp [rxOctetBits, order, mode, octetBits_flip]
  rw [octet, lineBits, List.flatMap_map]

/-- A frame for which the two bit orders agree. -/
structure PlainFrame (maxMru : Nat) (data : List Octet) : Prop where
  size : FrameFits maxMru data
  plain : Plain (data ++ fcsOctets data)

def bit7Reg : Reg := ⟨true, true, false, ⟨.hdlc8Bit, .bit7First, 16, 280⟩⟩

end Wanpipe.Mtp1
