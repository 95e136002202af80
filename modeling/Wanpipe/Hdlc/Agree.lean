import Wanpipe.Line.Burst
import Wanpipe.Hdlc.Crc
import Wanpipe.Mtp1.Link

/-! The check sums of the MTP1 link and of the HDLC engine are one, and what they see. -/

namespace Wanpipe.Hdlc

open Line Mtp1

theorem calcTxCrc_fold (d : List Octet) (chan : Encoder) :
    (d.foldl calcTxCrc chan).txCrc = fcs chan.txCrc d := by
  induction d generalizing chan with
  | nil => rfl
  | cons byte d ih =>
      calc
        ((byte :: d).foldl calcTxCrc chan).txCrc = fcs (calcTxCrc chan byte).txCrc d := ih _
        _ = fcs (fcsOctet chan.txCrc byte) d := by rw [calcTxCrc, crcStep_eq]
        _ = fcs chan.txCrc (byte :: d) := rfl

theorem lineBits_ne {left right : List Octet} (differ : left ≠ right) :
    lineBits left ≠ lineBits right := fun same => differ (lineBits_inj same)

/-- The literal table, the table of `init_crc` and the bitwise division agree on every string. The
complement, low octet first, leaves `0xf0b8` and is what the encoder sends, and no burst of up to
sixteen wrong bits leaves that residue. -/
theorem fcs_engines_agree (d : List Octet) (chan : Encoder) (reset : chan.txCrc = 0xffff#16) :
    crcTssRev 0xffff#16 d = (d.foldl calcTxCrc chan).txCrc ∧
      crcTssRev 0xffff#16 d = fcsBits 0xffff#16 (lineBits d) ∧
      crcTssRev 0xffff#16
          (d ++ [(~~~ crcTssRev 0xffff#16 d).setWidth 8,
            ((~~~ crcTssRev 0xffff#16 d) >>> 8).setWidth 8]) = 0xf0b8#16 ∧
      wordOctets (decodeCrc (flipCrc (d.foldl calcTxCrc chan).txCrc)) =
        [(~~~ crcTssRev 0xffff#16 d).setWidth 8,
          ((~~~ crcTssRev 0xffff#16 d) >>> 8).setWidth 8] ∧
      ∀ (c : List Octet) (start : Nat), c.length = (d ++ fcsOctets d).length →
        c ≠ d ++ fcsOctets d → WithinBurst start (lineBits c) (lineBits (d ++ fcsOctets d)) →
        crcTssRev 0xffff#16 c ≠ 0xf0b8#16 := by
  have sum := calcTxCrc_fold d chan
  rw [reset] at sum
  have residue := fcs_residue d
  rw [fcsOctets, ← crcTssRev_eq_fcs, ← crcTssRev_eq_fcs] at residue
  refine ⟨?_, ?_, residue, ?_, ?_⟩
  · rw [sum, crcTssRev_eq_fcs]
  · rw [crcTssRev_eq_fcs, fcs_lineBits]
  · rw [sum, wordOctets_fin, fcsOctets, crcTssRev_eq_fcs]
  · intro c start size differ burst
    have lines : (lineBits c).length = (lineBits (d ++ fcsOctets d)).length := by
      rw [lineBits_length, lineBits_length, size]
    have seen := fcsBits_burst 0xffff#16 lines burst (lineBits_ne differ)
    rw [← fcs_lineBits, ← fcs_lineBits, fcs_residue, ← crcTssRev_eq_fcs] at seen
    exact seen

/-- A burst over sixteen bits of a frame of two zeros. -/
theorem fcs_engines_agree_burst :
    (([0#8, 0#8] : List Octet).foldl calcTxCrc { freshEncoder with txCrc := 0xffff#16 }).txCrc =
        crcTssRev 0xffff#16 [0#8, 0#8] ∧
      crcTssRev 0xffff#16 ([0x80#8, 0x7f#8] ++ fcsOctets [0#8, 0#8]) ≠ 0xf0b8#16 := by
  have agree := fcs_engines_agree [0#8, 0#8] { freshEncoder with txCrc := 0xffff#16 } rfl
  refine ⟨agree.1.symm, agree.2.2.2.2 _ 7 (by decide) (by decide) ?_⟩
  have inside : ∀ i < 32,
      (lineBits ([0x80#8, 0x7f#8] ++ fcsOctets [0#8, 0#8]))[i]? ≠
          (lineBits ([0#8, 0#8] ++ fcsOctets [0#8, 0#8]))[i]? → 7 ≤ i ∧ i < 7 + 16 := by
    decide +kernel
  intro i other
  rcases Nat.lt_or_ge i 32 with early | late
  · exact inside i early other
  · refine absurd ?_ other
    rw [List.getElem?_eq_none (by rw [lineBits_length]; exact late),
      List.getElem?_eq_none (by rw [lineBits_length]; exact late)]

end Wanpipe.Hdlc
