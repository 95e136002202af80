import Wanpipe.Hdlc.Engine

/-! The engine's table driven check sum is the FCS, and the word that ends it is the pair of check
octets. -/

namespace Wanpipe.Hdlc

open Line

private theorem crcTable_index :
    ∀ i < 256, crcTable (BitVec.ofNat 8 i) = fcsShifts 8 (BitVec.ofNat 16 i) := by
  decide +kernel

theorem crcTable_eq (i : BitVec 8) : crcTable i = fcsShifts 8 (i.setWidth 16) := by
  have entry := crcTable_index i.toNat i.isLt
  rwa [BitVec.ofNat_toNat, BitVec.ofNat_toNat, BitVec.setWidth_eq] at entry

private theorem high_octet (word : BitVec 16) : (word >>> 8) &&& 0x00FF#16 = word >>> 8 := by
  apply BitVec.eq_of_getLsbD_eq
  intro i hi
  rw [BitVec.getLsbD_and, BitVec.getLsbD_ushiftRight]
  interval_cases i <;> simp

private theorem low_octet (word : BitVec 16) :
    ((word &&& 0xFF#16).setWidth 8).setWidth 16 = word &&& 0xFF#16 := by
  apply BitVec.eq_of_getLsbD_eq
  intro i hi
  interval_cases i <;> simp

theorem crcStep_eq (crc : BitVec 16) (data : Octet) : crcStep crc data = fcsOctet crc data := by
  rw [crcStep, crcTable_eq, low_octet, high_octet, fcsOctet_table, BitVec.xor_comm crc]

/-- The two octets of a word, the first one sent above the other. -/
def wordOctets (word : BitVec 16) : List Octet :=
  [((word >>> 8) &&& 0xFF#16).setWidth 8, (word &&& 0xFF#16).setWidth 8]

theorem wordOctets_inj {left right : BitVec 16} (same : wordOctets left = wordOctets right) :
    left = right := by
  simp only [wordOctets, List.cons.injEq, and_true] at same
  rcases same with ⟨high, low⟩
  apply BitVec.eq_of_getLsbD_eq
  intro i hi
  rcases Nat.lt_or_ge i 8 with lower | upper
  · have bit := congrArg (fun octet => octet.getLsbD i) low
    interval_cases i <;> simpa using bit
  · have bit := congrArg (fun octet => octet.getLsbD (i - 8)) high
    interval_cases i <;> simpa using bit

/-- `FLIP_CRC` and `DECODE_CRC` put the complement's low octet first. -/
theorem wordOctets_fin (data : List Octet) :
    wordOctets (decodeCrc (flipCrc (fcs 0xFFFF#16 data))) = fcsOctets data := by
  generalize reached : fcs 0xFFFF#16 data = crc
  have first : ((decodeCrc (flipCrc crc) >>> 8) &&& 0xFF#16).setWidth 8 = (~~~ crc).setWidth 8 := by
    apply BitVec.eq_of_getLsbD_eq
    intro i hi
    interval_cases i <;> simp [decodeCrc, flipCrc]
  have second : (decodeCrc (flipCrc crc) &&& 0xFF#16).setWidth 8 =
      ((~~~ crc) >>> 8).setWidth 8 := by
    apply BitVec.eq_of_getLsbD_eq
    intro i hi
    interval_cases i <;> simp [decodeCrc, flipCrc]
  rw [wordOctets, first, second, fcsOctets, reached]

/-- A received octet moves the last one up. -/
theorem wordOctets_shift (word : BitVec 16) (last data : Octet)
    (held : (word &&& 0xFF#16).setWidth 8 = last) :
    wordOctets (((word <<< 8) &&& 0xFF00#16) ||| data.setWidth 16) = [last, data] := by
  have first :
      (((((word <<< 8) &&& 0xFF00#16) ||| data.setWidth 16) >>> 8) &&& 0xFF#16).setWidth 8 =
        last := by
    rw [← held]
    apply BitVec.eq_of_getLsbD_eq
    intro i hi
    interval_cases i <;> simp
  have second :
      ((((word <<< 8) &&& 0xFF00#16) ||| data.setWidth 16) &&& 0xFF#16).setWidth 8 = data := by
    apply BitVec.eq_of_getLsbD_eq
    intro i hi
    interval_cases i <;> simp
  rw [wordOctets, first, second]

end Wanpipe.Hdlc
