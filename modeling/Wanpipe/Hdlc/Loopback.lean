import Wanpipe.Hdlc.Fill

/-! The library's encoder heard by its decoder. -/

namespace Wanpipe.Hdlc

open Line

theorem bodyBits_last {build : Build} (front : List (List Octet × Nat)) (k : Nat)
    (usrData : List Octet) (idles : Nat) :
    bodyBits build k (front ++ [(usrData, idles + 1)]) =
      bodyBits build k (front ++ [(usrData, idles)]) ++ flag := by
  induction front generalizing k with
  | nil =>
      simp only [List.nil_append, bodyBits, List.append_nil, ← Nat.add_assoc, repeated_snoc,
        List.append_assoc]
  | cons packet front ih =>
      rw [List.cons_append, List.cons_append, bodyBits, bodyBits, ih, List.append_assoc _ _ flag]

/-- An idle octet behind the last packet completes its closing flag. -/
theorem body_ready (build : Build) {bound : Nat} (front : List (List Octet × Nat))
    (usrData : List Octet) (idles : Nat)
    (some_ : ∀ packet ∈ front ++ [(usrData, idles + 1)], packet.1 ≠ [])
    (fits : ∀ packet ∈ front ++ [(usrData, idles + 1)],
      (packetBits packet.1).length + 8 < 8 * (bound + 1)) :
    Reader.start.line (bodyBits build 0 (front ++ [(usrData, idles + 1)])) =
        Reader.ready ((front ++ [(usrData, idles + 1)]).map fun packet => frame packet.1) ∧
      Reader.start.Within bound (bodyBits build 0 (front ++ [(usrData, idles + 1)])) := by
  simp only [List.forall_mem_append, List.forall_mem_singleton] at some_ fits
  rcases body_closes build (front ++ [(usrData, idles)]) 0 (closes_start bound)
    (by simpa only [List.forall_mem_append, List.forall_mem_singleton] using some_)
    (by simpa only [List.forall_mem_append, List.forall_mem_singleton] using fits) with
    ⟨closes, within⟩
  rw [bodyBits_last, Reader.line_append, closes.reads]
  refine ⟨?_, within.append closes.within⟩
  rw [List.nil_append, List.map_append, List.map_append]
  rfl

/-- A transmission with plain fill and an idle octet at its end. -/
theorem plain_read {build : Build} {bound : Nat} (front : List (List Octet × Nat))
    (usrData : List Octet) (idles : Nat) (flags : 1 ≤ build.preamble) (big : 1 ≤ bound)
    (plain : PlainFill build 0 (front ++ [(usrData, idles + 1)]))
    (some_ : ∀ packet ∈ front ++ [(usrData, idles + 1)], packet.1 ≠ [])
    (fits : ∀ packet ∈ front ++ [(usrData, idles + 1)],
      (packetBits packet.1).length + 8 < 8 * (bound + 1)) :
    ∃ ones got,
      Reader.start.line
          (lineBits (transmit build false freshEncoder (front ++ [(usrData, idles + 1)]))) =
        ⟨ones, got, (front ++ [(usrData, idles + 1)]).map fun packet => frame packet.1, 0, 0, 0⟩ ∧
      Reader.start.Within bound
        (lineBits (transmit build false freshEncoder (front ++ [(usrData, idles + 1)]))) := by
  rcases body_ready build front usrData idles some_ fits with ⟨read, within⟩
  rcases transmit_plain_line _ freshEncoder_carries plain with ⟨last, carried, line⟩
  have opens : ∃ rest, lineBits (transmit build false freshEncoder
      (front ++ [(usrData, idles + 1)])) = flag ++ rest := by
    cases front with
    | nil => exact fresh_first_flag _ _ flags
    | cons packet front => exact fresh_first_flag _ _ flags
  rcases opens with ⟨rest, opens⟩
  have whole := line []
  rw [List.append_nil, show lineBits (transmit build false last []) = [] from rfl,
    List.append_nil, Nat.sub_zero, show flag.take 8 = flag from rfl] at whole
  have part : (flag.take (8 - lastCarry 0 (front ++ [(usrData, idles + 1)]))).length ≤ 8 :=
    List.length_take_le' ..
  have short : Reader.start.Within bound (flag ++ lineBits (transmit build false freshEncoder
      (front ++ [(usrData, idles + 1)]))) := by
    rw [whole]
    refine within.append (Reader.Within.of_length ?_)
    rw [read]
    show 0 + _ < _
    omega
  rcases ready_part ((front ++ [(usrData, idles + 1)]).map fun packet => frame packet.1)
    (Nat.sub_le 8 _) with ⟨ones, got, ends⟩
  refine ⟨ones, got, ?_, start_flags_within opens short⟩
  rw [start_flags _ rest opens, whole, Reader.line_append, read, ends]

end Wanpipe.Hdlc
