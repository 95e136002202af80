import Wanpipe.Usb.Block

/-! What a block carries: the voice octets, the octets of the command channel and the start bits,
through the encoder and through the decoder. -/

namespace Wanpipe.Usb

open Line

/-! ### The fields of a block -/

def ctrlOctet (buf : Buf) (ind : Nat) : Octet :=
  (octetAt buf (4 * ind) &&& 0xC0#8) ||| ((octetAt buf (4 * ind + 1) &&& 0xC0#8) >>> 2) |||
    ((octetAt buf (4 * ind + 2) &&& 0xC0#8) >>> 4) ||| ((octetAt buf (4 * ind + 3) &&& 0xC0#8) >>> 6)

def voiceOctet (buf : Buf) (modNo : Fin 2) (ind : Nat) : Octet :=
  (octetAt buf (4 * ind + modNo) &&& 0x0F#8) ||| ((octetAt buf (4 * ind + modNo + 2) &&& 0x0F#8) <<< 4)

/-- The start bits are where the decoder looks for them. -/
structure Framed (buf : Buf) : Prop where
  size : buf.length = maxUsbRxLen
  startFr : octetAt buf 0 &&& 0x20#8 = 0x20#8
  start : ∀ ind < wpUsbRxtxChunksize, octetAt buf (4 * ind) &&& 0x10#8 = 0x10#8

theorem octetAt_set (buf : Buf) (ind : Nat) (octet : Octet) (i : Nat) :
    octetAt (buf.set ind octet) i = if ind = i ∧ i < buf.length then octet else octetAt buf i := by
  unfold octetAt
  rw [List.getD_eq_getElem?_getD, List.getElem?_set, List.getD_eq_getElem?_getD]
  by_cases same : ind = i
  · by_cases inside : i < buf.length
    · simp [same, inside]
    · simp [same, inside]
  · simp [same]

/-- A write that keeps some bits of its octet keeps them everywhere. -/
theorem octetAt_set_mask {buf : Buf} {ind : Nat} {octet mask : Octet}
    (kept : octet &&& mask = octetAt buf ind &&& mask) (i : Nat) :
    octetAt (buf.set ind octet) i &&& mask = octetAt buf i &&& mask := by
  rw [octetAt_set]
  split
  · rename_i here
    rw [kept, here.1]
  · rfl

theorem octetAt_set_self {buf : Buf} {ind : Nat} (inside : ind < buf.length) (octet : Octet) :
    octetAt (buf.set ind octet) ind = octet := by
  rw [octetAt_set, if_pos ⟨rfl, inside⟩]

theorem octetAt_set_other {buf : Buf} {ind i : Nat} (other : ind ≠ i) (octet : Octet) :
    octetAt (buf.set ind octet) i = octetAt buf i := by
  rw [octetAt_set, if_neg (fun here => other here.1)]

@[simp] theorem ctrlEncode_length (buf : Buf) (ind : Nat) :
    (ctrlEncode buf ind).length = buf.length := by
  simp only [ctrlEncode]
  split_ifs
  · exact List.length_set
  · exact List.length_set
  · rfl

@[simp] theorem dataEncode_length (buf : Buf) (ind : Nat) (data : Octet) :
    (dataEncode buf ind data).length = buf.length := by
  simp [dataEncode]

@[simp] theorem cmdEncode_length (buf : Buf) (off : Nat) (cmd : Octet) :
    (cmdEncode buf off cmd).length = buf.length := by
  simp [cmdEncode]

/-! Each macro writes its own bits only. -/

theorem masked_kept {octet value keep mask : Octet} (keeps : keep &&& mask = mask)
    (outside : value &&& mask = 0#8) : ((octet &&& keep) ||| value) &&& mask = octet &&& mask := by
  rw [BitVec.and_or_distrib_right, BitVec.and_assoc, keeps, outside, BitVec.or_zero]

theorem masked_put {octet value keep mask : Octet} (clears : keep &&& mask = 0#8)
    (within : value &&& mask = value) : ((octet &&& keep) ||| value) &&& mask = value := by
  rw [BitVec.and_or_distrib_right, BitVec.and_assoc, clears, within, BitVec.and_zero,
    BitVec.zero_or]

theorem outside_of_within {value field mask : Octet} (within : value &&& field = value)
    (apart : field &&& mask = 0#8) : value &&& mask = 0#8 := by
  rw [← within, BitVec.and_assoc, apart, BitVec.and_zero]

theorem low_within : ∀ data : Octet, data &&& 0x0F#8 &&& 0x0F#8 = data &&& 0x0F#8 := by
  decide +kernel

theorem high_within : ∀ data : Octet, data >>> 4 &&& 0x0F#8 &&& 0x0F#8 = data >>> 4 &&& 0x0F#8 := by
  decide +kernel

theorem pairs_within : ∀ cmd : Octet, cmd &&& 0xC0#8 &&& 0xC0#8 = cmd &&& 0xC0#8 ∧
    (cmd &&& 0x30#8) <<< 2 &&& 0xC0#8 = (cmd &&& 0x30#8) <<< 2 ∧
    (cmd &&& 0x0C#8) <<< 4 &&& 0xC0#8 = (cmd &&& 0x0C#8) <<< 4 ∧
    (cmd &&& 0x03#8) <<< 6 &&& 0xC0#8 = (cmd &&& 0x03#8) <<< 6 := by
  decide +kernel

theorem join_nibbles : ∀ data : Octet,
    (data &&& 0x0F#8) ||| ((data >>> 4 &&& 0x0F#8) <<< 4) = data := by
  decide +kernel

theorem join_pairs : ∀ cmd : Octet,
    (cmd &&& 0xC0#8) ||| (((cmd &&& 0x30#8) <<< 2) >>> 2) ||| (((cmd &&& 0x0C#8) <<< 4) >>> 4) |||
      (((cmd &&& 0x03#8) <<< 6) >>> 6) = cmd := by
  decide +kernel

theorem ctrlEncode_mask {mask : Octet} (keeps : 0xCF#8 &&& mask = mask) (buf : Buf) (ind i : Nat) :
    octetAt (ctrlEncode buf ind) i &&& mask = octetAt buf i &&& mask := by
  have apart : 0x30#8 &&& mask = 0#8 := by
    rw [← keeps, ← BitVec.and_assoc]
    exact BitVec.zero_and
  have apart' : 0x10#8 &&& mask = 0#8 := by
    rw [← keeps, ← BitVec.and_assoc]
    exact BitVec.zero_and
  simp only [ctrlEncode]
  split_ifs
  · exact octetAt_set_mask (masked_kept keeps apart) i
  · exact octetAt_set_mask (masked_kept keeps apart') i
  · rfl

theorem dataEncode_mask {mask : Octet} (keeps : 0xF0#8 &&& mask = mask) (buf : Buf) (ind : Nat)
    (data : Octet) (i : Nat) :
    octetAt (dataEncode buf ind data) i &&& mask = octetAt buf i &&& mask := by
  have apart : 0x0F#8 &&& mask = 0#8 := by
    rw [← keeps, ← BitVec.and_assoc]
    exact BitVec.zero_and
  have low := outside_of_within (low_within data) apart
  have high := outside_of_within (high_within data) apart
  simp only [dataEncode]
  rw [octetAt_set_mask (masked_kept keeps high), octetAt_set_mask (masked_kept keeps low)]

theorem cmdEncode_mask {mask : Octet} (keeps : 0x3F#8 &&& mask = mask) (buf : Buf) (off : Nat)
    (cmd : Octet) (i : Nat) :
    octetAt (cmdEncode buf off cmd) i &&& mask = octetAt buf i &&& mask := by
  have apart : 0xC0#8 &&& mask = 0#8 := by
    rw [← keeps, ← BitVec.and_assoc]
    exact BitVec.zero_and
  rcases pairs_within cmd with ⟨first, second, third, fourth⟩
  simp only [cmdEncode]
  rw [octetAt_set_mask (masked_kept keeps (outside_of_within fourth apart)),
    octetAt_set_mask (masked_kept keeps (outside_of_within third apart)),
    octetAt_set_mask (masked_kept keeps (outside_of_within second apart)),
    octetAt_set_mask (masked_kept keeps (outside_of_within first apart))]

/-! What the encoder puts into a block. -/

theorem voiceOctet_congr {buf other : Buf} {modNo : Fin 2} {ind : Nat}
    (low : octetAt buf (4 * ind + modNo) &&& 0x0F#8 = octetAt other (4 * ind + modNo) &&& 0x0F#8)
    (high : octetAt buf (4 * ind + modNo + 2) &&& 0x0F#8 =
      octetAt other (4 * ind + modNo + 2) &&& 0x0F#8) :
    voiceOctet buf modNo ind = voiceOctet other modNo ind := by
  rw [voiceOctet, voiceOctet, low, high]

theorem ctrlOctet_congr {buf other : Buf} {ind : Nat}
    (pairs : ∀ k < 4, octetAt buf (4 * ind + k) &&& 0xC0#8 = octetAt other (4 * ind + k) &&& 0xC0#8) :
    ctrlOctet buf ind = ctrlOctet other ind := by
  have first := pairs 0 (by decide)
  rw [Nat.add_zero] at first
  rw [ctrlOctet, ctrlOctet, first, pairs 1 (by decide), pairs 2 (by decide), pairs 3 (by decide)]

theorem voiceEncode_ctrl (card : Card) (buf : Buf) (x : Nat) (modNo : Fin 2) (ind : Nat) :
    ctrlOctet (voiceEncode card buf x modNo) ind = ctrlOctet buf ind := by
  apply ctrlOctet_congr
  intro k _
  simp only [voiceEncode]
  rw [dataEncode_mask (by decide), ctrlEncode_mask (by decide)]

theorem cmdEncode_voice (buf : Buf) (off : Nat) (cmd : Octet) (modNo : Fin 2) (ind : Nat) :
    voiceOctet (cmdEncode buf off cmd) modNo ind = voiceOctet buf modNo ind :=
  voiceOctet_congr (cmdEncode_mask (by decide) buf off cmd _)
    (cmdEncode_mask (by decide) buf off cmd _)

theorem dataEncode_voice {buf : Buf} {x : Nat} (modNo : Fin 2) (data : Octet)
    (inside : x * 4 + modNo + 2 < buf.length) :
    voiceOctet (dataEncode buf (x * 4 + modNo) data) modNo x = data := by
  have here : 4 * x + modNo.val = x * 4 + modNo.val := by omega
  have low : octetAt (dataEncode buf (x * 4 + modNo) data) (x * 4 + modNo) &&& 0x0F#8 =
      data &&& 0x0F#8 := by
    simp only [dataEncode]
    rw [octetAt_set_other (by omega), octetAt_set_self (by omega)]
    exact masked_put (by decide) (low_within data)
  have high : octetAt (dataEncode buf (x * 4 + modNo) data) (x * 4 + modNo + 2) &&& 0x0F#8 =
      data >>> 4 &&& 0x0F#8 := by
    simp only [dataEncode]
    rw [octetAt_set_self (by rwa [List.length_set])]
    exact masked_put (by decide) (high_within data)
  rw [voiceOctet, here, low, high, join_nibbles]

theorem dataEncode_voice_other {buf : Buf} {x ind : Nat} {modNo other : Fin 2} (data : Octet)
    (elsewhere : ¬ (x = ind ∧ modNo = other)) :
    voiceOctet (dataEncode buf (x * 4 + modNo) data) other ind = voiceOctet buf other ind := by
  have apart : x * 4 + modNo.val ≠ 4 * ind + other.val := by
    intro same
    apply elsewhere
    have := modNo.isLt
    have := other.isLt
    exact ⟨by omega, Fin.ext (by omega)⟩
  have cross : x * 4 + modNo.val ≠ 4 * ind + other.val + 2 := by
    have := modNo.isLt
    have := other.isLt
    omega
  apply voiceOctet_congr
  · simp only [dataEncode]
    rw [octetAt_set_other (by have := modNo.isLt; have := other.isLt; omega),
      octetAt_set_other apart]
  · simp only [dataEncode]
    rw [octetAt_set_other (by omega), octetAt_set_other cross]

theorem ctrlEncode_voice (buf : Buf) (at_ : Nat) (modNo : Fin 2) (ind : Nat) :
    voiceOctet (ctrlEncode buf at_) modNo ind = voiceOctet buf modNo ind :=
  voiceOctet_congr (ctrlEncode_mask (by decide) buf at_ _) (ctrlEncode_mask (by decide) buf at_ _)

theorem cmdEncode_ctrl {buf : Buf} {off : Nat} (cmd : Octet) (inside : off * 4 + 3 < buf.length) :
    ctrlOctet (cmdEncode buf (off * 4) cmd) off = cmd := by
  have here : 4 * off = off * 4 := Nat.mul_comm 4 off
  rcases pairs_within cmd with ⟨first, second, third, fourth⟩
  have pair0 : octetAt (cmdEncode buf (off * 4) cmd) (off * 4) &&& 0xC0#8 = cmd &&& 0xC0#8 := by
    simp only [cmdEncode]
    rw [octetAt_set_other (by omega), octetAt_set_other (by omega), octetAt_set_other (by omega),
      octetAt_set_self (by omega)]
    exact masked_put (by decide) first
  have pair1 : octetAt (cmdEncode buf (off * 4) cmd) (off * 4 + 1) &&& 0xC0#8 =
      (cmd &&& 0x30#8) <<< 2 := by
    simp only [cmdEncode]
    rw [octetAt_set_other (by omega), octetAt_set_other (by omega),
      octetAt_set_self (by simp only [List.length_set]; omega)]
    exact masked_put (by decide) second
  have pair2 : octetAt (cmdEncode buf (off * 4) cmd) (off * 4 + 2) &&& 0xC0#8 =
      (cmd &&& 0x0C#8) <<< 4 := by
    simp only [cmdEncode]
    rw [octetAt_set_other (by omega), octetAt_set_self (by simp only [List.length_set]; omega)]
    exact masked_put (by decide) third
  have pair3 : octetAt (cmdEncode buf (off * 4) cmd) (off * 4 + 3) &&& 0xC0#8 =
      (cmd &&& 0x03#8) <<< 6 := by
    simp only [cmdEncode]
    rw [octetAt_set_self (by simp only [List.length_set]; omega)]
    exact masked_put (by decide) fourth
  rw [ctrlOctet, here, pair0, pair1, pair2, pair3, join_pairs]

theorem cmdEncode_ctrl_other {buf : Buf} {off ind : Nat} (cmd : Octet) (other : off ≠ ind) :
    ctrlOctet (cmdEncode buf (off * 4) cmd) ind = ctrlOctet buf ind := by
  apply ctrlOctet_congr
  intro k small
  simp only [cmdEncode]
  rw [octetAt_set_other (by omega), octetAt_set_other (by omega), octetAt_set_other (by omega),
    octetAt_set_other (by omega)]

theorem cmdEncode_framed {buf : Buf} (framed : Framed buf) (off : Nat) (cmd : Octet) :
    Framed (cmdEncode buf off cmd) := by
  constructor
  · rw [cmdEncode_length, framed.size]
  · rw [cmdEncode_mask (by decide), framed.startFr]
  · intro ind inside
    rw [cmdEncode_mask (by decide), framed.start ind inside]

theorem dataEncode_framed {buf : Buf} (framed : Framed buf) (ind : Nat) (data : Octet) :
    Framed (dataEncode buf ind data) := by
  constructor
  · rw [dataEncode_length, framed.size]
  · rw [dataEncode_mask (by decide), framed.startFr]
  · intro i inside
    rw [dataEncode_mask (by decide), framed.start i inside]

theorem start_set : ∀ octet : Octet, ((octet &&& 0xCF#8) ||| 0x30#8) &&& 0x20#8 = 0x20#8 ∧
    ((octet &&& 0xCF#8) ||| 0x30#8) &&& 0x10#8 = 0x10#8 ∧
    ((octet &&& 0xCF#8) ||| 0x10#8) &&& 0x10#8 = 0x10#8 := by
  decide +kernel

theorem ctrlEncode_framed {buf : Buf} (framed : Framed buf) (ind : Nat) :
    Framed (ctrlEncode buf ind) := by
  rcases start_set (octetAt buf ind) with ⟨frame, first, later⟩
  constructor
  · rw [ctrlEncode_length, framed.size]
  · simp only [ctrlEncode]
    split_ifs with both quarter
    · rw [octetAt_set]
      split_ifs
      · exact frame
      · exact framed.startFr
    · rw [octetAt_set_other (by omega)]
      exact framed.startFr
    · exact framed.startFr
  · intro i inside
    simp only [ctrlEncode]
    split_ifs with both quarter
    · rw [octetAt_set]
      split_ifs
      · exact first
      · exact framed.start i inside
    · rw [octetAt_set]
      split_ifs
      · exact later
      · exact framed.start i inside
    · exact framed.start i inside

theorem idlebuf_framed : Framed (idlebuf.take maxUsbTxLen) := by
  constructor
  · rfl
  · rfl
  · decide

theorem idlebuf_ctrl : ∀ ind < wpUsbRxtxChunksize,
    ctrlOctet (idlebuf.take maxUsbTxLen) ind = wpUsbCtrlIdlePattern := by
  decide

theorem voiceEncode_framed {card : Card} {buf : Buf} (framed : Framed buf) (x : Nat)
    (modNo : Fin 2) : Framed (voiceEncode card buf x modNo) :=
  dataEncode_framed (ctrlEncode_framed framed _) _ _

theorem voiceEncode_voice {card : Card} {buf : Buf} {x : Nat} (framed : Framed buf)
    (inside : x < wpUsbRxtxChunksize) (modNo : Fin 2) :
    voiceOctet (voiceEncode card buf x modNo) modNo x = card.writechunk modNo x := by
  have room : x * 4 + modNo.val + 2 < maxUsbRxLen := by
    have := modNo.isLt
    simp only [maxUsbRxLen, wpUsbRxtxChunksize, wpUsbChunksize] at inside ⊢
    omega
  apply dataEncode_voice
  rwa [ctrlEncode_length, framed.size]

theorem voiceEncode_voice_other {card : Card} {buf : Buf} {x ind : Nat} {modNo other : Fin 2}
    (elsewhere : ¬ (x = ind ∧ modNo = other)) :
    voiceOctet (voiceEncode card buf x modNo) other ind = voiceOctet buf other ind := by
  simp only [voiceEncode]
  rw [dataEncode_voice_other _ elsewhere, ctrlEncode_voice]

/-- A framed block with these voice octets and this command, idle behind it. -/
structure Carries (buf : Buf) (chunk : Fin 2 → Nat → Octet) (cmd : List Octet) : Prop where
  framed : Framed buf
  voice : ∀ modNo, ∀ x < wpUsbRxtxChunksize, voiceOctet buf modNo x = chunk modNo x
  ctrl : ∀ ind < wpUsbRxtxChunksize,
    ctrlOctet buf ind = (wpUsbCtrlIdlePattern :: cmd).getD ind wpUsbCtrlIdlePattern

def voiceBlock (card : Card) (n : Nat) : Buf :=
  (List.range n).foldl
    (fun buf x =>
      voiceEncode card (voiceEncode card buf x ⟨0, Nat.two_pos⟩) x ⟨1, Nat.one_lt_two⟩)
    (idlebuf.take maxUsbTxLen)

theorem voiceBlock_succ (card : Card) (n : Nat) :
    voiceBlock card (n + 1) =
      voiceEncode card (voiceEncode card (voiceBlock card n) n 0) n 1 := by
  rw [voiceBlock, List.range_succ, List.foldl_append]
  rfl

theorem voiceBlock_framed (card : Card) (n : Nat) : Framed (voiceBlock card n) := by
  induction n with
  | zero => exact idlebuf_framed
  | succ n ih =>
      rw [voiceBlock_succ]
      exact voiceEncode_framed (voiceEncode_framed ih n 0) n 1

theorem voiceBlock_ctrl (card : Card) (n : Nat) :
    ∀ ind < wpUsbRxtxChunksize, ctrlOctet (voiceBlock card n) ind = wpUsbCtrlIdlePattern := by
  induction n with
  | zero => exact idlebuf_ctrl
  | succ n ih =>
      intro ind inside
      rw [voiceBlock_succ, voiceEncode_ctrl, voiceEncode_ctrl]
      exact ih ind inside

theorem voiceBlock_voice (card : Card) (n : Nat) (few : n ≤ wpUsbRxtxChunksize) (modNo : Fin 2) :
    ∀ x < n, voiceOctet (voiceBlock card n) modNo x = card.writechunk modNo x := by
  induction n with
  | zero =>
      intro x inside
      exact absurd inside (Nat.not_lt_zero x)
  | succ n ih =>
      intro x inside
      have framed := voiceBlock_framed card n
      rw [voiceBlock_succ]
      rcases Nat.lt_succ_iff_lt_or_eq.mp inside with earlier | rfl
      · have before : ¬ (n = x ∧ (1 : Fin 2) = modNo) := fun here => by omega
        have before' : ¬ (n = x ∧ (0 : Fin 2) = modNo) := fun here => by omega
        rw [voiceEncode_voice_other before, voiceEncode_voice_other before']
        exact ih (by omega) x earlier
      · have side : modNo = 0 ∨ modNo = 1 := by omega
        rcases side with rfl | rfl
        · rw [voiceEncode_voice_other (by simp), voiceEncode_voice framed few]
        · rw [voiceEncode_voice (voiceEncode_framed framed x 0) few]

theorem cmdOctetsEncode_spec {buf : Buf} (framed : Framed buf) (off : Nat) (cmd : List Octet)
    (room : off + cmd.length ≤ wpUsbRxtxChunksize) :
    Framed (cmdOctetsEncode buf off cmd) ∧
      (∀ modNo ind, voiceOctet (cmdOctetsEncode buf off cmd) modNo ind = voiceOctet buf modNo ind) ∧
      ∀ ind, ctrlOctet (cmdOctetsEncode buf off cmd) ind =
        if ind < off then ctrlOctet buf ind else cmd.getD (ind - off) (ctrlOctet buf ind) := by
  induction cmd generalizing buf off with
  | nil =>
      refine ⟨framed, fun _ _ => rfl, fun ind => ?_⟩
      simp [cmdOctetsEncode]
  | cons octet octets ih =>
      rw [List.length_cons] at room
      have inside : off * 4 + 3 < buf.length := by
        rw [framed.size]
        simp only [maxUsbRxLen, wpUsbRxtxChunksize, wpUsbChunksize] at room ⊢
        omega
      rcases ih (cmdEncode_framed framed (off * 4) octet) (off + 1) (by omega) with
        ⟨framed', voice, ctrl⟩
      refine ⟨framed', fun modNo ind => ?_, fun ind => ?_⟩
      · rw [cmdOctetsEncode, voice, cmdEncode_voice]
      · rw [cmdOctetsEncode, ctrl]
        rcases Nat.lt_trichotomy ind off with before | rfl | behind
        · rw [if_pos (by omega), if_pos before, cmdEncode_ctrl_other _ (by omega)]
        · rw [if_pos (by omega), if_neg (by omega), cmdEncode_ctrl _ inside, Nat.sub_self]
          rfl
        · rw [if_neg (by omega), if_neg (by omega), cmdEncode_ctrl_other _ (by omega)]
          have next : ind - off = ind - (off + 1) + 1 := by omega
          rw [next, List.getD_cons_succ]

theorem sdlaUsbTxdataEncode_idle {card : Card} (empty : card.txCmdList = []) :
    Carries (sdlaUsbTxdataEncode card).2 card.writechunk [] := by
  have block : (sdlaUsbTxdataEncode card).2 = voiceBlock card wpUsbRxtxChunksize := by
    simp only [sdlaUsbTxdataEncode, empty, voiceBlock]
    rfl
  rw [block]
  constructor
  · exact voiceBlock_framed card _
  · exact fun modNo => voiceBlock_voice card _ (Nat.le_refl _) modNo
  · intro ind inside
    rw [voiceBlock_ctrl card _ ind inside]
    cases ind <;> simp

theorem sdlaUsbTxdataEncode_cmd {card : Card} {cmd : List Octet} {cmds : List (List Octet)}
    (queued : card.txCmdList = cmd :: cmds) (short : 1 + cmd.length ≤ wpUsbRxtxChunksize) :
    Carries (sdlaUsbTxdataEncode card).2 card.writechunk cmd := by
  have block : (sdlaUsbTxdataEncode card).2 =
      cmdOctetsEncode (voiceBlock card wpUsbRxtxChunksize) 1 cmd := by
    simp only [sdlaUsbTxdataEncode, queued, voiceBlock]
    rfl
  rcases cmdOctetsEncode_spec (voiceBlock_framed card wpUsbRxtxChunksize) 1 cmd short with
    ⟨framed, voice, ctrl⟩
  rw [block]
  constructor
  · exact framed
  · intro modNo x inside
    rw [voice]
    exact voiceBlock_voice card _ (Nat.le_refl _) modNo x inside
  · intro ind inside
    rw [ctrl, voiceBlock_ctrl card _ ind inside]
    cases ind with
    | zero => rfl
    | succ ind => rw [if_neg (by omega), Nat.add_sub_cancel, List.getD_cons_succ]

end Wanpipe.Usb
