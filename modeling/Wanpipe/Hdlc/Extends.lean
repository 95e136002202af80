import Wanpipe.Hdlc.Decoder

/-! What has been handed up or counted stays so, whatever the line brings next. -/

namespace Wanpipe.Hdlc

open Line

structure Extends (before after : Decoder) : Prop where
  data : before.hdlcData <+: after.hdlcData
  errors : before.stats.errors ≤ after.stats.errors
  crc : before.stats.crc ≤ after.stats.crc
  abort : before.stats.abort ≤ after.stats.abort

theorem Extends.refl (chan : Decoder) : Extends chan chan :=
  ⟨List.prefix_refl _, Nat.le_refl _, Nat.le_refl _, Nat.le_refl _⟩

theorem Extends.trans {first second third : Decoder} (left : Extends first second)
    (right : Extends second third) : Extends first third :=
  ⟨left.data.trans right.data, Nat.le_trans left.errors right.errors,
    Nat.le_trans left.crc right.crc, Nat.le_trans left.abort right.abort⟩

/-- Same data and counts. -/
theorem Extends.of_eq {before after : Decoder} (data : after.hdlcData = before.hdlcData)
    (stats : after.stats = before.stats) : Extends before after := by
  constructor
  · exact data ▸ List.prefix_refl before.hdlcData
  · exact Nat.le_of_eq (congrArg Stats.errors stats).symm
  · exact Nat.le_of_eq (congrArg Stats.crc stats).symm
  · exact Nat.le_of_eq (congrArg Stats.abort stats).symm

theorem nextBit_extends (build : Build) (chan : Decoder) : Extends chan (nextBit build chan) := by
  simp only [nextBit, nextOctet]
  split
  · split
    · exact ⟨List.prefix_refl _, Nat.le_succ _, Nat.le_refl _, Nat.le_refl _⟩
    · exact Extends.of_eq rfl rfl
  · exact Extends.of_eq rfl rfl

theorem gotFlag_extends (chan : Decoder) : Extends chan (gotFlag chan) := by
  simp only [gotFlag, endPacket]
  split
  · split
    · split
      · exact ⟨List.prefix_append _ _, Nat.le_refl _, Nat.le_refl _, Nat.le_refl _⟩
      · exact ⟨List.prefix_refl _, Nat.le_succ _, Nat.le_succ _, Nat.le_refl _⟩
    · exact ⟨List.prefix_refl _, Nat.le_succ _, Nat.le_refl _, Nat.le_succ _⟩
  · exact Extends.of_eq rfl rfl
  · exact Extends.of_eq rfl rfl

theorem decodeBit_extends (build : Build) (chan : Decoder) (bit : Bool) :
    Extends chan (decodeBit build chan bit) := by
  simp only [decodeBit, gotOne, gotZero]
  split
  · split
    · exact Extends.of_eq rfl rfl
    · refine Extends.trans ?_ (nextBit_extends build _)
      exact Extends.of_eq rfl rfl
  · have step : Extends chan
        (if chan.rxDecodeOnecnt = 5 then chan
          else if chan.rxDecodeOnecnt = 6 then gotFlag chan
          else if chan.hdlcFlag = .noFlag then chan
          else nextBit build chan) := by
      split
      · exact Extends.refl chan
      · split
        · exact gotFlag_extends chan
        · split
          · exact Extends.refl chan
          · exact nextBit_extends build chan
    exact step.trans (Extends.of_eq rfl rfl)

theorem decodeBits_extends (build : Build) (bits : List Bool) (chan : Decoder) :
    Extends chan (bits.foldl (decodeBit build) chan) := by
  induction bits generalizing chan with
  | nil => exact Extends.refl chan
  | cons bit bits ih => exact (decodeBit_extends build chan bit).trans (ih _)

/-- The check at the end of a decode call. -/
def endCall (build : Build) (chan : Decoder) : Decoder :=
  if build.maxDecodeLen ≤ chan.rxDecodeLen then
    initHdlcDecoder
      { chan with
        stats :=
          { chan.stats with
            errors := chan.stats.errors + 1
            frameOverflow := chan.stats.frameOverflow + 1 } }
  else chan

theorem endCall_extends (build : Build) (chan : Decoder) : Extends chan (endCall build chan) := by
  unfold endCall
  split
  · exact ⟨List.prefix_refl _, Nat.le_succ _, Nat.le_refl _, Nat.le_refl _⟩
  · exact Extends.refl chan

theorem wanpipeHdlcDecode_bits (build : Build) (sevenBitHdlc : Bool) (chan : Decoder)
    (buf : List Octet) :
    wanpipeHdlcDecode build sevenBitHdlc chan buf =
      endCall build ((unitBits (bitsPerByte sevenBitHdlc) buf).foldl (decodeBit build)
        { chan with gotdata := false }) := by
  rw [← decodeBytes_eq]
  rfl

theorem decodeCalls_extends (build : Build) (sevenBitHdlc : Bool) (calls : List (List Octet))
    (chan : Decoder) : Extends chan (decodeCalls build sevenBitHdlc chan calls) := by
  induction calls generalizing chan with
  | nil => exact Extends.refl chan
  | cons buf calls ih =>
      have idle : Extends chan { chan with gotdata := false } := Extends.of_eq rfl rfl
      have bits := decodeBits_extends build (unitBits (bitsPerByte sevenBitHdlc) buf)
        { chan with gotdata := false }
      have call : Extends chan (wanpipeHdlcDecode build sevenBitHdlc chan buf) := by
        rw [wanpipeHdlcDecode_bits]
        exact (idle.trans bits).trans (endCall_extends build _)
      exact call.trans (ih _)

/-- When the calls' octets begin with `first`, the decoder passes through the state in which the
reader leaves `first`. -/
theorem decodeCalls_prefix {build : Build} (sevenBitHdlc : Bool) (calls : List (List Octet))
    {chan : Decoder} {reader : Reader} {first after : List Octet}
    (fed : calls.flatten = first ++ after) (most : build.maxDecodeLen ≤ build.maxSockHdlcBuf)
    (tracks : Tracks chan reader) (start : reader.collected < build.maxDecodeLen)
    (short : reader.Within (build.maxDecodeLen - 1)
      (unitBits (bitsPerByte sevenBitHdlc) first)) :
    ∃ middle, Tracks middle (reader.line (unitBits (bitsPerByte sevenBitHdlc) first)) ∧
      Extends middle (decodeCalls build sevenBitHdlc chan calls) := by
  have high : build.maxDecodeLen - 1 ≤ build.maxSockHdlcBuf := by omega
  induction calls generalizing chan reader first with
  | nil =>
      rcases List.append_eq_nil_iff.mp fed.symm with ⟨rfl, _⟩
      exact ⟨chan, tracks, Extends.refl chan⟩
  | cons buf calls ih =>
      rw [List.flatten_cons] at fed
      rcases List.append_eq_append_iff.mp fed with ⟨rest, rfl, rest_⟩ | ⟨rest, rfl, _⟩
      · rw [unitBits_append] at short ⊢
        have kept : reader.call build.maxDecodeLen (unitBits (bitsPerByte sevenBitHdlc) buf) =
            reader.line (unitBits (bitsPerByte sevenBitHdlc) buf) := by
          have low := short.left.last (by omega)
          exact if_neg (by omega)
        have next := decode_tracks sevenBitHdlc buf tracks (short.left.mono high)
        rw [kept] at next
        have low := short.left.last (by omega)
        rw [Reader.line_append]
        exact ih rest_ next (by omega) short.right
      · have idle := tracks.idle
        have read := decodeBits_tracks _ idle (short.mono high)
        refine ⟨_, read, ?_⟩
        have later := decodeBits_extends build (unitBits (bitsPerByte sevenBitHdlc) rest)
          ((unitBits (bitsPerByte sevenBitHdlc) first).foldl (decodeBit build)
            { chan with gotdata := false })
        rw [← List.foldl_append, ← unitBits_append] at later
        have call := later.trans (endCall_extends build _)
        rw [← wanpipeHdlcDecode_bits] at call
        exact call.trans (decodeCalls_extends build sevenBitHdlc calls _)

end Wanpipe.Hdlc
