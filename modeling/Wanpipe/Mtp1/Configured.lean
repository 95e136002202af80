import Wanpipe.Mtp1.ReceiveLine

/-! Received bits leave the configuration of a link alone, so the handler is one bit machine. -/

namespace Wanpipe.Mtp1

open Line

/-- Everything of a link that a received bit leaves alone. -/
structure Configured (before after : Link) : Prop where
  cfg : after.cfg = before.cfg
  reg : after.reg = before.reg

section

variable {before link : Link} (stays : Configured before link)

include stays

theorem suerm_configured : Configured before (suerm link) := by
  unfold suerm
  split
  · exact ⟨stays.cfg, stays.reg⟩
  · exact stays

theorem suAccept_configured (errCode : Nat) : Configured before (suAccept link errCode) := by
  unfold suAccept
  split
  · exact suerm_configured stays
  · dsimp only
    split <;> split <;> exact ⟨stays.cfg, stays.reg⟩

theorem octetCountInc_configured : Configured before (octetCountInc link) := by
  unfold octetCountInc
  dsimp only
  split
  · split
    · apply suerm_configured
      exact ⟨stays.cfg, stays.reg⟩
    · exact ⟨stays.cfg, stays.reg⟩
  · exact ⟨stays.cfg, stays.reg⟩

theorem octetCountStart_configured : Configured before (octetCountStart link) := by
  have counted : Configured before (octetCountInc
      { link with rOctetCountingMode := true, rOctetCountingCount := 0 }) :=
    octetCountInc_configured ⟨stays.cfg, stays.reg⟩
  exact ⟨counted.cfg, counted.reg⟩

theorem octetCountMode_configured : Configured before (octetCountMode link) := by
  unfold octetCountMode
  split
  · exact octetCountInc_configured stays
  · exact stays

theorem shiftFlagAccum_configured (bit : Bool) : Configured before (shiftFlagAccum link bit) :=
  ⟨stays.cfg, stays.reg⟩

theorem abortFound_configured : Configured before (abortFound link) :=
  octetCountStart_configured (suAccept_configured stays _)

theorem openCheckFlag_configured : Configured before (openCheckFlag link) := by
  unfold openCheckFlag
  split
  · exact ⟨stays.cfg, stays.reg⟩
  · split
    · exact abortFound_configured stays
    · exact stays

theorem closeSu_configured : Configured before (closeSu link) := by
  have rejected (errCode : Nat) : Configured before (suAccept (suerm link) errCode) :=
    suAccept_configured (suerm_configured stays) errCode
  unfold closeSu
  split
  · exact rejected _
  · split
    · exact rejected _
    · split
      · exact rejected _
      · exact suAccept_configured stays 0

theorem closeCheckFlag_configured : Configured before (closeCheckFlag link) := by
  have closed := closeSu_configured stays
  unfold closeCheckFlag
  split
  · exact ⟨closed.cfg, closed.reg⟩
  · split
    · exact abortFound_configured stays
    · exact stays

theorem daedrx0_configured (bit : Bool) : Configured before (daedrx0 link bit) :=
  openCheckFlag_configured (shiftFlagAccum_configured (octetCountMode_configured stays) bit)

theorem daedrx1_configured (bit : Bool) : Configured before (daedrx1 link bit) := by
  have counted := octetCountMode_configured (shiftFlagAccum_configured stays bit)
  unfold daedrx1
  dsimp only
  split
  · exact ⟨counted.cfg, counted.reg⟩
  · apply openCheckFlag_configured
    exact ⟨counted.cfg, counted.reg⟩

theorem daedrx2CheckFlag_configured (bit : Bool) :
    Configured before (daedrx2CheckFlag link bit) :=
  closeCheckFlag_configured (shiftFlagAccum_configured stays bit)

theorem storeOctet_configured (bit : Bool) : Configured before (storeOctet link bit) := by
  have told := suAccept_configured stays (1 <<< frameErrorBit)
  unfold storeOctet
  split
  · apply octetCountStart_configured
    exact ⟨told.cfg, told.reg⟩
  · apply daedrx2CheckFlag_configured
    exact ⟨stays.cfg, stays.reg⟩

theorem keepBit_configured (suBit bit : Bool) : Configured before (keepBit link suBit bit) := by
  unfold keepBit
  dsimp only
  split
  · apply daedrx2CheckFlag_configured
    exact ⟨stays.cfg, stays.reg⟩
  · split
    · apply storeOctet_configured
      exact ⟨stays.cfg, stays.reg⟩
    · apply daedrx2CheckFlag_configured
      exact ⟨stays.cfg, stays.reg⟩

theorem daedrx2_configured (bit : Bool) : Configured before (daedrx2 link bit) := by
  have counted := octetCountMode_configured stays
  unfold daedrx2
  dsimp only
  split
  · split
    · apply octetCountStart_configured
      exact ⟨counted.cfg, counted.reg⟩
    · apply keepBit_configured
      exact ⟨counted.cfg, counted.reg⟩
  · split
    · apply daedrx2CheckFlag_configured
      exact ⟨counted.cfg, counted.reg⟩
    · apply keepBit_configured
      exact ⟨counted.cfg, counted.reg⟩

theorem rxBitToSu_configured (bit : Bool) : Configured before (rxBitToSu link bit) := by
  unfold rxBitToSu
  split
  · apply daedrx0_configured
    exact ⟨stays.cfg, stays.reg⟩
  · exact daedrx0_configured stays bit
  · exact daedrx1_configured stays bit
  · exact daedrx2_configured stays bit

end

theorem feed_configured (bits : List Bool) (before link : Link) (stays : Configured before link) :
    Configured before (feed link bits) := by
  induction bits generalizing link with
  | nil => exact stays
  | cons bit bits ih => exact ih _ (rxBitToSu_configured stays bit)

/-- The handler is the bit machine on the bits of its octets. -/
theorem wpMtp1RxHandler_feed (data : List Octet) (link : Link) :
    wpMtp1RxHandler link data = feed link (data.flatMap (rxOctetBits link.cfg)) := by
  induction data generalizing link with
  | nil => rfl
  | cons octet data ih =>
      have cfg := (feed_configured (rxOctetBits link.cfg octet) link link ⟨rfl, rfl⟩).cfg
      calc
        wpMtp1RxHandler link (octet :: data) =
            wpMtp1RxHandler (feed link (rxOctetBits link.cfg octet)) data := rfl
        _ = feed (feed link (rxOctetBits link.cfg octet)) (data.flatMap (rxOctetBits link.cfg)) := by
          rw [ih, cfg]
        _ = feed link ((octet :: data).flatMap (rxOctetBits link.cfg)) := by
          rw [List.flatMap_cons, feed_append]

end Wanpipe.Mtp1
