import Mathlib.Data.List.Chain
import Wanpipe.Line.Octets

/-! The MTP1 filter of `aft_bh_rx`, which is to keep repeated signal units of a D-channel of the TDM
API from the user. -/

namespace Wanpipe.Aft

open Line

def wanoptYes : Nat := 1

/-- `sizeof(wp_api_hdr_t)`. -/
def apiHdrSz : Nat := 64

/-- The size of `rx_hdlc_filter`. -/
def aftMaxHdlcRepeatSz : Nat := 16

structure RxFrame where
  pktError : Octet
  payload : List Octet
  headroom : Nat
  deriving DecidableEq, Repr

/-- What the filter reads and writes of a channel. -/
structure RxFilter where
  hdlcRepeat : Bool
  mtp1Filter : Nat
  rxFilterCnt : BitVec 32
  rxHdlcFilterLen : Nat
  rxHdlcFilter : List Octet
  deriving DecidableEq, Repr

/-- `duplicate` is a frame that the filter drops. -/
inductive Verdict
  | noHeadroom
  | duplicate
  | passedUp
  deriving DecidableEq, Repr

/-- The copy of a frame into `rx_hdlc_filter`. -/
def cacheFrame (chan : RxFilter) (data2 : List Octet) : RxFilter :=
  { chan with
    rxHdlcFilterLen := data2.length
    rxHdlcFilter := data2 ++ chan.rxHdlcFilter.drop data2.length }

def passUp (chan : RxFilter) : Verdict × RxFilter :=
  (.passedUp, { chan with rxFilterCnt := 0 })

/-- The filter; the option that turned it on becomes its limit. -/
def mtp1Filtered (chan : RxFilter) (pktError : Octet) (data2 : List Octet) : Verdict × RxFilter :=
  let chan := { chan with mtp1Filter := 128 }
  if pktError ≠ 0 ∨ data2.length < 3 ∨ 2 < (data2.getD 2 0 &&& 0x3F#8) ∨
      aftMaxHdlcRepeatSz ≤ data2.length then
    passUp { chan with rxHdlcFilterLen := 0 }
  else if chan.rxHdlcFilterLen = 0 then passUp (cacheFrame chan data2)
  else if chan.rxHdlcFilterLen ≠ data2.length then passUp (cacheFrame chan data2)
  else if chan.rxHdlcFilter.take data2.length ≠ data2 then passUp (cacheFrame chan data2)
  else if chan.rxFilterCnt.toNat < chan.mtp1Filter then
    (.duplicate, { chan with rxFilterCnt := chan.rxFilterCnt + 1 })
  else passUp chan

/-- The branch of `aft_bh_rx`. The API header, all zero so far, is pushed before the filter looks. -/
def aftBhRx (chan : RxFilter) (frame : RxFrame) : Verdict × RxFilter :=
  if frame.headroom < apiHdrSz then (.noHeadroom, chan)
  else if chan.hdlcRepeat ∧ chan.mtp1Filter = wanoptYes then
    mtp1Filtered chan frame.pktError (List.replicate apiHdrSz 0 ++ frame.payload)
  else (.passedUp, chan)

def verdicts : RxFilter → List RxFrame → List Verdict
  | _, [] => []
  | chan, frame :: frames =>
      let received := aftBhRx chan frame
      received.1 :: verdicts received.2 frames

/-- A channel that is set up with the filter on. -/
def filterStart : RxFilter :=
  { hdlcRepeat := true, mtp1Filter := wanoptYes, rxFilterCnt := 0, rxHdlcFilterLen := 0
    rxHdlcFilter := List.replicate aftMaxHdlcRepeatSz 0 }

/-- A FISU or an LSSU that was received without an error and fits the filter. -/
def Qualifies (frame : RxFrame) : Prop :=
  frame.pktError = 0 ∧ 3 ≤ frame.payload.length ∧ frame.payload.length < aftMaxHdlcRepeatSz ∧
    (frame.payload.getD 2 0 &&& 0x3F#8) ≤ 2

instance (frame : RxFrame) : Decidable (Qualifies frame) := inferInstanceAs (Decidable (_ ∧ _))

/-- The frame is one that qualifies, and the same as the one before. -/
def Repeats (last frame : RxFrame) : Prop :=
  Qualifies frame ∧ last.pktError = frame.pktError ∧ last.payload = frame.payload

instance (last frame : RxFrame) : Decidable (Repeats last frame) :=
  inferInstanceAs (Decidable (_ ∧ _))

/-- What the filter is for: of a run of frames that qualify and are the same, the first goes up and
behind it one of each 129. `last` is the frame before and `n` its place in its run. -/
def wanted : Option RxFrame → Nat → List RxFrame → List Verdict
  | _, _, [] => []
  | last, n, frame :: frames =>
      if frame.headroom < apiHdrSz then .noHeadroom :: wanted last n frames
      else if ∃ before ∈ last, Repeats before frame then
        (if (n + 1) % 129 = 0 then .passedUp else .duplicate) :: wanted (some frame) (n + 1) frames
      else .passedUp :: wanted (some frame) 0 frames

/-- The frames that come as far as the filter. -/
def arrived (frames : List RxFrame) : List RxFrame :=
  frames.filter fun frame => apiHdrSz ≤ frame.headroom

/-- With its header in front every frame is too long for the filter. -/
theorem aftBhRx_passes (chan : RxFilter) (frame : RxFrame) :
    (aftBhRx chan frame).1 = if frame.headroom < apiHdrSz then .noHeadroom else .passedUp := by
  rw [aftBhRx]
  split
  · rfl
  · split
    · have long : aftMaxHdlcRepeatSz ≤ (List.replicate apiHdrSz 0 ++ frame.payload).length := by
        rw [List.length_append, List.length_replicate]
        exact Nat.le_add_right_of_le (by decide)
      rw [mtp1Filtered, if_pos (Or.inr (Or.inr (Or.inr long)))]
      rfl
    · rfl

theorem verdicts_wanted_iff (chan : RxFilter) (last : Option RxFrame) (frames : List RxFrame) :
    verdicts chan frames = wanted last 0 frames ↔
      (last.toList ++ arrived frames).IsChain fun before frame => ¬ Repeats before frame := by
  induction frames generalizing chan last with
  | nil => cases last <;> simp [verdicts, wanted, arrived]
  | cons frame frames ih =>
      have passes := aftBhRx_passes chan frame
      by_cases short : frame.headroom < apiHdrSz
      · have passed : arrived (frame :: frames) = arrived frames := by
          rw [arrived, List.filter_cons_of_neg]
          · rfl
          · simpa using short
        rw [if_pos short] at passes
        rw [verdicts, wanted, if_pos short, passes, passed, ← ih]
        exact List.cons_inj_right _
      · have comes : arrived (frame :: frames) = frame :: arrived frames := by
          rw [arrived, List.filter_cons_of_pos]
          · rfl
          · simpa using short
        rw [if_neg short] at passes
        rw [verdicts, wanted, if_neg short, passes, comes]
        by_cases again : ∃ before ∈ last, Repeats before frame
        · -- the first repetition of a frame is to be dropped
          obtain ⟨before, rfl, repeats⟩ := again
          rw [if_pos ⟨before, rfl, repeats⟩, if_neg (by decide)]
          refine iff_of_false nofun ?_
          intro chain
          exact (List.isChain_cons_cons.mp chain).1 repeats
        · rw [if_neg again, List.cons_inj_right, ih]
          cases last with
          | none => rfl
          | some before =>
              have first : ¬ Repeats before frame := fun repeats => again ⟨before, rfl, repeats⟩
              exact (List.isChain_cons_cons.trans (and_iff_right first)).symm

/-- The filter passes and drops as it is meant to exactly where it has nothing to drop. -/
theorem mtp1_filter_drops (frames : List RxFrame) :
    verdicts filterStart frames = wanted none 0 frames ↔
      (arrived frames).IsChain fun before frame => ¬ Repeats before frame :=
  verdicts_wanted_iff filterStart none frames

def fisu : RxFrame := { pktError := 0, payload := [0x80#8, 0x81#8, 0x00#8], headroom := 128 }

theorem mtp1_filter_drops_none :
    ¬ ∀ frames, verdicts filterStart frames = wanted none 0 frames := by
  intro always
  exact absurd (always [fisu, fisu]) (by decide)

end Wanpipe.Aft
