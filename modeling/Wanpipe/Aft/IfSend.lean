import Wanpipe.Aft.DchanFilter
import Wanpipe.Mtp1.Transmit

/-! What becomes of an skb that the network stack hands to `if_send`. -/

namespace Wanpipe.Aft

open Line

/-- The modes of an interface that `if_send` tells apart. -/
inductive UsedBy
  | api
  | tdmVoiceApi
  | xmtp2Api
  | other
  deriving DecidableEq, Repr

/-- A channel as a transmission finds it; `pending` is the length of `wp_tx_pending_list`, and a
channel has an `sw_hdlc_dev` exactly in the `sw_hdlc_mode`. -/
structure SendChan where
  usedby : UsedBy
  wpApiOpMode : Nat
  hdlcEng : Bool
  hdlcRepeat : Bool
  swHdlcDev : Option Mtp1.Link
  dchanTimeSlot : Int
  pending : Nat
  maxTxBufs : Nat
  tslotSync : Bool
  numOfTimeSlots : Nat
  lipAtm : Bool
  slots : 0 < numOfTimeSlots

/-- An interface and its card. `briTx` is what `aft_bri_dchan_transmit` returns, `alloc` whether
there is memory for a repeat skb. -/
structure SendState where
  connected : Bool
  channelizedCfg : Bool
  isBri : Bool
  tdmvDchan : Nat
  chan : SendChan
  devToChMap : Nat → Option SendChan
  briTx : Int
  alloc : Bool

inductive Effect
  | freeSkb
  | skbToHdlc
  | skbToPending
  | allocRskb (data : List Octet)
  | rskbToRptList
  | dmaTx
  | stopQueue
  | startQueue
  deriving DecidableEq, Repr

/-- What a call returns, the skb behind it and what was done in its course. -/
structure Sent where
  ret : Nat
  skb : List Octet
  effects : List Effect
  deriving DecidableEq, Repr

def briDchanLogicChan : Nat := 31

/-- The offsets of `rpt.len` and `rpt.data` in the packed API header. -/
def rptLenOffset : Nat := 12

def rptDataOffset : Nat := 13

/-- `none` is an error; there may be nothing to repeat. -/
def aftHdlcRepeatMangle (alloc : Bool) (skb : List Octet) : Option (Option (List Octet)) :=
  let len := skb.getD rptLenOffset 0
  if len = 0 then some none
  else if 8#8 < len then none
  else if alloc then some (some ((skb.drop rptDataOffset).take len.toNat))
  else none

def discard (skb : List Octet) : Sent := ⟨0, skb, [.freeSkb, .startQueue]⟩

def busy (skb : List Octet) : Sent := ⟨1, skb, [.stopQueue, .dmaTx]⟩

def swHdlcSend (dev : Mtp1.Link) (skb : List Octet) : Sent :=
  if (Mtp1.wpMtp1TxData dev skb none).2 ≠ 0 then busy skb
  else ⟨0, skb, [.skbToHdlc, .startQueue]⟩

def allocated (rskb : Option (List Octet)) : List Effect := rskb.toList.map .allocRskb

/-- From the checks of the length on; the API header is gone. -/
def lineSend (state : SendState) (chan : SendChan) (skb : List Octet)
    (rskb : Option (List Octet)) : Sent :=
  if chan.hdlcEng = false ∧ chan.tslotSync ∧ skb.length % chan.numOfTimeSlots ≠ 0 then
    ⟨0, skb, allocated rskb ++ [.freeSkb, .startQueue]⟩
  else if chan.hdlcEng = false ∧ chan.lipAtm = false ∧ skb.length % 4 ≠ 0 then
    ⟨0, skb, allocated rskb ++ [.freeSkb, .startQueue]⟩
  else if state.isBri ∧ 0 ≤ chan.dchanTimeSlot then
    if state.briTx = 0 then ⟨0, skb, allocated rskb ++ [.startQueue, .freeSkb]⟩
    else ⟨1, skb, allocated rskb ++ [.stopQueue]⟩
  else
    ⟨0, skb,
      allocated rskb ++ [.skbToPending] ++ (if chan.lipAtm then [] else [.dmaTx]) ++
        (if rskb.isSome then [.rskbToRptList] else []) ++ [.startQueue]⟩

/-- No transmission in these modes. -/
def noIfSend (chan : SendChan) : Prop :=
  chan.usedby = .tdmVoiceApi ∨ chan.wpApiOpMode ≠ 0 ∨ chan.usedby = .xmtp2Api

instance (chan : SendChan) : Decidable (noIfSend chan) := inferInstanceAs (Decidable (_ ∨ _))

/-- What `if_send` does once it knows the channel. -/
def chanSend (state : SendState) (chan : SendChan) (skb : List Octet) : Sent :=
  if noIfSend chan then ⟨0, skb, [.startQueue]⟩
  else if chan.maxTxBufs < chan.pending then busy skb
  else if chan.usedby = .api then
    if skb.length ≤ apiHdrSz then discard skb
    else if chan.hdlcEng ∧ chan.hdlcRepeat then
      match aftHdlcRepeatMangle state.alloc skb with
      | none => discard skb
      | some rskb => lineSend state chan (skb.drop apiHdrSz) rskb
    else lineSend state chan (skb.drop apiHdrSz) none
  else lineSend state chan skb none

def dchan (state : SendState) : Option SendChan :=
  state.devToChMap (if state.isBri then briDchanLogicChan else state.tdmvDchan - 1)

/-- No transmission by the D-channel. -/
def dchanRefused (state : SendState) (chan : SendChan) : Prop :=
  (chan.hdlcEng = false ∧ chan.swHdlcDev.isNone = true) ∨
    (state.isBri = true ∧ chan.dchanTimeSlot < 0)

instance (state : SendState) (chan : SendChan) : Decidable (dchanRefused state chan) :=
  inferInstanceAs (Decidable (_ ∨ _))

/-- A transmission by the D-channel, which the interfaces of a channelized card share. -/
def dchanSend (state : SendState) (chan : SendChan) (skb : List Octet) : Sent :=
  if dchanRefused state chan then discard skb
  else
    match chan.swHdlcDev with
    | some dev => swHdlcSend dev skb
    | none => chanSend state chan skb

/-- `none` is a fault: without a D-channel the queue of no channel is started. -/
def ifSend (state : SendState) (skb : List Octet) : Option Sent :=
  if state.connected = false then some ⟨1, skb, [.stopQueue]⟩
  else if state.channelizedCfg then
    if state.tdmvDchan = 0 ∨ 32 < state.tdmvDchan then some (discard skb)
    else (dchan state).map fun chan => dchanSend state chan skb
  else some (chanSend state state.chan skb)

def Effect.takesSkb : Effect → Bool
  | .freeSkb => true
  | .skbToHdlc => true
  | .skbToPending => true
  | _ => false

def Effect.makesRskb : Effect → Bool
  | .allocRskb _ => true
  | _ => false

/-- Returning 0 the skb went one way and no repeat skb is left over; otherwise the caller has its
skb as it was, and there is no repeat skb. -/
def Owned (skb : List Octet) (sent : Sent) : Prop :=
  if sent.ret = 0 then
    sent.effects.countP Effect.takesSkb = 1 ∧
      sent.effects.countP Effect.makesRskb = sent.effects.count .rskbToRptList
  else
    sent.effects.countP Effect.takesSkb = 0 ∧ sent.effects.countP Effect.makesRskb = 0 ∧
      sent.skb = skb

/-- The length passes the two checks, which an HDLC channel does not make. -/
def LengthOk (chan : SendChan) (len : Nat) : Prop :=
  ¬ (chan.hdlcEng = false ∧ chan.tslotSync ∧ len % chan.numOfTimeSlots ≠ 0) ∧
    ¬ (chan.hdlcEng = false ∧ chan.lipAtm = false ∧ len % 4 ≠ 0)

/-- The skb goes out by the D-channel of a BRI card. -/
def OnBri (state : SendState) (chan : SendChan) : Prop :=
  state.isBri = true ∧ 0 ≤ chan.dchanTimeSlot

/-- A packet of the API comes to the D-channel of a BRI card, and the card refuses it, or a repeat
skb was made, for which there is no list on this way. -/
def BriStrands (state : SendState) (chan : SendChan) (skb : List Octet) : Prop :=
  OnBri state chan ∧ chan.pending ≤ chan.maxTxBufs ∧ chan.usedby = .api ∧
    apiHdrSz < skb.length ∧
      if chan.hdlcEng ∧ chan.hdlcRepeat then
        ∃ rskb, aftHdlcRepeatMangle state.alloc skb = some rskb ∧
          (state.briTx ≠ 0 ∨ rskb.isSome = true)
      else LengthOk chan (skb.length - apiHdrSz) ∧ state.briTx ≠ 0

def ChanStrands (state : SendState) (chan : SendChan) (skb : List Octet) : Prop :=
  noIfSend chan ∨ BriStrands state chan skb

/-- The channels that `if_send` sends to by themselves. -/
def SendsTo (state : SendState) (chan : SendChan) : Prop :=
  state.connected = true ∧
    if state.channelizedCfg then
      ¬ (state.tdmvDchan = 0 ∨ 32 < state.tdmvDchan) ∧ dchan state = some chan ∧
        ¬ dchanRefused state chan ∧ chan.swHdlcDev = none
    else chan = state.chan

section Owners

variable {state : SendState} {chan : SendChan} {skb rest : List Octet}

theorem owned_zero {effects : List Effect} :
    Owned skb ⟨0, rest, effects⟩ ↔
      effects.countP Effect.takesSkb = 1 ∧
        effects.countP Effect.makesRskb = effects.count .rskbToRptList := Iff.rfl

theorem owned_one {effects : List Effect} :
    Owned skb ⟨1, rest, effects⟩ ↔
      effects.countP Effect.takesSkb = 0 ∧ effects.countP Effect.makesRskb = 0 ∧ rest = skb :=
  Iff.rfl

theorem discard_owned (skb : List Octet) : Owned skb (discard skb) := owned_zero.mpr ⟨rfl, rfl⟩

theorem busy_owned (skb : List Octet) : Owned skb (busy skb) := owned_one.mpr ⟨rfl, rfl, rfl⟩

theorem swHdlcSend_owned (dev : Mtp1.Link) (skb : List Octet) : Owned skb (swHdlcSend dev skb) := by
  rw [swHdlcSend]
  split
  · exact busy_owned skb
  · exact owned_zero.mpr ⟨rfl, rfl⟩

/-- Without a repeat skb only a refusal of the BRI card matters. -/
theorem lineSend_none (state : SendState) (chan : SendChan) (skb rest : List Octet) :
    Owned skb (lineSend state chan rest none) ↔
      (LengthOk chan rest.length → OnBri state chan → state.briTx ≠ 0 → rest = skb) := by
  rw [lineSend]
  split
  · next slots => exact iff_of_true (owned_zero.mpr ⟨rfl, rfl⟩) fun ok => absurd slots ok.1
  · next first =>
      split
      · next four => exact iff_of_true (owned_zero.mpr ⟨rfl, rfl⟩) fun ok => absurd four ok.2
      · next second =>
          split
          · next bri =>
              split
              · next taken =>
                  exact iff_of_true (owned_zero.mpr ⟨rfl, rfl⟩)
                    fun _ _ refused => absurd taken refused
              · next refused =>
                  rw [owned_one]
                  constructor
                  · intro owned _ _ _
                    exact owned.2.2
                  · intro same
                    exact ⟨rfl, rfl, same ⟨first, second⟩ bri refused⟩
          · next other =>
              refine iff_of_true ?_ fun _ bri => absurd bri other
              rw [owned_zero]
              cases chan.lipAtm <;> exact ⟨rfl, rfl⟩

/-- A repeat skb finds its list unless the skb goes out by the BRI card. -/
theorem lineSend_some (state : SendState) {chan : SendChan} (hdlc : chan.hdlcEng = true)
    (skb rest rskb : List Octet) :
    Owned skb (lineSend state chan rest (some rskb)) ↔ ¬ OnBri state chan := by
  rw [lineSend, if_neg (by simp [hdlc]), if_neg (by simp [hdlc])]
  split
  · next bri =>
      refine iff_of_false ?_ (not_not_intro bri)
      split
      · intro owned
        have lost : 1 = 0 := (owned_zero.mp owned).2
        exact Nat.one_ne_zero lost
      · intro owned
        have lost : 1 = 0 := (owned_one.mp owned).2.1
        exact Nat.one_ne_zero lost
  · next other =>
      refine iff_of_true ?_ other
      rw [owned_zero]
      cases chan.lipAtm <;> exact ⟨rfl, rfl⟩

/-- The API header is gone where the card refuses the packet. -/
theorem drop_ne (long : apiHdrSz < skb.length) : skb.drop apiHdrSz ≠ skb := by
  intro same
  have length := congrArg List.length same
  rw [List.length_drop] at length
  unfold apiHdrSz at *
  omega

theorem chanSend_owned (state : SendState) (chan : SendChan) (skb : List Octet) :
    Owned skb (chanSend state chan skb) ↔ ¬ ChanStrands state chan skb := by
  rw [chanSend, ChanStrands]
  by_cases mode : noIfSend chan
  · rw [if_pos mode]
    refine iff_of_false ?_ (not_not_intro (Or.inl mode))
    exact fun owned => absurd (owned_zero.mp owned).1 (by decide)
  rw [if_neg mode, or_iff_right mode]
  by_cases full : chan.maxTxBufs < chan.pending
  · rw [if_pos full]
    refine iff_of_true (busy_owned skb) ?_
    intro strands
    exact absurd full (Nat.not_lt_of_le strands.2.1)
  rw [if_neg full]
  by_cases api : chan.usedby = .api
  · rw [if_pos api]
    by_cases short : skb.length ≤ apiHdrSz
    · rw [if_pos short]
      refine iff_of_true (discard_owned skb) ?_
      intro strands
      exact absurd short (Nat.not_le_of_lt strands.2.2.2.1)
    · have long := Nat.lt_of_not_le short
      rw [if_neg short]
      have reaches : BriStrands state chan skb ↔ OnBri state chan ∧
          if chan.hdlcEng ∧ chan.hdlcRepeat then
            ∃ rskb, aftHdlcRepeatMangle state.alloc skb = some rskb ∧
              (state.briTx ≠ 0 ∨ rskb.isSome = true)
          else LengthOk chan (skb.length - apiHdrSz) ∧ state.briTx ≠ 0 := by
        rw [BriStrands, and_iff_right (Nat.le_of_not_lt full), and_iff_right api,
          and_iff_right long]
      rw [reaches]
      by_cases mangles : chan.hdlcEng ∧ chan.hdlcRepeat
      · rw [if_pos mangles, if_pos mangles]
        cases mangled : aftHdlcRepeatMangle state.alloc skb with
        | none =>
            refine iff_of_true (discard_owned skb) ?_
            rintro ⟨-, rskb, impossible, -⟩
            cases impossible
        | some rskb =>
            have ok (len : Nat) : LengthOk chan len := by
              constructor <;> simp [mangles.1]
            cases rskb with
            | none =>
                rw [lineSend_none, List.length_drop]
                constructor
                · rintro owned ⟨bri, rskb, same, refused | made⟩
                  · exact drop_ne long (owned (ok _) bri refused)
                  · cases same
                    cases made
                · intro strands _ bri refused
                  exact absurd ⟨bri, none, rfl, Or.inl refused⟩ strands
            | some rskb =>
                rw [lineSend_some state mangles.1]
                exact not_congr (and_iff_left ⟨some rskb, rfl, Or.inr rfl⟩).symm
      · rw [if_neg mangles, if_neg mangles, lineSend_none, List.length_drop]
        constructor
        · rintro owned ⟨bri, fits, refused⟩
          exact drop_ne long (owned fits bri refused)
        · intro strands fits bri refused
          exact absurd ⟨bri, fits, refused⟩ strands
  · rw [if_neg api, lineSend_none]
    refine iff_of_true (fun _ _ _ => rfl) ?_
    intro strands
    exact absurd strands.2.2.1 api

theorem dchanSend_owned (state : SendState) (chan : SendChan) (skb : List Octet) :
    Owned skb (dchanSend state chan skb) ↔
      ¬ (¬ dchanRefused state chan ∧ chan.swHdlcDev = none ∧ ChanStrands state chan skb) := by
  rw [dchanSend]
  by_cases refused : dchanRefused state chan
  · rw [if_pos refused]
    refine iff_of_true (discard_owned skb) ?_
    intro strands
    exact strands.1 refused
  · rw [if_neg refused, and_iff_right refused]
    cases device : chan.swHdlcDev with
    | some dev =>
        refine iff_of_true (swHdlcSend_owned dev skb) ?_
        rintro ⟨impossible, -⟩
        cases impossible
    | none =>
        rw [and_iff_right rfl]
        exact chanSend_owned state chan skb

end Owners

/-- When the call returns, the skb is the caller's or went one way, exactly unless it came to a
channel in a mode without transmission or was lost on the way to the D-channel of a BRI card. -/
theorem if_send_owned (state : SendState) (skb : List Octet) :
    (∀ sent, ifSend state skb = some sent → Owned skb sent) ↔
      ¬ ∃ chan, SendsTo state chan ∧ ChanStrands state chan skb := by
  have returns {sent : Sent} :
      (∀ result, some sent = some result → Owned skb result) ↔ Owned skb sent := by
    constructor
    · intro owned
      exact owned sent rfl
    · rintro owned result ⟨⟩
      exact owned
  rw [ifSend]
  by_cases down : state.connected = false
  · rw [if_pos down, returns]
    refine iff_of_true (owned_one.mpr ⟨rfl, rfl, rfl⟩) ?_
    rintro ⟨chan, sends, -⟩
    exact absurd sends.1 (by simp [down])
  have up : state.connected = true := by simpa using down
  rw [if_neg down]
  by_cases channelized : state.channelizedCfg = true
  · rw [if_pos channelized]
    have sends (chan : SendChan) : SendsTo state chan ↔
        ¬ (state.tdmvDchan = 0 ∨ 32 < state.tdmvDchan) ∧ dchan state = some chan ∧
          ¬ dchanRefused state chan ∧ chan.swHdlcDev = none := by
      rw [SendsTo, and_iff_right up, if_pos channelized]
    by_cases unset : state.tdmvDchan = 0 ∨ 32 < state.tdmvDchan
    · rw [if_pos unset, returns]
      refine iff_of_true (discard_owned skb) ?_
      rintro ⟨chan, target, -⟩
      exact ((sends chan).mp target).1 unset
    · rw [if_neg unset]
      cases found : dchan state with
      | none =>
          refine iff_of_true (fun _ => nofun) ?_
          rintro ⟨chan, target, -⟩
          cases found.symm.trans ((sends chan).mp target).2.1
      | some chan =>
          rw [Option.map_some, returns, dchanSend_owned]
          refine not_congr ⟨?_, ?_⟩
          · rintro ⟨allowed, device, strands⟩
            exact ⟨chan, (sends chan).mpr ⟨unset, found, allowed, device⟩, strands⟩
          · rintro ⟨other, target, strands⟩
            obtain ⟨-, same, allowed, device⟩ := (sends other).mp target
            cases found.symm.trans same
            exact ⟨allowed, device, strands⟩
  · rw [if_neg channelized, returns, chanSend_owned]
    have sends (chan : SendChan) : SendsTo state chan ↔ chan = state.chan := by
      rw [SendsTo, and_iff_right up, if_neg channelized]
    refine not_congr ⟨?_, ?_⟩
    · intro strands
      exact ⟨state.chan, (sends state.chan).mpr rfl, strands⟩
    · rintro ⟨chan, target, strands⟩
      cases (sends chan).mp target
      exact strands

/-- A connected interface of the voice API. -/
def voiceSend : SendState where
  connected := true
  channelizedCfg := false
  isBri := false
  tdmvDchan := 0
  chan :=
    { usedby := .tdmVoiceApi
      wpApiOpMode := 0
      hdlcEng := false
      hdlcRepeat := false
      swHdlcDev := none
      dchanTimeSlot := -1
      pending := 0
      maxTxBufs := 10
      tslotSync := true
      numOfTimeSlots := 1
      lipAtm := false
      slots := Nat.one_pos }
  devToChMap := fun _ => none
  briTx := 0
  alloc := true

/-- An interface of the voice API reports success and leaves the skb where it is. -/
theorem if_send_owned_voice :
    ifSend voiceSend [0#8, 0#8, 0#8, 0#8] = some ⟨0, [0#8, 0#8, 0#8, 0#8], [.startQueue]⟩ ∧
      ¬ Owned [0#8, 0#8, 0#8, 0#8] ⟨0, [0#8, 0#8, 0#8, 0#8], [.startQueue]⟩ :=
  ⟨rfl, fun owned => absurd (owned_zero.mp owned).1 (by decide)⟩

end Wanpipe.Aft
