import Wanpipe.Aft.ChannelsGranted

/-! On an unchannelised card the interfaces that fail spoil the count that the number of HDLC interfaces
is held to. -/

namespace Wanpipe.Aft.Channels

section ShutOut

variable {cfg : Cfg} {state : State}

def hdlcCount (chans : List Chan) : Nat := chans.countP Chan.hdlcEng

/-- The count of HDLC interfaces is so far off that it bars every new one, whichever are removed. -/
def Spoiled (state : State) : Prop := 2 + hdlcCount state.chans ≤ state.card.securityCnt.toNat

theorem hdlcCount_removed {chans : List Chan} {chan : Chan} (member : chan ∈ chans) :
    hdlcCount (chans.filter fun other => other.addr != chan.addr) +
      (if chan.hdlcEng then 1 else 0) ≤ hdlcCount chans := by
  unfold hdlcCount
  rw [List.countP_eq_countP_filter_add chans Chan.hdlcEng fun other => other.addr != chan.addr]
  refine Nat.add_le_add_left ?_ _
  split
  · rename_i hdlc
    exact List.countP_pos_iff.mpr ⟨chan, List.mem_filter.mpr ⟨member, by simp⟩, hdlc⟩
  · exact Nat.zero_le _

theorem unconfigured_count (cfg : Cfg) (card : Card) (chan : Chan) :
    (aftDevUnconfigure cfg card chan).1.securityCnt = card.securityCnt := by
  unfold aftDevUnconfigure
  cases has : chan.logicChNum with
  | none => rw [a104ChanDevUnconfig_none has]
  | some logicCh =>
    rw [a104ChanDevUnconfig_eq has]
    rfl

theorem delIfPrivate_spoiled (spoiled : Spoiled state) {chan : Chan} (member : chan ∈ state.chans) :
    Spoiled (delIfPrivate cfg state chan) := by
  have removed := hdlcCount_removed member
  unfold Spoiled at spoiled ⊢
  change 2 + hdlcCount (state.chans.filter fun other => other.addr != chan.addr) ≤
    (if chan.hdlcEng then (aftDevUnconfigure cfg state.card chan).1.securityCnt - 1#32
      else (aftDevUnconfigure cfg state.card chan).1.securityCnt).toNat
  rw [unconfigured_count]
  cases hdlc : chan.hdlcEng with
  | false =>
    rw [hdlc] at removed
    simp only [Bool.false_eq_true, ↓reduceIte] at removed ⊢
    omega
  | true =>
    rw [hdlc] at removed
    simp only [↓reduceIte] at removed ⊢
    bv_omega

theorem delIf_spoiled (sound : Sound cfg state) (spoiled : Spoiled state) (dev : Nat) :
    Spoiled (delIf cfg state dev) := by
  have loop : ∀ {list : List Chan} {state : State}, Sound cfg state → Spoiled state →
      (list.map Chan.addr).Nodup → (∀ chan ∈ list, chan ∈ state.chans) →
      Spoiled (list.foldl (delIfPrivate cfg) state) := by
    intro list
    induction list with
    | nil => exact fun _ spoiled _ _ => spoiled
    | cons chan list hyp =>
      intro state sound spoiled once inside
      obtain ⟨fresh, once⟩ := List.nodup_cons.mp once
      have member := inside chan List.mem_cons_self
      refine hyp (delIfPrivate_sound sound member) (delIfPrivate_spoiled spoiled member) once
        fun other later => List.mem_filter.mpr ⟨inside other (List.mem_cons_of_mem _ later), ?_⟩
      rw [bne_iff_ne]
      intro same
      exact fresh (same ▸ List.mem_map_of_mem later)
  exact loop sound spoiled ((List.filter_sublist.map Chan.addr).nodup sound.addrs)
    fun chan member => List.mem_of_mem_filter (p := fun chan => chan.dev == dev) member

theorem spoiled_barred (unchannelised : cfg.shark = false ∧ cfg.securityId = 0)
    (spoiled : Spoiled state) : cfg.barred state.card = true := by
  unfold Cfg.barred
  unfold Spoiled at spoiled
  rw [unchannelised.1, unchannelised.2]
  simp only [Bool.not_false, Bool.true_and]
  exact (Bool.and_eq_true _ _).mpr ⟨rfl, decide_eq_true (by omega)⟩

theorem delIf_unused {dev : Nat} (unused : state.inUse dev = false) : delIf cfg state dev = state := by
  unfold delIf
  rw [List.filter_eq_nil_iff.mpr fun chan member => List.any_eq_false.mp unused chan member]
  rfl

theorem newIfParts_barred {dev : Nat} {list : List (Part × Setup)} (barred : cfg.barred state.card = true)
    (unused : state.inUse dev = false) : newIfParts cfg state dev list = state := by
  unfold newIfParts
  cases list with
  | nil => rfl
  | cons head list =>
    obtain ⟨part, setup⟩ := head
    have away : newIfPrivate cfg state dev part setup = (state, false) := by
      unfold newIfPrivate
      rw [barred]
      rfl
    unfold partsLoop
    rw [away]
    exact delIf_unused unused

theorem newIfParts_one (dev : Nat) (part : Part) (setup : Setup) :
    newIfParts cfg state dev [(part, setup)] =
      match newIfPrivate cfg state dev part setup with
      | (next, false) => delIf cfg next dev
      | (next, true) => next := by
  unfold newIfParts partsLoop
  cases newIfPrivate cfg state dev part setup with
  | mk next ok => cases ok <;> rfl

/-- Taking back an HDLC channel that was not counted, where none is. -/
theorem uncounted_spoiled {dev : Nat} (fresh : state.inUse dev = false)
    (alone : ∀ chan ∈ state.chans, chan.hdlcEng = false) {card : Card} {chan : Chan}
    (own : chan.dev = dev) (hdlc : chan.hdlcEng = true) (idle : card.securityCnt = 0#32) :
    Spoiled (delIf cfg (state.attach card chan) dev) := by
  have only : (state.attach card chan).chans.filter (fun other => other.dev == dev) = [chan] := by
    change (state.chans ++ [chan]).filter _ = [chan]
    rw [List.filter_append,
      List.filter_eq_nil_iff.mpr fun other member => List.any_eq_false.mp fresh other member,
      List.nil_append]
    exact List.filter_eq_self.mpr fun other member => by
      rw [List.mem_singleton.mp member]
      exact beq_iff_eq.mpr own
  unfold delIf
  rw [only]
  change Spoiled (delIfPrivate cfg (state.attach card chan) chan)
  unfold Spoiled delIfPrivate
  have count : hdlcCount ((state.attach card chan).chans.filter fun other => other.addr != chan.addr) =
      0 := by
    refine List.countP_eq_zero.mpr fun other member => ?_
    obtain ⟨inside, apart⟩ := List.mem_filter.mp member
    rcases List.mem_append.mp inside with old | new
    · rw [alone other old]
      exact Bool.false_ne_true
    · rw [List.mem_singleton.mp new, bne_self_eq_false] at apart
      cases apart
  simp only [count, hdlc, ↓reduceIte, unconfigured_count]
  rw [show (state.attach card chan).card.securityCnt = 0#32 from idle]
  decide

theorem step_spoiled (unchannelised : cfg.shark = false ∧ cfg.securityId = 0) (sound : Sound cfg state)
    (spoiled : Spoiled state) (op : Op) :
    Spoiled (step cfg state op) ∧ (step cfg state op).chans.Sublist state.chans := by
  cases op with
  | delIf dev =>
    refine ⟨delIf_spoiled sound spoiled dev, ?_⟩
    change (delIf cfg state dev).chans.Sublist _
    rw [(delIf_sound sound dev).2]
    exact List.filter_sublist
  | newIf dev usage activeCh setups =>
    change Spoiled (newIf cfg state dev usage activeCh setups) ∧
      (newIf cfg state dev usage activeCh setups).chans.Sublist _
    unfold newIf
    cases used : state.inUse dev with
    | true => exact ⟨spoiled, List.Sublist.refl _⟩
    | false =>
      rw [if_neg Bool.false_ne_true]
      have barred : cfg.barred { state.card with dchan := (dchanFor cfg usage state.card.dchan).1 } =
        true := spoiled_barred unchannelised spoiled
      dsimp only
      split
      · rw [@newIfParts_barred cfg { state with card :=
          { state.card with dchan := (dchanFor cfg usage state.card.dchan).1 } } dev _ barred used]
        exact ⟨spoiled, List.Sublist.refl _⟩
      · exact ⟨spoiled, List.Sublist.refl _⟩

theorem run_spoiled (unchannelised : cfg.shark = false ∧ cfg.securityId = 0) (sound : Sound cfg state)
    (all : Configured state) (spoiled : Spoiled state) (ops : List Op) :
    (run cfg state ops).chans.Sublist state.chans := by
  induction ops generalizing state with
  | nil => exact List.Sublist.refl _
  | cons op ops hyp =>
    obtain ⟨spoiled', less⟩ := step_spoiled unchannelised sound spoiled op
    obtain ⟨sound', all'⟩ := step_sound sound all op
    exact (hyp sound' all' spoiled').trans less

end ShutOut

/-- When an HDLC interface fails on an unchannelised card that has none, after its engine was chosen, the
count of HDLC interfaces goes below zero and no interface can be made on the card any more, in any later
run: the count goes down with an interface that it never went up with. -/
theorem shut_out (cfg : Cfg) (unchannelised : cfg.shark = false ∧ cfg.securityId = 0)
    (dchan : BitVec 32) (dmaRam : Nat → DmaRam) (ops later : List Op) (dev : Nat) (activeCh : BitVec 32)
    (setups : Nat → Setup) (hdlc : ((setups 0).hdlcStreaming && !(setups 0).swHdlcMode) = true)
    (chosen : (setups 0).fails ≠ .early ∧ (setups 0).fails ≠ .attached)
    (idle : (run cfg (started dchan dmaRam) ops).card.securityCnt = 0#32)
    (alone : ∀ chan ∈ (run cfg (started dchan dmaRam) ops).chans, chan.hdlcEng = false)
    (fresh : (run cfg (started dchan dmaRam) ops).inUse dev = false)
    (some : aftGetNumOfSlots cfg.numOfTimeSlots (cfg.activeCh activeCh) ≠ 0)
    (fails : (newIf cfg (run cfg (started dchan dmaRam) ops) dev .data activeCh setups).chans =
      (run cfg (started dchan dmaRam) ops).chans) :
    let state := run cfg (started dchan dmaRam) ops
    let failed := newIf cfg state dev .data activeCh setups
    (run cfg failed later).chans.Sublist state.chans := by
  intro state failed
  obtain ⟨sound, all⟩ := run_sound (started_sound cfg dchan dmaRam)
    (fun chan member => absurd member List.not_mem_nil) ops
  have spoiled : Spoiled failed := by
    have sound' : Sound cfg { state with card := { state.card with dchan := 0#32 } } :=
      ⟨mapped_counts sound.mapped _ _ _, sound.addrs, sound.known⟩
    have attempt := newIfPrivate_attempt cfg { state with card := { state.card with dchan := 0#32 } } dev
      ⟨cfg.activeCh activeCh, false⟩ (setups 0) sound'.mapped.agrees
    have steps : failed =
        match newIfPrivate cfg { state with card := { state.card with dchan := 0#32 } } dev
          ⟨cfg.activeCh activeCh, false⟩ (setups 0) with
        | (next, false) => delIf cfg next dev
        | (next, true) => next := by
      change newIf cfg state dev .data activeCh setups = _
      unfold newIf
      rw [fresh, if_neg Bool.false_ne_true]
      exact newIfParts_one dev ⟨cfg.activeCh activeCh, false⟩ (setups 0)
    have chans : failed.chans = state.chans := fails
    rw [steps] at chans ⊢
    cases done : newIfPrivate cfg { state with card := { state.card with dchan := 0#32 } } dev
        ⟨cfg.activeCh activeCh, false⟩ (setups 0) with
    | mk next ok =>
    rw [done] at attempt chans
    have engine : ∀ {chan : Chan}, chan.hdlcEng = ((setups 0).hdlcStreaming && !(setups 0).swHdlcMode) →
        chan.hdlcEng = true := fun same => same.trans hdlc
    cases attempt with
    | turnedAway why =>
      rcases why with barred | early
      · unfold Cfg.barred at barred
        rw [show ({ state.card with dchan := 0#32 } : Card).securityCnt = 0#32 from idle] at barred
        simp at barred
      · exact absurd early chosen.1
    | unready chan same why =>
      rcases why with (none | attached) | ⟨-, rfl⟩
      · exact absurd none some
      · exact absurd attached chosen.2
      · exact uncounted_spoiled fresh alone rfl (engine rfl) idle
    | refused card chan why _ =>
      obtain ⟨map, rfl, -⟩ := why.after
      refine uncounted_spoiled fresh alone ?_ (engine ?_) idle
      all_goals (rw [why.same]; rfl)
    | late chan logicCh grant _ _ =>
      obtain ⟨-, -, -, -, own, hdlcEng⟩ := grant.fields
      exact uncounted_spoiled fresh alone own (engine hdlcEng) idle
    | made chan logicCh grant _ =>
      have longer := congrArg List.length chans
      simp at longer
  obtain ⟨sound', all'⟩ := step_sound sound all (.newIf dev .data activeCh setups)
  exact (run_spoiled unchannelised sound' all' spoiled later).trans (fails ▸ List.Sublist.refl _)

def oldT1Cfg : Cfg := ⟨.t1, false, false, 0⟩

/-- A card whose first HDLC interface fails once its channel is configured. -/
theorem shut_out_first :
    let failed := newIf oldT1Cfg (started 0#32 clearRam) 0 .data 0xF#32 fun _ => hdlcSetup .late
    (run oldT1Cfg failed [.newIf 1 .data 0xF#32 fun _ => hdlcSetup .never]).chans.Sublist [] :=
  shut_out oldT1Cfg ⟨rfl, rfl⟩ 0#32 clearRam [] [.newIf 1 .data 0xF#32 fun _ => hdlcSetup .never] 0
    0xF#32 (fun _ => hdlcSetup .late) rfl ⟨by decide, by decide⟩ rfl
    (fun _ member => absurd member List.not_mem_nil) rfl (by decide) (by decide)

end Wanpipe.Aft.Channels
