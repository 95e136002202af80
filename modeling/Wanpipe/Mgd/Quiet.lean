import Wanpipe.Mgd.Owner
import Wanpipe.Mgd.Spoken

/-! A thread releases its call once at most, and not after boost did. -/

namespace Wanpipe.Mgd

open Line

variable {config : Config} {server next : Server} {ptr : Ptr}

/-- A thread that has not yet decided how it ends its call. -/
def Pc.opens : Pc → Bool
  | .loop | .close | .hangupTest => true
  | _ => false

/-- A thread that is about to release the call itself. -/
def Pc.speaks : Pc → Bool
  | .stop | .stopSend | .nack | .nackSend => true
  | _ => false

/-- How many releases a session has sent, where `early` says that boost released it in its loop. -/
structure Quiet (woomera : Woomera) (said : Nat) (early : Bool) : Prop where
  once : said ≤ 1
  silent : early = true → said = 0
  opens : woomera.pc.opens = true → said = 0 ∧ (early = true → woomera.hangup = true)
  speaks : woomera.pc.speaks = true → said = 0 ∧ early = false

theorem Quiet.of_spared {before after : Woomera} {said : Nat} {early : Bool}
    (quiet : Quiet before said early) (spared : Spared before after) : Quiet after said early where
  once := quiet.once
  silent := quiet.silent
  opens open' := by
    rw [spared.pc] at open'
    obtain ⟨nothing, hangup⟩ := quiet.opens open'
    exact ⟨nothing, fun was => spared.hangup (hangup was)⟩
  speaks speak := by
    rw [spared.pc] at speak
    exact quiet.speaks speak

/-- A step to where nothing has to be known of the session. -/
theorem Quiet.behind {before after : Woomera} {said : Nat} {early : Bool}
    (quiet : Quiet before said early) (opens : after.pc.opens = false)
    (speaks : after.pc.speaks = false) : Quiet after said early :=
  ⟨quiet.once, quiet.silent, by simp [opens], by simp [speaks]⟩

theorem Quiet.open {before after : Woomera} {said : Nat} {early : Bool}
    (quiet : Quiet before said early) (opens : before.pc.opens = true)
    (speaks : after.pc.speaks = false) (hangup : before.hangup = true → after.hangup = true) :
    Quiet after said early := by
  obtain ⟨nothing, hung⟩ := quiet.opens opens
  exact ⟨quiet.once, quiet.silent, fun _ => ⟨nothing, fun was => hangup (hung was)⟩,
    by simp [speaks]⟩

/-- A step of a thread that has said nothing to a session that boost has not released. -/
theorem Quiet.alone {after : Woomera} {said more : Nat} {early : Bool} (nothing : said = 0)
    (unreleased : early = false) (bound : more ≤ 1) (opens : after.pc.opens = false)
    (speaks : after.pc.speaks = true → more = 0) : Quiet after (said + more) early := by
  rw [nothing, unreleased, Nat.zero_add]
  refine ⟨bound, fun was => (by cases was), ?_, fun speak => ⟨speaks speak, rfl⟩⟩
  simp [opens]

/-- The releases among what boost hears of a session. -/
def spokenReleases (config : Config) (woomera : Woomera) : Nat :=
  (heard config woomera).countP Msg.releases

theorem spokenReleases_le (config : Config) (woomera : Woomera) :
    spokenReleases config woomera ≤ 1 := by
  rw [spokenReleases, heard]
  split
  · split
    · exact Nat.le_trans List.countP_le_length (Nat.le_refl 1)
    · simp
  · simp

theorem spokenReleases_none {woomera : Woomera} (silent : spoken config woomera = none) :
    spokenReleases config woomera = 0 := by
  rw [spokenReleases, heard, silent]
  rfl

/-- The answers to releases are no releases. -/
theorem spokenReleases_answer {woomera : Woomera}
    (answers : ∀ msg, spoken config woomera = some msg → msg.releases = false) :
    spokenReleases config woomera = 0 := by
  cases speaks : spoken config woomera with
  | none => exact spokenReleases_none speaks
  | some msg =>
      rw [spokenReleases, heard_some speaks]
      split
      · simp [answers msg speaks]
      · rfl

theorem hangupAckTest_answers {woomera : Woomera} (pc : woomera.pc = .hangupAckTest) :
    spokenReleases config woomera = 0 := by
  apply spokenReleases_answer
  intro msg speaks
  simp only [spoken, pc] at speaks
  split at speaks
  · cases speaks
    rfl
  · cases speaks

theorem nackAckTest_answers {woomera : Woomera} (pc : woomera.pc = .nackAckTest) :
    spokenReleases config woomera = 0 := by
  apply spokenReleases_answer
  intro msg speaks
  simp only [spoken, pc] at speaks
  split at speaks
  · split at speaks
    · cases speaks
      rfl
    · split at speaks
      · cases speaks
        rfl
      · cases speaks
  · cases speaks

theorem loopStep_quiet {choice : Choice} {said : Nat} {early : Bool}
    (quiet : Quiet (server.woomera ptr) said early) (loop : (server.woomera ptr).pc = .loop) :
    Quiet ((loopStep server ptr choice).woomera ptr) said early := by
  have opens : (server.woomera ptr).pc.opens = true := by
    rw [loop]
    rfl
  have going : (server.woomera ptr).pc ≠ .gone := by
    rw [loop]
    decide
  obtain ⟨nothing, hung⟩ := quiet.opens opens
  have advanced : Advanced ptr server (loopStep server ptr choice) := loopStep_advanced going
  have hangup := advanced.hangup
  refine ⟨quiet.once, quiet.silent, fun _ => ⟨nothing, fun was => hangup (hung was)⟩, ?_⟩
  have moves : ((loopStep server ptr choice).woomera ptr).pc = .loop ∨
      ((loopStep server ptr choice).woomera ptr).pc = .close := loopStep_pc loop
  rcases moves with same | close
  · rw [same]
    intro speaks
    cases speaks
  · rw [close]
    intro speaks
    cases speaks

theorem waitStep_quiet {choice : Choice} {waits : Bool} {clear : Woomera → Woomera} {pc : Pc}
    {said : Nat} {early : Bool} (quiet : Quiet (server.woomera ptr) said early)
    (opens : pc.opens = false) (speaks : pc.speaks = false) :
    Quiet ((waitStep server ptr choice waits clear pc).woomera ptr) said early := by
  have other (woomera : Woomera) (there : woomera.pc = pc) :
      Quiet ((server.setWoomera ptr woomera).woomera ptr) said early := by
    rw [setWoomera_woomera, Function.update_self]
    exact quiet.behind (there ▸ opens) (there ▸ speaks)
  unfold waitStep
  simp only
  split
  · split
    · exact other _ rfl
    · split
      · exact other _ rfl
      · exact quiet
    · exact quiet
  · exact other _ rfl

/-- A thread that finds the call hung up says nothing more of its own. -/
theorem Moves.quiet {before after : Woomera} {said : Nat} {early : Bool}
    (moves : Moves before after) (quiet : Quiet before said early)
    (held : before.pc = .indexNackSend → said = 0 ∧ early = false) :
    Quiet after (said + spokenReleases config before) early := by
  have bound := spokenReleases_le config before
  have silent (nothing : spokenReleases config before = 0) (still : Quiet after said early) :
      Quiet after (said + spokenReleases config before) early := by
    rwa [nothing, Nat.add_zero]
  cases moves with
  | endMedia pc =>
      apply silent (spokenReleases_none (by simp [spoken, pc]))
      have unspoken : (Mgd.endMedia before).pc.speaks = false := by
        rw [Mgd.endMedia, pc]
        rfl
      exact quiet.open (by rw [pc]; rfl) unspoken id
  | close pc =>
      apply silent (spokenReleases_none (by simp [spoken, pc]))
      exact quiet.open (by rw [pc]; rfl) rfl id
  | toStop pc up | toNack pc up =>
      obtain ⟨nothing, hung⟩ := quiet.opens (by rw [pc]; rfl)
      have unreleased : early = false := by
        cases early with
        | true => cases up.symm.trans (hung rfl)
        | false => rfl
      exact Quiet.alone nothing unreleased bound rfl
        (fun _ => spokenReleases_none (by simp [spoken, pc]))
  | stop pc | nack pc =>
      obtain ⟨nothing, unreleased⟩ := quiet.speaks (by rw [pc]; rfl)
      exact Quiet.alone nothing unreleased bound rfl
        (fun _ => spokenReleases_none (by simp [spoken, pc]))
  | stopSend pc | nackSend pc =>
      obtain ⟨nothing, unreleased⟩ := quiet.speaks (by rw [pc]; rfl)
      exact Quiet.alone nothing unreleased bound rfl (fun speak => (by cases speak))
  | indexNackSend pc =>
      obtain ⟨nothing, unreleased⟩ := held pc
      exact Quiet.alone nothing unreleased bound rfl (fun speak => (by cases speak))
  | stopped pc | notStopped pc =>
      exact silent (hangupAckTest_answers pc) (quiet.behind rfl rfl)
  | nacked pc | notNacked pc =>
      exact silent (nackAckTest_answers pc) (quiet.behind rfl rfl)
  | _ pc =>
      apply silent (spokenReleases_none (by simp [spoken, pc]))
      exact quiet.behind rfl rfl

/-- A session releases its call once at most, and not at all when boost has released it before. -/
theorem threadStep_quiet {choice : Choice} {said : Nat} {early : Bool}
    (quiet : Quiet (server.woomera ptr) said early)
    (held : (server.woomera ptr).pc = .indexNackSend → said = 0 ∧ early = false)
    (stepped : threadStep config server ptr choice = some next) :
    Quiet (next.woomera ptr) (said + spokenReleases config (server.woomera ptr)) early := by
  have silent (nothing : spoken config (server.woomera ptr) = none) :
      said + spokenReleases config (server.woomera ptr) = said := by
    rw [spokenReleases_none nothing, Nat.add_zero]
  cases threadStep_stepped stepped with
  | loop pc =>
      rw [silent (by simp [spoken, pc])]
      exact loopStep_quiet quiet pc
  | moves moves =>
      rw [speak_woomera, setWoomera_woomera, Function.update_self]
      exact moves.quiet quiet held
  | waitNackAck pc | waitStoppedAck pc =>
      rw [silent (by simp [spoken, pc])]
      exact waitStep_quiet quiet rfl rfl
  | leave pc own =>
      rw [silent (by simp [spoken, pc]), setWoomera_woomera, Function.update_self]
      exact quiet.behind rfl rfl
  | tank pc =>
      rw [silent (by simp [spoken, pc]), tankStep, onWoomera_woomera, Function.update_self]
      exact quiet.behind rfl rfl
  | gone pc =>
      rw [silent (by simp [spoken, pc])]
      exact quiet

end Wanpipe.Mgd
