import Mathlib.Logic.Function.Iterate
import Wanpipe.Mgd.CommandFrame
import Wanpipe.Mgd.Survive
import Wanpipe.Mgd.ThreadFrame

/-! The setup ids of the outgoing calls: which index `add_to_holding_tank` takes, and that no two
sessions share one. -/

namespace Wanpipe.Mgd

open Line Runs

/-- The round of `add_to_holding_tank` that looks at `index`. -/
def roundOf (start : Fin coreTankLen) (index : Nat) : Nat :=
  if start.val < index then index - start.val else index + coreTankLen - 1 - start.val

theorem nextIndex_val (index : Fin coreTankLen) :
    (nextIndex index).val = if index.val + 1 < coreTankLen then index.val + 1 else 1 := by
  rw [nextIndex]
  split <;> rfl

theorem nextIndex_iterate (start : Fin coreTankLen) (round : Nat)
    (bound : round + 1 < coreTankLen) :
    (nextIndex^[round + 1] start).val =
      if start.val + round + 1 < coreTankLen then start.val + round + 1
      else start.val + round + 2 - coreTankLen := by
  have len : coreTankLen = 6400 := rfl
  have first := start.isLt
  induction round with
  | zero =>
      rw [Function.iterate_succ_apply', Function.iterate_zero_apply, nextIndex_val]
      split
      · rfl
      · omega
  | succ round ih =>
      rw [Function.iterate_succ_apply', nextIndex_val, ih (by omega)]
      split_ifs <;> omega

/-- Each index is looked at in its round. -/
theorem roundOf_reaches (start : Fin coreTankLen) {index : Nat} (first : 1 ≤ index)
    (last : index < coreTankLen) :
    ∃ round, round + 1 = roundOf start index ∧ round + 1 < coreTankLen ∧
      (nextIndex^[round + 1] start).val = index := by
  have len : coreTankLen = 6400 := rfl
  have bound := start.isLt
  refine ⟨roundOf start index - 1, ?_, ?_, ?_⟩
  · rw [roundOf]
    split <;> omega
  · rw [roundOf]
    split <;> omega
  · rw [nextIndex_iterate]
    · rw [roundOf]
      split <;> split <;> omega
    · rw [roundOf]
      split <;> omega

theorem roundOf_iterate (start : Fin coreTankLen) {round : Nat}
    (bound : round + 1 < coreTankLen) :
    roundOf start (nextIndex^[round + 1] start).val = round + 1 := by
  have len : coreTankLen = 6400 := rfl
  have first := start.isLt
  rw [nextIndex_iterate start round bound, roundOf]
  split <;> split <;> omega

variable {config : Config} {server next : Server}

theorem findTank_found {rounds : Nat} {start index : Fin coreTankLen}
    (found : findTank server rounds start = (true, index)) :
    server.holdingTank index.val = .free ∧
      ∃ round, index = nextIndex^[round + 1] start ∧
        ∀ earlier, earlier < round →
          server.holdingTank (nextIndex^[earlier + 1] start).val ≠ .free := by
  induction rounds generalizing start with
  | zero => cases found
  | succ rounds ih =>
      rw [findTank] at found
      split at found
      · next free =>
          cases found
          exact ⟨free, 0, rfl, fun _ early => absurd early (Nat.not_lt_zero _)⟩
      · next used =>
          obtain ⟨free, round, at', before⟩ := ih found
          refine ⟨free, round + 1, at', ?_⟩
          intro earlier early
          cases earlier with
          | zero => exact used
          | succ earlier => exact before earlier (Nat.lt_of_succ_lt_succ early)

theorem findTank_full {rounds : Nat} {start index : Fin coreTankLen}
    (full : findTank server rounds start = (false, index)) (round : Nat)
    (early : round < rounds) : server.holdingTank (nextIndex^[round + 1] start).val ≠ .free := by
  induction rounds generalizing start round with
  | zero => exact absurd early (Nat.not_lt_zero _)
  | succ rounds ih =>
      rw [findTank] at full
      split at full
      · cases full
      · next used =>
          cases round with
          | zero => exact used
          | succ round => exact ih full round (Nat.lt_of_succ_lt_succ early)

/-- `add_to_holding_tank` fails exactly on a full tank. -/
theorem addToHoldingTank_zero (server : Server) (ptr : Ptr) :
    (addToHoldingTank server ptr).1 = 0 ↔
      ∀ index, 1 ≤ index → index < coreTankLen → server.holdingTank index ≠ .free := by
  rcases addToHoldingTank_cases server ptr with ⟨index, found, added⟩ | ⟨index, full, added⟩
  · rw [added]
    have taken := findTank_pos found
    have free := (findTank_found found).1
    constructor
    · intro zero
      simp only at zero
      omega
    · intro busy
      exact absurd free (busy index.val taken index.isLt)
  · rw [added]
    refine iff_of_true rfl ?_
    intro other first last
    obtain ⟨round, -, bound, reached⟩ := roundOf_reaches server.holdingTankIndex first last
    rw [← reached]
    exact findTank_full full round (by omega)

/-- A free index is taken only when those of earlier rounds are in use. -/
theorem findTank_first {index : Fin coreTankLen} {other : Nat}
    (found : findTank server coreTankLen server.holdingTankIndex = (true, index))
    (first : 1 ≤ other) (last : other < coreTankLen) (free : server.holdingTank other = .free) :
    roundOf server.holdingTankIndex index.val ≤ roundOf server.holdingTankIndex other := by
  obtain ⟨-, round, taken, before⟩ := findTank_found found
  obtain ⟨later, same, bound, reached⟩ := roundOf_reaches server.holdingTankIndex first last
  have order : round ≤ later := by
    by_contra early
    have used := before later (Nat.lt_of_not_le early)
    rw [reached] at used
    exact used free
  rw [taken, roundOf_iterate server.holdingTankIndex (by omega)]
  omega

/-- A session whose thread has not finished. -/
def Server.unfinished (server : Server) (ptr : Ptr) : Prop := (server.woomera ptr).pc ≠ .gone

/-- No two sessions remember the same setup id. -/
def DistinctIds (server : Server) : Prop :=
  ∀ ptr other, ptr ≠ other → server.unfinished ptr → server.unfinished other →
    (server.woomera ptr).indexHold ≠ 0 →
    (server.woomera ptr).indexHold ≠ (server.woomera other).indexHold

/-- What may free the index that the session `owner` remembers: its own thread, an event with this
setup id, and the clearing of the whole tank. -/
def MayFree (server : Server) (owner : Ptr) : Op → Prop
  | .boost event _ => event.callSetupId.toNat = (server.woomera owner).indexHold
  | .thread ptr _ => ptr = owner
  | .restartTimer => True
  | _ => False

/-- The setup ids are kept apart. -/
structure SetupIds (config : Config) (server : Server) : Prop where
  distinct : DistinctIds server
  freed : ∀ op next owner, step config server op = some next → server.unfinished owner →
    (server.woomera owner).indexHold ≠ 0 →
    server.holdingTank (server.woomera owner).indexHold ≠ .free →
    next.holdingTank (server.woomera owner).indexHold = .free → MayFree server owner op
  full : ∀ ptr, (addToHoldingTank server ptr).1 = 0 ↔
    ∀ index, 1 ≤ index → index < coreTankLen → server.holdingTank index ≠ .free

/-- A CALL that takes an index finds another free one in an earlier round than any that was freed
before its session has finished. -/
def IdFresh (server : Server) : Op → Prop
  | .command ptr command =>
      takesIndex server ptr command = true →
        ∀ owner, owner ≠ ptr → server.unfinished owner → (server.woomera owner).indexHold ≠ 0 →
          server.holdingTank (server.woomera owner).indexHold = .free →
          ∃ index, 1 ≤ index ∧ index < coreTankLen ∧ server.holdingTank index = .free ∧
            roundOf server.holdingTankIndex index <
              roundOf server.holdingTankIndex (server.woomera owner).indexHold
  | _ => True

/-- Sessions that go on with what they remember, and new ones that remember nothing. -/
theorem DistinctIds.of_held (ids : DistinctIds server)
    (held : ∀ ptr, next.unfinished ptr → (next.woomera ptr).indexHold ≠ 0 →
      server.unfinished ptr ∧ (next.woomera ptr).indexHold = (server.woomera ptr).indexHold) :
    DistinctIds next := by
  intro ptr other apart going goes holds same
  obtain ⟨was, kept⟩ := held ptr going holds
  have shares : (next.woomera other).indexHold ≠ 0 := by
    rw [← same]
    exact holds
  obtain ⟨were, keeps⟩ := held other goes shares
  rw [kept] at holds
  apply ids ptr other apart was were holds
  calc
    (server.woomera ptr).indexHold = (next.woomera ptr).indexHold := kept.symm
    _ = (next.woomera other).indexHold := same
    _ = (server.woomera other).indexHold := keeps

theorem DistinctIds.of_spared (ids : DistinctIds server)
    (spared : ∀ ptr, Spared (server.woomera ptr) (next.woomera ptr)) : DistinctIds next := by
  apply ids.of_held
  intro ptr going _
  rw [Server.unfinished, (spared ptr).pc] at going
  exact ⟨going, (spared ptr).indexHold⟩

/-- A session that is new. -/
theorem DistinctIds.fresh (ids : DistinctIds server) (ptr : Ptr)
    (others : ∀ other, other ≠ ptr → next.woomera other = server.woomera other)
    (new : (next.woomera ptr).indexHold = 0) : DistinctIds next := by
  apply ids.of_held
  intro other going holds
  have apart : other ≠ ptr := by
    intro same
    rw [same] at holds
    exact holds new
  rw [Server.unfinished, others other apart] at going
  exact ⟨going, by rw [others other apart]⟩

theorem Served.spared {ptr : Ptr} (served : Served ptr server next) (other : Ptr) :
    Spared (server.woomera other) (next.woomera other) := by
  by_cases same : other = ptr
  · rw [same]
    exact served.own
  · rw [served.others other same]
    exact Spared.refl _

theorem DistinctIds.called {ptr : Ptr} {index : Fin coreTankLen} (ids : DistinctIds server)
    (called : Called ptr index server next)
    (fresh : ∀ owner, owner ≠ ptr → server.unfinished owner →
      (server.woomera owner).indexHold ≠ index.val) : DistinctIds next := by
  have kept (other : Ptr) (apart : other ≠ ptr) : next.woomera other = server.woomera other :=
    called.others other apart
  have own : (next.woomera ptr).indexHold = index.val := called.own.indexHold
  intro first second apart going goes holds same
  by_cases caller : first = ptr
  · subst caller
    rw [Server.unfinished, kept second apart.symm] at goes
    rw [own, kept second apart.symm] at same
    exact fresh second apart.symm goes same.symm
  · rw [Server.unfinished, kept first caller] at going
    rw [kept first caller] at holds same
    by_cases callee : second = ptr
    · rw [callee, own] at same
      exact fresh first caller going same
    · rw [Server.unfinished, kept second callee] at goes
      rw [kept second callee] at same
      exact ids first second apart going goes holds same

/-- The index that a CALL takes is remembered by nobody. -/
theorem IdFresh.unshared {ptr : Ptr} {command : Command} {index : Fin coreTankLen}
    (fresh : IdFresh server (.command ptr command))
    (takes : takesIndex server ptr command = true)
    (found : findTank server coreTankLen server.holdingTankIndex = (true, index)) (owner : Ptr)
    (apart : owner ≠ ptr) (going : server.unfinished owner) :
    (server.woomera owner).indexHold ≠ index.val := by
  intro same
  have first := findTank_pos found
  have free : server.holdingTank (server.woomera owner).indexHold = .free := by
    rw [same]
    exact (findTank_found found).1
  obtain ⟨other, low, high, unused, earlier⟩ :=
    fresh takes owner apart going (by omega) free
  have round := findTank_first found low high unused
  rw [same] at earlier
  omega

/-- The sessions of the daemon after one step. -/
theorem step_distinctIds (ids : DistinctIds server) {op : Op} (fresh : IdFresh server op)
    (moved : step config server op = some next) : DistinctIds next := by
  cases op with
  | boost event out =>
      rw [step] at moved
      split at moved
      · rcases parseSs7Event_cases moved with told | ⟨ptr, -, alloc, -, made⟩
        · exact ids.of_spared told.spared
        · rw [made]
          refine ids.fresh ptr ?_ ?_
          · intro other apart
            simp [looped, apart]
          · simp [looped, loopWoomera, allocWoomera]
      · cases moved
  | restartTimer =>
      cases moved
      apply ids.of_spared
      intro ptr
      rw [restartTimer_woomera]
      exact Spared.refl _
  | accept ptr =>
      rw [step] at moved
      split at moved
      · cases moved
        refine ids.fresh ptr ?_ ?_
        · intro other apart
          simp [apart]
        · simp [acceptedWoomera, allocWoomera]
      · cases moved
  | command ptr command =>
      rcases sessionCommand_cases moved with served | ⟨takes, index, called⟩
      · exact ids.of_spared served.spared
      · exact ids.called called (fresh.unshared takes called.found)
  | thread ptr choice =>
      have advanced := threadStep_advanced moved
      apply ids.of_held
      intro other going holds
      by_cases own : other = ptr
      · rw [own] at going holds ⊢
        have went : server.unfinished ptr := by
          intro ended
          rw [advanced.gone ended] at going
          exact going ended
        exact ⟨went, advanced.hold.resolve_right going⟩
      · have spared := advanced.others other own
        rw [Server.unfinished, spared.pc] at going
        exact ⟨going, spared.indexHold⟩
  | mediaExit ptr hangup =>
      rw [step] at moved
      split at moved
      · cases moved
        exact ids.of_spared (onWoomera_spared (mediaExit_spared hangup))
      · cases moved
        exact ids

/-- Where sessions remember different setup ids, each step frees only what it may. -/
theorem step_mayFree (ids : DistinctIds server) {op : Op} {owner : Ptr}
    (moved : step config server op = some next) (going : server.unfinished owner)
    (holds : (server.woomera owner).indexHold ≠ 0)
    (busy : server.holdingTank (server.woomera owner).indexHold ≠ .free)
    (freed : next.holdingTank (server.woomera owner).indexHold = .free) :
    MayFree server owner op := by
  cases op with
  | boost event out =>
      rw [step] at moved
      split at moved
      · rcases parseSs7Event_cases moved with told | ⟨ptr, -, -, -, made⟩
        · by_contra apart
          rw [told.tank _ (fun same => apart same.symm)] at freed
          exact busy freed
        · rw [made] at freed
          exact absurd freed busy
      · cases moved
  | restartTimer => trivial
  | accept ptr =>
      rw [step] at moved
      split at moved
      · cases moved
        exact absurd freed busy
      · cases moved
  | command ptr command =>
      rcases sessionCommand_cases moved with served | ⟨takes, index, called⟩
      · rw [served.tank] at freed
        exact absurd freed busy
      · rw [called.tank] at freed
        by_cases same : (server.woomera owner).indexHold = index.val
        · rw [same, Function.update_self] at freed
          cases freed
        · rw [Function.update_of_ne same] at freed
          exact absurd freed busy
  | thread ptr choice =>
      have advanced := threadStep_advanced moved
      by_contra apart
      have shared : (server.woomera owner).indexHold = (server.woomera ptr).indexHold := by
        by_contra differs
        rw [advanced.tank _ differs] at freed
        exact busy freed
      have went : server.unfinished ptr := by
        intro ended
        rw [advanced.gone ended] at freed
        exact busy freed
      exact ids owner ptr (fun same => apart same.symm) going went holds shared
  | mediaExit ptr hangup =>
      rw [step] at moved
      split at moved
      · cases moved
        exact absurd freed busy
      · cases moved
        exact absurd freed busy

theorem idle_distinctIds : DistinctIds idleServer := by
  intro ptr other _ going
  exact absurd rfl going

/-- In a run whose CALLs find a free index before any that was freed too early, the setup ids are
kept apart. -/
theorem setup_ids (config : Config) (ops : List Op) (last : Server)
    (fresh : Along (step config) IdFresh idleServer ops)
    (ran : run (step config) idleServer ops = some last) : SetupIds config last := by
  have ids : DistinctIds last :=
    Along.kept (fun _ _ _ ids fresh moved => step_distinctIds ids fresh moved)
      idle_distinctIds fresh ran
  refine ⟨ids, ?_, addToHoldingTank_zero last⟩
  intro op next owner moved going holds busy freed
  exact step_mayFree ids moved going holds busy freed

theorem findTank_next {rounds : Nat} {start : Fin coreTankLen} (positive : 0 < rounds)
    (free : server.holdingTank (nextIndex start).val = .free) :
    findTank server rounds start = (true, nextIndex start) := by
  cases rounds with
  | zero => cases positive
  | succ rounds => rw [findTank, if_pos free]

/-- A CALL of a client that boost gets. -/
def outgoing : Command := .call 0 false false true

/-- A session without a call in a daemon that takes calls. -/
structure Caller (server : Server) (ptr : Ptr) : Prop where
  pc : (server.woomera ptr).pc = .loop
  loopTdm : (server.woomera ptr).loopTdm = false
  session : (server.woomera ptr).session = none
  checkDigits : (server.woomera ptr).checkDigits = false
  systemReset : server.systemReset = false

/-- The state at the call of `add_to_holding_tank`. -/
def offered (server : Server) (ptr : Ptr) : Server :=
  (server.onWoomera ptr fun woomera => { woomera with trunkGroup := 0 }).onWoomera ptr
    fun woomera => { woomera with raw := woomera.raw || false }

/-- The state after a CALL that takes the next index. -/
def outgoingNext (config : Config) (server : Server) (ptr : Ptr) : Server :=
  let index := nextIndex server.holdingTankIndex
  isupExecCommand config
    (((Server.setTank { offered server ptr with holdingTankIndex := index } index.val
      (.held ptr)).onWoomera ptr fun woomera =>
        { woomera with timeout := true }).onWoomera ptr (heldAt index.val))
    0 0 index.val .callStart 0

@[simp] theorem outgoingNext_index (ptr : Ptr) :
    (outgoingNext config server ptr).holdingTankIndex = nextIndex server.holdingTankIndex := by
  rw [outgoingNext, isupExecCommand_holdingTankIndex]
  rfl

@[simp] theorem outgoingNext_holdingTank (ptr : Ptr) :
    (outgoingNext config server ptr).holdingTank =
      Function.update server.holdingTank (nextIndex server.holdingTankIndex).val (.held ptr) := by
  rw [outgoingNext, isupExecCommand_holdingTank]
  rfl

theorem outgoingNext_others {ptr other : Ptr} (apart : other ≠ ptr) :
    (outgoingNext config server ptr).woomera other = server.woomera other := by
  simp [outgoingNext, offered, apart]

theorem outgoingNext_indexHold (ptr : Ptr) :
    ((outgoingNext config server ptr).woomera ptr).indexHold =
      (nextIndex server.holdingTankIndex).val := by
  simp [outgoingNext, heldAt]

theorem Caller.again {ptr : Ptr} (caller : Caller server ptr) :
    Caller (outgoingNext config server ptr) ptr := by
  obtain ⟨pc, loopTdm, session, checkDigits, systemReset⟩ := caller
  constructor <;>
    simp [outgoingNext, offered, heldAt, pc, loopTdm, session, checkDigits, systemReset]

theorem handleWoomeraCallStart_outgoing {ptr : Ptr} (systemReset : server.systemReset = false)
    (free : server.holdingTank (nextIndex server.holdingTankIndex).val = .free) :
    handleWoomeraCallStart config server ptr 0 false false true =
      (true, outgoingNext config server ptr) := by
  have first : ¬ (nextIndex server.holdingTankIndex).val < 1 := Nat.not_lt.mpr (nextIndex_pos _)
  have group : ¬ smgMaxTg < 0 := Nat.not_lt_zero _
  have idle : ¬ (false || server.systemReset) = true := by simp [systemReset]
  have found : findTank (offered server ptr) coreTankLen (offered server ptr).holdingTankIndex =
      (true, nextIndex server.holdingTankIndex) := findTank_next coreTankLen_pos free
  have added : addToHoldingTank (offered server ptr) ptr =
      ((nextIndex server.holdingTankIndex).val,
        (Server.setTank { offered server ptr with
          holdingTankIndex := nextIndex server.holdingTankIndex }
          (nextIndex server.holdingTankIndex).val (.held ptr)).onWoomera ptr fun woomera =>
            { woomera with timeout := true }) := by
    rw [addToHoldingTank]
    simp only [found, if_true]
  have named : (server.onWoomera ptr fun woomera => { woomera with trunkGroup := 0 }).onWoomera ptr
      (fun woomera => { woomera with raw := woomera.raw || false }) = offered server ptr := rfl
  rw [handleWoomeraCallStart, if_neg group, if_neg idle, named]
  simp only [added, if_neg first, if_true]
  rfl

/-- A session that calls takes the next index, where that is free. -/
theorem outgoing_step (config : Config) {ptr : Ptr} (caller : Caller server ptr)
    (free : server.holdingTank (nextIndex server.holdingTankIndex).val = .free) :
    step config server (.command ptr outgoing) = some (outgoingNext config server ptr) := by
  have unset : ¬ ((server.woomera ptr).session.isSome || server.systemReset) = true := by
    simp [caller.session, caller.systemReset]
  have unchecked : ¬ ((outgoingNext config server ptr).woomera ptr).checkDigits = true := by
    simp [caller.again.checkDigits]
  rw [step, sessionCommand, if_pos ⟨caller.pc, caller.loopTdm⟩, outgoing, interpretCommand,
    if_neg unset, handleWoomeraCallStart_outgoing caller.systemReset free]
  simp only [if_true, Option.bind_some, if_neg unchecked]

/-- A session that calls again and again takes the indices one after the other. -/
theorem outgoing_run (config : Config) {ptr : Ptr} (caller : Caller server ptr) (calls : Nat)
    (room : server.holdingTankIndex.val + calls < coreTankLen)
    (free : ∀ index, server.holdingTankIndex.val < index → server.holdingTank index = .free) :
    ∃ last, run (step config) server (List.replicate calls (.command ptr outgoing)) = some last ∧
      Caller last ptr ∧ last.holdingTankIndex.val = server.holdingTankIndex.val + calls ∧
      (∀ other, other ≠ ptr → last.woomera other = server.woomera other) ∧
      ∀ index, index ≤ server.holdingTankIndex.val →
        last.holdingTank index = server.holdingTank index := by
  induction calls generalizing server with
  | zero => exact ⟨server, rfl, caller, rfl, fun _ _ => rfl, fun _ _ => rfl⟩
  | succ calls ih =>
      have next : (nextIndex server.holdingTankIndex).val = server.holdingTankIndex.val + 1 := by
        rw [nextIndex_val, if_pos (by omega)]
      have moved := outgoing_step config caller (free _ (by omega))
      have above (index : Nat)
          (beyond : (outgoingNext config server ptr).holdingTankIndex.val < index) :
          (outgoingNext config server ptr).holdingTank index = .free := by
        rw [outgoingNext_index, next] at beyond
        rw [outgoingNext_holdingTank, Function.update_of_ne (by omega)]
        exact free index (by omega)
      obtain ⟨last, ran, still, reached, others, kept⟩ :=
        ih caller.again (by rw [outgoingNext_index]; omega) above
      refine ⟨last, ?_, still, ?_, ?_, ?_⟩
      · rw [List.replicate_succ, run, moved]
        exact ran
      · rw [reached, outgoingNext_index]
        omega
      · intro other apart
        rw [others other apart, outgoingNext_others apart]
      · intro index below
        rw [kept index (by rw [outgoingNext_index]; omega), outgoingNext_holdingTank,
          Function.update_of_ne (by omega)]

/-- The CALL_START_NACK_ACK for the setup id 1. -/
def nackAckOne : Event := { busyNack with id := .callStartNackAck, callSetupId := 1#16 }

/-- A session with setup id 1, and another without. -/
def waitingServer : Server :=
  (outgoingNext t1Config (idleServer.setWoomera 1 acceptedWoomera) 1).setWoomera 2 acceptedWoomera

def dialOps : List Op := [.accept 1, .command 1 outgoing, .accept 2]

theorem acceptedWoomera_caller (ptr : Ptr) (up : server.systemReset = false) :
    Caller (server.setWoomera ptr acceptedWoomera) ptr := by
  constructor <;> simp [acceptedWoomera, allocWoomera, up]

theorem accept_step {ptr : Ptr} (free : (server.woomera ptr).pc = .gone) :
    step config server (.accept ptr) = some (server.setWoomera ptr acceptedWoomera) := by
  rw [step, if_pos free]

theorem dialled_step : step t1Config (idleServer.setWoomera 1 acceptedWoomera)
    (.command 1 outgoing) =
      some (outgoingNext t1Config (idleServer.setWoomera 1 acceptedWoomera) 1) :=
  outgoing_step t1Config (acceptedWoomera_caller 1 rfl) rfl

theorem waiting_step : step t1Config
    (outgoingNext t1Config (idleServer.setWoomera 1 acceptedWoomera) 1) (.accept 2) =
      some waitingServer := by
  apply accept_step
  rw [outgoingNext_others (by decide)]
  rfl

theorem dialOps_run : run (step t1Config) idleServer dialOps = some waitingServer := by
  have accepted : step t1Config idleServer (.accept 1) =
      some (idleServer.setWoomera 1 acceptedWoomera) := accept_step rfl
  simp only [dialOps, run, accepted, dialled_step, waiting_step, Option.bind_some]

/-- The state after this ack. -/
def nackAckNext (server : Server) : Server :=
  (((server.setTank 1 .dead).onWoomera 1 fun woomera =>
    { woomera with index := 0, span := -1, chan := -1 }).onWoomera 1 fun woomera =>
      { woomera with waitForNackAck := false }).setTank 1 .free

/-- The ack takes the index from the tank, while its session goes on. -/
theorem nackAckOne_frees (config : Config) (held : server.holdingTank 1 = .held 1) :
    step config server (.boost nackAckOne noOutcomes) = some (nackAckNext server) := by
  have nobody : ∀ ptr ∈ noOutcomes.alloc, (server.woomera ptr).pc = .gone := by
    intro ptr member
    cases member
  have inside : tankIndex 1 = true := by decide
  have peeked : peekFromHoldingTank server 1 = some 1 := by
    rw [peekFromHoldingTank, if_pos inside, held]
  have pulled : pullFromHoldingTank server 1 (-1) (-1) =
      (some 1, (server.setTank 1 .dead).onWoomera 1 fun woomera =>
        { woomera with index := 0, span := -1, chan := -1 }) := by
    rw [pullFromHoldingTank, peeked]
  have handled : parseSs7Event config server nackAckOne noOutcomes =
      handleCallStartNackAck config server nackAckOne := rfl
  have id : nackAckOne.callSetupId.toNat = 1 := rfl
  rw [step, if_pos nobody, handled, handleCallStartNackAck, id]
  simp only [pulled, clearFromHoldingTank, if_pos inside, onWoomera_holdingTank,
    setTank_holdingTank, Function.update_self]
  rfl

theorem waitingServer_tank :
    waitingServer.holdingTank = Function.update (fun _ => .free) 1 (.held 1) := by
  simp only [waitingServer, setWoomera_holdingTank, outgoingNext_holdingTank]
  rfl

theorem waitingServer_index : waitingServer.holdingTankIndex.val = 1 := by
  have same : waitingServer.holdingTankIndex =
      (outgoingNext t1Config (idleServer.setWoomera 1 acceptedWoomera) 1).holdingTankIndex := rfl
  rw [same, outgoingNext_index]
  rfl

/-- The first session waits with its setup id. -/
theorem waitingServer_first :
    (waitingServer.woomera 1).pc = .loop ∧ (waitingServer.woomera 1).indexHold = 1 := by
  have same : waitingServer.woomera 1 =
      (outgoingNext t1Config (idleServer.setWoomera 1 acceptedWoomera) 1).woomera 1 := by
    rw [waitingServer, setWoomera_woomera, Function.update_of_ne (by decide)]
  have caller : Caller (idleServer.setWoomera 1 acceptedWoomera) 1 := acceptedWoomera_caller 1 rfl
  rw [same]
  exact ⟨caller.again.pc, outgoingNext_indexHold 1⟩

/-- The sessions but the first two have not begun. -/
theorem waitingServer_others {ptr : Ptr} (first : ptr ≠ 1) (second : ptr ≠ 2) :
    ¬ waitingServer.unfinished ptr := by
  rw [Server.unfinished, waitingServer, setWoomera_woomera, Function.update_of_ne second,
    outgoingNext_others first, setWoomera_woomera, Function.update_of_ne first]
  exact not_not_intro rfl

/-- The second session gets the setup id 2 while 1 is free already and the first one goes on. -/
def freshServer : Server := outgoingNext t1Config (nackAckNext waitingServer) 2

def freshOps : List Op :=
  dialOps ++ [.boost nackAckOne noOutcomes, .command 2 outgoing]

theorem nackAckNext_caller (caller : Caller server 2) : Caller (nackAckNext server) 2 := by
  have same : (nackAckNext server).woomera 2 = server.woomera 2 := by simp [nackAckNext]
  constructor
  · rw [same, caller.pc]
  · rw [same, caller.loopTdm]
  · rw [same, caller.session]
  · rw [same, caller.checkDigits]
  · exact caller.systemReset

theorem waitingServer_second : Caller waitingServer 2 := by
  apply acceptedWoomera_caller
  rw [outgoingNext, isupExecCommand_systemReset]
  rfl

theorem setup_ids_fresh : SetupIds t1Config freshServer := by
  have accepted : step t1Config idleServer (.accept 1) =
      some (idleServer.setWoomera 1 acceptedWoomera) := accept_step rfl
  have held : waitingServer.holdingTank 1 = .held 1 := by
    rw [waitingServer_tank, Function.update_self]
  have acked := nackAckOne_frees t1Config held
  have two : (nextIndex (nackAckNext waitingServer).holdingTankIndex).val = 2 := by
    rw [nextIndex_val, show (nackAckNext waitingServer).holdingTankIndex.val = 1 from
      waitingServer_index]
    rfl
  have free : (nackAckNext waitingServer).holdingTank 2 = .free := by
    simp [nackAckNext, waitingServer_tank]
  have called : step t1Config (nackAckNext waitingServer) (.command 2 outgoing) =
      some freshServer := outgoing_step t1Config (nackAckNext_caller waitingServer_second) (by rw [two, free])
  refine setup_ids t1Config freshOps freshServer ?_ ?_
  · refine Along.cons trivial accepted (Along.cons ?_ dialled_step (Along.cons trivial waiting_step
      (Along.cons trivial acked (Along.cons ?_ called trivial))))
    · intro _ owner apart going
      rw [Server.unfinished, setWoomera_woomera, Function.update_of_ne apart] at going
      exact absurd rfl going
    · intro _ owner apart going _ _
      by_cases first : owner = 1
      · have one : ((nackAckNext waitingServer).woomera owner).indexHold = 1 := by
          rw [first]
          simp [nackAckNext, waitingServer_first.2]
        have start : (nackAckNext waitingServer).holdingTankIndex.val = 1 := waitingServer_index
        refine ⟨2, by decide, by decide, free, ?_⟩
        rw [one, roundOf, roundOf, start]
        decide
      · have same : (nackAckNext waitingServer).woomera owner = waitingServer.woomera owner := by
          simp [nackAckNext, first]
        rw [Server.unfinished, same] at going
        exact absurd going (waitingServer_others first apart)
  · simp only [freshOps, run_append, dialOps_run, run, acked, called, Option.bind_some]

/-- The second session, once the ids after 1 are in use and boost has acked 1, gets 1 as well. -/
theorem reuse_run :
    ∃ last, run (step t1Config) idleServer (dialOps ++
        (List.replicate 6398 (.command 2 outgoing) ++
          [.boost nackAckOne noOutcomes, .command 2 outgoing])) = some last ∧
      (last.woomera 1).pc = .loop ∧ (last.woomera 2).pc = .loop ∧
      (last.woomera 1).indexHold = 1 ∧ (last.woomera 2).indexHold = 1 := by
  have empty (index : Nat) (above : waitingServer.holdingTankIndex.val < index) :
      waitingServer.holdingTank index = .free := by
    rw [waitingServer_index] at above
    rw [waitingServer_tank, Function.update_of_ne (by omega)]
  have room : waitingServer.holdingTankIndex.val + 6398 < coreTankLen := by
    rw [waitingServer_index]
    decide
  obtain ⟨full, filled, caller, ends, others, kept⟩ :=
    outgoing_run t1Config waitingServer_second 6398 room empty
  have held : full.holdingTank 1 = .held 1 := by
    rw [kept 1 (Nat.le_of_eq waitingServer_index.symm), waitingServer_tank, Function.update_self]
  have acked := nackAckOne_frees t1Config held
  have wraps : (nextIndex (nackAckNext full).holdingTankIndex).val = 1 := by
    have same : (nackAckNext full).holdingTankIndex = full.holdingTankIndex := rfl
    have len : coreTankLen = 6400 := rfl
    rw [same, nextIndex_val, ends, waitingServer_index, len]
    rfl
  have free : (nackAckNext full).holdingTank (nextIndex (nackAckNext full).holdingTankIndex).val =
      .free := by
    rw [wraps]
    simp [nackAckNext]
  have again : Caller (nackAckNext full) 2 := nackAckNext_caller caller
  have called := outgoing_step t1Config again free
  refine ⟨outgoingNext t1Config (nackAckNext full) 2, ?_, ?_, again.again.pc, ?_, ?_⟩
  · rw [run_append, dialOps_run, Option.bind_some, run_append, filled, Option.bind_some]
    simp only [run, acked, called, Option.bind_some]
  · rw [outgoingNext_others (by decide)]
    simp [nackAckNext, others 1 (by decide), waitingServer_first.1]
  · rw [outgoingNext_others (by decide)]
    simp [nackAckNext, others 1 (by decide), waitingServer_first.2]
  · rw [outgoingNext_indexHold, wraps]

/-- Nothing keeps the setup ids of the sessions apart. -/
theorem setup_ids_shared :
    ¬ ∀ (config : Config) (ops : List Op) (last : Server),
      run (step config) idleServer ops = some last → SetupIds config last := by
  intro always
  obtain ⟨last, ran, first, second, one, other⟩ := reuse_run
  have ids := (always _ _ _ ran).distinct 1 2 (by decide)
  rw [Server.unfinished, Server.unfinished, first, second, one, other] at ids
  exact ids (by decide) (by decide) (by decide) rfl

end Wanpipe.Mgd
