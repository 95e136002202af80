import Mathlib.Logic.Relation
import Wanpipe.Aft.Receive
import Wanpipe.Runs

/-! What a receive DMA chain can do in one move, and that everything else is a chain of moves. -/

namespace Wanpipe.Aft.Receive

open Wanpipe.Circle Line Relation

/-- The card is `done` descriptors and the driver `used` descriptors ahead of the pending one. A
descriptor in use stands between the pending one and the driver's, and has been filled when it stands
in front of the card's. -/
structure Ring (chan : Chan) (done used : Nat) : Prop where
  pending : chan.rxPendingChainIndx < maxAftDmaChains
  ahead : done ≤ used
  few : used ≤ maxAftDmaChains
  cur : chan.cur = place maxAftDmaChains chan.rxPendingChainIndx done
  next : chan.rxChainIndx = place maxAftDmaChains chan.rxPendingChainIndx used
  holding : ∀ i < maxAftDmaChains, (chan.table i).init = (chan.table i).skb.isSome
  go : ∀ i < maxAftDmaChains,
    (chan.reg i).go = ((chan.table i).skb.isSome && (chan.reg i).stored.isNone)
  inside : ∀ i < maxAftDmaChains, (chan.table i).skb.isSome = true →
    offset maxAftDmaChains chan.rxPendingChainIndx i < used
  filled : ∀ i < maxAftDmaChains, (chan.table i).skb.isSome = true →
    ((chan.reg i).stored.isSome = true ↔
      offset maxAftDmaChains chan.rxPendingChainIndx i < done)

/-- All the descriptors up to the driver's are in use. -/
def Full (chan : Chan) (used : Nat) : Prop :=
  ∀ i < maxAftDmaChains, offset maxAftDmaChains chan.rxPendingChainIndx i < used →
    (chan.table i).skb.isSome = true

/-- One move. A descriptor is given out against a pointer that is at most `most` descriptors ahead of
the pending one, and is taken back only where `freeing` is set. -/
inductive Moves (cfg : Cfg) (most : Nat) (freeing : Bool) : Chan → Chan → Prop
  | stores (chan : Chan) (stored : Stored) (go : (chan.reg chan.cur).go = true) :
      Moves cfg most freeing chan (cardStores chan stored)
  | handles (chan : Chan) (connected : Bool) (buf : Buf) (stored : Stored)
      (held : (chan.table chan.rxPendingChainIndx).skb = some buf)
      (done : (chan.reg chan.rxPendingChainIndx).stored = some stored) :
      Moves cfg most freeing chan (handle cfg connected chan buf stored)
  | posts (chan : Chan) (ahead done used freeLen : Nat) (buf : Buf) (rest : List Buf)
      (listed : chan.rxFree = buf :: rest) (ring : Ring chan done used)
      (room : used < maxAftDmaChains) (near : ahead ≤ most) :
      Moves cfg most freeing chan
        (post cfg (place maxAftDmaChains chan.rxPendingChainIndx ahead) freeLen
          { chan with rxFree := rest } buf)
  | drops (chan : Chan) (element : Element) (rest : List Element)
      (listed : chan.rxComplete = element :: rest) :
      Moves cfg most freeing chan (dropElement cfg { chan with rxComplete := rest } element)
  | takes (chan : Chan) (fate : Fate) : Moves cfg most freeing chan (aftRxPostComplete cfg fate chan)
  | frees (chan : Chan) (i : Nat) (inside : i < maxAftDmaChains) (allowed : freeing = true) :
      Moves cfg most freeing chan (freeDescr cfg chan i)
  | resets (chan : Chan) (ptr : Fin maxAftDmaChains)
      (empty : ∀ i < maxAftDmaChains, (chan.table i).skb = none) :
      Moves cfg most freeing chan (aftResetRxChainCnt { chan with cur := ptr.val })

/-- The lists and the counters change, and nothing else. -/
structure Apart (chan next : Chan) : Prop where
  table : next.table = chan.table
  reg : next.reg = chan.reg
  cur : next.cur = chan.cur
  chain : next.rxChainIndx = chan.rxChainIndx
  pending : next.rxPendingChainIndx = chan.rxPendingChainIndx
  received : next.received = chan.received
  flag : next.rxIntrPending = chan.rxIntrPending

section Steps

variable {cfg : Cfg} {chan next : Chan} {done used : Nat}

theorem Ring.apart (ring : Ring chan done used) (apart : Apart chan next) : Ring next done used := by
  obtain ⟨table, reg, cur, chain, pending, -⟩ := apart
  constructor
  · rw [pending]
    exact ring.pending
  · exact ring.ahead
  · exact ring.few
  · rw [cur, pending]
    exact ring.cur
  · rw [chain, pending]
    exact ring.next
  · rw [table]
    exact ring.holding
  · rw [reg, table]
    exact ring.go
  · rw [table, pending]
    exact ring.inside
  · rw [table, reg, pending]
    exact ring.filled

theorem Full.apart (full : Full chan used) (apart : Apart chan next) : Full next used := by
  unfold Full
  rw [apart.pending, apart.table]
  exact full

theorem takeOver_apart (cfg : Cfg) (connected : Bool) (chan : Chan) (buf : Buf) (stored : Stored) :
    Apart chan (takeOver cfg connected chan buf stored) := by
  unfold takeOver
  split
  · exact ⟨rfl, rfl, rfl, rfl, rfl, rfl, rfl⟩
  · split <;> exact ⟨rfl, rfl, rfl, rfl, rfl, rfl, rfl⟩

theorem aftRxPostComplete_apart (cfg : Cfg) (fate : Fate) (chan : Chan) :
    Apart chan (aftRxPostComplete cfg fate chan) := by
  unfold aftRxPostComplete
  split
  · exact ⟨rfl, rfl, rfl, rfl, rfl, rfl, rfl⟩
  · dsimp only
    split <;> exact ⟨rfl, rfl, rfl, rfl, rfl, rfl, rfl⟩

theorem Ring.cur_lt (ring : Ring chan done used) : chan.cur < maxAftDmaChains := by
  rcases Nat.lt_or_eq_of_le (Nat.le_trans ring.ahead ring.few) with less | all
  · rw [ring.cur]
    exact place_lt ring.pending less
  · rw [ring.cur, all, place_size]
    exact ring.pending

theorem Ring.at_cur (ring : Ring chan done used) (go : (chan.reg chan.cur).go = true) :
    done < used ∧ (chan.table chan.cur).skb.isSome = true ∧
      (chan.reg chan.cur).stored.isSome = false ∧ chan.cur < maxAftDmaChains ∧
      offset maxAftDmaChains chan.rxPendingChainIndx chan.cur = done := by
  have bound := ring.cur_lt
  have flags := ring.go chan.cur bound
  rw [go, eq_comm, Bool.and_eq_true, Option.isNone_iff_eq_none] at flags
  obtain ⟨held, unfilled⟩ := flags
  have behind : ¬ offset maxAftDmaChains chan.rxPendingChainIndx chan.cur < done := by
    rw [← ring.filled chan.cur bound held, unfilled]
    decide
  have here : offset maxAftDmaChains chan.rxPendingChainIndx chan.cur = done := by
    rcases Nat.lt_or_eq_of_le (Nat.le_trans ring.ahead ring.few) with less | all
    · rw [ring.cur, offset_place ring.pending less]
    · have inside := offset_lt ring.pending bound
      omega
  refine ⟨?_, held, by rw [unfilled]; rfl, bound, here⟩
  rw [← here]
  exact ring.inside chan.cur bound held

theorem cardStores_eq (go : (chan.reg chan.cur).go = true) (stored : Stored) :
    cardStores chan stored =
      { chan.setReg chan.cur ⟨false, (chan.reg chan.cur).intrDisable, some stored⟩ with
        cur := advance maxAftDmaChains chan.cur
        received := chan.received ++ [stored] } := by
  rw [cardStores, if_pos go]

theorem Ring.stores (ring : Ring chan done used) (go : (chan.reg chan.cur).go = true)
    (stored : Stored) : Ring (cardStores chan stored) (done + 1) used := by
  obtain ⟨more, held, -, bound, here⟩ := ring.at_cur go
  have few := ring.few
  rw [cardStores_eq go]
  refine ⟨ring.pending, more, few, ?_, ring.next, ring.holding, ?_, ring.inside, ?_⟩
  · dsimp only [Chan.setReg]
    rw [ring.cur, advance_place ring.pending (by omega)]
  · intro i inside
    dsimp only [Chan.setReg]
    by_cases same : i = chan.cur
    · rw [same, Function.update_self]
      exact (Bool.and_false _).symm
    · rw [Function.update_of_ne same]
      exact ring.go i inside
  · intro i inside some
    dsimp only [Chan.setReg] at some ⊢
    by_cases same : i = chan.cur
    · rw [same, Function.update_self, here]
      exact iff_of_true rfl (Nat.lt_succ_self done)
    · have other : offset maxAftDmaChains chan.rxPendingChainIndx i ≠ done := by
        intro equal
        apply same
        rw [← place_offset ring.pending inside, equal, ← here, place_offset ring.pending bound]
      rw [Function.update_of_ne same, ring.filled i inside some]
      omega

/-- What handling a descriptor does to the ring. -/
theorem handle_ring (cfg : Cfg) (connected : Bool) (chan : Chan) (buf : Buf) (stored : Stored) :
    (handle cfg connected chan buf stored).table =
        Function.update chan.table chan.rxPendingChainIndx ⟨false, none⟩ ∧
      (handle cfg connected chan buf stored).reg = chan.reg ∧
      (handle cfg connected chan buf stored).cur = chan.cur ∧
      (handle cfg connected chan buf stored).rxChainIndx = chan.rxChainIndx ∧
      (handle cfg connected chan buf stored).rxPendingChainIndx =
        advance maxAftDmaChains chan.rxPendingChainIndx ∧
      (handle cfg connected chan buf stored).received = chan.received := by
  unfold handle
  dsimp only [Chan.setDescr]
  split
  · obtain ⟨table, reg, cur, chain, -, received⟩ := takeOver_apart cfg connected chan buf stored
    exact ⟨by rw [table], reg, cur, chain, rfl, received⟩
  · obtain ⟨table, reg, cur, chain, -, received⟩ :=
      takeOver_apart cfg connected { chan with rxIntrPending := false } buf stored
    exact ⟨by rw [table], reg, cur, chain, rfl, received⟩

theorem Ring.handles (ring : Ring chan (done + 1) (used + 1)) (connected : Bool) (buf : Buf)
    (stored : Stored) (go : (chan.reg chan.rxPendingChainIndx).go = false) :
    Ring (handle cfg connected chan buf stored) done used := by
  obtain ⟨table, reg, cur, chain, pending, -⟩ := handle_ring cfg connected chan buf stored
  have ahead := ring.ahead
  have few := ring.few
  have nearer : ∀ i < maxAftDmaChains, i ≠ chan.rxPendingChainIndx →
      offset maxAftDmaChains (advance maxAftDmaChains chan.rxPendingChainIndx) i + 1 =
        offset maxAftDmaChains chan.rxPendingChainIndx i :=
    fun i inside other => offset_advance ring.pending inside other
  refine ⟨?_, by omega, by omega, ?_, ?_, ?_, ?_, ?_, ?_⟩
  · rw [pending]
    exact advance_lt ring.pending
  · rw [cur, pending, place_advance ring.pending (by omega)]
    exact ring.cur
  · rw [chain, pending, place_advance ring.pending (by omega)]
    exact ring.next
  · intro i inside
    rw [table]
    by_cases same : i = chan.rxPendingChainIndx
    · rw [same, Function.update_self]
      rfl
    · rw [Function.update_of_ne same]
      exact ring.holding i inside
  · intro i inside
    rw [table, reg]
    by_cases same : i = chan.rxPendingChainIndx
    · rw [same, Function.update_self, go]
      rfl
    · rw [Function.update_of_ne same]
      exact ring.go i inside
  · intro i inside some
    rw [table] at some
    rw [pending]
    by_cases same : i = chan.rxPendingChainIndx
    · rw [same, Function.update_self] at some
      cases some
    · rw [Function.update_of_ne same] at some
      have before := ring.inside i inside some
      have step := nearer i inside same
      omega
  · intro i inside some
    rw [table] at some
    rw [pending, reg]
    by_cases same : i = chan.rxPendingChainIndx
    · rw [same, Function.update_self] at some
      cases some
    · rw [Function.update_of_ne same] at some
      have before := ring.filled i inside some
      have step := nearer i inside same
      rw [before]
      omega

theorem Full.handles (full : Full chan (used + 1)) (ring : Ring chan (done + 1) (used + 1))
    (connected : Bool) (buf : Buf) (stored : Stored) :
    Full (handle cfg connected chan buf stored) used := by
  obtain ⟨table, -, -, -, pending, -⟩ := handle_ring cfg connected chan buf stored
  intro i inside near
  have few := ring.few
  rw [pending] at near
  have other : i ≠ chan.rxPendingChainIndx := by
    intro same
    have last := offset_advance_head ring.pending
    rw [same] at near
    omega
  have step := offset_advance ring.pending inside other
  rw [table, Function.update_of_ne other]
  exact full i inside (by omega)

theorem Ring.posts (ring : Ring chan done used) (room : used < maxAftDmaChains) (ptr freeLen : Nat)
    (buf : Buf) : Ring (post cfg ptr freeLen chan buf) done (used + 1) := by
  have bound : chan.rxChainIndx < maxAftDmaChains := by
    rw [ring.next]
    exact place_lt ring.pending room
  have here : offset maxAftDmaChains chan.rxPendingChainIndx chan.rxChainIndx = used := by
    rw [ring.next, offset_place ring.pending room]
  have ahead := ring.ahead
  unfold post aftDmaChainRx
  dsimp only [Chan.setDescr, Chan.setReg]
  refine ⟨ring.pending, by omega, room, ring.cur, ?_, ?_, ?_, ?_, ?_⟩
  · dsimp only
    rw [ring.next, advance_place ring.pending room]
  · intro i inside
    dsimp only
    by_cases same : i = chan.rxChainIndx
    · rw [same, Function.update_self]
      rfl
    · rw [Function.update_of_ne same]
      exact ring.holding i inside
  · intro i inside
    dsimp only
    by_cases same : i = chan.rxChainIndx
    · rw [same, Function.update_self, Function.update_self]
      rfl
    · rw [Function.update_of_ne same, Function.update_of_ne same]
      exact ring.go i inside
  · intro i inside some
    dsimp only at some ⊢
    by_cases same : i = chan.rxChainIndx
    · rw [same, here]
      exact Nat.lt_succ_self used
    · rw [Function.update_of_ne same] at some
      exact Nat.lt_succ_of_lt (ring.inside i inside some)
  · intro i inside some
    dsimp only at some ⊢
    by_cases same : i = chan.rxChainIndx
    · rw [same, Function.update_self, here]
      exact iff_of_false Bool.false_ne_true (Nat.not_lt.mpr ahead)
    · rw [Function.update_of_ne same] at some ⊢
      exact ring.filled i inside some

theorem Full.posts (full : Full chan used) (ring : Ring chan done used) (ptr freeLen : Nat)
    (buf : Buf) :
    Full (post cfg ptr freeLen chan buf) (used + 1) := by
  intro i inside near
  unfold post aftDmaChainRx at near ⊢
  dsimp only [Chan.setDescr, Chan.setReg] at near ⊢
  by_cases same : i = chan.rxChainIndx
  · rw [same, Function.update_self]
    rfl
  · have other : offset maxAftDmaChains chan.rxPendingChainIndx i ≠ used := by
      intro equal
      apply same
      rw [ring.next, ← equal, place_offset ring.pending inside]
    rw [Function.update_of_ne same]
    exact full i inside (by omega)

/-- What taking a descriptor back does to the ring. -/
theorem freeDescr_ring (cfg : Cfg) (chan : Chan) (i : Nat) :
    (freeDescr cfg chan i).table = Function.update chan.table i ⟨false, none⟩ ∧
      (freeDescr cfg chan i).reg = Function.update chan.reg i ⟨false, false, none⟩ ∧
      (freeDescr cfg chan i).cur = chan.cur ∧
      (freeDescr cfg chan i).rxChainIndx = chan.rxChainIndx ∧
      (freeDescr cfg chan i).rxPendingChainIndx = chan.rxPendingChainIndx ∧
      (freeDescr cfg chan i).received = chan.received ∧
      (freeDescr cfg chan i).rxIntrPending = chan.rxIntrPending := by
  unfold freeDescr
  dsimp only [Chan.setDescr, Chan.setReg]
  split <;> exact ⟨rfl, rfl, rfl, rfl, rfl, rfl, rfl⟩

theorem Ring.frees (ring : Ring chan done used) (j : Nat) : Ring (freeDescr cfg chan j) done used := by
  obtain ⟨table, reg, cur, chain, pending, -⟩ := freeDescr_ring cfg chan j
  refine ⟨by rw [pending]; exact ring.pending, ring.ahead, ring.few, ?_, ?_, ?_, ?_, ?_, ?_⟩
  · rw [cur, pending]
    exact ring.cur
  · rw [chain, pending]
    exact ring.next
  · intro i inside
    rw [table]
    by_cases same : i = j
    · rw [same, Function.update_self]
      rfl
    · rw [Function.update_of_ne same]
      exact ring.holding i inside
  · intro i inside
    rw [table, reg]
    by_cases same : i = j
    · rw [same, Function.update_self, Function.update_self]
      rfl
    · rw [Function.update_of_ne same, Function.update_of_ne same]
      exact ring.go i inside
  · intro i inside some
    rw [table] at some
    rw [pending]
    by_cases same : i = j
    · rw [same, Function.update_self] at some
      cases some
    · rw [Function.update_of_ne same] at some
      exact ring.inside i inside some
  · intro i inside some
    rw [table] at some
    rw [pending, reg]
    by_cases same : i = j
    · rw [same, Function.update_self] at some
      cases some
    · rw [Function.update_of_ne same] at some ⊢
      exact ring.filled i inside some

theorem Ring.resets (ring : Ring chan done used) (ptr : Fin maxAftDmaChains)
    (empty : ∀ i < maxAftDmaChains, (chan.table i).skb = none) :
    Ring (aftResetRxChainCnt { chan with cur := ptr.val }) 0 0 := by
  refine ⟨ptr.isLt, Nat.le_refl 0, Nat.zero_le _, (place_zero ptr.isLt).symm,
    (place_zero ptr.isLt).symm, ring.holding, ring.go, ?_, ?_⟩
  · intro i inside some
    rw [aftResetRxChainCnt, empty i inside] at some
    cases some
  · intro i inside some
    rw [aftResetRxChainCnt, empty i inside] at some
    cases some

theorem dropElement_apart (cfg : Cfg) (chan : Chan) (element : Element) (rest : List Element) :
    Apart chan (dropElement cfg { chan with rxComplete := rest } element) :=
  ⟨rfl, rfl, rfl, rfl, rfl, rfl, rfl⟩

/-- The pending descriptor when it has been filled. -/
theorem Ring.before_handles (ring : Ring chan done used) {buf : Buf} {stored : Stored}
    (held : (chan.table chan.rxPendingChainIndx).skb = some buf)
    (filled : (chan.reg chan.rxPendingChainIndx).stored = some stored) :
    ∃ done' used', done = done' + 1 ∧ used = used' + 1 ∧
      (chan.reg chan.rxPendingChainIndx).go = false := by
  have some : (chan.table chan.rxPendingChainIndx).skb.isSome = true := by rw [held]; rfl
  have before := (ring.filled _ ring.pending some).mp (by rw [filled]; rfl)
  rw [offset_self] at before
  have ahead := ring.ahead
  refine ⟨done - 1, used - 1, by omega, by omega, ?_⟩
  rw [ring.go _ ring.pending, filled]
  exact Bool.and_false _

theorem Moves.ring {most : Nat} {freeing : Bool} (move : Moves cfg most freeing chan next) (ring : Ring chan done used) :
    ∃ done used, Ring next done used := by
  cases move with
  | stores stored go => exact ⟨done + 1, used, ring.stores go stored⟩
  | handles connected buf stored held filled =>
      obtain ⟨done', used', rfl, rfl, go⟩ := ring.before_handles held filled
      exact ⟨done', used', ring.handles connected buf stored go⟩
  | posts ahead done used freeLen buf rest _ ring room _ =>
      have apart : Apart chan { chan with rxFree := rest } := ⟨rfl, rfl, rfl, rfl, rfl, rfl, rfl⟩
      exact ⟨done, used + 1, (ring.apart apart).posts room _ freeLen buf⟩
  | drops element rest _ => exact ⟨done, used, ring.apart (dropElement_apart cfg chan element rest)⟩
  | takes fate => exact ⟨done, used, ring.apart (aftRxPostComplete_apart cfg fate chan)⟩
  | frees i _ _ => exact ⟨done, used, ring.frees i⟩
  | resets ptr empty => exact ⟨0, 0, ring.resets ptr empty⟩

end Steps

end Wanpipe.Aft.Receive
