import Wanpipe.Aft.Chain

/-! The descriptors in use are a stretch of the ring, from the pending index up to the one that is
filled next, and the steps of the transmitter and of the handler move its two ends. -/

namespace Wanpipe.Aft

open Wanpipe.Circle

structure Ring (chan : Chan) (skbs : List Skb) : Prop where
  pending : chan.txPendingChainIndx < maxAftDmaChains
  few : skbs.length ≤ maxAftDmaChains
  next : chan.txChainIndx = place maxAftDmaChains chan.txPendingChainIndx skbs.length
  holds : Holds maxAftDmaChains (fun i => (chan.table i).skb) chan.txPendingChainIndx skbs
  holding : ∀ i < maxAftDmaChains, (chan.table i).init = (chan.table i).skb.isSome

/-- At most one descriptor changes. -/
structure Keeps (i : Nat) (chan next : Chan) : Prop where
  table : ∀ j ≠ i, next.table j = chan.table j
  reg : next.reg = chan.reg
  tx : next.txChainIndx = chan.txChainIndx
  pending : next.txPendingChainIndx = chan.txPendingChainIndx
  sticky : next.txIntrPending = chan.txIntrPending

/-- The descriptors, their registers and the flag are left alone. -/
structure Stays (chan next : Chan) : Prop where
  table : next.table = chan.table
  reg : next.reg = chan.reg
  tx : next.txChainIndx = chan.txChainIndx
  pending : next.txPendingChainIndx = chan.txPendingChainIndx
  sticky : next.txIntrPending = chan.txIntrPending

/-- The free descriptor at the chain index is given to the card. -/
structure Posts (cfg : Cfg) (chan next : Chan) (skb : Skb) : Prop where
  free : (chan.table chan.txChainIndx).init = false
  table : next.table = Function.update chan.table chan.txChainIndx ⟨true, some skb⟩
  reg : next.reg = Function.update chan.reg chan.txChainIndx
    ⟨true, if cfg.irqAll then false else !wantsIntr chan⟩
  tx : next.txChainIndx = advance maxAftDmaChains chan.txChainIndx
  pending : next.txPendingChainIndx = chan.txPendingChainIndx
  sticky : next.txIntrPending = (chan.txIntrPending || wantsIntr chan)

/-- The descriptor at the pending index is taken back from the card. -/
structure Frees (chan next : Chan) : Prop where
  used : (chan.table chan.txPendingChainIndx).skb.isSome = true
  table : next.table = Function.update chan.table chan.txPendingChainIndx ⟨false, none⟩
  reg : next.reg = chan.reg
  tx : next.txChainIndx = chan.txChainIndx
  pending : next.txPendingChainIndx = advance maxAftDmaChains chan.txPendingChainIndx
  sticky : next.txIntrPending =
    if (chan.reg chan.txPendingChainIndx).intrDisable then chan.txIntrPending else false

section Steps

variable {cfg : Cfg} {chan middle next : Chan} {i : Nat}

theorem Keeps.trans (first : Keeps i chan middle) (second : Keeps i middle next) :
    Keeps i chan next :=
  ⟨fun j other => (second.table j other).trans (first.table j other),
    second.reg.trans first.reg, second.tx.trans first.tx, second.pending.trans first.pending,
    second.sticky.trans first.sticky⟩

/-- A descriptor set beside changes of what the ring does not depend on. -/
theorem setDescr_keeps (chan : Chan) (i : Nat) (descr : Descr) :
    Keeps i chan (chan.setDescr i descr) :=
  ⟨fun _ other => Function.update_of_ne other _ _, rfl, rfl, rfl, rfl⟩

theorem aftTxDmaChainInit_keeps (cfg : Cfg) (chan : Chan) (i : Nat) :
    Keeps i chan (aftTxDmaChainInit cfg chan i) ∧
      (aftTxDmaChainInit cfg chan i).table i = ⟨false, none⟩ := by
  rw [aftTxDmaChainInit]
  split
  · exact ⟨setDescr_keeps chan i _, Function.update_self ..⟩
  · exact ⟨⟨fun _ other => Function.update_of_ne other _ _, rfl, rfl, rfl, rfl⟩,
      Function.update_self ..⟩

theorem Stays.keeps (stays : Stays chan next) (i : Nat) : Keeps i chan next :=
  ⟨fun j _ => congrFun stays.table j, stays.reg, stays.tx, stays.pending, stays.sticky⟩

theorem completeRepeat_keeps (chan : Chan) (i : Nat) (skb : Skb) :
    Keeps i chan (completeRepeat chan i skb) := by
  simp only [completeRepeat]
  split
  · exact ⟨fun _ other => Function.update_of_ne other _ _, rfl, rfl, rfl, rfl⟩
  · exact ⟨fun _ _ => rfl, rfl, rfl, rfl, rfl⟩

theorem drop_keeps (cfg : Cfg) (chan : Chan) (skb : Skb) :
    Keeps chan.txChainIndx chan (drop cfg chan skb) ∧
      (drop cfg chan skb).table chan.txChainIndx = ⟨false, none⟩ := by
  let freed := { chan with lists := wanAftSkbDeferedDealloc cfg chan.lists skb }
  obtain ⟨clears, clear⟩ := aftTxDmaChainInit_keeps cfg freed chan.txChainIndx
  exact ⟨⟨clears.table, clears.reg, clears.tx, clears.pending, clears.sticky⟩, clear⟩

theorem complete_keeps (cfg : Cfg) (chan : Chan) (i : Nat) (skb : Skb) :
    Keeps i chan (complete cfg chan i skb).1 := by
  have listed (lists : Lists) (completed : List Skb) (descr : Descr) :
      Keeps i chan ({ chan with lists := lists, completed := completed }.setDescr i descr) :=
    ⟨fun _ other => Function.update_of_ne other _ _, rfl, rfl, rfl, rfl⟩
  simp only [complete]
  split
  · split
    · exact completeRepeat_keeps chan i skb
    · split
      · exact setDescr_keeps chan i _
      · exact listed _ _ _
  · split
    · exact setDescr_keeps chan i _
    · split
      · exact ⟨fun _ _ => rfl, rfl, rfl, rfl, rfl⟩
      · exact listed _ _ _

theorem update_of_keeps (keeps : Keeps i chan next) {descr : Descr} (here : next.table i = descr) :
    next.table = Function.update chan.table i descr := by
  funext j
  by_cases same : j = i
  · rw [same, here, Function.update_self]
  · rw [keeps.table j same, Function.update_of_ne same]

theorem handlerTurn_frees (moved : handlerTurn cfg chan = some next) : Frees chan next := by
  let i := chan.txPendingChainIndx
  let told := if (chan.reg i).intrDisable then chan else { chan with txIntrPending := false }
  have kept : told.table = chan.table ∧ told.reg = chan.reg ∧ told.txChainIndx = chan.txChainIndx ∧
      told.txPendingChainIndx = i ∧
      told.txIntrPending = if (chan.reg i).intrDisable then chan.txIntrPending else false := by
    simp only [told]
    split <;> exact ⟨rfl, rfl, rfl, rfl, rfl⟩
  obtain ⟨table, reg, tx, pending, sticky⟩ := kept
  rw [handlerTurn] at moved
  split at moved
  · cases moved
  split at moved
  · cases moved
  simp only at moved
  split at moved
  · cases moved
  · next skb held =>
      change (told.table i).skb = some skb at held
      obtain ⟨clears, clear⟩ := aftTxDmaChainInit_keeps cfg (complete cfg told i skb).1 i
      have keeps := (complete_keeps cfg told i skb).trans clears
      have same := update_of_keeps keeps clear
      cases moved
      refine ⟨?_, ?_, keeps.reg.trans reg, keeps.tx.trans tx, ?_, keeps.sticky.trans sticky⟩
      · rw [← table, held]
        rfl
      · exact same.trans (congrArg (Function.update · i ⟨false, none⟩) table)
      · exact congrArg (advance maxAftDmaChains) (keeps.pending.trans pending)

theorem post_posts (cfg : Cfg) (lists : Lists) (skb : Skb) (idle : Bool) (descr : Descr)
    (free : (chan.table chan.txChainIndx).init = false) :
    Posts cfg chan
      (post cfg { chan.setDescr chan.txChainIndx descr with lists := lists } skb idle) skb := by
  refine ⟨free, ?_, rfl, rfl, rfl, rfl⟩
  exact Function.update_idem ..

theorem Descr.eq_of_free {descr : Descr} (free : descr.init = false)
    (holding : descr.init = descr.skb.isSome) : descr = ⟨false, none⟩ := by
  obtain ⟨init, skb⟩ := descr
  cases skb with
  | none => exact congrArg (Descr.mk · none) free
  | some skb => exact absurd (holding.symm.trans free) (by simp)

end Steps

section Rings

variable {cfg : Cfg} {chan next : Chan} {skbs : List Skb}

theorem slot_update (table : Nat → Descr) (i : Nat) (descr : Descr) :
    (fun j => (Function.update table i descr j).skb) =
      Function.update (fun j => (table j).skb) i descr.skb := by
  funext j
  exact Function.apply_update (fun _ descr => descr.skb) table i descr j

theorem holding_update {table : Nat → Descr} {i : Nat} {descr : Descr}
    (holding : ∀ j < maxAftDmaChains, (table j).init = (table j).skb.isSome)
    (here : descr.init = descr.skb.isSome) (j : Nat) (bound : j < maxAftDmaChains) :
    (Function.update table i descr j).init = (Function.update table i descr j).skb.isSome := by
  by_cases same : j = i
  · rw [same, Function.update_self, here]
  · rw [Function.update_of_ne same, holding j bound]

theorem Ring.tx_lt (ring : Ring chan skbs) : chan.txChainIndx < maxAftDmaChains := by
  rw [ring.next]
  rcases Nat.lt_or_eq_of_le ring.few with room | full
  · exact place_lt ring.pending room
  · rw [full, place_size]
    exact ring.pending

/-- The descriptor that is filled next is free unless the ring is full. -/
theorem Ring.free_iff (ring : Ring chan skbs) :
    (chan.table chan.txChainIndx).init = false ↔ skbs.length < maxAftDmaChains := by
  have tail := ring.holds.at_tail ring.pending ring.few
  rw [← ring.next, ← ring.holding _ ring.tx_lt] at tail
  have few := ring.few
  rw [← Bool.not_eq_true, tail]
  omega

theorem Ring.stays (ring : Ring chan skbs) (stays : Stays chan next) : Ring next skbs := by
  obtain ⟨table, -, tx, pending, -⟩ := stays
  refine ⟨?_, ring.few, ?_, ?_, ?_⟩
  · rw [pending]
    exact ring.pending
  · rw [tx, pending]
    exact ring.next
  · rw [table, pending]
    exact ring.holds
  · rw [table]
    exact ring.holding

theorem Ring.posts {skb : Skb} (ring : Ring chan skbs) (posts : Posts cfg chan next skb) :
    Ring next (skbs ++ [skb]) := by
  have room := ring.free_iff.mp posts.free
  have held := @Holds.push _ _ _ _ _ skb ring.holds ring.pending room
  rw [← ring.next] at held
  refine ⟨?_, ?_, ?_, ?_, ?_⟩
  · rw [posts.pending]
    exact ring.pending
  · rw [List.length_append]
    exact room
  · rw [posts.tx, posts.pending, ring.next, advance_place ring.pending room, List.length_append]
    rfl
  · rw [posts.table, posts.pending, slot_update]
    exact held
  · rw [posts.table]
    exact holding_update ring.holding rfl

/-- The handler frees the oldest descriptor. -/
theorem Ring.frees (ring : Ring chan skbs) (frees : Frees chan next) :
    ∃ skb rest, skbs = skb :: rest ∧ Ring next rest := by
  have head := ring.holds.at_head ring.pending
  have used := frees.used
  cases skbs with
  | nil =>
      rw [head] at used
      cases used
  | cons skb rest =>
      have less : rest.length < maxAftDmaChains := ring.few
      have held := ring.holds.pop ring.pending less
      refine ⟨skb, rest, rfl, ?_, less.le, ?_, ?_, ?_⟩
      · rw [frees.pending]
        exact advance_lt ring.pending
      · rw [frees.tx, frees.pending, ring.next, place_advance ring.pending less, List.length_cons]
      · rw [frees.table, frees.pending, slot_update]
        exact held
      · rw [frees.table]
        exact holding_update ring.holding rfl

theorem freeDescrs_clears (cfg : Cfg) (chan : Chan) (count : Nat) :
    (∀ i < count, (freeDescrs cfg chan count).table i = ⟨false, none⟩) ∧
      (freeDescrs cfg chan count).txIntrPending = chan.txIntrPending := by
  induction count with
  | zero => exact ⟨nofun, rfl⟩
  | succ count ih =>
      let before := freeDescrs cfg chan count
      have last : freeDescrs cfg chan (count + 1) =
          aftTxDmaChainInit cfg (before.setReg count ⟨false, false⟩) count := by
        rw [freeDescrs, List.range_succ, List.foldl_append]
        rfl
      obtain ⟨keeps, clear⟩ :=
        aftTxDmaChainInit_keeps cfg (before.setReg count ⟨false, false⟩) count
      rw [last]
      refine ⟨?_, keeps.sticky.trans ih.2⟩
      intro i bound
      by_cases here : i = count
      · rw [here, clear]
      · rw [keeps.table i here]
        exact ih.1 i (Nat.lt_of_le_of_ne (Nat.le_of_lt_succ bound) here)

/-- Where every descriptor is free the indices may stand anywhere, together. -/
theorem ring_nil {ptr : Nat} (inside : ptr < maxAftDmaChains)
    (clear : ∀ i < maxAftDmaChains, chan.table i = ⟨false, none⟩)
    (tx : chan.txChainIndx = ptr) (pending : chan.txPendingChainIndx = ptr) : Ring chan [] := by
  refine ⟨?_, Nat.zero_le _, ?_, ?_, ?_⟩
  · rw [pending]
    exact inside
  · rw [tx, pending]
    exact (place_zero inside).symm
  · intro i bound
    show (chan.table i).skb = _
    rw [clear i bound]
    exact List.getElem?_nil.symm
  · intro i bound
    rw [clear i bound]
    rfl

end Rings

end Wanpipe.Aft
