import Wanpipe.Aft.ReceiveRuns

/-! What becomes of the buffers and of the frames of a channel that receives. -/

namespace Wanpipe.Aft.Receive

open Wanpipe.Circle Line Relation

/-- What the card has stored in a descriptor that is in use. -/
def storedAt (chan : Chan) (i : Nat) : Option Stored :=
  (chan.table i).skb.bind fun _ => (chan.reg i).stored

/-- The buffers in the descriptors, and the frames in them that have not been handled. -/
def held (chan : Chan) : List Buf :=
  lined maxAftDmaChains (fun i => (chan.table i).skb) chan.rxPendingChainIndx

def waiting (chan : Chan) : List Stored :=
  lined maxAftDmaChains (storedAt chan) chan.rxPendingChainIndx

def countOf (addr : Nat) (bufs : List Buf) : Nat := bufs.countP fun buf => buf.addr == addr

def inHand (chan : Chan) : List Buf := chan.rxComplete.map fun element => element.buf

def toTake (chan : Chan) : List Stored := chan.rxComplete.map fun element => element.stored

/-- Each buffer is in one place, each frame is accounted for, and they are taken in order. -/
structure Kept (start : List Buf) (chan : Chan) : Prop where
  buffers : ∀ addr, countOf addr chan.rxFree + countOf addr (held chan) + countOf addr (inHand chan) +
    countOf addr chan.given = countOf addr start + countOf addr chan.allocated
  counted : chan.received.length = chan.taken.length + chan.rxComplete.length +
    (waiting chan).length + chan.rxDropped + chan.rxErrors + chan.discarded
  inOrder : (chan.taken ++ toTake chan ++ waiting chan).Sublist chan.received

section Steps

variable {cfg : Cfg} {start : List Buf} {chan next : Chan} {done used : Nat}

@[simp]
theorem countOf_nil (addr : Nat) : countOf addr [] = 0 := rfl

@[simp]
theorem countOf_append (addr : Nat) (left right : List Buf) :
    countOf addr (left ++ right) = countOf addr left + countOf addr right :=
  List.countP_append

theorem countOf_cons (addr : Nat) (buf : Buf) (bufs : List Buf) :
    countOf addr (buf :: bufs) = countOf addr bufs + countOf addr [buf] := by
  rw [← List.singleton_append, countOf_append, Nat.add_comm]

theorem countOf_headroom (addr : Nat) (buf : Buf) (headroom : Nat) :
    countOf addr [{ buf with headroom }] = countOf addr [buf] := rfl

theorem held_apart (apart : Apart chan next) : held next = held chan := by
  rw [held, held, apart.table, apart.pending]

theorem waiting_apart (apart : Apart chan next) : waiting next = waiting chan := by
  unfold waiting storedAt
  rw [apart.table, apart.reg, apart.pending]

theorem Kept.stores (kept : Kept start chan) (ring : Ring chan done used)
    (go : (chan.reg chan.cur).go = true) (stored : Stored) : Kept start (cardStores chan stored) := by
  obtain ⟨more, present, -, -, -⟩ := ring.at_cur go
  have few := ring.few
  rw [cardStores_eq go]
  have filled : storedAt
      { chan.setReg chan.cur ⟨false, (chan.reg chan.cur).intrDisable, some stored⟩ with
        cur := advance maxAftDmaChains chan.cur
        received := chan.received ++ [stored] } =
        Function.update (storedAt chan) (place maxAftDmaChains chan.rxPendingChainIndx done)
          (some stored) := by
    funext i
    rw [← ring.cur]
    unfold storedAt
    dsimp only [Chan.setReg]
    by_cases same : i = chan.cur
    · rw [same, Function.update_self, Function.update_self]
      obtain ⟨buf, some⟩ := Option.isSome_iff_exists.mp present
      rw [some, Option.bind_some]
    · rw [Function.update_of_ne same, Function.update_of_ne same]
  have behind : ∀ later < maxAftDmaChains, done ≤ later →
      storedAt chan (place maxAftDmaChains chan.rxPendingChainIndx later) = none := by
    intro later small above
    unfold storedAt
    cases held : (chan.table (place maxAftDmaChains chan.rxPendingChainIndx later)).skb with
    | none => rfl
    | some buf =>
        have unfilled := ring.filled _ (place_lt ring.pending small) (by rw [held]; rfl)
        rw [offset_place ring.pending small] at unfilled
        rw [Option.bind_some, ← Option.not_isSome_iff_eq_none, unfilled]
        exact Nat.not_lt.mpr above
  have pushed := lined_push stored ring.pending (Nat.lt_of_lt_of_le more few) behind
  rw [← filled] at pushed
  refine ⟨kept.buffers, ?_, ?_⟩
  · unfold waiting
    dsimp only [Chan.setReg] at pushed ⊢
    rw [pushed, List.length_append, List.length_append, kept.counted, waiting]
    omega
  · unfold waiting
    dsimp only [Chan.setReg] at pushed ⊢
    rw [pushed, ← List.append_assoc]
    exact kept.inOrder.append (List.Sublist.refl _)

theorem Kept.drops (kept : Kept start chan) (element : Element) (rest : List Element)
    (listed : chan.rxComplete = element :: rest) :
    Kept start (dropElement cfg { chan with rxComplete := rest } element) := by
  have apart := dropElement_apart cfg chan element rest
  obtain ⟨buffers, counted, inOrder⟩ := kept
  unfold inHand at buffers
  unfold toTake at inOrder
  rw [listed] at buffers counted inOrder
  refine ⟨?_, ?_, ?_⟩
  · intro addr
    have before := buffers addr
    rw [List.map_cons, countOf_cons] at before
    rw [held_apart apart]
    unfold dropElement requeueFreeSkb inHand
    dsimp only
    rw [countOf_append, countOf_headroom]
    omega
  · rw [waiting_apart apart]
    unfold dropElement requeueFreeSkb
    rw [List.length_cons] at counted
    dsimp only
    omega
  · rw [waiting_apart apart]
    refine List.Sublist.trans ?_ inOrder
    apply List.Sublist.append _ (List.Sublist.refl _)
    exact List.Sublist.append (List.Sublist.refl _) (List.sublist_cons_self _ _)

theorem Kept.takes (kept : Kept start chan) (fate : Fate) :
    Kept start (aftRxPostComplete cfg fate chan) := by
  have apart := aftRxPostComplete_apart cfg fate chan
  cases listed : chan.rxComplete with
  | nil =>
      rw [aftRxPostComplete, listed]
      exact kept
  | cons element rest =>
      obtain ⟨buffers, counted, inOrder⟩ := kept
      unfold inHand at buffers
      unfold toTake at inOrder
      rw [listed] at buffers counted inOrder
      rw [List.length_cons] at counted
      rw [List.map_cons, ← List.singleton_append, ← List.append_assoc] at inOrder
      have held := held_apart apart
      have waiting := waiting_apart apart
      rw [aftRxPostComplete, listed] at held waiting ⊢
      refine ⟨?_, ?_, ?_⟩
      · intro addr
        have before := buffers addr
        rw [List.map_cons, countOf_cons] at before
        rw [held]
        cases fate with
        | requeued =>
            unfold requeueFreeSkb inHand
            dsimp only
            rw [countOf_append, countOf_headroom]
            omega
        | passed memory =>
            cases memory with
            | none =>
                unfold inHand
                dsimp only
                rw [countOf_append]
                omega
            | some buf =>
                unfold inHand
                dsimp only
                rw [countOf_append, countOf_append, countOf_append]
                omega
      · rw [waiting]
        cases fate with
        | requeued =>
            unfold requeueFreeSkb
            dsimp only
            rw [List.length_append, List.length_singleton]
            omega
        | passed memory =>
            cases memory <;>
            · dsimp only
              rw [List.length_append, List.length_singleton]
              omega
      · rw [waiting]
        cases fate with
        | requeued => exact inOrder
        | passed memory => cases memory <;> exact inOrder

/-- What taking a frame over does to the lists. -/
structure TakenOver (cfg : Cfg) (buf : Buf) (stored : Stored) (chan next : Chan) : Prop where
  taken : next.taken = chan.taken
  given : next.given = chan.given
  allocated : next.allocated = chan.allocated
  dropped : next.rxDropped = chan.rxDropped
  lists :
    (next.rxFree = chan.rxFree ++ [{ buf with headroom := cfg.apiHdr }] ∧
        next.rxComplete = chan.rxComplete ∧
        next.rxErrors + next.discarded = chan.rxErrors + chan.discarded + 1) ∨
      (next.rxFree = chan.rxFree ∧
        next.rxComplete = chan.rxComplete ++
          [⟨{ buf with headroom := buf.headroom - cfg.rxElement }, stored.align &&& 3#32,
            lengthOf cfg stored, stored⟩] ∧
        next.rxErrors + next.discarded = chan.rxErrors + chan.discarded)

theorem takeOver_lists (cfg : Cfg) (connected : Bool) (chan : Chan) (buf : Buf) (stored : Stored) :
    TakenOver cfg buf stored chan (takeOver cfg connected chan buf stored) := by
  unfold takeOver
  split
  · refine ⟨rfl, rfl, rfl, rfl, Or.inl ⟨rfl, rfl, ?_⟩⟩
    unfold requeueFreeSkb
    dsimp only
    omega
  · split
    · exact ⟨rfl, rfl, rfl, rfl, Or.inr ⟨rfl, rfl, rfl⟩⟩
    · exact ⟨rfl, rfl, rfl, rfl, Or.inl ⟨rfl, rfl, rfl⟩⟩

theorem handle_lists (cfg : Cfg) (connected : Bool) (chan : Chan) (buf : Buf) (stored : Stored) :
    TakenOver cfg buf stored chan (handle cfg connected chan buf stored) := by
  unfold handle
  dsimp only [Chan.setDescr]
  split
  · obtain ⟨taken, given, allocated, dropped, lists⟩ := takeOver_lists cfg connected chan buf stored
    exact ⟨taken, given, allocated, dropped, lists⟩
  · obtain ⟨taken, given, allocated, dropped, lists⟩ :=
      takeOver_lists cfg connected { chan with rxIntrPending := false } buf stored
    exact ⟨taken, given, allocated, dropped, lists⟩

theorem storedAt_emptied {i : Nat}
    (emptied : next.table = Function.update chan.table i ⟨false, none⟩)
    (others : ∀ j ≠ i, next.reg j = chan.reg j) :
    storedAt next = Function.update (storedAt chan) i none := by
  funext j
  unfold storedAt
  rw [emptied]
  by_cases same : j = i
  · rw [same, Function.update_self, Function.update_self]
    rfl
  · rw [Function.update_of_ne same, Function.update_of_ne same, others j same]

theorem heldAt_emptied {i : Nat}
    (emptied : next.table = Function.update chan.table i ⟨false, none⟩) :
    (fun j => (next.table j).skb) = Function.update (fun j => (chan.table j).skb) i none := by
  funext j
  rw [emptied]
  by_cases same : j = i
  · rw [same, Function.update_self, Function.update_self]
  · rw [Function.update_of_ne same, Function.update_of_ne same]

theorem Kept.handles (kept : Kept start chan) (ring : Ring chan done used) (connected : Bool)
    (buf : Buf) (stored : Stored) (present : (chan.table chan.rxPendingChainIndx).skb = some buf)
    (filled : (chan.reg chan.rxPendingChainIndx).stored = some stored) :
    Kept start (handle cfg connected chan buf stored) := by
  obtain ⟨table, reg, -, -, pending, received⟩ := handle_ring cfg connected chan buf stored
  have slot : storedAt chan chan.rxPendingChainIndx = some stored := by
    rw [storedAt, present, Option.bind_some, filled]
  have bufs : held chan = buf :: held (handle cfg connected chan buf stored) := by
    rw [held, held, heldAt_emptied table, pending]
    exact lined_pop ring.pending present
  have frames : waiting chan = stored :: waiting (handle cfg connected chan buf stored) := by
    rw [waiting, waiting, storedAt_emptied table (fun j _ => by rw [reg]), pending]
    exact lined_pop ring.pending slot
  obtain ⟨buffers, counted, inOrder⟩ := kept
  rw [bufs] at buffers
  rw [frames] at counted inOrder
  obtain ⟨taken, given, allocated, dropped, lists⟩ := handle_lists cfg connected chan buf stored
  rw [List.length_cons] at counted
  unfold inHand at buffers
  unfold toTake at inOrder
  rcases lists with ⟨free, complete, failed⟩ | ⟨free, complete, failed⟩
  · refine ⟨?_, ?_, ?_⟩
    · intro addr
      have before := buffers addr
      rw [countOf_cons] at before
      rw [inHand, free, complete, given, allocated, countOf_append, countOf_headroom]
      omega
    · rw [received, taken, complete, dropped]
      omega
    · rw [toTake, received, taken, complete]
      refine List.Sublist.trans ?_ inOrder
      exact List.Sublist.append (List.Sublist.refl _) (List.sublist_cons_self _ _)
  · refine ⟨?_, ?_, ?_⟩
    · intro addr
      have before := buffers addr
      rw [countOf_cons] at before
      rw [inHand, free, complete, given, allocated, List.map_append, countOf_append, List.map_singleton,
        countOf_headroom]
      omega
    · rw [received, taken, complete, dropped, List.length_append, List.length_singleton]
      omega
    · rw [toTake, received, taken, complete, List.map_append, List.map_singleton, ← List.append_assoc,
        List.append_assoc _ [stored], List.singleton_append]
      exact inOrder

theorem Kept.posts (kept : Kept start chan) (ring : Ring chan done used)
    (room : used < maxAftDmaChains) (ptr freeLen : Nat) (buf : Buf) (rest : List Buf)
    (listed : chan.rxFree = buf :: rest) :
    Kept start (post cfg ptr freeLen { chan with rxFree := rest } buf) := by
  have here : offset maxAftDmaChains chan.rxPendingChainIndx chan.rxChainIndx = used := by
    rw [ring.next, offset_place ring.pending room]
  have bound : chan.rxChainIndx < maxAftDmaChains := by
    rw [ring.next]
    exact place_lt ring.pending room
  have behind : ∀ later < maxAftDmaChains, used ≤ later →
      (chan.table (place maxAftDmaChains chan.rxPendingChainIndx later)).skb = none := by
    intro later small above
    rw [← Option.not_isSome_iff_eq_none]
    intro present
    have near := ring.inside _ (place_lt ring.pending small) present
    rw [offset_place ring.pending small] at near
    omega
  have free : (chan.table chan.rxChainIndx).skb = none := by
    rw [ring.next]
    exact behind used room (Nat.le_refl used)
  have bufs : held (post cfg ptr freeLen { chan with rxFree := rest } buf) = held chan ++ [buf] := by
    refine Eq.trans ?_ (lined_push buf ring.pending room behind)
    rw [← ring.next]
    unfold held post aftDmaChainRx
    dsimp only [Chan.setDescr, Chan.setReg]
    congr 1
    funext i
    by_cases same : i = chan.rxChainIndx
    · rw [same, Function.update_self, Function.update_self]
    · rw [Function.update_of_ne same, Function.update_of_ne same]
  have frames : waiting (post cfg ptr freeLen { chan with rxFree := rest } buf) = waiting chan := by
    unfold waiting post aftDmaChainRx
    dsimp only [Chan.setDescr, Chan.setReg]
    congr 1
    funext i
    unfold storedAt
    dsimp only
    by_cases same : i = chan.rxChainIndx
    · rw [same, Function.update_self, Function.update_self, free]
      rfl
    · rw [Function.update_of_ne same, Function.update_of_ne same]
  obtain ⟨buffers, counted, inOrder⟩ := kept
  refine ⟨?_, ?_, ?_⟩
  · intro addr
    have before := buffers addr
    rw [listed, countOf_cons] at before
    rw [bufs, countOf_append]
    unfold post aftDmaChainRx inHand at *
    dsimp only [Chan.setDescr, Chan.setReg]
    omega
  · rw [frames]
    exact counted
  · rw [frames]
    exact inOrder

/-- What taking a descriptor back does to the lists. -/
theorem freeDescr_lists (cfg : Cfg) (chan : Chan) (i : Nat) :
    (freeDescr cfg chan i).taken = chan.taken ∧ (freeDescr cfg chan i).given = chan.given ∧
      (freeDescr cfg chan i).allocated = chan.allocated ∧
      (freeDescr cfg chan i).rxDropped = chan.rxDropped ∧
      (freeDescr cfg chan i).rxErrors = chan.rxErrors ∧
      (freeDescr cfg chan i).rxComplete = chan.rxComplete ∧
      (∀ addr, countOf addr (freeDescr cfg chan i).rxFree =
        countOf addr chan.rxFree + countOf addr (chan.table i).skb.toList) ∧
      (freeDescr cfg chan i).discarded = chan.discarded + (storedAt chan i).toList.length := by
  have lost : (storedAt chan i).toList.length =
      if (chan.reg i).stored.isSome && (chan.table i).skb.isSome then 1 else 0 := by
    unfold storedAt
    cases (chan.table i).skb with
    | none =>
        rw [Option.isSome_none, Bool.and_false]
        rfl
    | some buf =>
        rw [Option.isSome_some, Bool.and_true, Option.bind_some]
        cases (chan.reg i).stored <;> rfl
  rw [lost]
  unfold freeDescr
  dsimp only [Chan.setDescr, Chan.setReg]
  cases present : (chan.table i).skb with
  | none => exact ⟨rfl, rfl, rfl, rfl, rfl, rfl, fun _ => rfl, rfl⟩
  | some buf =>
      refine ⟨rfl, rfl, rfl, rfl, rfl, rfl, ?_, rfl⟩
      intro addr
      unfold requeueFreeSkb
      dsimp only
      rw [countOf_append, countOf_headroom, Option.toList_some]

theorem Kept.frees (kept : Kept start chan) (ring : Ring chan done used) (i : Nat)
    (inside : i < maxAftDmaChains) : Kept start (freeDescr cfg chan i) := by
  obtain ⟨table, reg, -, -, pending, received, -⟩ := freeDescr_ring cfg chan i
  obtain ⟨taken, given, allocated, dropped, errors, complete, free, discarded⟩ :=
    freeDescr_lists cfg chan i
  obtain ⟨front, back, bufs, fewer⟩ :=
    @lined_clear _ _ _ (fun j => (chan.table j).skb) _ ring.pending inside
  obtain ⟨before, behind, frames, less⟩ := @lined_clear _ _ _ (storedAt chan) _ ring.pending inside
  rw [← heldAt_emptied table, ← pending] at fewer
  rw [← storedAt_emptied table fun j other => by rw [reg, Function.update_of_ne other], ← pending] at less
  obtain ⟨buffers, counted, inOrder⟩ := kept
  unfold held at buffers
  unfold waiting at counted inOrder
  rw [bufs] at buffers
  rw [frames] at counted inOrder
  refine ⟨?_, ?_, ?_⟩
  · intro addr
    have was := buffers addr
    rw [countOf_append, countOf_append] at was
    rw [held, fewer, inHand, given, allocated, complete, free, countOf_append]
    unfold inHand at was
    omega
  · rw [waiting, less, received, taken, complete, dropped, errors, discarded, List.length_append]
    rw [List.length_append, List.length_append] at counted
    omega
  · rw [waiting, less, received, taken, toTake, complete]
    refine List.Sublist.trans ?_ inOrder
    apply List.Sublist.append (List.Sublist.refl _)
    apply List.Sublist.append _ (List.Sublist.refl _)
    exact List.sublist_append_left _ _

theorem Kept.resets (kept : Kept start chan) (ring : Ring chan done used) (ptr : Fin maxAftDmaChains)
    (empty : ∀ i < maxAftDmaChains, (chan.table i).skb = none) :
    Kept start (aftResetRxChainCnt { chan with cur := ptr.val }) := by
  have unfilled : ∀ i < maxAftDmaChains, storedAt chan i = none := by
    intro i inside
    rw [storedAt, empty i inside]
    rfl
  have bufs : held (aftResetRxChainCnt { chan with cur := ptr.val }) = held chan :=
    (lined_empty empty ptr.isLt).trans (lined_empty empty ring.pending).symm
  have frames : waiting (aftResetRxChainCnt { chan with cur := ptr.val }) = waiting chan :=
    (lined_empty unfilled ptr.isLt).trans (lined_empty unfilled ring.pending).symm
  obtain ⟨buffers, counted, inOrder⟩ := kept
  refine ⟨?_, ?_, ?_⟩
  · rw [bufs]
    exact buffers
  · rw [frames]
    exact counted
  · rw [frames]
    exact inOrder

theorem Kept.moves {most : Nat} {freeing : Bool} (kept : Kept start chan)
    (move : Moves cfg most freeing chan next) (ring : Ring chan done used) : Kept start next := by
  cases move with
  | stores stored go => exact kept.stores ring go stored
  | handles connected buf stored held filled => exact kept.handles ring connected buf stored held filled
  | posts ahead done used freeLen buf rest listed ring room _ =>
      exact kept.posts ring room _ freeLen buf rest listed
  | drops element rest listed => exact kept.drops element rest listed
  | takes fate => exact kept.takes fate
  | frees i inside _ => exact kept.frees ring i inside
  | resets ptr empty => exact kept.resets ring ptr empty

theorem configured_kept (bufs : List Buf) (ptr : Fin maxAftDmaChains) :
    Kept bufs (aftResetRxChainCnt (configured bufs ptr)) := by
  have unfilled : held (aftResetRxChainCnt (configured bufs ptr)) = [] :=
    lined_empty (fun _ _ => rfl) ptr.isLt
  have nothing : waiting (aftResetRxChainCnt (configured bufs ptr)) = [] :=
    lined_empty (fun _ _ => rfl) ptr.isLt
  refine ⟨?_, ?_, ?_⟩
  · intro addr
    rw [unfilled]
    rfl
  · rw [nothing]
    rfl
  · rw [nothing]
    exact List.Sublist.refl []

end Steps

/-- All the buffers of a channel, wherever they are. -/
def everywhere (chan : Chan) : List Buf := chan.rxFree ++ held chan ++ inHand chan ++ chan.given

end Wanpipe.Aft.Receive
