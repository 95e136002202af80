import Wanpipe.Aft.ReceiveMoves

/-! Whatever happens on a channel that receives is a chain of moves. -/

namespace Wanpipe.Aft.Receive

open Wanpipe.Circle Line Relation

/-- Moves one after the other. -/
abbrev Chained (cfg : Cfg) (most : Nat) (freeing : Bool) : Chan → Chan → Prop :=
  ReflTransGen (Moves cfg most freeing)

section Chains

variable {cfg : Cfg} {most done used : Nat} {freeing : Bool} {chan next : Chan}

theorem Chained.ring (chained : Chained cfg most freeing chan next) (ring : Ring chan done used) :
    ∃ done used, Ring next done used := by
  induction chained with
  | refl => exact ⟨done, used, ring⟩
  | tail _ move ih =>
      obtain ⟨done', used', between⟩ := ih
      exact move.ring between

/-- What is left of a chain when every move keeps it, and when the descriptors form a ring. -/
theorem Chained.keeps {kept : Chan → Prop}
    (each : ∀ {chan next : Chan} {done used : Nat}, Moves cfg most freeing chan next → Ring chan done used →
      kept chan → kept next)
    (chained : Chained cfg most freeing chan next) (ring : Ring chan done used) (start : kept chan) :
    kept next := by
  induction chained with
  | refl => exact start
  | tail before move ih =>
      obtain ⟨done', used', between⟩ := Chained.ring before ring
      exact each move between ih

theorem cardStores_chained (stored : Stored) : Chained cfg most freeing chan (cardStores chan stored) := by
  cases go : (chan.reg chan.cur).go with
  | false =>
      rw [cardStores, go]
      exact ReflTransGen.refl
  | true => exact ReflTransGen.single (Moves.stores chan stored go)

theorem Full.stores (full : Full chan used) (stored : Stored) : Full (cardStores chan stored) used := by
  unfold cardStores
  split <;> exact full

/-- Frames come: none is stored when the card has reached the driver's descriptor. -/
theorem arrivals_chained (ring : Ring chan done used) (full : Full chan used) (frames : List Stored) :
    Chained cfg most freeing chan (arrivals chan frames) ∧ Full (arrivals chan frames) used ∧
      (arrivals chan frames).rxPendingChainIndx = chan.rxPendingChainIndx ∧
      ∃ done', Ring (arrivals chan frames) done' used ∧ done' ≤ done + frames.length := by
  induction frames generalizing chan done with
  | nil => exact ⟨ReflTransGen.refl, full, rfl, done, ring, Nat.le_refl _⟩
  | cons stored frames ih =>
      have first : (cardStores chan stored).rxPendingChainIndx = chan.rxPendingChainIndx := by
        unfold cardStores
        split <;> rfl
      have step : ∃ done', Ring (cardStores chan stored) done' used ∧ done' ≤ done + 1 := by
        cases go : (chan.reg chan.cur).go with
        | false =>
            rw [cardStores, go]
            exact ⟨done, ring, Nat.le_succ done⟩
        | true => exact ⟨done + 1, ring.stores go stored, Nat.le_refl _⟩
      obtain ⟨between, ringed, near⟩ := step
      obtain ⟨chained, fuller, pending, last, ring', bound⟩ := ih ringed (full.stores stored)
      rw [arrivals, List.foldl_cons]
      refine ⟨(cardStores_chained stored).trans chained, fuller, pending.trans first, last, ring', ?_⟩
      rw [List.length_cons]
      omega

/-- The frames that are not taken yet are dropped one by one. -/
theorem dropped_chained (elements : List Element) (chan : Chan) :
    Chained cfg most freeing { chan with rxComplete := elements }
      (elements.foldl (dropElement cfg) { chan with rxComplete := [] }) := by
  induction elements generalizing chan with
  | nil => exact ReflTransGen.refl
  | cons element elements ih =>
      have move : Moves cfg most freeing { chan with rxComplete := element :: elements }
          (dropElement cfg { chan with rxComplete := elements } element) :=
        Moves.drops { chan with rxComplete := element :: elements } element elements rfl
      rw [List.foldl_cons]
      exact ReflTransGen.head move (ih (dropElement cfg { chan with rxComplete := [] } element))

theorem dropped_apart (elements : List Element) (chan : Chan) :
    Apart chan (elements.foldl (dropElement cfg) chan) := by
  induction elements generalizing chan with
  | nil => exact ⟨rfl, rfl, rfl, rfl, rfl, rfl, rfl⟩
  | cons element elements ih =>
      obtain ⟨table, reg, cur, chain, pending, received, flag⟩ := ih (dropElement cfg chan element)
      exact ⟨table, reg, cur, chain, pending, received, flag⟩

theorem aftFreeRxCompleteList_chained (cfg : Cfg) (most : Nat) (freeing : Bool) (chan : Chan) :
    Chained cfg most freeing chan (aftFreeRxCompleteList cfg chan) :=
  dropped_chained chan.rxComplete chan

theorem aftFreeRxCompleteList_apart (cfg : Cfg) (chan : Chan) :
    Apart chan (aftFreeRxCompleteList cfg chan) := by
  obtain ⟨table, reg, cur, chain, pending, received, flag⟩ :=
    @dropped_apart cfg chan.rxComplete { chan with rxComplete := [] }
  exact ⟨table, reg, cur, chain, pending, received, flag⟩

/-- The list that a buffer for a descriptor is taken from. -/
theorem dequeueFree_cases (cfg : Cfg) (most : Nat) (freeing : Bool) (chan : Chan) :
    ∃ listed, Chained cfg most freeing chan listed ∧ Apart chan listed ∧
      ((listed.rxFree = [] ∧ dequeueFree cfg chan = (none, listed)) ∨
        ∃ buf rest, listed.rxFree = buf :: rest ∧
          dequeueFree cfg chan = (some buf, { listed with rxFree := rest })) := by
  cases free : chan.rxFree with
  | cons buf rest =>
      refine ⟨chan, ReflTransGen.refl, ⟨rfl, rfl, rfl, rfl, rfl, rfl, rfl⟩, Or.inr ⟨buf, rest, free, ?_⟩⟩
      rw [dequeueFree, free]
  | nil =>
      refine ⟨aftFreeRxCompleteList cfg chan, aftFreeRxCompleteList_chained cfg most freeing chan,
        aftFreeRxCompleteList_apart cfg chan, ?_⟩
      rw [dequeueFree, free]
      dsimp only
      cases freed : (aftFreeRxCompleteList cfg chan).rxFree with
      | nil => exact Or.inl ⟨rfl, rfl⟩
      | cons buf rest => exact Or.inr ⟨buf, rest, rfl, rfl⟩

/-- The descriptor at the chain index is free only if there is one left. -/
theorem Ring.room (ring : Ring chan done used) (full : Full chan used)
    (free : (chan.table chan.rxChainIndx).init = false) : used < maxAftDmaChains := by
  rcases Nat.lt_or_eq_of_le ring.few with less | all
  · exact less
  · have here : chan.rxChainIndx = chan.rxPendingChainIndx := by rw [ring.next, all, place_size]
    have held : (chan.table chan.rxPendingChainIndx).skb.isSome = true := by
      apply full _ ring.pending
      rw [offset_self, all]
      decide
    rw [here, ring.holding _ ring.pending, held] at free
    cases free

theorem dmaRxLoop_chained {ptr ahead : Nat} (near : ahead ≤ most) (turns freeLen : Nat)
    (during : List (List Stored)) (ring : Ring chan done used) (full : Full chan used)
    (pointed : ptr = place maxAftDmaChains chan.rxPendingChainIndx ahead) :
    Chained cfg most freeing chan (dmaRxLoop cfg ptr turns freeLen during chan) ∧
      ∃ done used, Ring (dmaRxLoop cfg ptr turns freeLen during chan) done used ∧
        Full (dmaRxLoop cfg ptr turns freeLen during chan) used := by
  induction turns generalizing freeLen during chan done used with
  | zero => exact ⟨ReflTransGen.refl, done, used, ring, full⟩
  | succ turns ih =>
      obtain ⟨came, fuller, still, later, ringed, -⟩ :=
        @arrivals_chained cfg most _ _ freeing _ ring full (during.headD [])
      rw [dmaRxLoop]
      split
      · exact ⟨came, later, used, ringed, fuller⟩
      · next free =>
          have room := ringed.room fuller (Bool.eq_false_iff.mpr free)
          obtain ⟨listed, chained, apart, ⟨-, none⟩ | ⟨buf, rest, some, taken⟩⟩ :=
            dequeueFree_cases cfg most freeing (arrivals chan (during.headD []))
          · rw [none]
            exact ⟨came.trans chained, later, used, ringed.apart apart, fuller.apart apart⟩
          · have here : ptr = place maxAftDmaChains listed.rxPendingChainIndx ahead := by
              rw [apart.pending, still, pointed]
            have ring' := ringed.apart apart
            have shorter : Apart listed { listed with rxFree := rest } :=
              ⟨rfl, rfl, rfl, rfl, rfl, rfl, rfl⟩
            have move := @Moves.posts cfg most freeing listed ahead later used freeLen buf rest some ring'
              room near
            have step := @Ring.posts cfg _ _ _ (ring'.apart shorter) room ptr freeLen buf
            have more := @Full.posts cfg _ _ _ ((fuller.apart apart).apart shorter)
              (ring'.apart shorter) ptr freeLen buf
            rw [← here] at move
            rw [taken]
            obtain ⟨others, last⟩ := ih (if listed.rxIntrPending then freeLen else freeLen - 1)
              during.tail step more here
            exact ⟨(came.trans chained).trans (ReflTransGen.head move others), last⟩

theorem aftDmaRx_chained (filling : List (List Stored)) (ring : Ring chan done used)
    (full : Full chan used) (near : done ≤ most) :
    Chained cfg most freeing chan (aftDmaRx cfg filling chan) ∧
      ∃ done used, Ring (aftDmaRx cfg filling chan) done used ∧ Full (aftDmaRx cfg filling chan) used := by
  have freed : ∃ listed, Chained cfg most freeing chan listed ∧ Apart chan listed ∧
      aftDmaRx cfg filling chan = if listed.rxFree.length < maxAftDmaChains then listed
        else dmaRxLoop cfg listed.cur maxAftDmaChains listed.rxFree.length filling listed := by
    unfold aftDmaRx
    dsimp only
    split
    · exact ⟨_, aftFreeRxCompleteList_chained cfg most freeing chan, aftFreeRxCompleteList_apart cfg chan, rfl⟩
    · next enough =>
        exact ⟨chan, ReflTransGen.refl, ⟨rfl, rfl, rfl, rfl, rfl, rfl, rfl⟩, (if_neg enough).symm⟩
  obtain ⟨listed, chained, apart, result⟩ := freed
  have ring' := ring.apart apart
  have full' := full.apart apart
  rw [result]
  split
  · exact ⟨chained, done, used, ring', full'⟩
  · rw [ring'.cur]
    obtain ⟨others, last⟩ := dmaRxLoop_chained near maxAftDmaChains listed.rxFree.length filling
      ring' full' rfl
    exact ⟨chained.trans others, last⟩

/-- What a turn of the handler's loop finds. -/
theorem handlerTurn_cases (connected first : Bool) (ptr : Nat) (ring : Ring chan done used)
    (full : Full chan used) :
    (handlerTurn cfg connected first ptr chan = none ∧
        (done = 0 ∨ first = false ∧ chan.rxPendingChainIndx = ptr)) ∨
      ∃ buf stored, handlerTurn cfg connected first ptr chan =
          some (handle cfg connected chan buf stored) ∧
        (chan.table chan.rxPendingChainIndx).skb = some buf ∧
        (chan.reg chan.rxPendingChainIndx).stored = some stored ∧
        (first = false → chan.rxPendingChainIndx ≠ ptr) := by
  unfold handlerTurn
  dsimp only
  by_cases ends : (!first && chan.rxPendingChainIndx == ptr) = true
  · rw [if_pos ends]
    rw [Bool.and_eq_true, Bool.not_eq_true', beq_iff_eq] at ends
    exact Or.inl ⟨rfl, Or.inr ends⟩
  rw [if_neg ends]
  have goesOn : first = false → chan.rxPendingChainIndx ≠ ptr := by
    intro later same
    apply ends
    rw [later, same, beq_self_eq_true]
    rfl
  have ahead := ring.ahead
  have nothing : (chan.table chan.rxPendingChainIndx).skb = none → done = 0 := by
    intro free
    by_contra some
    have held := full _ ring.pending (by rw [offset_self]; omega)
    rw [free] at held
    cases held
  have empty : (chan.reg chan.rxPendingChainIndx).stored = none → done = 0 := by
    intro unfilled
    by_contra some
    have held := full _ ring.pending (by rw [offset_self]; omega)
    have filled := (ring.filled _ ring.pending held).mpr (by rw [offset_self]; omega)
    rw [unfilled] at filled
    cases filled
  rw [ring.holding _ ring.pending, ring.go _ ring.pending]
  cases held : (chan.table chan.rxPendingChainIndx).skb with
  | none => exact Or.inl ⟨rfl, Or.inl (nothing held)⟩
  | some buf =>
      cases filled : (chan.reg chan.rxPendingChainIndx).stored with
      | none => exact Or.inl ⟨rfl, Or.inl (empty filled)⟩
      | some stored => exact Or.inr ⟨buf, stored, rfl, rfl, rfl, goesOn⟩

/-- The loop of the handler stops at the pointer that was read before it, `left` descriptors ahead:
what has been filled by then was filled in the meantime. -/
theorem handlerLoop_chained {connected first : Bool} {ptr turns left : Nat}
    (during : List (List Stored)) (late : Nat) (ring : Ring chan done used) (full : Full chan used)
    (pointed : ptr = place maxAftDmaChains chan.rxPendingChainIndx left) (enough : left ≤ turns)
    (inside : left ≤ maxAftDmaChains) (starts : first = true → 0 < left)
    (goesOn : first = false → left < maxAftDmaChains) (bound : done ≤ left + late) :
    Chained cfg most freeing chan (handlerLoop cfg connected ptr turns first during chan) ∧
      ∃ done used, Ring (handlerLoop cfg connected ptr turns first during chan) done used ∧
        Full (handlerLoop cfg connected ptr turns first during chan) used ∧
        done ≤ late + during.flatten.length := by
  induction turns generalizing first during chan done used left late with
  | zero => exact ⟨ReflTransGen.refl, done, used, ring, full, by omega⟩
  | succ turns ih =>
      obtain ⟨came, fuller, still, later, ringed, most'⟩ :=
        @arrivals_chained cfg most _ _ freeing _ ring full (during.headD [])
      have parts : (during.headD []).length + during.tail.flatten.length = during.flatten.length := by
        cases during with
        | nil => rfl
        | cons frames during => rw [List.flatten_cons, List.length_append]; rfl
      rw [handlerLoop]
      obtain ⟨ends, stopped⟩ | ⟨buf, stored, some, held, filled, more⟩ :=
        @handlerTurn_cases cfg _ _ _ connected first ptr ringed fuller
      · rw [ends]
        refine ⟨came, later, used, ringed, fuller, ?_⟩
        rcases stopped with none | ⟨notFirst, reached⟩
        · omega
        · have zero : left = 0 := by
            have offsets := offset_place ring.pending (goesOn notFirst)
            rw [← pointed, ← reached, still, offset_self] at offsets
            exact offsets.symm
          omega
      · obtain ⟨done', used', rfl, rfl, go⟩ := ringed.before_handles held filled
        have positive : 0 < left := by
          cases first with
          | true => exact starts rfl
          | false =>
              apply Nat.pos_of_ne_zero
              intro zero
              apply more rfl
              rw [pointed, still, zero, place_zero ring.pending]
        obtain ⟨left', rfl⟩ : ∃ left', left = left' + 1 := ⟨left - 1, by omega⟩
        obtain ⟨-, -, -, -, pending, -⟩ :=
          handle_ring cfg connected (arrivals chan (during.headD [])) buf stored
        have here : ptr = place maxAftDmaChains
            (handle cfg connected (arrivals chan (during.headD [])) buf stored).rxPendingChainIndx
              left' := by
          rw [pending, still, place_advance ring.pending (by omega), pointed]
        have move := @Moves.handles cfg most freeing _ connected buf stored held filled
        rw [some]
        obtain ⟨others, last, used'', ring', full', few⟩ :=
          @ih _ _ _ false left' during.tail (late + (during.headD []).length)
            (ringed.handles connected buf stored go) (fuller.handles ringed connected buf stored) here
            (by omega) (by omega) (fun wrong => by cases wrong) (fun _ => by omega) (by omega)
        exact ⟨came.trans (ReflTransGen.head move others), last, used'', ring', full', by omega⟩

theorem arrivals_kept (chan : Chan) (frames : List Stored) :
    (arrivals chan frames).table = chan.table ∧
      (arrivals chan frames).rxIntrPending = chan.rxIntrPending := by
  induction frames generalizing chan with
  | nil => exact ⟨rfl, rfl⟩
  | cons stored frames ih =>
      obtain ⟨table, flag⟩ := ih (cardStores chan stored)
      have first : (cardStores chan stored).table = chan.table ∧
          (cardStores chan stored).rxIntrPending = chan.rxIntrPending := by
        unfold cardStores
        split <;> exact ⟨rfl, rfl⟩
      exact ⟨table.trans first.1, flag.trans first.2⟩

theorem arrivals_reaches (frames : List Stored) (chan : Chan) :
    Chained cfg most freeing chan (arrivals chan frames) := by
  induction frames generalizing chan with
  | nil => exact ReflTransGen.refl
  | cons stored frames ih => exact (cardStores_chained stored).trans (ih (cardStores chan stored))

/-- After the loop none of the descriptors that it has gone through is in use. -/
theorem freeLoop_chained (turns i : Nat) (during : List (List Stored))
    (inside : i + turns ≤ maxAftDmaChains) (chan : Chan)
    (before : ∀ j < i, (chan.table j).skb = none) :
    Chained cfg most true chan (freeLoop cfg turns i during chan) ∧
      (∀ j < i + turns, ((freeLoop cfg turns i during chan).table j).skb = none) ∧
      (freeLoop cfg turns i during chan).rxIntrPending = chan.rxIntrPending := by
  induction turns generalizing i during chan with
  | zero => exact ⟨ReflTransGen.refl, before, rfl⟩
  | succ turns ih =>
      obtain ⟨table, -, -, -, -, -, freed⟩ := freeDescr_ring cfg (arrivals chan (during.headD [])) i
      obtain ⟨same, flag⟩ := arrivals_kept chan (during.headD [])
      have fewer : ∀ j < i + 1,
          ((freeDescr cfg (arrivals chan (during.headD [])) i).table j).skb = none := by
        intro j near
        rw [table, same]
        by_cases here : j = i
        · rw [here, Function.update_self]
        · rw [Function.update_of_ne here]
          exact before j (by omega)
      obtain ⟨others, empty, kept⟩ := ih (i + 1) during.tail (by omega) _ fewer
      have came := @arrivals_reaches cfg most true (during.headD []) chan
      have move := @Moves.frees cfg most true (arrivals chan (during.headD [])) i (by omega) rfl
      rw [freeLoop]
      refine ⟨came.trans (ReflTransGen.head move others), ?_, kept.trans (freed.trans flag)⟩
      intro j near
      exact empty j (by omega)

theorem aftFreeRxDescriptors_chained (during : List (List Stored)) (ring : Ring chan done used) :
    Chained cfg most true chan (aftFreeRxDescriptors cfg during chan) ∧
      Ring (aftFreeRxDescriptors cfg during chan) 0 0 ∧
      (∀ i < maxAftDmaChains, ((aftFreeRxDescriptors cfg during chan).table i).skb = none) ∧
      (aftFreeRxDescriptors cfg during chan).rxIntrPending = chan.rxIntrPending := by
  obtain ⟨freed, empty, flag⟩ := @freeLoop_chained cfg most maxAftDmaChains 0 during
    (Nat.le_of_eq (Nat.zero_add _)) chan (fun j wrong => absurd wrong (Nat.not_lt_zero j))
  rw [Nat.zero_add] at empty
  obtain ⟨done', used', ring'⟩ := Chained.ring freed ring
  have here := ring'.cur_lt
  have move := @Moves.resets cfg most true (freeLoop cfg maxAftDmaChains 0 during chan) ⟨_, here⟩ empty
  exact ⟨freed.trans (ReflTransGen.single move), ring'.resets ⟨_, here⟩ empty, empty, flag⟩

theorem Full.zero (chan : Chan) : Full chan 0 := fun i _ wrong =>
  absurd wrong (Nat.not_lt_zero (offset maxAftDmaChains chan.rxPendingChainIndx i))

/-- The descriptors are filled again when all have been taken back. The flag is as it was. -/
theorem aftRxFifoOverRecover_cases (most : Nat) (during : List (List Stored))
    (ptr : Fin maxAftDmaChains) (filling : List (List Stored)) (ring : Ring chan done used) :
    ∃ middle, aftRxFifoOverRecover cfg during ptr filling chan = aftDmaRx cfg filling middle ∧
      Chained cfg most true chan middle ∧ Ring middle 0 0 ∧
      (∀ i < maxAftDmaChains, (middle.table i).skb = none) ∧
      middle.rxIntrPending = chan.rxIntrPending := by
  unfold aftRxFifoOverRecover
  split
  · exact ⟨_, rfl, aftFreeRxDescriptors_chained during ring⟩
  · have apart := aftFreeRxCompleteList_apart cfg chan
    obtain ⟨freed, ring', empty, flag⟩ := @aftFreeRxDescriptors_chained cfg most _ _ _ [] (ring.apart apart)
    have move := @Moves.resets cfg most true
      (aftFreeRxDescriptors cfg [] (aftFreeRxCompleteList cfg chan)) ptr empty
    have dropped := aftFreeRxCompleteList_chained cfg most true chan
    exact ⟨_, rfl, (dropped.trans freed).tail move, ring'.resets ptr empty, empty,
      flag.trans apart.flag⟩

theorem aftRxFifoOverRecover_chained (during : List (List Stored)) (ptr : Fin maxAftDmaChains)
    (filling : List (List Stored)) (ring : Ring chan done used) :
    Chained cfg most true chan (aftRxFifoOverRecover cfg during ptr filling chan) ∧
      ∃ done used, Ring (aftRxFifoOverRecover cfg during ptr filling chan) done used ∧
        Full (aftRxFifoOverRecover cfg during ptr filling chan) used := by
  obtain ⟨middle, result, freed, ring', -⟩ :=
    @aftRxFifoOverRecover_cases cfg _ _ _ most during ptr filling ring
  obtain ⟨filled, last⟩ := @aftDmaRx_chained cfg most _ _ true _ filling ring' (Full.zero _)
    (Nat.zero_le most)
  rw [result]
  exact ⟨freed.trans filled, last⟩

/-- How many frames may come between the two times that the handler looks where the card is. -/
def Op.within (most : Nat) : Op → Prop
  | .interrupt _ during late _ => during.flatten.length + late.length ≤ most
  | _ => True

def Op.recovers : Op → Bool
  | .recover .. => true
  | _ => false

theorem step_chained (op : Op) (ring : Ring chan done used) (full : Full chan used)
    (within : op.within most ∨ maxAftDmaChains ≤ most) (allowed : op.recovers = true → freeing = true) :
    Chained cfg most freeing chan (step cfg chan op) ∧
      ∃ done used, Ring (step cfg chan op) done used ∧ Full (step cfg chan op) used := by
  cases op with
  | frames frames =>
      obtain ⟨came, full', -, done', ring', -⟩ :=
        @arrivals_chained cfg most _ _ freeing _ ring full frames
      exact ⟨came, done', used, ring', full'⟩
  | interrupt connected during late filling =>
      have few := Nat.le_trans ring.ahead ring.few
      -- A pointer that is at the pending descriptor is a whole ring ahead of it.
      obtain ⟨left, pointed, positive, inside, bound⟩ : ∃ left,
          chan.cur = place maxAftDmaChains chan.rxPendingChainIndx left ∧ 0 < left ∧
            left ≤ maxAftDmaChains ∧ done ≤ left := by
        by_cases none : done = 0
        · refine ⟨maxAftDmaChains, ?_, by decide, Nat.le_refl _, few⟩
          rw [ring.cur, none, place_size, place_zero ring.pending]
        · exact ⟨done, ring.cur, by omega, few, Nat.le_refl _⟩
      obtain ⟨handled, done₁, used₁, ring₁, full₁, near⟩ :=
        @handlerLoop_chained cfg most _ _ freeing _ connected true _ maxAftDmaChains _ during 0 ring full
          pointed inside inside (fun _ => positive) (fun wrong => by cases wrong) bound
      obtain ⟨came, full₂, -, done₂, ring₂, nearer⟩ :=
        @arrivals_chained cfg most _ _ freeing _ ring₁ full₁ late
      have limit : done₂ ≤ most := by
        rcases within with within | all
        · rw [Op.within] at within
          omega
        · exact Nat.le_trans (Nat.le_trans ring₂.ahead ring₂.few) all
      obtain ⟨filled, last⟩ := @aftDmaRx_chained cfg most _ _ freeing _ filling ring₂ full₂ limit
      exact ⟨(handled.trans came).trans filled, last⟩
  | bottomHalf fate =>
      have apart := aftRxPostComplete_apart cfg fate chan
      exact ⟨ReflTransGen.single (Moves.takes chan fate), done, used, ring.apart apart,
        full.apart apart⟩
  | recover during ptr filling =>
      rw [allowed rfl]
      exact aftRxFifoOverRecover_chained during ptr filling ring

theorem configured_ring (bufs : List Buf) (ptr : Fin maxAftDmaChains) :
    Ring (aftResetRxChainCnt (configured bufs ptr)) 0 0 := by
  have start := (place_zero ptr.isLt).symm
  refine ⟨ptr.isLt, Nat.le_refl 0, Nat.zero_le _, start, start, fun _ _ => rfl, fun _ _ => rfl, ?_, ?_⟩
  · intro i _ wrong
    cases wrong
  · intro i _ wrong
    cases wrong

theorem started_chained (cfg : Cfg) (most : Nat) (freeing : Bool) (bufs : List Buf)
    (ptr : Fin maxAftDmaChains) :
    Chained cfg most freeing (aftResetRxChainCnt (configured bufs ptr)) (started cfg bufs ptr) ∧
      ∃ done used, Ring (started cfg bufs ptr) done used ∧ Full (started cfg bufs ptr) used :=
  aftDmaRx_chained [] (configured_ring bufs ptr) (Full.zero _) (Nat.zero_le most)

end Chains

theorem run_chained {cfg : Cfg} {most : Nat} (ops : List Op) {chan : Chan}
    (within : ∀ op ∈ ops, op.within most ∨ maxAftDmaChains ≤ most)
    (live : ∃ done used, Ring chan done used ∧ Full chan used) :
    Chained cfg most true chan (run cfg chan ops) ∧
      ∃ done used, Ring (run cfg chan ops) done used ∧ Full (run cfg chan ops) used := by
  induction ops generalizing chan with
  | nil => exact ⟨ReflTransGen.refl, live⟩
  | cons op ops ih =>
      obtain ⟨done, used, ring, full⟩ := live
      obtain ⟨moved, live⟩ := @step_chained cfg most _ _ true _ op ring full (within op List.mem_cons_self)
        (fun _ => rfl)
      obtain ⟨others, last⟩ := ih (fun later member => within later (List.mem_cons_of_mem op member))
        live
      exact ⟨moved.trans others, last⟩

end Wanpipe.Aft.Receive
