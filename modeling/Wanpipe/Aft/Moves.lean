import Wanpipe.Aft.Ring

/-! Which skb a turn of the transmitter takes, and what the handler does with the one that comes
back. -/

namespace Wanpipe.Aft

open Wanpipe.Circle

/-- What `nextSkb` takes, and from where. -/
inductive Picks (cfg : Cfg) (bertMode : Bool) (made : List (Option Skb × Nat)) (before : Lists) :
    Option (Skb × Bool) → Lists → Prop
  | bert {skb : Skb} : bertMode = true → cfg.bert = some skb →
      Picks cfg bertMode made before (some (skb, false)) before
  | data {skb : Skb} {rest : List Skb} : cfg.made = false → before.pending = skb :: rest →
      Picks cfg bertMode made before (some (skb, false)) { before with pending := rest }
  | made {skb : Skb} {cells : Nat} : cfg.made = true → (some skb, cells) ∈ made →
      Picks cfg bertMode made before (some ({ skb with kind := .made }, false))
        { before with pending := before.pending.drop cells }
  | idle {skb : Skb} (cells : Nat) : cfg.hdlcEng = false → cfg.idle = some skb →
      Picks cfg bertMode made before (some (skb, true))
        { before with pending := before.pending.drop cells }
  | repeated {skb : Skb} {older : List Skb} : cfg.hdlcEng = true →
      (bertMode = true → cfg.bert = none) → before.pending = [] → before.rpt = older ++ [skb] →
      Picks cfg bertMode made before (some (skb, false))
        { older.foldl (wanAftSkbDeferedDealloc cfg) before with rpt := [], rptSkb := some skb.addr }
  | nothing (cells : Nat) : (cfg.hdlcEng = true → cells = 0) →
      Picks cfg bertMode made before none { before with pending := before.pending.drop cells }

section Turns

variable {cfg : Cfg} {chan next : Chan} {made : List (Option Skb × Nat)}

/-- What is left to be returned by the layer that makes the skbs. -/
theorem dequeue_made (cfg : Cfg) (loop : Loop) : (dequeue cfg loop).2.made ⊆ loop.made := by
  rw [dequeue]
  split
  · split
    · exact List.Subset.refl _
    · next skb cells made left =>
        rw [left]
        exact List.subset_cons_self _ _
  · split <;> exact List.Subset.refl _

theorem fillSkb_made (cfg : Cfg) (txChainSz : Nat) (loop : Loop) :
    (fillSkb cfg txChainSz loop).2.made = loop.made := by
  rw [fillSkb]
  split
  · split
    · rfl
    · simp only
      split <;> rfl
  · split
    · split <;> rfl
    · rfl

theorem nextSkb_made (cfg : Cfg) (bertMode : Bool) (txChainSz : Nat) (loop : Loop) :
    (nextSkb cfg bertMode txChainSz loop).2.made ⊆ loop.made := by
  have taken := dequeue_made cfg loop
  rw [nextSkb]
  split
  · exact List.Subset.refl _
  · generalize dequeue cfg loop = result at taken
    obtain ⟨skb, rest⟩ := result
    cases skb with
    | some skb => exact taken
    | none =>
        rw [fillSkb_made]
        exact taken

theorem pullRepeat_some (cfg : Cfg) (older : List Skb) (skb : Skb) (lists : Lists) :
    pullRepeat cfg (older ++ [skb]) lists =
      (some skb, { older.foldl (wanAftSkbDeferedDealloc cfg) lists with rpt := [] }) := by
  induction older generalizing lists with
  | nil => rfl
  | cons first older ih =>
      cases older with
      | nil => rfl
      | cons second older => exact ih (wanAftSkbDeferedDealloc cfg lists first)

/-- From the pending list, or from the layer over it; it may take cells and return nothing. -/
theorem dequeue_picks (cfg : Cfg) (bertMode : Bool) (loop : Loop) :
    (∃ cells, (dequeue cfg loop).1 = none ∧
      (dequeue cfg loop).2.lists =
        { loop.lists with pending := loop.lists.pending.drop cells }) ∨
    ∃ skb, (dequeue cfg loop).1 = some skb ∧
      Picks cfg bertMode loop.made loop.lists (some (skb, false)) (dequeue cfg loop).2.lists := by
  rw [dequeue]
  by_cases makes : cfg.made = true
  · rw [if_pos makes]
    cases left : loop.made with
    | nil => exact .inl ⟨0, rfl, rfl⟩
    | cons first rest =>
        obtain ⟨skb, cells⟩ := first
        cases skb with
        | none => exact .inl ⟨cells, rfl, rfl⟩
        | some skb => exact .inr ⟨_, rfl, .made makes List.mem_cons_self⟩
  · rw [if_neg makes]
    cases pending : loop.lists.pending with
    | nil =>
        refine .inl ⟨0, rfl, ?_⟩
        simp only [← pending]
        rfl
    | cons skb rest => exact .inr ⟨skb, rfl, .data (eq_false_of_ne_true makes) pending⟩

theorem fillSkb_picks {bertMode : Bool} (txChainSz : Nat) (loop : Loop) (cells : Nat)
    (before : Lists) (off : bertMode = true → cfg.bert = none)
    (left : loop.lists = { before with pending := before.pending.drop cells })
    (empty : cfg.hdlcEng = true → before.pending = []) :
    Picks cfg bertMode made before (fillSkb cfg txChainSz loop).1
      (fillSkb cfg txChainSz loop).2.lists := by
  rw [fillSkb]
  by_cases hdlc : cfg.hdlcEng = true
  · have same : loop.lists = before := by rw [left, empty hdlc, List.drop_nil, ← empty hdlc]
    rw [if_neg (by simp [hdlc])]
    by_cases repeats : cfg.hdlcRepeat = true
    · rw [if_pos repeats, same]
      rcases List.eq_nil_or_concat before.rpt with none | ⟨older, skb, rpt⟩
      · have empty : ({ before with rpt := [] } : Lists) = before := by rw [← none]
        rw [none]
        simp only [pullRepeat, empty]
        exact .nothing 0 fun _ => rfl
      · rw [List.concat_eq_append] at rpt
        rw [rpt, pullRepeat_some]
        exact .repeated hdlc off (empty hdlc) rpt
    · rw [if_neg repeats, same]
      exact .nothing 0 fun _ => rfl
  · have transparent := eq_false_of_ne_true hdlc
    rw [if_pos (by simp [transparent])]
    split
    · rw [left]
      exact .nothing cells fun here => absurd here hdlc
    · have lists : (if cfg.irqAll = true then { loop with txDataCnt := loop.txDataCnt + 1 }
          else loop).lists = { before with pending := before.pending.drop cells } := by
        rw [← left]
        split <;> rfl
      rw [lists]
      cases idle : cfg.idle with
      | none => exact .nothing cells fun here => absurd here hdlc
      | some skb => exact .idle cells transparent idle

theorem nextSkb_picks (cfg : Cfg) (bertMode : Bool) (txChainSz : Nat) (loop : Loop) :
    Picks cfg bertMode loop.made loop.lists (nextSkb cfg bertMode txChainSz loop).1
      (nextSkb cfg bertMode txChainSz loop).2.lists := by
  rw [nextSkb]
  cases bert : if bertMode then cfg.bert else none with
  | some skb =>
      split at bert
      · next on => exact .bert on bert
      · cases bert
  | none =>
      have off : bertMode = true → cfg.bert = none := by
        intro on
        rw [if_pos on] at bert
        exact bert
      have empty : cfg.hdlcEng = true → (dequeue cfg loop).1 = none → loop.lists.pending = [] := by
        intro hdlc
        have soft : cfg.made ≠ true := fun makes => by
          rw [cfg.soft makes] at hdlc
          cases hdlc
        rw [dequeue, if_neg soft]
        cases loop.lists.pending with
        | nil => exact fun _ => rfl
        | cons skb rest => nofun
      rcases dequeue_picks cfg bertMode loop with ⟨cells, none, lists⟩ | ⟨skb, some, picks⟩
      · have dry := fun hdlc => empty hdlc none
        generalize dequeue cfg loop = result at none lists
        obtain ⟨skb, rest⟩ := result
        cases none
        exact fillSkb_picks txChainSz rest cells loop.lists off lists dry
      · generalize dequeue cfg loop = result at some picks
        obtain ⟨taken, rest⟩ := result
        cases some
        exact picks

theorem sendable_cases {skb ready : Skb} (sends : sendable cfg skb = some ready) :
    ready = skb ∨ ready = { skb with data := skb.head } := by
  have realigned (aligned : Skb)
      (found : (if skb.data % 4 ≠ 0 then aftRealignSkbPkt cfg skb else some skb) = some aligned) :
      aligned = skb ∨ aligned = { skb with data := skb.head } := by
    split at found
    · simp only [aftRealignSkbPkt] at found
      repeat' split at found
      all_goals cases found
      exact .inr rfl
    · cases found
      exact .inl rfl
  rw [sendable] at sends
  split at sends
  · cases sends
  · next aligned found =>
      split at sends
      · cases sends
      · cases sends
        exact realigned ready found

/-- The counters and the logs stay but for the flag of the transmitter. -/
structure Aside (chan next : Chan) : Prop where
  size : next.txChainSz = chan.txChainSz
  dataSize : next.txChainDataSz = chan.txChainDataSz
  queued : next.queued = chan.queued
  posted : next.posted = chan.posted
  completed : next.completed = chan.completed
  handler : next.txHandlerBusy = chan.txHandlerBusy
  bertMode : next.bertMode = chan.bertMode

/-- A turn of the loop of `aft_dma_tx`. -/
inductive TxTurn (cfg : Cfg) (made : List (Option Skb × Nat)) (chan next : Chan) : Prop
  | stops : Stays chan next → Aside chan next →
      Picks cfg chan.bertMode made chan.lists none next.lists → TxTurn cfg made chan next
  | drops {skb : Skb} {idle : Bool} {lists : Lists} :
      (chan.table chan.txChainIndx).init = false → Stays chan next → Aside chan next →
      Picks cfg chan.bertMode made chan.lists (some (skb, idle)) lists → sendable cfg skb = none →
      next.lists = wanAftSkbDeferedDealloc cfg lists skb → TxTurn cfg made chan next
  | posts {skb ready : Skb} {idle : Bool} : Posts cfg chan next ready →
      Picks cfg chan.bertMode made chan.lists (some (skb, idle)) next.lists →
      sendable cfg skb = some ready → next.bertMode = chan.bertMode →
      next.txChainSz = chan.txChainSz + 1 →
      next.txChainDataSz = (if idle then chan.txChainDataSz else chan.txChainDataSz + 1) →
      next.queued = chan.queued → next.posted = chan.posted ++ [ready] →
      next.completed = chan.completed → next.txHandlerBusy = chan.txHandlerBusy →
      TxTurn cfg made chan next

theorem drop_lists (cfg : Cfg) (chan : Chan) (skb : Skb)
    (empty : (chan.table chan.txChainIndx).skb = none) :
    (drop cfg chan skb).lists = wanAftSkbDeferedDealloc cfg chan.lists skb ∧
      Aside chan (drop cfg chan skb) := by
  simp only [drop, aftTxDmaChainInit, empty]
  exact ⟨rfl, rfl, rfl, rfl, rfl, rfl, rfl, rfl⟩

/-- What a turn of the loop of `aft_dma_tx` does: it stops, drops an skb or posts one. -/
theorem dmaTxTurn_turn (cfg : Cfg) (chan : Chan) (txDataCnt : Nat)
    (made : List (Option Skb × Nat))
    (holding : (chan.table chan.txChainIndx).init = (chan.table chan.txChainIndx).skb.isSome) :
    TxTurn cfg made chan (dmaTxTurn cfg chan txDataCnt made).1 ∧
      (dmaTxTurn cfg chan txDataCnt made).2.2.1 ⊆ made := by
  let i := chan.txChainIndx
  by_cases busy : (chan.table i).init = true
  · rw [dmaTxTurn, if_pos busy]
    exact ⟨.stops ⟨rfl, rfl, rfl, rfl, rfl⟩ ⟨rfl, rfl, rfl, rfl, rfl, rfl, rfl⟩
      (.nothing 0 fun _ => rfl),
      List.Subset.refl _⟩
  · have free := eq_false_of_ne_true busy
    have empty := Descr.eq_of_free free holding
    have again {descr : Descr} (same : descr = ⟨false, none⟩) (first : Descr) :
        Function.update (Function.update chan.table i first) i descr = chan.table := by
      rw [Function.update_idem, same, ← empty, Function.update_eq_self]
    let opened := chan.setDescr i { chan.table i with init := true }
    have picks : Picks cfg chan.bertMode made chan.lists
        (nextSkb cfg opened.bertMode opened.txChainSz ⟨opened.lists, txDataCnt, made⟩).1
        (nextSkb cfg opened.bertMode opened.txChainSz ⟨opened.lists, txDataCnt, made⟩).2.lists :=
      nextSkb_picks cfg chan.bertMode chan.txChainSz ⟨chan.lists, txDataCnt, made⟩
    have left : (nextSkb cfg opened.bertMode opened.txChainSz
        ⟨opened.lists, txDataCnt, made⟩).2.made ⊆ made :=
      nextSkb_made cfg chan.bertMode chan.txChainSz ⟨chan.lists, txDataCnt, made⟩
    rw [dmaTxTurn, if_neg busy]
    simp only
    split
    · next loop picked =>
        rw [picked] at picks left
        refine ⟨.stops ⟨?_, rfl, rfl, rfl, rfl⟩ ⟨rfl, rfl, rfl, rfl, rfl, rfl, rfl⟩ picks, left⟩
        refine again ?_ _
        simp only [Chan.setDescr, Function.update_self]
        exact congrArg (fun descr : Descr => Descr.mk false descr.skb) empty
    · next skb idle loop picked =>
        rw [picked] at picks left
        split
        · next unsent =>
            let taken := { opened with lists := loop.lists }
            have opens : Keeps i chan taken :=
              ⟨fun _ other => Function.update_of_ne other _ _, rfl, rfl, rfl, rfl⟩
            obtain ⟨drops, clear⟩ := drop_keeps cfg taken skb
            have keeps := opens.trans drops
            have same := update_of_keeps keeps clear
            rw [← empty, Function.update_eq_self] at same
            have none : (taken.table taken.txChainIndx).skb = none := by
              simp only [taken, opened, i, Chan.setDescr, Function.update_self]
              exact congrArg Descr.skb empty
            obtain ⟨lists, aside⟩ := drop_lists cfg taken skb none
            exact ⟨.drops free ⟨same, keeps.reg, keeps.tx, keeps.pending, keeps.sticky⟩
              ⟨aside.size, aside.dataSize, aside.queued, aside.posted, aside.completed,
                aside.handler, aside.bertMode⟩ picks unsent lists, left⟩
        · next ready sends =>
            exact ⟨.posts (post_posts cfg _ _ _ _ free) picks sends rfl rfl rfl rfl rfl rfl rfl, left⟩

theorem TxTurn.moves (turn : TxTurn cfg made chan next) :
    Stays chan next ∨ ∃ skb, Posts cfg chan next skb := by
  cases turn with
  | stops stays => exact .inl stays
  | drops _ stays => exact .inl stays
  | posts posts => exact .inr ⟨_, posts⟩

/-- What the handler does with an skb that came back, and whether it is noted as completed. -/
inductive Takes (cfg : Cfg) (before : Lists) (skb : Skb) : Lists → Bool → Prop
  | again : cfg.hdlcEng = true → before.rptSkb = some skb.addr → before.rpt = [] →
      Takes cfg before skb { before with rptSkb := none, rpt := [skb] } false
  | superseded : cfg.hdlcEng = true → before.rptSkb = some skb.addr → before.rpt ≠ [] →
      Takes cfg before skb (wanAftSkbDeferedDealloc cfg { before with rptSkb := none } skb) false
  | bert : cfg.isBert skb = true → (cfg.hdlcEng = true → before.rptSkb ≠ some skb.addr) →
      Takes cfg before skb before false
  | sent : cfg.hdlcEng = true → before.rptSkb ≠ some skb.addr → cfg.isBert skb = false →
      Takes cfg before skb { before with complete := before.complete ++ [skb] } true
  | idle : cfg.hdlcEng = false → cfg.isIdle skb = true → Takes cfg before skb before false
  | freed : cfg.hdlcEng = false → cfg.isIdle skb = false →
      Takes cfg before skb (aftTxDmaSkbInit cfg before skb) true

/-- A turn of the handler. -/
structure Handled (cfg : Cfg) (chan next : Chan) (skb : Skb) (done : Bool) : Prop where
  frees : Frees chan next
  held : (chan.table chan.txPendingChainIndx).skb = some skb
  takes : Takes cfg chan.lists skb next.lists done
  completed : next.completed = if done then chan.completed ++ [skb] else chan.completed
  size : next.txChainSz = chan.txChainSz - 1
  dataSize : next.txChainDataSz =
    if cfg.hdlcEng = false ∧ cfg.isBert skb = false ∧ cfg.isIdle skb = true then chan.txChainDataSz
    else chan.txChainDataSz - 1
  queued : next.queued = chan.queued
  posted : next.posted = chan.posted
  dma : next.txDmaBusy = chan.txDmaBusy
  handler : next.txHandlerBusy = chan.txHandlerBusy

/-- `aft_tx_dma_chain_init` frees what the descriptor still holds. -/
theorem chainInit_lists (cfg : Cfg) (chan : Chan) (i : Nat) :
    (aftTxDmaChainInit cfg chan i).lists =
      ((chan.table i).skb.elim chan.lists fun skb =>
        if cfg.isBert skb then chan.lists else release cfg chan.lists skb) ∧
    Aside chan (aftTxDmaChainInit cfg chan i) ∧
      (aftTxDmaChainInit cfg chan i).txDmaBusy = chan.txDmaBusy := by
  rw [aftTxDmaChainInit]
  cases (chan.table i).skb <;> exact ⟨rfl, ⟨rfl, rfl, rfl, rfl, rfl, rfl, rfl⟩, rfl⟩

theorem release_hdlc (hdlc : cfg.hdlcEng = true) (lists : Lists) (skb : Skb) :
    release cfg lists skb = wanAftSkbDeferedDealloc cfg lists skb := by
  rw [release, hdlc]
  rfl

theorem release_transparent (transparent : cfg.hdlcEng = false) (lists : Lists) (skb : Skb) :
    release cfg lists skb = aftTxDmaSkbInit cfg lists skb := by
  rw [release, transparent]
  rfl

/-- The skb of the descriptor `i` after it was looked at, with the descriptor put in order. -/
theorem complete_takes (cfg : Cfg) {chan : Chan} {i : Nat} {skb : Skb}
    (held : (chan.table i).skb = some skb) :
    ∃ done, Takes cfg chan.lists skb (aftTxDmaChainInit cfg (complete cfg chan i skb).1 i).lists
        done ∧
      (complete cfg chan i skb).1.completed =
        (if done then chan.completed ++ [skb] else chan.completed) ∧
      ((complete cfg chan i skb).2 = true ↔
        cfg.hdlcEng = false ∧ cfg.isBert skb = false ∧ cfg.isIdle skb = true) := by
  have none (chan : Chan) (empty : (chan.table i).skb = none) :
      (aftTxDmaChainInit cfg chan i).lists = chan.lists := by
    rw [(chainInit_lists cfg chan i).1, empty]
    rfl
  have cleared (lists : Lists) (completed : List Skb) :
      (({ chan with lists := lists, completed := completed }.setDescr i
        { chan.table i with skb := .none }).table i).skb = .none := by
    simp only [Chan.setDescr, Function.update_self]
  by_cases hdlc : cfg.hdlcEng = true
  · by_cases remembered : chan.lists.rptSkb = some skb.addr
    · by_cases empty : chan.lists.rpt = []
      · have result : complete cfg chan i skb =
            ({ chan with lists := { chan.lists with rptSkb := .none, rpt := [skb] } }.setDescr i
              { chan.table i with skb := .none }, false) := by
          simp [complete, completeRepeat, hdlc, remembered, empty]
        rw [result, none _ (cleared _ _)]
        exact ⟨false, .again hdlc remembered empty, rfl, by simp [hdlc]⟩
      · have result : complete cfg chan i skb =
            ({ chan with lists := { chan.lists with rptSkb := .none } }, false) := by
          simp [complete, completeRepeat, hdlc, remembered, empty]
        have freed : (aftTxDmaChainInit cfg
            { chan with lists := { chan.lists with rptSkb := .none } } i).lists =
            wanAftSkbDeferedDealloc cfg { chan.lists with rptSkb := .none } skb := by
          rw [(chainInit_lists cfg _ i).1]
          show ((chan.table i).skb.elim _ _) = _
          rw [held, Option.elim_some, release_hdlc hdlc, wanAftSkbDeferedDealloc]
          split <;> rfl
        rw [result, freed]
        exact ⟨false, .superseded hdlc remembered empty, rfl, by simp [hdlc]⟩
    · by_cases bert : cfg.isBert skb = true
      · have result : complete cfg chan i skb =
            (chan.setDescr i { chan.table i with skb := .none }, false) := by
          simp [complete, hdlc, remembered, bert]
        rw [result, none _ (cleared _ _)]
        exact ⟨false, .bert bert fun _ => remembered, rfl, by simp [hdlc]⟩
      · have result : complete cfg chan i skb =
            ({ chan with
                lists := { chan.lists with complete := chan.lists.complete ++ [skb] }
                completed := chan.completed ++ [skb] }.setDescr i
              { chan.table i with skb := .none }, false) := by
          simp [complete, hdlc, remembered, bert]
        rw [result, none _ (cleared _ _)]
        exact ⟨true, .sent hdlc remembered (eq_false_of_ne_true bert), rfl, by simp [hdlc]⟩
  · have transparent := eq_false_of_ne_true hdlc
    by_cases bert : cfg.isBert skb = true
    · have result : complete cfg chan i skb =
          (chan.setDescr i { chan.table i with skb := .none }, false) := by
        simp [complete, transparent, bert]
      rw [result, none _ (cleared _ _)]
      exact ⟨false, .bert bert fun hdlc => absurd hdlc (ne_true_of_eq_false transparent), rfl,
        by simp [bert]⟩
    · have other := eq_false_of_ne_true bert
      by_cases idle : cfg.isIdle skb = true
      · have result : complete cfg chan i skb = (chan, true) := by
          simp [complete, transparent, other, idle]
        have freed : (aftTxDmaChainInit cfg chan i).lists = chan.lists := by
          rw [(chainInit_lists cfg _ i).1, held, Option.elim_some, if_neg bert,
            release_transparent transparent, aftTxDmaSkbInit, if_pos idle]
        rw [result, freed]
        exact ⟨false, .idle transparent idle, rfl, by simp [transparent, other, idle]⟩
      · have result : complete cfg chan i skb =
            ({ chan with
                lists := aftTxDmaSkbInit cfg chan.lists skb
                completed := chan.completed ++ [skb] }.setDescr i
              { chan.table i with skb := .none }, false) := by
          simp [complete, transparent, other, idle]
        rw [result, none _ (cleared _ _)]
        exact ⟨true, .freed transparent (eq_false_of_ne_true idle), rfl, by simp [idle]⟩

theorem complete_aside (cfg : Cfg) (chan : Chan) (i : Nat) (skb : Skb) :
    (complete cfg chan i skb).1.txChainSz = chan.txChainSz ∧
      (complete cfg chan i skb).1.txChainDataSz = chan.txChainDataSz ∧
      (complete cfg chan i skb).1.queued = chan.queued ∧
      (complete cfg chan i skb).1.posted = chan.posted ∧
      (complete cfg chan i skb).1.txDmaBusy = chan.txDmaBusy ∧
      (complete cfg chan i skb).1.txHandlerBusy = chan.txHandlerBusy := by
  simp only [complete, completeRepeat]
  repeat' split
  all_goals exact ⟨rfl, rfl, rfl, rfl, rfl, rfl⟩

theorem handlerTurn_handled (moved : handlerTurn cfg chan = some next) :
    ∃ skb done, Handled cfg chan next skb done := by
  have frees := handlerTurn_frees moved
  let i := chan.txPendingChainIndx
  let told := if (chan.reg i).intrDisable then chan else { chan with txIntrPending := false }
  have same : told.table = chan.table ∧ told.lists = chan.lists ∧ Aside chan told ∧
      told.txDmaBusy = chan.txDmaBusy := by
    simp only [told]
    split <;> exact ⟨rfl, rfl, ⟨rfl, rfl, rfl, rfl, rfl, rfl, rfl⟩, rfl⟩
  obtain ⟨table, lists, aside, dma⟩ := same
  rw [handlerTurn] at moved
  split at moved
  · cases moved
  split at moved
  · cases moved
  simp only at moved
  split at moved
  · cases moved
  · next skb held =>
      change (told.table i).skb = some skb at held
      obtain ⟨done, takes, completed, idle⟩ := complete_takes cfg held
      obtain ⟨size, dataSize, queued, posted, dma', handler⟩ := complete_aside cfg told i skb
      obtain ⟨-, cleared, dma''⟩ := chainInit_lists cfg (complete cfg told i skb).1 i
      rw [lists] at takes
      rw [aside.completed] at completed
      cases moved
      refine ⟨skb, done, frees, ?_, takes, cleared.completed.trans completed, ?_, ?_,
        cleared.queued.trans (queued.trans aside.queued),
        cleared.posted.trans (posted.trans aside.posted), dma''.trans (dma'.trans dma),
        cleared.handler.trans (handler.trans aside.handler)⟩
      · rw [← table]
        exact held
      · exact congrArg (· - 1) (cleared.size.trans (size.trans aside.size))
      · have before := cleared.dataSize.trans (dataSize.trans aside.dataSize)
        show (if (!(complete cfg told i skb).2) = true ∧ _ then _ else _) = _
        rw [before]
        by_cases idles : (complete cfg told i skb).2 = true
        · rw [if_neg (by simp [idles]), if_pos (idle.mp idles)]
        · rw [if_neg (fun here => idles (idle.mpr here))]
          split
          · rfl
          · next nothing =>
              have zero : chan.txChainDataSz = 0 := by
                simp only [eq_false_of_ne_true idles, Bool.not_false, true_and] at nothing
                omega
              rw [zero]

end Turns

section Loops

variable {cfg : Cfg} {made : List (Option Skb × Nat)}

/-- The loop of `aft_dma_tx` keeps what each of its turns keeps. -/
theorem dmaTxLoop_keeps {kept : Nat → Chan → Prop}
    (holding : ∀ cnt chan, kept cnt chan →
      (chan.table chan.txChainIndx).init = (chan.table chan.txChainIndx).skb.isSome)
    (turns : ∀ cnt chan next left, left ⊆ made → kept (cnt + 1) chan →
      TxTurn cfg left chan next → kept cnt next)
    (cnt txDataCnt : Nat) {chan : Chan} {left : List (Option Skb × Nat)} (within : left ⊆ made)
    (start : kept cnt chan) : ∃ count, kept count (dmaTxLoop cfg cnt chan txDataCnt left) := by
  induction cnt generalizing chan txDataCnt left with
  | zero => exact ⟨0, start⟩
  | succ cnt ih =>
      obtain ⟨turn, less⟩ := dmaTxTurn_turn cfg chan txDataCnt left (holding _ _ start)
      have keeps := turns cnt _ _ left within start turn
      rw [dmaTxLoop]
      rcases turned : dmaTxTurn cfg chan txDataCnt left with ⟨next, count, rest, goes⟩
      rw [turned] at keeps less
      cases goes with
      | false => exact ⟨cnt, keeps⟩
      | true => exact ih count (List.Subset.trans less within) keeps

/-- The loop of the handler returns, and keeps what each of its turns keeps with the skbs that are
left in the ring. -/
theorem handlerLoop_keeps {kept : List (List Nat) → Chan → List Skb → Prop}
    (turns : ∀ during chan skbs next, kept during chan skbs →
      handlerTurn cfg (cardDone chan (during.headD [])) = some next →
        ∃ skb rest, skbs = skb :: rest ∧ kept during.tail next rest)
    (fuel : Nat) {during : List (List Nat)} {chan : Chan} {skbs : List Skb}
    (enough : skbs.length < fuel) (start : kept during chan skbs) :
    ∃ last txComplete later rest,
      handlerLoop cfg fuel during chan =
        some (cardDone last (List.headD later []), txComplete) ∧ kept later last rest := by
  induction fuel generalizing during chan skbs with
  | zero => exact absurd enough (Nat.not_lt_zero _)
  | succ fuel ih =>
      cases turn : handlerTurn cfg (cardDone chan (during.headD [])) with
      | none =>
          refine ⟨chan, 0, during, skbs, ?_, start⟩
          simp only [handlerLoop, turn]
      | some next =>
          obtain ⟨skb, rest, rfl, keeps⟩ := turns during chan skbs next start turn
          obtain ⟨last, txComplete, later, left, ran, ends⟩ :=
            ih (Nat.lt_of_succ_lt_succ enough) keeps
          refine ⟨last, txComplete + 1, later, left, ?_, ends⟩
          simp only [handlerLoop, turn, ran, Option.map_some]

end Loops

end Wanpipe.Aft
