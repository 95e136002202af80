import Wanpipe.Aft.Addresses
import Wanpipe.Aft.Order

/-! Repeat frames on an HDLC channel. The one in the ring is known by its address only: it is told
from the data frames while no other skb of the channel has that address. -/

namespace Wanpipe.Aft

open Wanpipe.Circle Runs

/-- The skbs that a channel holds. -/
def heldSkbs (chan : Chan) : List Skb :=
  chan.lists.pending ++ chan.lists.rpt ++ chan.lists.complete ++ chan.lists.dealloc ++
    (List.range maxAftDmaChains).filterMap fun i => (chan.table i).skb

/-- An skb that is allocated has the address of none that is not freed yet. -/
def Allots (cfg : Cfg) (chan : Chan) : RingOp cfg → Prop
  | .queue skb _ => cfg.isBert skb = false ∧ ∀ held ∈ heldSkbs chan, held.addr ≠ skb.addr
  | .queueRepeat skb _ => cfg.isBert skb = false ∧ ∀ held ∈ heldSkbs chan, held.addr ≠ skb.addr
  | _ => True

/-- The remembered frame is not freed behind the back of `tx_hdlc_rpt_skb`. -/
def Minds (cfg : Cfg) (chan : Chan) : RingOp cfg → Prop
  | .dmaTx _ _ =>
      chan.interfaceDown = false →
        Sends cfg chan.bertMode chan.lists maxAftDmaChains chan.txChainSz
  | .freeTxDescriptors _ => cfg.fakeDchan = true ∨ chan.lists.rptSkb = none
  | _ => True

instance (cfg : Cfg) (chan : Chan) : (op : RingOp cfg) → Decidable (Allots cfg chan op)
  | .queue skb _ => inferInstanceAs (Decidable
      (cfg.isBert skb = false ∧ ∀ held ∈ heldSkbs chan, held.addr ≠ skb.addr))
  | .queueRepeat skb _ => inferInstanceAs (Decidable
      (cfg.isBert skb = false ∧ ∀ held ∈ heldSkbs chan, held.addr ≠ skb.addr))
  | .others .. => isTrue trivial
  | .bottomHalf .. => isTrue trivial
  | .cardDone _ => isTrue trivial
  | .dmaTx .. => isTrue trivial
  | .txDmaChainHandler _ => isTrue trivial
  | .freeTxDescriptors _ => isTrue trivial

instance (cfg : Cfg) (chan : Chan) : (op : RingOp cfg) → Decidable (Minds cfg chan op)
  | .queue .. => isTrue trivial
  | .queueRepeat .. => isTrue trivial
  | .others .. => isTrue trivial
  | .bottomHalf .. => isTrue trivial
  | .cardDone _ => isTrue trivial
  | .dmaTx _ _ => inferInstanceAs (Decidable (chan.interfaceDown = false →
      Sends cfg chan.bertMode chan.lists maxAftDmaChains chan.txChainSz))
  | .txDmaChainHandler _ => isTrue trivial
  | .freeTxDescriptors _ =>
      inferInstanceAs (Decidable (cfg.fakeDchan = true ∨ chan.lists.rptSkb = none))

structure RepeatsOnly (chan : Chan) : Prop where
  rpt : ∀ skb ∈ chan.lists.rpt, skb.kind = .repeat
  posted : (dataOf chan.posted).Sublist (dataOf chan.queued)
  remembered : ∀ addr, chan.lists.rptSkb = some addr → ∃ i < maxAftDmaChains,
    (chan.table i).init = true ∧ ∃ skb, (chan.table i).skb = some skb ∧ skb.addr = addr

/-- No two skbs of the channel share an address, and the remembered one is a repeat frame in the
ring. -/
structure Owns (cfg : Cfg) (chan : Chan) (skbs : List Skb) : Prop where
  distinct : (chan.lists.addrs + addrs (cfg.pooled skbs)).Nodup
  rpt : ∀ skb ∈ chan.lists.rpt, skb.kind = .repeat ∧ cfg.isBert skb = false
  remembered : ∀ addr, chan.lists.rptSkb = some addr →
    ∃ skb ∈ skbs, skb.addr = addr ∧ skb.kind = .repeat ∧ cfg.isBert skb = false

section Steps

variable {cfg : Cfg} {chan next : Chan} {skbs : List Skb} {made : List (Option Skb × Nat)}

theorem Ring.unique {more : List Skb} (ring : Ring chan skbs) (other : Ring chan more) :
    skbs = more := by
  apply List.ext_getElem?
  intro k
  by_cases bound : k < maxAftDmaChains
  · rw [← ring.holds.at_place ring.pending bound, ← other.holds.at_place other.pending bound]
  · have few := ring.few
    have fewer := other.few
    rw [List.getElem?_eq_none (by omega), List.getElem?_eq_none (by omega)]

theorem Owns.lists (owned : Owns cfg chan skbs) (addrs : next.lists.addrs ≤ chan.lists.addrs)
    (rpt : next.lists.rpt ⊆ chan.lists.rpt) (rptSkb : next.lists.rptSkb = chan.lists.rptSkb) :
    Owns cfg next skbs := by
  refine ⟨?_, fun skb member => owned.rpt skb (rpt member), ?_⟩
  · exact Multiset.nodup_of_le (Multiset.add_le_add_right addrs) owned.distinct
  · rw [rptSkb]
    exact owned.remembered

theorem Owns.turn {cnt : Nat} (hdlc : cfg.hdlcEng = true) (ring : Ring chan skbs)
    (owned : Owns cfg chan skbs)
    (sends : Sends cfg chan.bertMode chan.lists (cnt + 1) skbs.length)
    (turn : TxTurn cfg made chan next) :
    ∃ more, Ring next more ∧ Owns cfg next more ∧
      Sends cfg next.bertMode next.lists cnt more.length := by
  cases turn with
  | stops stays aside picks =>
      have same := picks.nothing_same hdlc
      refine ⟨skbs, ring.stays stays, ⟨?_, ?_, ?_⟩, ?_⟩
      · rw [same]
        exact owned.distinct
      · rw [same]
        exact owned.rpt
      · rw [same]
        exact owned.remembered
      · rw [same, aside.bertMode]
        exact fun off soon => sends off (Nat.lt_succ_of_lt soon)
  | @drops skb idle lists free stays aside picks unsent freed =>
      have shed := dealloc_shed cfg lists skb
      have kept : next.lists.rptSkb = chan.lists.rptSkb := by
        rw [freed, shed.rptSkb]
        rcases picks.remembers with kept | ⟨-, empty, last, off⟩
        · exact kept
        -- a repeat frame at which the loop has come can be sent
        · have room := ring.free_iff.mp free
          have sent := sends off (by rw [empty]; exact Nat.succ_pos _) (by rw [empty]; exact room)
          rw [last, Option.all_some, unsent] at sent
          cases sent
      refine ⟨skbs, ring.stays stays, owned.lists ?_ ?_ kept, ?_⟩
      · rw [freed, dealloc_addrs]
        exact picks.addrs hdlc
      · rw [freed, shed.rpt]
        exact picks.rpt
      · have later := picks.sends hdlc sends
        rw [unsent] at later
        intro off soon room
        rw [freed, shed.rpt]
        rw [freed, shed.pending] at soon room
        rw [aside.bertMode] at off
        exact later off soon room
  | @posts skb ready idle posts picks sent bertMode =>
      obtain ⟨addr, kind, own⟩ := @isBert_sendable cfg skb ready sent
      have less := picks.addrs hdlc
      have moved : addrs (cfg.pooled [ready]) = addrs (cfg.pooled [skb]) := by
        simp only [Cfg.pooled, List.filter_cons, own]
        split
        · simp only [addrs, List.map_cons, List.map_nil, List.filter_nil, addr]
        · rfl
      refine ⟨skbs ++ [ready], ring.posts posts, ⟨?_, ?_, ?_⟩, ?_⟩
      · refine Multiset.nodup_of_le ?_ owned.distinct
        rw [pooled_append, addrs_append, moved, Multiset.add_comm (addrs (cfg.pooled skbs)),
          ← Multiset.add_assoc]
        exact Multiset.add_le_add_right less
      · exact fun other member => owned.rpt other (picks.rpt member)
      · intro place remembered
        rcases picks.remembers with kept | ⟨here, -, last, -⟩
        · rw [kept] at remembered
          obtain ⟨other, member, same⟩ := owned.remembered place remembered
          exact ⟨other, List.mem_append_left _ member, same⟩
        · rw [here, Option.some.injEq] at remembered
          obtain ⟨isRepeat, pooled⟩ := owned.rpt skb (List.mem_of_getLast? last)
          exact ⟨ready, List.mem_append_right _ List.mem_cons_self, addr.trans remembered,
            kind.trans isRepeat, own.trans pooled⟩
      · have later := picks.sends hdlc sends
        rw [sent] at later
        rw [bertMode, List.length_append]
        exact later

/-- The skb that comes back at the remembered address is the repeat frame. -/
theorem Owns.known {skb : Skb} (owned : Owns cfg chan skbs) (member : skb ∈ skbs)
    (remembered : chan.lists.rptSkb = some skb.addr) :
    skb.kind = .repeat ∧ cfg.isBert skb = false := by
  obtain ⟨other, found, addr, isRepeat, pooled⟩ := owned.remembered _ remembered
  have own : cfg.isBert skb = false := by
    rw [Cfg.isBert, ← addr]
    exact pooled
  have within := Multiset.nodup_of_le (Multiset.le_add_left _ _) owned.distinct
  have once : ((cfg.pooled skbs).map Skb.addr).Nodup := Multiset.coe_nodup.mp within
  have first : skb ∈ cfg.pooled skbs := List.mem_filter.mpr ⟨member, by simp [own]⟩
  have second : other ∈ cfg.pooled skbs := List.mem_filter.mpr ⟨found, by simp [pooled]⟩
  have same := List.inj_on_of_nodup_map once first second addr.symm
  rw [same]
  exact ⟨isRepeat, pooled⟩

theorem Owns.handled {skb : Skb} {done : Bool} (hdlc : cfg.hdlcEng = true)
    (ring : Ring chan skbs) (owned : Owns cfg chan skbs)
    (handled : Handled cfg chan next skb done) :
    ∃ rest, skbs = skb :: rest ∧ Ring next rest ∧ Owns cfg next rest := by
  obtain ⟨first, rest, rfl, less⟩ := ring.frees handled.frees
  have head := ring.holds.at_head ring.pending
  rw [handled.held, List.head?_cons, Option.some.injEq] at head
  subst head
  have known : chan.lists.rptSkb = some skb.addr → skb.kind = .repeat ∧ cfg.isBert skb = false :=
    owned.known List.mem_cons_self
  have takes := handled.takes
  have apart : cfg.pooled (skb :: rest) = cfg.pooled [skb] ++ cfg.pooled rest :=
    pooled_append [skb] rest
  refine ⟨rest, rfl, less, ?_, ?_, ?_⟩
  · have distinct := owned.distinct
    rw [apart, addrs_append, ← Multiset.add_assoc] at distinct
    rw [takes.addrs hdlc fun remembered => (known remembered).2]
    exact distinct
  · intro other member
    rcases takes.rpt hdlc member with old | ⟨rfl, remembered⟩
    · exact owned.rpt other old
    · exact known remembered
  · intro addr remembered
    rcases takes.rptSkb hdlc with none | ⟨kept, elsewhere⟩
    · rw [none] at remembered
      cases remembered
    · rw [kept] at remembered
      obtain ⟨other, member, here, same⟩ := owned.remembered addr remembered
      rcases List.mem_cons.mp member with first | later
      · rw [remembered, ← here, first] at elsewhere
        exact absurd rfl elsewhere
      · exact ⟨other, later, here, same⟩

theorem cardDone_owned (ring : Ring chan skbs) (owned : Owns cfg chan skbs) (done : List Nat) :
    Ring (cardDone chan done) skbs ∧ Owns cfg (cardDone chan done) skbs := by
  rw [cardDone_reg]
  exact ⟨⟨ring.pending, ring.few, ring.next, ring.holds, ring.holding⟩, owned.distinct, owned.rpt,
    owned.remembered⟩

theorem aftDmaTx_owned (hdlc : cfg.hdlcEng = true) (ring : Ring chan skbs)
    (owned : Owns cfg chan skbs)
    (sends : chan.interfaceDown = false →
      Sends cfg chan.bertMode chan.lists maxAftDmaChains skbs.length) :
    ∃ more, Ring (aftDmaTx cfg chan made).2 more ∧ Owns cfg (aftDmaTx cfg chan made).2 more := by
  rw [aftDmaTx]
  split
  · exact ⟨skbs, ring, owned⟩
  · next up =>
      split
      · exact ⟨skbs, ring, owned⟩
      · split
        · exact ⟨skbs, ring, owned⟩
        · obtain ⟨-, more, last, ends, -⟩ := @dmaTxLoop_keeps cfg made
            (fun cnt chan => ∃ skbs, Ring chan skbs ∧ Owns cfg chan skbs ∧
              Sends cfg chan.bertMode chan.lists cnt skbs.length)
            (fun _ _ kept => by
              obtain ⟨skbs, ring, -⟩ := kept
              exact ring.holding _ ring.tx_lt)
            (fun _ _ _ _ _ kept turn => by
              obtain ⟨skbs, ring, owned, sends⟩ := kept
              exact owned.turn hdlc ring sends turn)
            maxAftDmaChains 0 { chan with txDmaBusy := true } made (List.Subset.refl _)
            ⟨skbs, ring.stays ⟨rfl, rfl, rfl, rfl, rfl⟩,
              ⟨owned.distinct, owned.rpt, owned.remembered⟩, sends (eq_false_of_ne_true up)⟩
          exact ⟨more, last.stays ⟨rfl, rfl, rfl, rfl, rfl⟩, ends.distinct, ends.rpt,
            ends.remembered⟩

theorem aftTxDmaChainHandler_owned {during : List (List Nat)} {result : Chan × Nat}
    (hdlc : cfg.hdlcEng = true) (ring : Ring chan skbs) (owned : Owns cfg chan skbs)
    (ran : aftTxDmaChainHandler cfg chan during = some result) :
    ∃ rest, Ring result.1 rest ∧ Owns cfg result.1 rest := by
  rw [aftTxDmaChainHandler] at ran
  split at ran
  · cases ran
    exact ⟨skbs, ring, owned⟩
  · obtain ⟨last, txComplete, later, rest, looped, less, ends⟩ := @handlerLoop_keeps cfg
      (fun _ chan skbs => Ring chan skbs ∧ Owns cfg chan skbs)
      (fun during chan skbs next kept turn => by
        obtain ⟨told, still⟩ := cardDone_owned kept.1 kept.2 (during.headD [])
        obtain ⟨skb, done, handled⟩ := handlerTurn_handled turn
        obtain ⟨rest, all, less, ends⟩ := still.handled hdlc told handled
        exact ⟨skb, rest, all, less, ends⟩)
      (maxAftDmaChains + 1) during { chan with txHandlerBusy := true } skbs
      (Nat.lt_succ_of_le ring.few)
      ⟨ring.stays ⟨rfl, rfl, rfl, rfl, rfl⟩, owned.distinct, owned.rpt, owned.remembered⟩
    obtain ⟨told, still⟩ := cardDone_owned less ends (later.headD [])
    rw [looped] at ran
    cases ran
    exact ⟨rest, told.stays ⟨rfl, rfl, rfl, rfl, rfl⟩, still.distinct, still.rpt,
      still.remembered⟩

/-- What the handler finds done stands in the ring, from its head on. -/
theorem doneSkbs_of_ring (count : Nat) (during : List (List Nat)) (ring : Ring chan skbs) :
    doneSkbs count during chan <+: skbs := by
  induction count generalizing chan skbs during with
  | zero => exact List.nil_prefix
  | succ count ih =>
      let told := cardDone chan (during.headD [])
      let i := told.txPendingChainIndx
      have same : Ring told skbs := by
        simp only [told, cardDone_reg]
        exact ⟨ring.pending, ring.few, ring.next, ring.holds, ring.holding⟩
      show (if (told.table i).init && !(told.reg i).go then _ else _) <+: _
      split
      · next done =>
          rw [Bool.and_eq_true, same.holding i same.pending] at done
          let freed : Chan :=
            { told.setDescr i ⟨false, none⟩ with
              txPendingChainIndx := advance maxAftDmaChains i
              txIntrPending := if (told.reg i).intrDisable then told.txIntrPending else false }
          have frees : Frees told freed := ⟨done.1, rfl, rfl, rfl, rfl, rfl⟩
          obtain ⟨skb, rest, all, less⟩ := same.frees frees
          have head := same.holds.at_head same.pending
          have walked : doneSkbs count during.tail
              { told.setDescr i ⟨false, none⟩ with
                txPendingChainIndx := advance maxAftDmaChains i } =
              doneSkbs count during.tail freed :=
            doneSkbs_congr count during.tail rfl rfl rfl
          rw [all, List.head?_cons] at head
          rw [all, head, walked]
          exact (List.prefix_append_right_inj [skb]).mpr (ih during.tail less)
      · exact List.nil_prefix

/-- On a channel whose skbs are told apart by their addresses the handler recognizes them. -/
theorem Owns.recognizes (ring : Ring chan skbs) (owned : Owns cfg chan skbs)
    (during : List (List Nat)) (count : Nat) : recognizes chan count during = true := by
  rw [Aft.recognizes, Option.all_eq_true]
  intro skb found
  obtain ⟨addr, remembered, found⟩ := Option.bind_eq_some_iff.mp found
  have here : skb.addr = addr := by simpa using List.find?_some found
  have member := (doneSkbs_of_ring count during ring).subset (List.mem_of_find?_eq_some found)
  rw [← here] at remembered
  rw [(owned.known member remembered).1]
  rfl


theorem aftFreeTxDescriptors_owned (hdlc : cfg.hdlcEng = true) (ring : Ring chan skbs)
    (owned : Owns cfg chan skbs) (ptr : Fin maxAftDmaChains)
    (minds : cfg.fakeDchan = true ∨ chan.lists.rptSkb = none) :
    ∃ rest, Ring (aftFreeTxDescriptors cfg chan ptr) rest ∧
      Owns cfg (aftFreeTxDescriptors cfg chan ptr) rest := by
  rw [aftFreeTxDescriptors]
  split
  · exact ⟨skbs, ring, owned⟩
  · next real =>
      have none := minds.resolve_left real
      obtain ⟨table, -⟩ := freeDescrs_clears cfg chan maxAftDmaChains
      have sheds := (freeDescrs_sheds cfg chan maxAftDmaChains).lists
      have freed := (freeDescrs_addrs hdlc chan maxAftDmaChains).1
      have turned := ring.holds.perm ring.pending ring.few
      have moved : addrs (cfg.pooled ((List.range maxAftDmaChains).filterMap
          fun i => (chan.table i).skb)) = addrs (cfg.pooled skbs) :=
        addrs_perm (turned.filter _)
      let empty := aftResetTxChainCnt (freeDescrs cfg chan maxAftDmaChains) ptr
      let sent := { empty.lists with complete := [] }
      let shed := releaseAll cfg sent empty.lists.complete
      let excess := shed.pending.length - (if cfg.xmtp2 then 4 else 2)
      let kept := { shed with pending := shed.pending.drop excess }
      let last := releaseAll cfg kept (shed.pending.take excess)
      have first := releaseAll_shed cfg sent empty.lists.complete
      have second := releaseAll_shed cfg kept (shed.pending.take excess)
      have complete : sent.addrs + addrs empty.lists.complete = empty.lists.addrs := by
        ext addr
        have nothing : Multiset.count addr (addrs []) = 0 := Multiset.count_zero addr
        simp only [sent, Lists.addrs, Multiset.count_add, nothing]
        omega
      have pending : kept.addrs + addrs (shed.pending.take excess) = shed.addrs := by
        ext addr
        have whole : addrs shed.pending = addrs (shed.pending.take excess) +
            addrs (shed.pending.drop excess) := by
          rw [← addrs_append, List.take_append_drop]
        simp only [kept, Lists.addrs, whole, Multiset.count_add]
        omega
      have less : last.addrs ≤ chan.lists.addrs + addrs (cfg.pooled skbs) := by
        calc
          last.addrs = kept.addrs + addrs (cfg.pooled (shed.pending.take excess)) :=
            releaseAll_addrs hdlc kept _
          _ ≤ shed.addrs := pending ▸ Multiset.add_le_add_left (pooled_le cfg _)
          _ = sent.addrs + addrs (cfg.pooled empty.lists.complete) :=
            releaseAll_addrs hdlc sent _
          _ ≤ empty.lists.addrs := complete ▸ Multiset.add_le_add_left (pooled_le cfg _)
          _ = chan.lists.addrs + addrs (cfg.pooled skbs) := moved ▸ freed
      refine ⟨[], ring_nil ptr.isLt table rfl rfl, ?_, ?_, ?_⟩
      · exact Multiset.nodup_of_le ((Multiset.add_zero _).le.trans less) owned.distinct
      · intro skb member
        apply owned.rpt skb
        rw [← sheds.rpt]
        have before : skb ∈ shed.rpt := second.rpt ▸ member
        exact first.rpt ▸ before
      · intro addr remembered
        have forgotten : last.rptSkb = .none := by
          rw [second.rptSkb]
          show shed.rptSkb = _
          rw [first.rptSkb]
          show (freeDescrs cfg chan maxAftDmaChains).lists.rptSkb = _
          rw [sheds.rptSkb, none]
        change last.rptSkb = some addr at remembered
        rw [forgotten] at remembered
        cases remembered

theorem held_addr (ring : Ring chan skbs) {addr : Nat}
    (apart : ∀ held ∈ heldSkbs chan, held.addr ≠ addr) :
    addr ∉ chan.lists.addrs + addrs (cfg.pooled skbs) := by
  have turned := ring.holds.perm ring.pending ring.few
  have among (held : List Skb) (sub : held ⊆ heldSkbs chan) : addr ∉ addrs held := by
    intro member
    obtain ⟨skb, inside, same⟩ := List.mem_map.mp (Multiset.mem_coe.mp member)
    exact apart skb (sub inside) same
  have pooled : addr ∉ addrs (cfg.pooled skbs) := by
    apply among
    intro skb member
    exact List.mem_append_right _ (turned.symm.subset (List.mem_filter.mp member).1)
  simp only [Lists.addrs, Multiset.mem_add, not_or]
  refine ⟨⟨⟨⟨among _ ?_, among _ ?_⟩, among _ ?_⟩, among _ ?_⟩, pooled⟩
  all_goals
    intro skb member
    simp only [heldSkbs, List.mem_append]
    tauto

theorem Owns.gains {skb : Skb} {lists : Lists} (owned : Owns cfg chan skbs)
    (fresh : skb.addr ∉ chan.lists.addrs + addrs (cfg.pooled skbs))
    (more : lists.addrs = chan.lists.addrs + addrs [skb]) :
    (lists.addrs + addrs (cfg.pooled skbs)).Nodup := by
  have all : lists.addrs + addrs (cfg.pooled skbs) =
      skb.addr ::ₘ (chan.lists.addrs + addrs (cfg.pooled skbs)) := by
    rw [more, Multiset.add_assoc, Multiset.add_comm (addrs [skb]), ← Multiset.add_assoc,
      Multiset.add_comm]
    exact Multiset.singleton_add _ _
  rw [all]
  exact Multiset.nodup_cons.mpr ⟨fresh, owned.distinct⟩

theorem ringStep_owned (op : RingOp cfg) (hdlc : cfg.hdlcEng = true) (rests : Rests cfg chan skbs)
    (owned : Owns cfg chan skbs) (allots : Allots cfg chan op) (minds : Minds cfg chan op) :
    ∃ next, ringStep cfg chan op = some next ∧
      ∃ rest, Rests cfg next rest ∧ Owns cfg next rest := by
  have ring := rests.ring
  have recognized : Recognizes cfg chan op := by
    cases op with
    | txDmaChainHandler during => exact fun _ => owned.recognizes ring during _
    | _ => trivial
  obtain ⟨next, ran, rest, kept⟩ := ringStep_rests op rests recognized
  refine ⟨next, ran, rest, kept, ?_⟩
  have unify (known : ∃ more, Ring next more ∧ Owns cfg next more) : Owns cfg next rest := by
    obtain ⟨more, other, owned⟩ := known
    rw [kept.ring.unique other]
    exact owned
  apply unify
  cases op with
  | queue skb other =>
      cases ran
      refine ⟨skbs, ring.stays ⟨rfl, rfl, rfl, rfl, rfl⟩, ?_, owned.rpt, owned.remembered⟩
      have same : addrs [{ skb with kind := .data }] = addrs [skb] := rfl
      apply owned.gains (held_addr ring allots.2)
      ext addr
      simp only [Lists.addrs, addrs_append, same, Multiset.count_add]
      omega
  | queueRepeat skb other =>
      cases ran
      refine ⟨skbs, ring.stays ⟨rfl, rfl, rfl, rfl, rfl⟩, ?_, ?_, owned.remembered⟩
      · have same : addrs [{ skb with kind := .repeat }] = addrs [skb] := rfl
        apply owned.gains (held_addr ring allots.2)
        ext addr
        simp only [Lists.addrs, addrs_append, same, Multiset.count_add]
        omega
      · intro old member
        rcases List.mem_append.mp member with before | new
        · exact owned.rpt old before
        · rw [List.mem_singleton.mp new]
          exact ⟨rfl, allots.1⟩
  | others interfaceDown bertMode =>
      cases ran
      exact ⟨skbs, ring.stays ⟨rfl, rfl, rfl, rfl, rfl⟩, owned.distinct, owned.rpt,
        owned.remembered⟩
  | bottomHalf sent freed =>
      cases ran
      refine ⟨skbs, ring.stays ⟨rfl, rfl, rfl, rfl, rfl⟩, owned.lists ?_ (List.Subset.refl _) rfl⟩
      have fewer := addrs_le (List.drop_sublist sent chan.lists.complete)
      have less := addrs_le (List.drop_sublist freed chan.lists.dealloc)
      rw [Multiset.le_iff_count] at fewer less ⊢
      intro addr
      have one := fewer addr
      have two := less addr
      simp only [Lists.addrs, Multiset.count_add]
      omega
  | cardDone done =>
      cases ran
      exact ⟨skbs, cardDone_owned ring owned done⟩
  | dmaTx made other =>
      cases ran
      apply aftDmaTx_owned hdlc ring owned
      intro up
      rw [← rests.size]
      exact minds up
  | txDmaChainHandler during =>
      obtain ⟨result, called, rfl⟩ := Option.map_eq_some_iff.mp ran
      exact aftTxDmaChainHandler_owned hdlc ring owned called
  | freeTxDescriptors ptr =>
      cases ran
      exact aftFreeTxDescriptors_owned hdlc ring owned ptr minds

theorem Blank.owned (blank : Blank chan) : Owns cfg chan [] := by
  refine ⟨?_, ?_, ?_⟩
  · rw [blank.lists]
    exact Multiset.nodup_zero
  · rw [blank.lists]
    nofun
  · rw [blank.lists]
    nofun

theorem Owns.repeats (rests : Rests cfg chan skbs) (owned : Owns cfg chan skbs) :
    RepeatsOnly chan := by
  refine ⟨fun skb member => (owned.rpt skb member).1, rests.inOrder.posted, ?_⟩
  intro addr remembered
  obtain ⟨skb, member, here, -⟩ := owned.remembered addr remembered
  have ring := rests.ring
  have turned := ring.holds.perm ring.pending ring.few
  obtain ⟨i, inside, held⟩ := List.mem_filterMap.mp (turned.symm.subset member)
  have bound := List.mem_range.mp inside
  refine ⟨i, bound, ?_, skb, held, here⟩
  rw [ring.holding i bound, held]
  rfl

end Steps

/-- On an HDLC channel whose remembered repeat frame is never freed behind its back only repeat
frames are repeated, and the one that is remembered is in the ring. -/
theorem aft_hdlc_repeat (cfg : Cfg) (hdlc : cfg.hdlcEng = true) {chan : Chan} (blank : Blank chan)
    (ops : List (RingOp cfg))
    (minds : Along (ringStep cfg) (fun chan op => Allots cfg chan op ∧ Minds cfg chan op) chan
      ops) :
    ∃ last, run (ringStep cfg) chan ops = some last ∧ RepeatsOnly last := by
  have steps (chan : Chan) (op : RingOp cfg)
      (kept : ∃ skbs, Rests cfg chan skbs ∧ Owns cfg chan skbs)
      (allowed : Allots cfg chan op ∧ Minds cfg chan op) :
      ∃ next, ringStep cfg chan op = some next ∧ ∃ skbs, Rests cfg next skbs ∧ Owns cfg next skbs := by
    obtain ⟨skbs, rests, owned⟩ := kept
    exact ringStep_owned op hdlc rests owned allowed.1 allowed.2
  obtain ⟨last, ran, skbs, rests, owned⟩ :=
    Along.run steps ⟨[], blank.rests, blank.owned⟩ minds
  exact ⟨last, ran, owned.repeats rests⟩

theorem aft_hdlc_repeat_frames :
    ∃ last, run (ringStep repeatCfg) freshChan
        [.queueRepeat (packetSkb 1) rfl, .dmaTx [] noneMade, .queue (packetSkb 2) rfl,
          .queueRepeat (packetSkb 3) rfl, .dmaTx [] noneMade, .cardDone [5, 6, 7],
          .txDmaChainHandler [], .freeTxDescriptors ⟨5, by decide⟩] = some last ∧ RepeatsOnly last :=
  aft_hdlc_repeat repeatCfg rfl freshChan_blank _ (by decide +kernel)

theorem aft_hdlc_repeat_reuse :
    Along (ringStep repeatCfg) (Allots repeatCfg) freshChan reuse ∧
      ∃ last, run (ringStep repeatCfg) freshChan reuse = some last ∧ ¬RepeatsOnly last := by
  refine ⟨by decide +kernel, ?_⟩
  have twice : (run (ringStep repeatCfg) freshChan reuse).any (fun last =>
      decide ((dataOf last.posted).length = 2 ∧ (dataOf last.queued).length = 1)) = true := by
    decide +kernel
  obtain ⟨last, ran, logged⟩ := (Option.any_eq_true _ _).mp twice
  obtain ⟨posted, queued⟩ := of_decide_eq_true logged
  refine ⟨last, ran, fun repeats => ?_⟩
  have fewer := repeats.posted.length_le
  rw [posted, queued] at fewer
  exact absurd fewer (by decide)

end Wanpipe.Aft
