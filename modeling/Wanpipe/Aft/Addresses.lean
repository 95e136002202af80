import Wanpipe.Aft.Frames
import Mathlib.Data.Multiset.AddSub
import Mathlib.Data.Multiset.UnionInter

/-! The addresses of the skbs in the lists of a channel, and how they move between the lists. -/

namespace Wanpipe.Aft

def addrs (skbs : List Skb) : Multiset Nat := ↑(skbs.map Skb.addr)

/-- The skbs that come from the pool, not the BERT skb of the channel. -/
def Cfg.pooled (cfg : Cfg) (skbs : List Skb) : List Skb := skbs.filter fun skb => !cfg.isBert skb

def Lists.addrs (lists : Lists) : Multiset Nat :=
  Aft.addrs lists.pending + Aft.addrs lists.rpt + Aft.addrs lists.complete +
    Aft.addrs lists.dealloc

/-- With `cnt` turns to go and `used` descriptors in use `aft_dma_tx` does not come to a repeat frame
that cannot be sent. -/
def Sends (cfg : Cfg) (bertMode : Bool) (lists : Lists) (cnt used : Nat) : Prop :=
  (bertMode = true → cfg.bert = none) → lists.pending.length < cnt →
    used + lists.pending.countP (fun skb => (sendable cfg skb).isSome) < maxAftDmaChains →
      lists.rpt.getLast?.all (fun skb => (sendable cfg skb).isSome) = true

instance (cfg : Cfg) (bertMode : Bool) (lists : Lists) (cnt used : Nat) :
    Decidable (Sends cfg bertMode lists cnt used) :=
  inferInstanceAs (Decidable (_ → _ → _ → _))

section Addresses

variable {cfg : Cfg}

theorem addrs_cons (skb : Skb) (skbs : List Skb) : addrs (skb :: skbs) = skb.addr ::ₘ addrs skbs :=
  rfl

theorem addrs_append (left right : List Skb) : addrs (left ++ right) = addrs left + addrs right := by
  rw [addrs, List.map_append]
  rfl

theorem addrs_le {left right : List Skb} (sublist : left.Sublist right) :
    addrs left ≤ addrs right :=
  Multiset.coe_le.mpr (sublist.map _).subperm

theorem pooled_append (left right : List Skb) :
    cfg.pooled (left ++ right) = cfg.pooled left ++ cfg.pooled right :=
  List.filter_append ..

theorem pooled_le (cfg : Cfg) (skbs : List Skb) : addrs (cfg.pooled skbs) ≤ addrs skbs :=
  addrs_le List.filter_sublist

theorem dealloc_addrs (cfg : Cfg) (lists : Lists) (skb : Skb) :
    (wanAftSkbDeferedDealloc cfg lists skb).addrs =
      lists.addrs + addrs (cfg.pooled [skb]) := by
  rw [wanAftSkbDeferedDealloc]
  by_cases bert : cfg.isBert skb = true
  · rw [if_pos bert, Cfg.pooled, List.filter_cons_of_neg (by simpa using bert)]
    exact (Multiset.add_zero _).symm
  · rw [if_neg bert, Cfg.pooled, List.filter_cons_of_pos (by simpa using bert)]
    simp only [Lists.addrs, addrs_append, List.filter_nil, Multiset.add_assoc]

theorem fold_addrs (cfg : Cfg) (skbs : List Skb) (lists : Lists) :
    (skbs.foldl (wanAftSkbDeferedDealloc cfg) lists).addrs =
      lists.addrs + addrs (cfg.pooled skbs) := by
  induction skbs generalizing lists with
  | nil => exact (Multiset.add_zero _).symm
  | cons skb skbs ih =>
      have apart : cfg.pooled (skb :: skbs) = cfg.pooled [skb] ++ cfg.pooled skbs :=
        pooled_append [skb] skbs
      rw [List.foldl_cons, ih, dealloc_addrs, apart, addrs_append, Multiset.add_assoc]

/-- What goes out leaves the lists. -/
theorem Picks.addrs {bertMode : Bool} {made : List (Option Skb × Nat)} {before after : Lists}
    {skb : Option (Skb × Bool)} (hdlc : cfg.hdlcEng = true)
    (picks : Picks cfg bertMode made before skb after) :
    after.addrs + Aft.addrs (cfg.pooled (skb.map Prod.fst).toList) ≤ before.addrs := by
  cases picks with
  | @bert skb _ own =>
      have none : cfg.pooled [skb] = [] := by
        simp [Cfg.pooled, Cfg.isBert, own]
      simp only [Option.map_some, Option.toList_some, none]
      exact (Multiset.add_zero _).le
  | @data skb rest _ pending =>
      have less := pooled_le cfg [skb]
      simp only [Option.map_some, Option.toList_some, Lists.addrs, pending]
      rw [Multiset.le_iff_count] at less ⊢
      intro addr
      have once := less addr
      have split : Aft.addrs (skb :: rest) = Aft.addrs [skb] + Aft.addrs rest :=
        addrs_append [skb] rest
      simp only [split, Multiset.count_add] at once ⊢
      omega
  | made makes =>
      rw [cfg.soft makes] at hdlc
      cases hdlc
  | idle _ transparent => exact absurd hdlc (ne_true_of_eq_false transparent)
  | @repeated skb older _ _ _ rpt =>
      have folded := fold_addrs cfg older before
      obtain ⟨dealloc, same⟩ := fold_dealloc cfg older before
      have less := pooled_le cfg [skb]
      have fewer := pooled_le cfg older
      rw [same] at folded ⊢
      simp only [Option.map_some, Option.toList_some, Lists.addrs, rpt, addrs_append] at folded ⊢
      rw [Multiset.le_iff_count] at less fewer ⊢
      intro addr
      have once := less addr
      have few := fewer addr
      have counts := congrArg (Multiset.count addr) folded
      have empty : Multiset.count addr (Aft.addrs []) = 0 := Multiset.count_zero addr
      simp only [Multiset.count_add] at once counts ⊢
      omega
  | nothing cells zero =>
      rw [zero hdlc, List.drop_zero]
      exact (Multiset.add_zero _).le

/-- The remembered address changes with a repeat frame that goes out only. -/
theorem Picks.remembers {bertMode idle : Bool} {made : List (Option Skb × Nat)}
    {before after : Lists} {skb : Skb}
    (picks : Picks cfg bertMode made before (some (skb, idle)) after) :
    after.rptSkb = before.rptSkb ∨ after.rptSkb = some skb.addr ∧ before.pending = [] ∧
      before.rpt.getLast? = some skb ∧ (bertMode = true → cfg.bert = none) := by
  cases picks with
  | bert => exact .inl rfl
  | data => exact .inl rfl
  | made => exact .inl rfl
  | idle => exact .inl rfl
  | repeated _ off empty rpt =>
      refine .inr ⟨rfl, empty, ?_, off⟩
      rw [rpt, List.getLast?_append, List.getLast?_singleton]
      rfl

theorem Picks.nothing_same {bertMode : Bool} {made : List (Option Skb × Nat)}
    {before after : Lists} (hdlc : cfg.hdlcEng = true)
    (picks : Picks cfg bertMode made before none after) : after = before := by
  cases picks with
  | nothing cells zero =>
      rw [zero hdlc]
      rfl

theorem Picks.rpt {bertMode : Bool} {made : List (Option Skb × Nat)} {before after : Lists}
    {skb : Option (Skb × Bool)} (picks : Picks cfg bertMode made before skb after) :
    after.rpt ⊆ before.rpt := by
  cases picks with
  | bert => exact List.Subset.refl _
  | data => exact List.Subset.refl _
  | made => exact List.Subset.refl _
  | idle => exact List.Subset.refl _
  | repeated => exact List.nil_subset _
  | nothing => exact List.Subset.refl _

/-- A turn that takes an skb leaves what `aft_dma_tx` comes to in its later turns. -/
theorem Picks.sends {bertMode idle : Bool} {made : List (Option Skb × Nat)}
    {before after : Lists} {skb : Skb} {cnt used : Nat} (hdlc : cfg.hdlcEng = true)
    (picks : Picks cfg bertMode made before (some (skb, idle)) after)
    (sends : Sends cfg bertMode before (cnt + 1) used) :
    Sends cfg bertMode after cnt (used + if (sendable cfg skb).isSome then 1 else 0) := by
  intro off soon room
  cases picks with
  | bert on own =>
      rw [off on] at own
      cases own
  | data _ pending =>
      apply sends off
      · rw [pending]
        exact Nat.succ_lt_succ soon
      · rw [pending, List.countP_cons]
        simp only at room
        omega
  | made makes =>
      rw [cfg.soft makes] at hdlc
      cases hdlc
  | idle _ transparent => exact absurd hdlc (ne_true_of_eq_false transparent)
  | repeated => rfl

theorem isBert_sendable {skb ready : Skb} (sends : sendable cfg skb = some ready) :
    ready.addr = skb.addr ∧ ready.kind = skb.kind ∧ cfg.isBert ready = cfg.isBert skb := by
  rcases sendable_cases sends with rfl | rfl <;> exact ⟨rfl, rfl, rfl⟩

theorem addrs_perm {left right : List Skb} (perm : left.Perm right) : addrs left = addrs right :=
  Multiset.coe_eq_coe.mpr (perm.map _)

theorem Takes.addrs {skb : Skb} {before after : Lists} {done : Bool} (hdlc : cfg.hdlcEng = true)
    (known : before.rptSkb = some skb.addr → cfg.isBert skb = false)
    (takes : Takes cfg before skb after done) :
    after.addrs = before.addrs + Aft.addrs (cfg.pooled [skb]) := by
  have pooled (own : cfg.isBert skb = false) : cfg.pooled [skb] = [skb] := by
    simp [Cfg.pooled, own]
  cases takes with
  | again _ remembered empty =>
      rw [pooled (known remembered)]
      ext addr
      have none : Multiset.count addr (Aft.addrs []) = 0 := Multiset.count_zero addr
      simp only [Lists.addrs, empty, Multiset.count_add]
      omega
  | superseded => exact dealloc_addrs cfg { before with rptSkb := none } skb
  | bert own =>
      have none : cfg.pooled [skb] = [] := by simp [Cfg.pooled, own]
      rw [none]
      exact (Multiset.add_zero _).symm
  | sent _ _ own =>
      rw [pooled own]
      ext addr
      simp only [Lists.addrs, addrs_append, Multiset.count_add]
      omega
  | idle transparent => exact absurd hdlc (ne_true_of_eq_false transparent)
  | freed transparent => exact absurd hdlc (ne_true_of_eq_false transparent)

theorem Takes.rpt {skb other : Skb} {before after : Lists} {done : Bool}
    (hdlc : cfg.hdlcEng = true) (takes : Takes cfg before skb after done)
    (member : other ∈ after.rpt) :
    other ∈ before.rpt ∨ other = skb ∧ before.rptSkb = some skb.addr := by
  cases takes with
  | again _ remembered => exact .inr ⟨List.mem_singleton.mp member, remembered⟩
  | superseded =>
      rw [(dealloc_shed cfg { before with rptSkb := none } skb).rpt] at member
      exact .inl member
  | bert => exact .inl member
  | sent => exact .inl member
  | idle transparent => exact absurd hdlc (ne_true_of_eq_false transparent)
  | freed transparent => exact absurd hdlc (ne_true_of_eq_false transparent)

theorem releaseAll_addrs (hdlc : cfg.hdlcEng = true) (lists : Lists) (skbs : List Skb) :
    (releaseAll cfg lists skbs).addrs = lists.addrs + addrs (cfg.pooled skbs) := by
  have same : release cfg = wanAftSkbDeferedDealloc cfg := by
    funext lists skb
    exact release_hdlc hdlc lists skb
  rw [← fold_addrs, releaseAll, same]

theorem chainInit_addrs (hdlc : cfg.hdlcEng = true) (chan : Chan) (i : Nat) :
    (aftTxDmaChainInit cfg chan i).lists.addrs =
      chan.lists.addrs + addrs (cfg.pooled (chan.table i).skb.toList) := by
  rw [(chainInit_lists cfg chan i).1]
  cases (chan.table i).skb with
  | none => exact (Multiset.add_zero _).symm
  | some skb =>
      rw [Option.elim_some, Option.toList_some, release_hdlc hdlc, ← dealloc_addrs]
      split
      · next bert => rw [wanAftSkbDeferedDealloc, if_pos bert]
      · rfl

/-- Every skb of the ring goes to the list of what is freed later. -/
theorem freeDescrs_addrs (hdlc : cfg.hdlcEng = true) (chan : Chan) (count : Nat) :
    (freeDescrs cfg chan count).lists.addrs = chan.lists.addrs + addrs (cfg.pooled
        ((List.range count).filterMap fun i => (chan.table i).skb)) ∧
      ∀ i, count ≤ i → (freeDescrs cfg chan count).table i = chan.table i := by
  induction count with
  | zero => exact ⟨(Multiset.add_zero _).symm, fun _ _ => rfl⟩
  | succ count ih =>
      obtain ⟨freed, left⟩ := ih
      let cleared := (freeDescrs cfg chan count).setReg count ⟨false, false⟩
      have last : freeDescrs cfg chan (count + 1) = aftTxDmaChainInit cfg cleared count := by
        rw [freeDescrs, List.range_succ, List.foldl_append]
        rfl
      have held : cleared.table count = chan.table count := left count (Nat.le_refl _)
      have all : ((List.range (count + 1)).filterMap fun i => (chan.table i).skb) =
          ((List.range count).filterMap fun i => (chan.table i).skb) ++
            (chan.table count).skb.toList := by
        rw [List.range_succ, List.filterMap_append]
        cases skb : (chan.table count).skb <;> simp [skb]
      rw [last, chainInit_addrs hdlc, held, all, pooled_append, addrs_append,
        ← Multiset.add_assoc, ← freed]
      refine ⟨rfl, fun i later => ?_⟩
      rw [(aftTxDmaChainInit_keeps cfg cleared count).1.table i (Nat.ne_of_gt later)]
      exact left i (Nat.le_of_lt later)

end Addresses

end Wanpipe.Aft
