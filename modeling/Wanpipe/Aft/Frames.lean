import Wanpipe.Aft.Moves

/-! The skbs of a channel as they pass through its lists. -/

namespace Wanpipe.Aft

/-- The data frames among the skbs. Realignment moves the data pointer of an skb to its head. -/
def dataOf (skbs : List Skb) : List Skb :=
  (skbs.filter fun skb => skb.kind = .data).map fun skb => { skb with data := skb.head }

/-- Neither list holds the idle skb, nor the repeat list a data frame. -/
structure Listed (cfg : Cfg) (lists : Lists) : Prop where
  pending : ∀ skb ∈ lists.pending, cfg.isIdle skb = false
  rpt : ∀ skb ∈ lists.rpt, cfg.isIdle skb = false ∧ skb.kind ≠ .data

section Frames

theorem dataOf_append (left right : List Skb) :
    dataOf (left ++ right) = dataOf left ++ dataOf right := by
  rw [dataOf, List.filter_append, List.map_append]
  rfl

theorem dataOf_sublist {left right : List Skb} (sublist : left.Sublist right) :
    (dataOf left).Sublist (dataOf right) :=
  (sublist.filter _).map _

theorem dataOf_other {skb : Skb} (other : skb.kind ≠ .data) (skbs : List Skb) :
    dataOf (skb :: skbs) = dataOf skbs := by
  rw [dataOf, List.filter_cons_of_neg (by simpa using other)]
  rfl

theorem dataOf_sendable {cfg : Cfg} {skb ready : Skb} (sends : sendable cfg skb = some ready)
    (skbs : List Skb) : dataOf (ready :: skbs) = dataOf (skb :: skbs) := by
  rcases sendable_cases sends with rfl | rfl
  · rfl
  · simp only [dataOf, List.filter_cons]
    split <;> rfl

theorem isIdle_sendable {cfg : Cfg} {skb ready : Skb} (sends : sendable cfg skb = some ready) :
    cfg.isIdle ready = cfg.isIdle skb := by
  rcases sendable_cases sends with rfl | rfl <;> rfl

theorem isIdle_bert {cfg : Cfg} {skb : Skb} (bert : cfg.isBert skb = true) :
    cfg.isIdle skb = false := by
  unfold Cfg.isBert at bert
  unfold Cfg.isIdle
  cases first : cfg.idle with
  | none => rfl
  | some idle =>
      cases second : cfg.bert with
      | none =>
          rw [second] at bert
          cases bert
      | some other =>
          have differ := cfg.apart idle other first second
          rw [second] at bert
          have same : other.addr = skb.addr := by simpa using bert
          simpa [← same] using differ

end Frames

section Lists

variable {cfg : Cfg} {bertMode : Bool} {before after : Lists} {made : List (Option Skb × Nat)}

theorem fold_dealloc (cfg : Cfg) (older : List Skb) (lists : Lists) :
    ∃ dealloc, older.foldl (wanAftSkbDeferedDealloc cfg) lists =
      { lists with dealloc := dealloc } := by
  induction older generalizing lists with
  | nil => exact ⟨lists.dealloc, rfl⟩
  | cons skb older ih =>
      obtain ⟨dealloc, same⟩ := ih (wanAftSkbDeferedDealloc cfg lists skb)
      rw [List.foldl_cons, same, wanAftSkbDeferedDealloc]
      split <;> exact ⟨dealloc, rfl⟩

theorem Listed.shorter (listed : Listed cfg before) (pending : after.pending ⊆ before.pending)
    (rpt : after.rpt ⊆ before.rpt) : Listed cfg after :=
  ⟨fun skb member => listed.pending skb (pending member),
    fun skb member => listed.rpt skb (rpt member)⟩

theorem Picks.listed {skb : Option (Skb × Bool)} (listed : Listed cfg before)
    (picks : Picks cfg bertMode made before skb after) : Listed cfg after := by
  cases picks with
  | bert => exact listed
  | data _ pending =>
      refine listed.shorter ?_ (List.Subset.refl _)
      rw [pending]
      exact List.subset_cons_self _ _
  | made => exact listed.shorter (List.drop_subset _ _) (List.Subset.refl _)
  | idle => exact listed.shorter (List.drop_subset _ _) (List.Subset.refl _)
  | repeated _ _ _ rpt =>
      obtain ⟨dealloc, same⟩ := fold_dealloc cfg _ before
      rw [same]
      exact listed.shorter (List.Subset.refl _) (List.nil_subset _)
  | nothing => exact listed.shorter (List.drop_subset _ _) (List.Subset.refl _)

/-- What is pending becomes no more, also when nothing goes out. -/
theorem Picks.pending {skb : Option (Skb × Bool)} (picks : Picks cfg bertMode made before skb after) :
    (dataOf after.pending).Sublist (dataOf before.pending) := by
  cases picks with
  | bert => exact List.Sublist.refl _
  | data _ pending =>
      rw [pending]
      exact dataOf_sublist (List.sublist_cons_self _ _)
  | made => exact dataOf_sublist (List.drop_sublist _ _)
  | idle => exact dataOf_sublist (List.drop_sublist _ _)
  | repeated =>
      obtain ⟨dealloc, same⟩ := fold_dealloc cfg _ before
      rw [same]
  | nothing => exact dataOf_sublist (List.drop_sublist _ _)

/-- A data frame goes out from the front of the pending list only. -/
theorem Picks.data_out {skb : Skb} {idle : Bool} (listed : Listed cfg before)
    (picks : Picks cfg bertMode made before (some (skb, idle)) after) :
    (dataOf (skb :: after.pending)).Sublist (dataOf before.pending) := by
  have less := picks.pending
  by_cases other : skb.kind = .data
  · cases picks with
    | bert _ own =>
        rw [cfg.own _ (.inr own)] at other
        cases other
    | data _ pending => rw [pending]
    | made => cases other
    | idle _ _ own =>
        rw [cfg.own _ (.inl own)] at other
        cases other
    | repeated _ _ _ rpt =>
        refine absurd other (listed.rpt skb ?_).2
        rw [rpt]
        exact List.mem_append_right _ List.mem_cons_self
  · rw [dataOf_other other]
    exact less

/-- The flag of the turn tells the idle skb, which is sent on a transparent channel only. -/
theorem Picks.isIdle {skb : Skb} {idle : Bool} (listed : Listed cfg before)
    (apart : ∀ skb cells, (some skb, cells) ∈ made → cfg.isIdle skb = false)
    (picks : Picks cfg bertMode made before (some (skb, idle)) after) :
    cfg.isIdle skb = idle ∧ (idle = true → cfg.hdlcEng = false) := by
  cases picks with
  | bert _ own =>
      refine ⟨isIdle_bert ?_, nofun⟩
      simp [Cfg.isBert, own]
  | data _ pending =>
      refine ⟨listed.pending skb ?_, nofun⟩
      rw [pending]
      exact List.mem_cons_self
  | made _ member =>
      have other := apart _ _ member
      exact ⟨other, nofun⟩
  | idle _ transparent own =>
      refine ⟨?_, fun _ => transparent⟩
      simp [Cfg.isIdle, own]
  | repeated _ _ _ rpt =>
      refine ⟨(listed.rpt skb ?_).1, nofun⟩
      rw [rpt]
      exact List.mem_append_right _ List.mem_cons_self

/-- Only the list of what is freed later differs. -/
structure Shed (before after : Lists) : Prop where
  pending : after.pending = before.pending
  rpt : after.rpt = before.rpt
  complete : after.complete = before.complete
  rptSkb : after.rptSkb = before.rptSkb

theorem Shed.trans {middle : Lists} (first : Shed before middle) (second : Shed middle after) :
    Shed before after :=
  ⟨second.pending.trans first.pending, second.rpt.trans first.rpt,
    second.complete.trans first.complete, second.rptSkb.trans first.rptSkb⟩

theorem dealloc_shed (cfg : Cfg) (lists : Lists) (skb : Skb) :
    Shed lists (wanAftSkbDeferedDealloc cfg lists skb) := by
  rw [wanAftSkbDeferedDealloc]
  split <;> exact ⟨rfl, rfl, rfl, rfl⟩

theorem skbInit_shed (cfg : Cfg) (lists : Lists) (skb : Skb) :
    Shed lists (aftTxDmaSkbInit cfg lists skb) := by
  rw [aftTxDmaSkbInit]
  repeat' split
  all_goals first | exact ⟨rfl, rfl, rfl, rfl⟩ | exact dealloc_shed cfg lists skb

theorem release_shed (cfg : Cfg) (lists : Lists) (skb : Skb) :
    Shed lists (release cfg lists skb) := by
  rw [release]
  split
  · exact skbInit_shed cfg lists skb
  · exact dealloc_shed cfg lists skb

theorem releaseAll_shed (cfg : Cfg) (lists : Lists) (skbs : List Skb) :
    Shed lists (releaseAll cfg lists skbs) := by
  induction skbs generalizing lists with
  | nil => exact ⟨rfl, rfl, rfl, rfl⟩
  | cons skb skbs ih => exact (release_shed cfg lists skb).trans (ih _)

theorem Listed.shed (listed : Listed cfg before) (shed : Shed before after) :
    Listed cfg after := by
  obtain ⟨pending, rpt, -, -⟩ := shed
  refine ⟨?_, ?_⟩
  · rw [pending]
    exact listed.pending
  · rw [rpt]
    exact listed.rpt

theorem Takes.pending {skb : Skb} {done : Bool} (takes : Takes cfg before skb after done) :
    after.pending = before.pending := by
  cases takes with
  | again => rfl
  | superseded => exact (dealloc_shed cfg _ skb).pending
  | bert => rfl
  | sent => rfl
  | idle => rfl
  | freed => exact (skbInit_shed cfg before skb).pending

/-- On an HDLC channel the remembered frame is forgotten when it comes back. -/
theorem Takes.rptSkb {skb : Skb} {done : Bool} (hdlc : cfg.hdlcEng = true)
    (takes : Takes cfg before skb after done) :
    after.rptSkb = none ∨ after.rptSkb = before.rptSkb ∧ before.rptSkb ≠ some skb.addr := by
  cases takes with
  | again => exact .inl rfl
  | superseded => exact .inl (dealloc_shed cfg { before with rptSkb := none } skb).rptSkb
  | bert _ other => exact .inr ⟨rfl, other hdlc⟩
  | sent _ other => exact .inr ⟨rfl, other⟩
  | idle transparent => exact absurd hdlc (ne_true_of_eq_false transparent)
  | freed transparent => exact absurd hdlc (ne_true_of_eq_false transparent)

theorem Takes.listed {skb : Skb} {done : Bool} (listed : Listed cfg before)
    (takes : Takes cfg before skb after done)
    (carried : cfg.hdlcEng = true → cfg.isIdle skb = false)
    (known : cfg.hdlcEng = true → before.rptSkb = some skb.addr → skb.kind ≠ .data) :
    Listed cfg after := by
  cases takes with
  | again hdlc remembered =>
      refine ⟨listed.pending, ?_⟩
      intro other member
      rw [List.mem_singleton.mp member]
      exact ⟨carried hdlc, known hdlc remembered⟩
  | superseded =>
      have forgot : Listed cfg { before with rptSkb := none } := ⟨listed.pending, listed.rpt⟩
      exact forgot.shed (dealloc_shed cfg _ skb)
  | bert => exact listed
  | sent => exact listed.shorter (List.Subset.refl _) (List.Subset.refl _)
  | idle => exact listed
  | freed => exact listed.shed (skbInit_shed cfg before skb)

end Lists

end Wanpipe.Aft
