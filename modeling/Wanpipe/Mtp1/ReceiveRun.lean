import Wanpipe.Mtp1.TransmitLine
import Wanpipe.Mtp1.ReceiveLine

/-! What a freshly registered link hears of a line of dequeued frames, cut at any bit. -/

namespace Wanpipe.Mtp1

open Line

/-- Before the first flag, with octet counting off. The registers of a fresh link are clear. -/
structure Hunting (link : Link) (window : List Bool) : Prop where
  state : link.stateDaedr = .daedrx0 ∧ link.rOctetCountingMode = false ∧
      link.rFlagAccum = accumOf window ∨
    link.stateDaedr = .init ∧ window = List.replicate 8 false
  size : window.length = 8

theorem hunting_step {link : Link} {oldest : Bool} {window : List Bool} (bit : Bool)
    (held : Hunting link (oldest :: window)) :
    ∃ next, rxBitToSu link bit = openCheckFlag next ∧ Silent link next ∧
      next.stateDaedr = .daedrx0 ∧ next.rOctetCountingMode = false ∧
      next.rFlagAccum = accumOf (window ++ [bit]) := by
  have seven : window.length = 7 := Nat.succ.inj held.size
  have shift := accumOf_shift oldest bit window seven
  rcases held.state with ⟨state, mode, accum⟩ | ⟨state, fresh⟩
  · refine ⟨shiftFlagAccum link bit, ?_, ⟨rfl, rfl, rfl⟩, state, mode, ?_⟩
    · simp [rxBitToSu, state, daedrx0, octetCountMode, mode]
    · rw [← shift, ← accum]
      rfl
  · have clear : accumOf (oldest :: window) = 0 := by
      rw [fresh]
      decide
    refine ⟨shiftFlagAccum { link with
      rFlagAccum := 0, rOctetCountingMode := false, stateDaedr := .daedrx0 } bit, ?_,
      ⟨rfl, rfl, rfl⟩, rfl, rfl, ?_⟩
    · simp [rxBitToSu, state, daedrx0, octetCountMode]
    · rw [← shift, clear]
      rfl

theorem hunting_plain {link : Link} {oldest second : Bool} {window : List Bool} (bit : Bool)
    (held : Hunting link (oldest :: second :: window))
    (few : leadOnes (window ++ [bit]) ≤ 5) :
    Hunting (rxBitToSu link bit) (second :: window ++ [bit]) ∧ Silent link (rxBitToSu link bit) := by
  have six : window.length = 6 := Nat.succ.inj (Nat.succ.inj held.size)
  have seven : (window ++ [bit]).length = 7 := by rw [List.length_append, six]; rfl
  obtain ⟨next, step, silent, state, mode, accum⟩ := hunting_step bit held
  have plain := accumOf_plain second (window ++ [bit]) seven few
  rw [← List.cons_append, ← accum] at plain
  rw [step, openCheckFlag, if_neg plain.1, if_neg plain.2]
  exact ⟨⟨Or.inl ⟨state, mode, accum⟩, by simp [six]⟩, silent⟩

theorem hunting_flag {link : Link} {oldest : Bool} {window : List Bool} (bit : Bool)
    (held : Hunting link (oldest :: window)) (found : window ++ [bit] = flag) :
    Synced (rxBitToSu link bit) ∧ Silent link (rxBitToSu link bit) := by
  obtain ⟨next, step, silent, state, mode, accum⟩ := hunting_step bit held
  have seen : next.rFlagAccum = flagOctet := by
    rw [accum, found]
    decide
  rw [step, openCheckFlag, if_pos seen]
  exact ⟨⟨rfl, mode, accum.trans (by rw [found]), rfl, rfl⟩,
    silent.cfg, silent.reg, silent.indications⟩

/-- The first flag of all. -/
theorem first_flag (link : Link) (fresh : link.stateDaedr = .init) :
    Synced (feed link flag) ∧ Silent link (feed link flag) ∧
      Quiet link.indications link flag := by
  have start : Hunting link (List.replicate 8 false) := ⟨Or.inr ⟨fresh, rfl⟩, rfl⟩
  obtain ⟨hunt1, silent1⟩ := hunting_plain false start (by decide)
  obtain ⟨hunt2, silent2⟩ := hunting_plain true hunt1 (by decide)
  obtain ⟨hunt3, silent3⟩ := hunting_plain true hunt2 (by decide)
  obtain ⟨hunt4, silent4⟩ := hunting_plain true hunt3 (by decide)
  obtain ⟨hunt5, silent5⟩ := hunting_plain true hunt4 (by decide)
  obtain ⟨hunt6, silent6⟩ := hunting_plain true hunt5 (by decide)
  obtain ⟨hunt7, silent7⟩ := hunting_plain true hunt6 (by decide)
  obtain ⟨synced, silent8⟩ := hunting_flag false hunt7 rfl
  have told2 := silent1.trans silent2
  have told3 := told2.trans silent3
  have told4 := told3.trans silent4
  have told5 := told4.trans silent5
  have told6 := told5.trans silent6
  have told7 := told6.trans silent7
  refine ⟨synced, told7.trans silent8, ?_⟩
  refine Quiet.cons rfl (Quiet.cons silent1.indications (Quiet.cons told2.indications ?_))
  refine Quiet.cons told3.indications (Quiet.cons told4.indications ?_)
  refine Quiet.cons told5.indications (Quiet.cons told6.indications ?_)
  exact Quiet.cons told7.indications (Quiet.nil _ _)

/-- What the layer above is told of a dequeued frame that came through. -/
def Dequeued.heard : Dequeued → Option Indication
  | .idle => none
  | item => some (.rxData item.unit 0)

/-- The frames whose line, and the flag that closes it, lie in the first `n` bits. -/
def transmitted (endian : BitEndian) : List Dequeued → Nat → List Dequeued
  | item :: next :: items, n =>
      if (item.line endian).length + flag.length ≤ n then
        item :: transmitted endian (next :: items) (n - (item.line endian).length)
      else []
  | _, _ => []

/-- A signal unit that a receiver with this `max_mru` takes. -/
structure Receivable (maxMru : Nat) (item : Dequeued) : Prop where
  sealed : item.octets = item.unit
  size : item = .idle ∨ 3 ≤ item.unit.length ∧ item.unit.length ≤ maxMru

theorem unit_good (item : Dequeued) (frame : item ≠ .idle) :
    fcs 0xffff#16 item.unit = 0xf0b8#16 := by
  cases item with
  | data skb => exact fcs_residue skb.data
  | repeated skb => exact fcs_residue skb.data
  | idle => exact absurd rfl frame

theorem suLine_bit0First (octets : List Octet) : suLine .bit0First octets = lineBits octets := rfl

/-- From a flag on, one dequeued frame and its closing flag. -/
theorem item_received {link : Link} (item : Dequeued) (synced : Synced link)
    (told : link.reg.rxData = true) (good : Receivable link.cfg.maxMru item) :
    Synced (feed link (stuff 0 (lineBits item.octets) ++ flag)) ∧
      (feed link (stuff 0 (lineBits item.octets) ++ flag)).cfg = link.cfg ∧
      (feed link (stuff 0 (lineBits item.octets) ++ flag)).reg = link.reg ∧
      (feed link (stuff 0 (lineBits item.octets) ++ flag)).indications =
        link.indications ++ item.heard.toList ∧
      Quiet link.indications link (stuff 0 (lineBits item.octets) ++ flag) := by
  rcases good.size with rfl | ⟨long, short⟩
  · obtain ⟨next, silent, quiet⟩ := flag_received synced
    exact ⟨next, silent.cfg, silent.reg,
      silent.indications.trans (List.append_nil _).symm, quiet⟩
  · have frame : item ≠ .idle := by
      rintro rfl
      exact absurd long (by decide)
    rw [good.sealed]
    have heard : item.heard = some (.rxData item.unit 0) := by
      cases item with
      | idle => exact absurd rfl frame
      | data skb => rfl
      | repeated skb => rfl
    rw [heard]
    exact su_received item.unit long (Nat.le_succ_of_le short) (unit_good item frame) told synced

theorem line_received (items : List Dequeued) (link : Link) (n : Nat) (synced : Synced link)
    (told : link.reg.rxData = true) (good : ∀ item ∈ items, Receivable link.cfg.maxMru item)
    (low : flag.length ≤ n) (high : n ≤ (lineOf .bit0First items).length) :
    (feed link (((lineOf .bit0First items).take n).drop flag.length)).indications =
      link.indications ++ (transmitted .bit0First items n).filterMap Dequeued.heard := by
  induction items generalizing link n with
  | nil => exact absurd (Nat.le_trans low high) (by decide)
  | cons item items ih =>
      obtain ⟨next, cfg, reg, indications, quiet⟩ :=
        item_received item synced told (good item (by simp))
      have spelled : item.line .bit0First = flag ++ stuff 0 (lineBits item.octets) := rfl
      cases items with
      | nil =>
          have whole : lineOf .bit0First [item] = flag ++ stuff 0 (lineBits item.octets) := by
            rw [lineOf, List.flatMap_singleton, spelled]
          rw [whole, List.length_append] at high
          have inside := quiet (n - flag.length)
            (by rw [List.length_append]; simp only [flag, List.length_cons] at low high ⊢; omega)
          rw [List.take_append_of_le_length (by omega)] at inside
          rw [whole, List.take_append, List.take_of_length_le low, List.drop_left, inside]
          exact (List.append_nil _).symm
      | cons other items =>
          obtain ⟨more, rest⟩ : ∃ more, lineOf .bit0First (other :: items) = flag ++ more :=
            ⟨stuff 0 (lineBits other.octets) ++ lineOf .bit0First items, by
              simp [lineOf, Dequeued.line, suLine_bit0First]⟩
          have split : lineOf .bit0First (item :: other :: items) =
              item.line .bit0First ++ lineOf .bit0First (other :: items) := rfl
          by_cases closed : (item.line .bit0First).length + flag.length ≤ n
          · have begins : (lineOf .bit0First (other :: items)).take
                (n - (item.line .bit0First).length) =
                flag ++ ((lineOf .bit0First (other :: items)).take
                  (n - (item.line .bit0First).length)).drop flag.length := by
              rw [rest, List.take_append, List.take_of_length_le (by omega), List.drop_left]
            have later := ih _ (n - (item.line .bit0First).length) next (by rw [reg]; exact told)
              (by rw [cfg]; exact fun other member => good other (List.mem_cons_of_mem _ member))
              (by omega) (by rw [split, List.length_append] at high; omega)
            have shape : ((lineOf .bit0First (item :: other :: items)).take n).drop flag.length =
                (stuff 0 (lineBits item.octets) ++ flag) ++
                  ((lineOf .bit0First (other :: items)).take
                    (n - (item.line .bit0First).length)).drop flag.length := by
              rw [split, List.take_append, List.take_of_length_le (by omega), begins, spelled,
                List.append_assoc, List.drop_left, List.drop_left, List.append_assoc]
            rw [shape, feed_append, later, indications, transmitted, if_pos closed,
              List.filterMap_cons, List.append_assoc]
            cases item.heard <;> rfl
          · have shape : ((lineOf .bit0First (item :: other :: items)).take n).drop flag.length =
                (stuff 0 (lineBits item.octets) ++ flag).take (n - flag.length) := by
              rw [split, rest, ← List.append_assoc, List.take_append_of_le_length
                (by rw [List.length_append]; omega), spelled, List.append_assoc, List.take_append,
                List.take_of_length_le low, List.drop_left]
            have inside := quiet (n - flag.length) (by
              rw [spelled, List.length_append] at closed
              rw [List.length_append]
              omega)
            rw [shape, inside, transmitted, if_neg closed]
            exact (List.append_nil _).symm

/-- From the start: what is heard of the first `n` bits of the line. -/
theorem fresh_received (items : List Dequeued) (link : Link) (n : Nat)
    (fresh : link.stateDaedr = .init) (empty : link.indications = [])
    (told : link.reg.rxData = true) (good : ∀ item ∈ items, Receivable link.cfg.maxMru item)
    (high : n ≤ (lineOf .bit0First items).length) :
    (feed link ((lineOf .bit0First items).take n)).indications =
      (transmitted .bit0First items n).filterMap Dequeued.heard := by
  obtain ⟨synced, silent, quiet⟩ := first_flag link fresh
  cases items with
  | nil => simp [lineOf, transmitted, empty]
  | cons item items =>
      obtain ⟨more, head⟩ : ∃ more, lineOf .bit0First (item :: items) = flag ++ more :=
        ⟨stuff 0 (lineBits item.octets) ++ lineOf .bit0First items, by
          simp [lineOf, Dequeued.line, suLine_bit0First]⟩
      rcases Nat.lt_or_ge n flag.length with short | low
      · have none_ : transmitted .bit0First (item :: items) n = [] := by
          cases items with
          | nil => rfl
          | cons other items =>
              rw [transmitted, if_neg (by omega)]
        rw [none_, head, List.take_append_of_le_length (Nat.le_of_lt short), quiet n short, empty]
        rfl
      · have begins : (lineOf .bit0First (item :: items)).take n =
            flag ++ ((lineOf .bit0First (item :: items)).take n).drop flag.length := by
          rw [head, List.take_append, List.take_of_length_le low, List.drop_left]
        rw [begins, feed_append, line_received (item :: items) _ n synced
          (by rw [silent.reg]; exact told) (by rw [silent.cfg]; exact good) low high,
          silent.indications, empty, List.nil_append]

end Wanpipe.Mtp1
