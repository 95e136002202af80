import Wanpipe.Mtp1.Configured
import Wanpipe.Mtp1.ReceiveRun

/-! A transmitter's octets fed into a freshly registered link. -/

namespace Wanpipe.Mtp1

open Line Runs

theorem rxOctetBits_bit0First (cfg : Cfg) (order : cfg.hdlcBitEndian = .bit0First)
    (data : List Octet) :
    data.flatMap (rxOctetBits cfg) = unitBits cfg.hdlcOpMode.width data := by
  have octet : rxOctetBits cfg = fun octet => (octetBits octet).take cfg.hdlcOpMode.width := by
    funext octet
    cases mode : cfg.hdlcOpMode <;>
      simp [rxOctetBits, order, mode, OpMode.width, List.take_of_length_le]
  rw [octet]
  rfl

theorem registered_fresh (reg : Reg) (link : Link) (registered : wpMtp1Register reg = some link) :
    link.stateDaedr = .init ∧ link.indications = [] ∧ link.reg.rxData = reg.rxData ∧
      link.cfg.hdlcOpMode = reg.cfg.hdlcOpMode ∧
      link.cfg.hdlcBitEndian = reg.cfg.hdlcBitEndian := by
  unfold wpMtp1Register at registered
  split at registered
  · contradiction
  · rw [Option.some.injEq] at registered
    subst registered
    exact ⟨rfl, rfl, rfl, rfl, rfl⟩

/-- A frame that fits the receiver together with its two check octets. -/
def FrameFits (maxMru : Nat) (data : List Octet) : Prop :=
  1 ≤ data.length ∧ data.length + 2 ≤ maxMru

def TxOp.Frames (fits : List Octet → Prop) : TxOp → Prop
  | .txData skb rskb => fits skb ∧ ∀ data, rskb = some data → fits data
  | .txBh _ => True

/-- All frames that a sender has taken so far satisfy `fits`. -/
structure Taken (fits : List Octet → Prop) (sender : Sender) : Prop where
  accepted : ∀ data ∈ sender.accepted, fits data
  repeats : ∀ data ∈ sender.repeats, fits data

theorem txStep_taken {fits : List Octet → Prop} {fuel : Nat} {sender next : Sender} {op : TxOp}
    (taken : Taken fits sender) (allowed : op.Frames fits)
    (stepped : txStep fuel sender op = some next) : Taken fits next := by
  cases op with
  | txData skb rskb =>
      simp only [txStep] at stepped
      split at stepped
      · rw [Option.some.injEq] at stepped
        subst stepped
        constructor
        · intro data member
          rcases List.mem_append.mp member with old | new
          · exact taken.accepted data old
          · rw [List.mem_singleton.mp new]
            exact allowed.1
        · intro data member
          rcases List.mem_append.mp member with old | new
          · exact taken.repeats data old
          · exact allowed.2 data (Option.mem_toList.mp new)
      · rw [Option.some.injEq] at stepped
        subst stepped
        exact ⟨taken.accepted, taken.repeats⟩
  | txBh mtu =>
      obtain ⟨result, _, rfl⟩ := Option.map_eq_some_iff.mp stepped
      exact ⟨taken.accepted, taken.repeats⟩

/-- Every frame dequeued is one that was taken. -/
theorem Sending.taken {cfg : Cfg} {sender : Sender} {fits : List Octet → Prop}
    (sending : Sending cfg sender) (taken : Taken fits sender) (item : Dequeued)
    (member : item ∈ sender.link.dequeued) :
    item = .idle ∨ ∃ data, fits data ∧ item.unit = data ++ fcsOctets data := by
  cases item with
  | idle => exact Or.inl rfl
  | data skb =>
      have queued : skb ∈ sender.accepted.map csumSkb := by
        rw [← sending.frames]
        exact List.mem_append_left _ (List.mem_filterMap.mpr ⟨_, member, rfl⟩)
      rcases List.mem_map.mp queued with ⟨data, known, rfl⟩
      exact Or.inr ⟨data, taken.accepted data known, rfl⟩
  | repeated skb =>
      rcases List.mem_map.mp (sending.repeated skb member) with ⟨data, known, rfl⟩
      exact Or.inr ⟨data, taken.repeats data known, rfl⟩

theorem Sending.receivable {cfg : Cfg} {sender : Sender} {maxMru : Nat}
    {fits : List Octet → Prop} (sending : Sending cfg sender) (taken : Taken fits sender)
    (small : ∀ data, fits data → FrameFits maxMru data) (item : Dequeued)
    (member : item ∈ sender.link.dequeued) : Receivable maxMru item := by
  refine ⟨sending.unit item member, ?_⟩
  rcases sending.taken taken item member with idle | ⟨data, fit, spelled⟩
  · exact Or.inl idle
  · have low := (small data fit).1
    have high := (small data fit).2
    rw [spelled, List.length_append, fcsOctets_length]
    exact Or.inr ⟨by omega, by omega⟩

theorem idle_encodedLen_le (cfg : Cfg) (item : Dequeued) :
    Dequeued.idle.encodedLen cfg ≤ item.encodedLen cfg := by
  have least : (Dequeued.idle.line cfg.hdlcBitEndian).length ≤
      (item.line cfg.hdlcBitEndian).length := Dequeued.flag_le_line cfg.hdlcBitEndian item
  exact Nat.div_le_div_right (Nat.add_le_add_right least _)

/-- Frames that leave room for an `mtu` leave it for a flag. -/
theorem oneMtu_idle (cfg : Cfg) (mtu : Nat) (ops : List TxOp)
    (one : ∀ op ∈ ops, OneMtu cfg mtu op)
    (idle : (∀ op ∈ ops, op = .txBh mtu) → Dequeued.idle.encodedLen cfg + mtu ≤ txBufSize) :
    Dequeued.idle.encodedLen cfg + mtu ≤ txBufSize := by
  by_cases calls : ∀ op ∈ ops, op = .txBh mtu
  · exact idle calls
  · push Not at calls
    rcases calls with ⟨op, member, frame⟩
    have fits := one op member
    cases op with
    | txBh mtu' => exact absurd (congrArg TxOp.txBh fits) frame
    | txData skb rskb =>
        exact Nat.le_trans (Nat.add_le_add_right (idle_encodedLen_le cfg _) mtu) fits.1

/-- What a run leaves: the octets of its line, and frames that were queued. -/
theorem roomy_run (reg : Reg) (link : Link) (registered : wpMtp1Register reg = some link)
    (fuel : Nat) (fits : List Octet → Prop) (ops : List TxOp)
    (roomy : Along (txStep fuel) (Roomy fuel) (Sender.start link) ops)
    (frames : ∀ op ∈ ops, op.Frames fits) :
    ∃ sender, run (txStep fuel) (Sender.start link) ops = some sender ∧
      Sending link.cfg sender ∧ Taken fits sender := by
  let kept (sender : Sender) : Prop := Sending link.cfg sender ∧ Taken fits sender
  have start : kept (Sender.start link) :=
    ⟨(start_sending reg link registered).1, by simp [Sender.start], by simp [Sender.start]⟩
  refine Along.run ?_ start (roomy.and (Along.of_forall _ ops frames))
  intro sender op held allowed
  rcases txStep_sending fuel link.cfg sender op held.1 allowed.1 with ⟨next, stepped, sending⟩
  exact ⟨next, stepped, sending, txStep_taken held.2 allowed.2 stepped⟩

/-- Bit 0 first, every frame whose closing flag has gone out is heard once, in order, as its
octets and its two check octets, and nothing else is heard. -/
theorem mtp1_loopback (reg rxReg : Reg) (tx rx : Link)
    (registered : wpMtp1Register reg = some tx) (fresh : wpMtp1Register rxReg = some rx)
    (sameMode : rxReg.cfg.hdlcOpMode = reg.cfg.hdlcOpMode)
    (order : reg.cfg.hdlcBitEndian = .bit0First)
    (rxOrder : rxReg.cfg.hdlcBitEndian = .bit0First) (told : rxReg.rxData = true)
    (mtu fuel : Nat) (ops : List TxOp) (enough : mtu ≤ fuel)
    (one : ∀ op ∈ ops, OneMtu tx.cfg mtu op)
    (frames : ∀ op ∈ ops, op.Frames (FrameFits rx.cfg.maxMru))
    (idle : (∀ op ∈ ops, op = .txBh mtu) →
      Dequeued.idle.encodedLen tx.cfg + mtu ≤ txBufSize) :
    ∃ sender, run (txStep fuel) (Sender.start tx) ops = some sender ∧
      sender.link.dequeued.filterMap Dequeued.fresh? ++ sender.link.tbs.txQ =
        sender.accepted.map csumSkb ∧
      (wpMtp1RxHandler rx sender.out).indications =
        (transmitted .bit0First sender.link.dequeued
          (reg.cfg.hdlcOpMode.width * sender.out.length)).filterMap Dequeued.heard := by
  have roomy := oneMtu_roomy reg tx registered mtu fuel ops enough
    (oneMtu_idle tx.cfg mtu ops one idle) one
  rcases roomy_run reg tx registered fuel _ ops roomy frames with ⟨sender, ran, sending, taken⟩
  rcases registered_fresh reg tx registered with ⟨_, _, _, mode, endian⟩
  rcases registered_fresh rxReg rx fresh with ⟨state, empty, reports, rxMode, rxEndian⟩
  have line : sender.line = lineOf .bit0First sender.link.dequeued := by
    rw [Sender.line, sending.config, endian, order]
  have within := sending.within
  rw [line, mode] at within
  have bits : sender.out.flatMap (rxOctetBits rx.cfg) =
      sender.line.take (reg.cfg.hdlcOpMode.width * sender.out.length) := by
    have out := sending.out
    rw [line, mode] at out
    rw [rxOctetBits_bit0First rx.cfg (rxEndian.trans rxOrder), rxMode, sameMode, out,
      unitOctets_length, line,
      unitBits_unitOctets _ _ _ _ (Nat.le_of_eq (OpMode.width_mark reg.cfg.hdlcOpMode)) within]
  refine ⟨sender, ran, sending.frames, ?_⟩
  rw [wpMtp1RxHandler_feed, bits, line]
  exact fresh_received _ rx _ state empty (reports.trans told)
    (sending.receivable taken fun _ fit => fit) within

theorem mtp1_loopback_frame :
    ∃ link, wpMtp1Register growingReg = some link ∧
      ∃ sender, run (txStep 8) (Sender.start link) [.txData [0, 0] none, .txBh 8] = some sender ∧
        (wpMtp1RxHandler link sender.out).indications =
          [.rxData ([0, 0] ++ fcsOctets [0, 0]) 0] := by
  rcases growing_fits with ⟨link, registered, cfg, fits, idle, sent⟩
  have one : ∀ op ∈ [TxOp.txData [0, 0] none, .txBh 8], OneMtu link.cfg 8 op := by
    rintro op (_ | ⟨_, _ | ⟨_, none_⟩⟩)
    · exact ⟨fits, by simp⟩
    · rfl
    · contradiction
  have frames : ∀ op ∈ [TxOp.txData [0, 0] none, .txBh 8],
      op.Frames (FrameFits link.cfg.maxMru) := by
    rw [cfg]
    rintro op (_ | ⟨_, _ | ⟨_, none_⟩⟩)
    · exact ⟨⟨by decide, by decide⟩, by simp⟩
    · trivial
    · contradiction
  rcases mtp1_loopback growingReg growingReg link link registered registered rfl rfl rfl rfl 8 8 _
    (Nat.le_refl 8) one frames (fun _ => idle) with ⟨sender, ran, _, heard⟩
  rw [ran, Option.map_some, Option.some.injEq, Prod.mk.injEq] at sent
  rw [sent.1, sent.2] at heard
  refine ⟨link, registered, sender, ran, heard.trans ?_⟩
  decide +kernel

end Wanpipe.Mtp1
