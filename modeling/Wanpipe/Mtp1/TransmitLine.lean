import Wanpipe.Mtp1.TransmitRun

/-! The line a transmitter puts out, for any calls that find room and for calls with one `mtu`. -/

namespace Wanpipe.Mtp1

open Line Runs

/-- The signal unit that a dequeued frame stands for: its octets and their check octets. -/
def Dequeued.unit : Dequeued → List Octet
  | .data skb => skb.data ++ fcsOctets skb.data
  | .repeated skb => skb.data ++ fcsOctets skb.data
  | .idle => []

theorem crcOctets_eq (crc : BitVec 16) :
    crcOctets crc = [crc.setWidth 8, (crc >>> 8).setWidth 8] := by
  have low : (crc &&& 0xff#16).setWidth 8 = crc.setWidth 8 := by
    apply BitVec.eq_of_getLsbD_eq
    intro i hi
    interval_cases i <;> simp
  have high : ((crc &&& 0xff00#16) >>> 8).setWidth 8 = (crc >>> 8).setWidth 8 := by
    apply BitVec.eq_of_getLsbD_eq
    intro i hi
    interval_cases i <;> simp
  rw [crcOctets, low, high]

theorem csumSkb_crcOctets (data : List Octet) :
    crcOctets ((csumSkb data).csum.setWidth 16) = fcsOctets data := by
  have kept : (csumSkb data).csum.setWidth 16 = ~~~ crcTssRev 0xffff#16 data := by
    rw [csumSkb, BitVec.setWidth_setWidth_of_le _ (by decide), BitVec.setWidth_eq]
  rw [kept, crcOctets_eq, crcTssRev_eq_fcs, fcsOctets]

theorem Sending.unit {cfg : Cfg} {sender : Sender} (sending : Sending cfg sender)
    (item : Dequeued) (member : item ∈ sender.link.dequeued) : item.octets = item.unit := by
  cases item with
  | idle => rfl
  | data skb =>
      have queued : skb ∈ sender.accepted.map csumSkb := by
        rw [← sending.frames]
        exact List.mem_append_left _ (List.mem_filterMap.mpr ⟨_, member, rfl⟩)
      obtain ⟨data, _, rfl⟩ := List.mem_map.mp queued
      exact congrArg (data ++ ·) (csumSkb_crcOctets data)
  | repeated skb =>
      obtain ⟨data, _, rfl⟩ := List.mem_map.mp (sending.repeated skb member)
      exact congrArg (data ++ ·) (csumSkb_crcOctets data)

/-- Every run whose calls find room returns, and has put out whole octets of the line of its
dequeued frames; the rest of that line is what the buffer still holds. -/
theorem wp_mtp1_tx_line (reg : Reg) (link : Link) (registered : wpMtp1Register reg = some link)
    (fuel : Nat) (ops : List TxOp)
    (roomy : Along (txStep fuel) (Roomy fuel) (Sender.start link) ops) :
    ∃ sender, run (txStep fuel) (Sender.start link) ops = some sender ∧
      sender.link.dequeued.filterMap Dequeued.fresh? ++ sender.link.tbs.txQ =
        sender.accepted.map csumSkb ∧
      (∀ item ∈ sender.link.dequeued, item.octets = item.unit) ∧
      link.cfg.hdlcOpMode.width * sender.out.length ≤ sender.line.length ∧
      sender.out = unitOctets link.cfg.hdlcOpMode.width link.cfg.hdlcOpMode.mark
        sender.out.length sender.line ∧
      Pending link.cfg.hdlcOpMode sender.link.tbs
        (sender.line.drop (link.cfg.hdlcOpMode.width * sender.out.length)) ∧
      sender.link.tbs.cardIndex ≤ sender.link.tbs.curIndex ∧
      sender.link.tbs.curIndex < txBufSize ∧
      ∀ before mtu, ops = before ++ [.txBh mtu] → sender.link.tbs.cardIndex = 0 ∨
        mtu ≤ sender.link.tbs.curIndex - sender.link.tbs.cardIndex := by
  have start := (start_sending reg link registered).1
  obtain ⟨sender, ran, sending⟩ :=
    Along.run (fun state op => txStep_sending fuel link.cfg state op) start roomy
  refine ⟨sender, ran, sending.frames, sending.unit, sending.within, sending.out,
    sending.pending, sending.pending.order, sending.pending.bound, ?_⟩
  intro before mtu last
  subst last
  obtain ⟨reached, ranBefore, sendingBefore⟩ :=
    Along.run (fun state op => txStep_sending fuel link.cfg state op) start roomy.take
  obtain ⟨next, stepped, _, _, _, card⟩ :=
    txBh_sending fuel link.cfg reached mtu sendingBefore (roomy.drop ranBefore).1
  have same : sender = next := by
    rw [run_append, ranBefore, Option.bind_some, run, stepped, Option.bind_some, run,
      Option.some.injEq] at ran
    exact ran.symm
  rwa [same]

theorem txFill_mono (few more : Nat) (link next : Link) (mtu : Nat) (le : few ≤ more)
    (filled : txFill few link mtu = some next) : txFill more link mtu = some next := by
  induction few generalizing more link with
  | zero =>
      rw [txFill] at filled
      split at filled
      · contradiction
      · rename_i full
        cases more <;>
          · rw [txFill, if_neg full]
            exact filled
  | succ few ih =>
      cases more with
      | zero => exact absurd le (Nat.not_succ_le_zero few)
      | succ more =>
          rw [txFill] at filled ⊢
          split at filled
          · rename_i short
            rw [if_pos short]
            exact ih more (txEncodeNext link) (Nat.le_of_succ_le_succ le) filled
          · rename_i full
            rw [if_neg full]
            exact filled

theorem txStep_mono (few more : Nat) (sender next : Sender) (op : TxOp) (le : few ≤ more)
    (stepped : txStep few sender op = some next) : txStep more sender op = some next := by
  cases op with
  | txData skb rskb => exact stepped
  | txBh mtu =>
      cases filled : txFill few sender.link mtu with
      | none => simp [txStep, wpMtp1TxBhHandler, filled] at stepped
      | some link =>
          have again := txFill_mono few more sender.link link mtu le filled
          simpa [txStep, wpMtp1TxBhHandler, filled, again] using stepped

/-- More fuel changes no run that returned. -/
theorem run_mono (few more : Nat) (sender last : Sender) (ops : List TxOp) (le : few ≤ more)
    (ran : run (txStep few) sender ops = some last) : run (txStep more) sender ops = some last := by
  induction ops generalizing sender with
  | nil => exact ran
  | cons op ops ih =>
      obtain ⟨next, stepped, rest⟩ := Option.bind_eq_some_iff.mp ran
      rw [run, txStep_mono few more sender next op le stepped]
      exact ih next rest

/-- `mtu` octets cannot become ready: the octet index never leaves the buffer. -/
def Tbs.Short (mtu : Nat) (tbs : Tbs) : Prop :=
  tbs.curIndex < txBufSize ∧ txBufSize ≤ tbs.cardIndex + mtu

theorem nextBit_short (mtu : Nat) (tbs : Tbs) (short : tbs.Short mtu) : tbs.nextBit.Short mtu := by
  unfold Tbs.nextBit
  split
  · refine ⟨?_, short.2⟩
    dsimp only
    split
    · decide
    · omega
  · exact short

theorem putBit_short (mtu : Nat) (mode : OpMode) (tbs : Tbs) (bit : Bool)
    (short : tbs.Short mtu) : (Tbs.putBit mode tbs bit).Short mtu := by
  have masked (tbs : Tbs) (mask : Octet) (short : tbs.Short mtu) :
      (tbs.orBuf mask).nextBit.Short mtu := nextBit_short mtu (tbs.orBuf mask) short
  unfold Tbs.putBit
  split
  · exact masked _ _ (masked _ _ short)
  · exact masked _ _ short

theorem suBitToTbs_short (mtu : Nat) (mode : OpMode) (tbs : Tbs) (bit : Bool)
    (short : tbs.Short mtu) : (Tbs.suBitToTbs mode tbs bit).Short mtu := by
  have one := putBit_short mtu mode tbs true short
  cases bit with
  | false => exact putBit_short mtu mode tbs false short
  | true =>
      unfold Tbs.suBitToTbs
      dsimp only
      split
      · exact putBit_short mtu mode _ false one
      · exact one

private theorem foldl_short {Bit : Type} (mtu : Nat) (write : Tbs → Bit → Tbs) (bits : List Bit)
    (tbs : Tbs) (keeps : ∀ tbs bit, tbs.Short mtu → (write tbs bit).Short mtu)
    (short : tbs.Short mtu) : (bits.foldl write tbs).Short mtu := by
  induction bits generalizing tbs with
  | nil => exact short
  | cons bit bits ih => exact ih (write tbs bit) (keeps tbs bit short)

theorem daedTx_short (mtu : Nat) (link : Link) (buf : List Octet) (crc : Option (BitVec 16))
    (short : link.tbs.Short mtu) : (daedTx link buf crc).tbs.Short mtu := by
  have octet (tbs : Tbs) (octet : Octet) (short : tbs.Short mtu) :
      (suOctetToTbs link.cfg tbs octet).Short mtu :=
    foldl_short mtu _ _ tbs (suBitToTbs_short mtu link.cfg.hdlcOpMode) short
  have flagged : (Tbs.flagBitToTxb link.cfg.hdlcOpMode
      { link.tbs with cur1sBitCount := 0 }).Short mtu :=
    foldl_short mtu _ flag _ (putBit_short mtu link.cfg.hdlcOpMode) short
  have sent := foldl_short mtu _ buf _ octet flagged
  cases crc with
  | none => exact sent
  | some crc => exact foldl_short mtu _ (crcOctets crc) _ octet sent

theorem txEncodeSkb_short (mtu : Nat) (link : Link) (skb : Skb) (short : link.tbs.Short mtu) :
    (txEncodeSkb link skb).tbs.Short mtu :=
  daedTx_short mtu link skb.data _ short

theorem txDataDone_short (mtu : Nat) (link : Link) (skb : Skb) (short : link.tbs.Short mtu) :
    (txDataDone link skb).tbs.Short mtu := short

theorem txIdleDone_short (mtu : Nat) (link : Link) (short : link.tbs.Short mtu) :
    (txIdleDone link).tbs.Short mtu := short

theorem txRepeatDone_short (mtu : Nat) (link : Link) (skb : Skb) (short : link.tbs.Short mtu) :
    (txRepeatDone link skb).tbs.Short mtu := by
  unfold txRepeatDone
  dsimp only
  split <;> exact short

theorem txEncodeNext_short (mtu : Nat) (link : Link) (short : link.tbs.Short mtu) :
    (txEncodeNext link).tbs.Short mtu := by
  have queued (txQ txRQ dealloc : List Skb) :
      (setQueues link txQ txRQ dealloc).tbs.Short mtu := short
  unfold txEncodeNext
  split
  · exact txDataDone_short mtu _ _ (txEncodeSkb_short mtu _ _ (queued _ _ _))
  · split
    · exact txIdleDone_short mtu _ (daedTx_short mtu link [] none short)
    · split
      · exact txIdleDone_short mtu _ (daedTx_short mtu _ [] none (queued _ _ _))
      · exact txRepeatDone_short mtu _ _ (txEncodeSkb_short mtu _ _ (queued _ _ _))

/-- Without `mtu` octets of buffer behind `cardIndex` the encoding loop never ends. -/
theorem txFill_short (fuel : Nat) (link : Link) (mtu : Nat) (short : link.tbs.Short mtu) :
    txFill fuel link mtu = none := by
  have more : (link.tbs.curIndex : Int) - link.tbs.cardIndex < mtu := by
    have bound := short.1
    have far := short.2
    omega
  induction fuel generalizing link with
  | zero => rw [txFill, if_pos more]
  | succ fuel ih =>
      have next := txEncodeNext_short mtu link short
      rw [txFill, if_pos more]
      apply ih _ next
      have bound := next.1
      have far := next.2
      omega

def growingReg : Reg := ⟨true, false, false, ⟨.hdlc8Bit, .bit0First, 1, 280⟩⟩

/-- Two short frames, then calls of a growing `mtu`: the last one starts behind octets of both. -/
def growingOps : List TxOp := [.txData [0, 0] none, .txData [0, 0] none, .txBh 2, .txBh 4]

private theorem growing_indices :
    ∃ link, wpMtp1Register growingReg = some link ∧ link.cfg = growingReg.cfg ∧
      (run (txStep 1) (Sender.start link) growingOps).map
        (fun sender => (sender.link.tbs.cardIndex, sender.link.tbs.curIndex)) = some (6, 10) :=
  ⟨_, rfl, by decide, by decide +kernel⟩

theorem wp_mtp1_tx_growing_mtu :
    ∃ link, wpMtp1Register growingReg = some link ∧
      (∀ mtu ∈ [2, 4, 10235], ∀ item ∈ [Dequeued.data (csumSkb [0, 0]), .idle],
        item.encodedLen link.cfg + mtu ≤ txBufSize) ∧
      ∀ fuel, run (txStep fuel) (Sender.start link) (growingOps ++ [.txBh 10235]) = none := by
  obtain ⟨link, registered, cfg, indices⟩ := growing_indices
  refine ⟨link, registered, by rw [cfg]; decide +kernel, ?_⟩
  intro fuel
  obtain ⟨last, ranOnce, same⟩ := Option.map_eq_some_iff.mp indices
  rw [run_append]
  cases ran : run (txStep fuel) (Sender.start link) growingOps with
  | none => rfl
  | some sender =>
      have more := run_mono 1 (fuel + 1) _ last growingOps (Nat.le_add_left 1 fuel) ranOnce
      rw [run_mono fuel (fuel + 1) _ sender growingOps (Nat.le_succ fuel) ran,
        Option.some.injEq] at more
      have short : sender.link.tbs.Short 10235 := by
        rw [more, Tbs.Short, (Prod.mk.inj same).1, (Prod.mk.inj same).2]
        decide
      simp [run, txStep, wpMtp1TxBhHandler, txFill_short fuel sender.link 10235 short]

/-- A call of a run with one `mtu`, of frames whose encoding leaves room for it. -/
def OneMtu (cfg : Cfg) (mtu : Nat) : TxOp → Prop
  | .txData skb rskb =>
      (Dequeued.data (csumSkb skb)).encodedLen cfg + mtu ≤ txBufSize ∧
        ∀ data, rskb = some data → (Dequeued.data (csumSkb data)).encodedLen cfg + mtu ≤ txBufSize
  | .txBh calls => calls = mtu

/-- With one `mtu` the encoding loop only ever starts at the top of the buffer. -/
structure Steady (cfg : Cfg) (mtu : Nat) (sender : Sender) : Prop where
  sending : Sending cfg sender
  top : sender.link.tbs.cardIndex = 0 ∨
    mtu ≤ sender.link.tbs.curIndex - sender.link.tbs.cardIndex
  data : ∀ skb ∈ sender.link.tbs.txQ, (Dequeued.data skb).encodedLen cfg + mtu ≤ txBufSize
  repeated : ∀ skb ∈ sender.link.tbs.txRQ, (Dequeued.data skb).encodedLen cfg + mtu ≤ txBufSize

theorem Steady.roomy {cfg : Cfg} {mtu fuel : Nat} {sender : Sender} {op : TxOp}
    (steady : Steady cfg mtu sender) (one : OneMtu cfg mtu op) (enough : mtu ≤ fuel)
    (idle : Dequeued.idle.encodedLen cfg + mtu ≤ txBufSize) : Roomy fuel sender op := by
  cases op with
  | txData skb rskb => trivial
  | txBh calls =>
      obtain rfl : calls = mtu := one
      refine ⟨enough, ?_⟩
      rcases steady.top with top | ready
      · have fits (item : Dequeued) (small : item.encodedLen cfg + calls ≤ txBufSize) :
            Fits sender.link calls item := by
          rw [Fits, top, steady.sending.config]
          omega
        exact Or.inr ⟨fun skb member => fits _ (steady.data skb member),
          fun skb member => fits _ (steady.repeated skb member), fits _ idle⟩
      · exact Or.inl ready

theorem Steady.step {cfg : Cfg} {mtu fuel : Nat} {sender next : Sender} {op : TxOp}
    (steady : Steady cfg mtu sender) (one : OneMtu cfg mtu op) (roomy : Roomy fuel sender op)
    (stepped : txStep fuel sender op = some next) : Steady cfg mtu next := by
  cases op with
  | txData skb rskb =>
      obtain ⟨reached, same, sending, _, card, cur, queue, repeats⟩ :=
        txData_sending fuel cfg sender skb rskb steady.sending
      obtain rfl : reached = next := Option.some.inj (same.symm.trans stepped)
      refine ⟨sending, ?_, ?_, ?_⟩
      · rw [card, cur]
        exact steady.top
      · intro item member
        rcases queue item member with old | rfl
        · exact steady.data item old
        · exact one.1
      · intro item member
        rcases repeats item member with old | ⟨data, given, rfl⟩
        · exact steady.repeated item old
        · exact one.2 data given
  | txBh calls =>
      obtain rfl : calls = mtu := one
      obtain ⟨reached, same, sending, queue, repeats, card⟩ :=
        txBh_sending fuel cfg sender calls steady.sending roomy
      obtain rfl : reached = next := Option.some.inj (same.symm.trans stepped)
      exact ⟨sending, card, fun item member => steady.data item (queue item member),
        fun item member => steady.repeated item (repeats item member)⟩

/-- Calls with one `mtu` find room when every encoding does in an empty buffer. -/
theorem oneMtu_roomy (reg : Reg) (link : Link) (registered : wpMtp1Register reg = some link)
    (mtu fuel : Nat) (ops : List TxOp) (enough : mtu ≤ fuel)
    (idle : Dequeued.idle.encodedLen link.cfg + mtu ≤ txBufSize)
    (one : ∀ op ∈ ops, OneMtu link.cfg mtu op) :
    Along (txStep fuel) (Roomy fuel) (Sender.start link) ops := by
  obtain ⟨sending, top⟩ := start_sending reg link registered
  have empty : link.tbs.txQ = [] ∧ link.tbs.txRQ = [] := by
    unfold wpMtp1Register at registered
    split at registered
    · contradiction
    · rw [Option.some.injEq] at registered
      subst registered
      exact ⟨rfl, rfl⟩
  have start : Steady link.cfg mtu (Sender.start link) :=
    ⟨sending, Or.inl top, by simp [Sender.start, empty], by simp [Sender.start, empty]⟩
  apply Along.strengthen _ _ start (Along.of_forall _ ops one)
  · intro sender op next steady one stepped
    exact steady.step one (steady.roomy one enough idle) stepped
  · intro sender op steady one
    exact steady.roomy one enough idle

theorem growing_fits :
    ∃ link, wpMtp1Register growingReg = some link ∧ link.cfg = growingReg.cfg ∧
      (Dequeued.data (csumSkb [0, 0])).encodedLen link.cfg + 8 ≤ txBufSize ∧
      Dequeued.idle.encodedLen link.cfg + 8 ≤ txBufSize ∧
      (run (txStep 8) (Sender.start link) [.txData [0, 0] none, .txBh 8]).map
          (fun sender => (sender.link.dequeued, sender.out.length)) =
        some ([.data (csumSkb [0, 0]), .idle, .idle, .idle], 8) :=
  ⟨_, rfl, by decide, by decide +kernel, by decide +kernel, by decide +kernel⟩

theorem wp_mtp1_tx_line_calls :
    ∃ link, wpMtp1Register growingReg = some link ∧
      ∃ sender, run (txStep 8) (Sender.start link) [.txData [0, 0] none, .txBh 8, .txBh 8] =
          some sender ∧
        sender.out = unitOctets 8 [] sender.out.length sender.line := by
  rcases growing_fits with ⟨link, registered, cfg, fits, idle, _⟩
  have one : ∀ op ∈ [TxOp.txData [0, 0] none, .txBh 8, .txBh 8], OneMtu link.cfg 8 op := by
    rintro op (_ | ⟨_, _ | ⟨_, _ | ⟨_, none_⟩⟩⟩)
    · exact ⟨fits, by simp⟩
    · rfl
    · rfl
    · contradiction
  have roomy := oneMtu_roomy growingReg link registered 8 8 _ (Nat.le_refl 8) idle one
  rcases wp_mtp1_tx_line growingReg link registered 8 _ roomy with
    ⟨sender, ran, _, _, _, out, _⟩
  rw [cfg] at out
  exact ⟨link, registered, sender, ran, out⟩

end Wanpipe.Mtp1
