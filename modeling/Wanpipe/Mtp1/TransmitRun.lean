import Wanpipe.Runs
import Wanpipe.Mtp1.TransmitBuffer

/-! Runs of `wp_mtp1_tx_data` and `wp_mtp1_tx_bh_handler`: what they hand out is the line of the
frames dequeued. -/

namespace Wanpipe.Mtp1

open Line

/-- The encoding of `item` fits behind `cardIndex` once `mtu` octets are taken. -/
def Fits (link : Link) (mtu : Nat) (item : Dequeued) : Prop :=
  link.tbs.cardIndex + mtu + item.encodedLen link.cfg ≤ txBufSize

/-- Whatever the encoding loop can take next fits. -/
structure AllFit (link : Link) (mtu : Nat) : Prop where
  data : ∀ skb ∈ link.tbs.txQ, Fits link mtu (.data skb)
  repeated : ∀ skb ∈ link.tbs.txRQ, Fits link mtu (.repeated skb)
  idle : Fits link mtu .idle

theorem AllFit.next {link : Link} {mtu : Nat} (fit : AllFit link mtu) :
    Fits link mtu (nextItem link) := by
  cases queue : link.tbs.txQ with
  | cons skb txQ =>
      have item : nextItem link = .data skb := by simp [nextItem, queue]
      rw [item]
      exact fit.data skb (by simp [queue])
  | nil =>
      cases last : link.tbs.txRQ.getLast? with
      | none =>
          have item : nextItem link = .idle := by simp [nextItem, queue, last]
          rw [item]
          exact fit.idle
      | some skb =>
          have item : nextItem link = .repeated skb := by simp [nextItem, queue, last]
          rw [item]
          exact fit.repeated skb (List.mem_of_getLast? last)

theorem Encodes.fits {link next : Link} {items : List Dequeued} {mtu : Nat} {item : Dequeued}
    (encodes : Encodes link next items) (fits : Fits link mtu item) : Fits next mtu item := by
  unfold Fits at *
  rwa [encodes.cardIndex, encodes.cfg]

theorem Encodes.allFit {link next : Link} {items : List Dequeued} {mtu : Nat}
    (encodes : Encodes link next items) (fit : AllFit link mtu) : AllFit next mtu where
  data := by
    intro skb member
    apply encodes.fits (fit.data skb _)
    rw [encodes.queue]
    exact List.mem_append_right _ member
  repeated := fun skb member => encodes.fits (fit.repeated skb (encodes.repeats skb member))
  idle := encodes.fits fit.idle

/-- At the head of the encoding loop an encoding that fits finds its room. -/
theorem Fits.room {link : Link} {mtu : Nat} {item : Dequeued} {line : List Bool}
    (fits : Fits link mtu item) (held : Pending link.cfg.hdlcOpMode link.tbs line)
    (short : link.tbs.curIndex - link.tbs.cardIndex < mtu) :
    Room link.cfg.hdlcOpMode link.tbs
      (line.length + (item.line link.cfg.hdlcBitEndian).length) := by
  have size := held.size
  have pos := held.pos
  have order := held.order
  unfold Fits Dequeued.encodedLen at fits
  unfold Room
  generalize (item.line link.cfg.hdlcBitEndian).length = encoded at fits ⊢
  cases mode : link.cfg.hdlcOpMode <;>
    simp only [mode, OpMode.width] at size fits ⊢ <;> omega

theorem Dequeued.flag_le_line (endian : BitEndian) (item : Dequeued) :
    8 ≤ (item.line endian).length := by
  rw [Dequeued.line, List.length_append]
  simp [flag]

/-- Eight more line bits complete at least one more octet. -/
theorem Pending.grows {mode : OpMode} {before after : Tbs} {line sent : List Bool}
    (held : Pending mode before line) (next : Pending mode after (line ++ sent))
    (more : 8 ≤ sent.length) :
    before.curIndex - before.cardIndex + 1 ≤ after.curIndex - after.cardIndex := by
  have size := held.size
  have nextSize := next.size
  have pos := next.pos
  rw [List.length_append] at nextSize
  cases mode <;> simp only [OpMode.width] at size nextSize <;> omega

theorem txFill_spec (fuel : Nat) (link : Link) (mtu : Nat) (line : List Bool)
    (held : Pending link.cfg.hdlcOpMode link.tbs line)
    (ready : mtu ≤ link.tbs.curIndex - link.tbs.cardIndex ∨ AllFit link mtu)
    (enough : mtu ≤ link.tbs.curIndex - link.tbs.cardIndex + fuel) :
    ∃ next items, txFill fuel link mtu = some next ∧ Encodes link next items ∧
      Pending link.cfg.hdlcOpMode next.tbs (line ++ lineOf link.cfg.hdlcBitEndian items) ∧
      mtu ≤ next.tbs.curIndex - next.tbs.cardIndex := by
  induction fuel generalizing link line with
  | zero =>
      have order := held.order
      have full : ¬ (link.tbs.curIndex : Int) - link.tbs.cardIndex < mtu := by omega
      refine ⟨link, [], ?_, Encodes.refl link, by simpa [lineOf] using held, enough⟩
      rw [txFill, if_neg full]
  | succ fuel ih =>
      have order := held.order
      by_cases short : (link.tbs.curIndex : Int) - link.tbs.cardIndex < mtu
      · have fit : AllFit link mtu := ready.resolve_left (by omega)
        obtain ⟨sent, encodes⟩ :=
          txEncodeNext_spec link line held (fit.next.room held (by omega))
        have grown := held.grows sent (Dequeued.flag_le_line _ _)
        rw [← encodes.cfg] at sent
        obtain ⟨next, items, filled, further, pending, full⟩ :=
          ih (txEncodeNext link) _ sent (Or.inr (encodes.allFit fit)) (by omega)
        refine ⟨next, nextItem link :: items, ?_, encodes.trans further, ?_, full⟩
        · rw [txFill, if_pos short]
          exact filled
        · rw [encodes.cfg, List.append_assoc] at pending
          exact pending
      · refine ⟨link, [], ?_, Encodes.refl link, by simpa [lineOf] using held, by omega⟩
        rw [txFill, if_neg short]

/-- The octets taken are the first `mtu` of the pending line. -/
theorem txTake_spec (mode : OpMode) (tbs : Tbs) (mtu : Nat) (line : List Bool)
    (held : Pending mode tbs line) (full : mtu ≤ tbs.curIndex - tbs.cardIndex) :
    (txTake tbs mtu).2 = unitOctets mode.width mode.mark mtu line ∧
      Pending mode (txTake tbs mtu).1 (line.drop (mode.width * mtu)) := by
  obtain ⟨order, bound, pos, size, done, building⟩ := held
  have count : tbs.curIndex - (tbs.cardIndex + mtu) = tbs.curIndex - tbs.cardIndex - mtu := by
    omega
  have split : mode.width * mtu + mode.width * (tbs.curIndex - tbs.cardIndex - mtu) =
      mode.width * (tbs.curIndex - tbs.cardIndex) := by
    rw [← Nat.mul_add]
    congr 1
    omega
  constructor
  · apply List.map_congr_left
    intro j hj
    exact done j (by have := List.mem_range.mp hj; omega)
  · constructor <;> dsimp only [txTake]
    · omega
    · exact bound
    · exact pos
    · rw [List.length_drop, size, count]
      omega
    · intro j hj
      rw [Nat.add_assoc, done (mtu + j) (by omega), List.drop_drop, Nat.mul_add]
    · rw [building, List.drop_drop, count, split]

/-- Copying upwards to the start of the buffer reads every octet before it is overwritten. -/
theorem copy_down (buf : Nat → Octet) (card n : Nat) :
    ∀ j, (List.range n).foldl (fun buf i => Function.update buf i (buf (card + i))) buf j =
      if j < n then buf (card + j) else buf j := by
  induction n with
  | zero => simp
  | succ n ih =>
      intro j
      rw [List.range_succ, List.foldl_append, List.foldl_cons, List.foldl_nil]
      by_cases here : j = n
      · have ahead : ¬ card + n < n := by omega
        rw [here, Function.update_self, ih, if_neg ahead, if_pos (by omega)]
      · rw [Function.update_of_ne here, ih]
        by_cases before : j < n
        · rw [if_pos before, if_pos (by omega)]
        · rw [if_neg before, if_neg (by omega)]

/-- Moving the octets that are left keeps the pending line. -/
theorem txMove_spec (mode : OpMode) (tbs : Tbs) (mtu : Nat) (line : List Bool)
    (held : Pending mode tbs line) :
    Pending mode (txMove tbs mtu) line ∧ (txMove tbs mtu).txQ = tbs.txQ ∧
      (txMove tbs mtu).txRQ = tbs.txRQ ∧
      ((txMove tbs mtu).cardIndex = 0 ∨
        mtu ≤ (txMove tbs mtu).curIndex - (txMove tbs mtu).cardIndex) := by
  obtain ⟨order, bound, pos, size, done, building⟩ := held
  by_cases low : (tbs.curIndex : Int) - tbs.cardIndex < mtu
  · have rest : ((tbs.curIndex : Int) - tbs.cardIndex).toNat = tbs.curIndex - tbs.cardIndex := by
      omega
    have copied : ((tbs.curIndex : Int) - tbs.cardIndex + 1).toNat =
        tbs.curIndex - tbs.cardIndex + 1 := by
      omega
    simp only [txMove, low, if_true, rest, copied]
    refine ⟨⟨?_, ?_, pos, ?_, ?_, ?_⟩, trivial, trivial, Or.inl trivial⟩ <;> dsimp only
    · omega
    · omega
    · rw [Nat.sub_zero]
      exact size
    · intro j hj
      rw [Nat.zero_add, copy_down, if_pos (by omega), done j hj]
    · have index : tbs.cardIndex + (tbs.curIndex - tbs.cardIndex) = tbs.curIndex := by omega
      rw [Nat.sub_zero, copy_down, if_pos (by omega), index, building]
  · have stays : txMove tbs mtu = tbs := by simp [txMove, low]
    rw [stays]
    exact ⟨⟨order, bound, pos, size, done, building⟩, rfl, rfl, Or.inr (by omega)⟩

/-- A call with enough room returns, and hands out the next `mtu` octets of the line. -/
theorem wpMtp1TxBhHandler_spec (fuel : Nat) (link : Link) (mtu : Nat) (line : List Bool)
    (held : Pending link.cfg.hdlcOpMode link.tbs line)
    (ready : mtu ≤ link.tbs.curIndex - link.tbs.cardIndex ∨ AllFit link mtu)
    (enough : mtu ≤ fuel) :
    ∃ next data items more, wpMtp1TxBhHandler fuel link mtu = some (next, data) ∧
      more = line ++ lineOf link.cfg.hdlcBitEndian items ∧
      link.cfg.hdlcOpMode.width * mtu ≤ more.length ∧
      data = unitOctets link.cfg.hdlcOpMode.width link.cfg.hdlcOpMode.mark mtu more ∧
      Pending link.cfg.hdlcOpMode next.tbs (more.drop (link.cfg.hdlcOpMode.width * mtu)) ∧
      next.cfg = link.cfg ∧ next.dequeued = link.dequeued ++ items ∧
      link.tbs.txQ = items.filterMap Dequeued.fresh? ++ next.tbs.txQ ∧
      (∀ skb ∈ next.tbs.txRQ, skb ∈ link.tbs.txRQ) ∧
      (∀ skb, Dequeued.repeated skb ∈ items → skb ∈ link.tbs.txRQ) ∧
      (next.tbs.cardIndex = 0 ∨ mtu ≤ next.tbs.curIndex - next.tbs.cardIndex) := by
  obtain ⟨filled, items, ran, encodes, pending, full⟩ :=
    txFill_spec fuel link mtu line held ready (by omega)
  obtain ⟨taken, left⟩ := txTake_spec _ _ mtu _ pending full
  obtain ⟨moved, queue, repeats, card⟩ := txMove_spec _ _ mtu _ left
  have size := pending.size
  have width : link.cfg.hdlcOpMode.width * mtu ≤
      link.cfg.hdlcOpMode.width * (filled.tbs.curIndex - filled.tbs.cardIndex) :=
    Nat.mul_le_mul_left _ full
  refine ⟨{ filled with tbs := txMove (txTake filled.tbs mtu).1 mtu }, _, items, _, ?_, rfl, ?_,
    taken, moved, encodes.cfg, encodes.dequeued, ?_, ?_, encodes.repeated, card⟩
  · simp only [wpMtp1TxBhHandler, ran]
  · omega
  · rw [queue]
    exact encodes.queue
  · intro skb member
    rw [repeats] at member
    exact encodes.repeats skb member

inductive TxOp
  | txData (skb : List Octet) (rskb : Option (List Octet))
  | txBh (mtu : Nat)
  deriving DecidableEq, Repr

/-- A link with the octets its handler has given out, and the frames it has taken. -/
structure Sender where
  link : Link
  out : List Octet
  accepted : List (List Octet)
  repeats : List (List Octet)

def Sender.start (link : Link) : Sender := ⟨link, [], [], []⟩

def txStep (fuel : Nat) (sender : Sender) : TxOp → Option Sender
  | .txData skb rskb =>
      let (link, err) := wpMtp1TxData sender.link skb rskb
      if err = 0 then
        some
          { sender with
            link := link
            accepted := sender.accepted ++ [skb]
            repeats := sender.repeats ++ rskb.toList }
      else some { sender with link := link }
  | .txBh mtu =>
      (wpMtp1TxBhHandler fuel sender.link mtu).map fun (link, data) =>
        { sender with link := link, out := sender.out ++ data }

def Sender.line (sender : Sender) : List Bool :=
  lineOf sender.link.cfg.hdlcBitEndian sender.link.dequeued

/-- What the octets given out are to the frames dequeued, and these to the frames taken. -/
structure Sending (cfg : Cfg) (sender : Sender) : Prop where
  config : sender.link.cfg = cfg
  within : cfg.hdlcOpMode.width * sender.out.length ≤ sender.line.length
  out : sender.out =
    unitOctets cfg.hdlcOpMode.width cfg.hdlcOpMode.mark sender.out.length sender.line
  pending : Pending cfg.hdlcOpMode sender.link.tbs
    (sender.line.drop (cfg.hdlcOpMode.width * sender.out.length))
  frames : sender.link.dequeued.filterMap Dequeued.fresh? ++ sender.link.tbs.txQ =
    sender.accepted.map csumSkb
  repeats : ∀ skb ∈ sender.link.tbs.txRQ, skb ∈ sender.repeats.map csumSkb
  repeated : ∀ skb, Dequeued.repeated skb ∈ sender.link.dequeued →
    skb ∈ sender.repeats.map csumSkb

/-- A step that can be made with the room there is, and with enough fuel. -/
def Roomy (fuel : Nat) (sender : Sender) : TxOp → Prop
  | .txData _ _ => True
  | .txBh mtu =>
      mtu ≤ fuel ∧ (mtu ≤ sender.link.tbs.curIndex - sender.link.tbs.cardIndex ∨
        AllFit sender.link mtu)

theorem start_sending (reg : Reg) (link : Link) (registered : wpMtp1Register reg = some link) :
    Sending link.cfg (Sender.start link) ∧ link.tbs.cardIndex = 0 := by
  unfold wpMtp1Register at registered
  split at registered
  · contradiction
  · rw [Option.some.injEq] at registered
    subst registered
    refine ⟨⟨rfl, Nat.zero_le _, rfl, ⟨?_, ?_, ?_, ?_, ?_, ?_⟩, rfl, ?_, ?_⟩, rfl⟩
    · exact Nat.le_refl 0
    · exact (by decide : 0 < txBufSize)
    · exact (by decide : 0 < 8)
    · simp [Sender.line, Sender.start, lineOf]
    · intro j hj
      exact absurd hj (Nat.not_lt_zero j)
    · simp [Sender.line, Sender.start, lineOf, octetOf, bitsValue]
    · simp [Sender.start]
    · simp [Sender.start]

theorem txData_taken (link : Link) (skb : List Octet) (rskb : Option (List Octet))
    (short : ¬ maxTxQ < link.tbs.txQ.length) :
    ∃ next, wpMtp1TxData link skb rskb = (next, 0) ∧ next.cfg = link.cfg ∧
      next.dequeued = link.dequeued ∧ next.tbs =
        { link.tbs with
          txQ := link.tbs.txQ ++ [csumSkb skb]
          txRQ := link.tbs.txRQ ++ rskb.toList.map csumSkb } := by
  cases rskb with
  | none =>
      rw [wpMtp1TxData, if_neg short]
      exact ⟨_, rfl, rfl, rfl, by simp⟩
  | some rskb =>
      rw [wpMtp1TxData, if_neg short]
      exact ⟨_, rfl, rfl, rfl, rfl⟩

theorem txData_sending (fuel : Nat) (cfg : Cfg) (sender : Sender) (skb : List Octet)
    (rskb : Option (List Octet)) (sending : Sending cfg sender) :
    ∃ next, txStep fuel sender (.txData skb rskb) = some next ∧ Sending cfg next ∧
      next.out = sender.out ∧ next.link.tbs.cardIndex = sender.link.tbs.cardIndex ∧
      next.link.tbs.curIndex = sender.link.tbs.curIndex ∧
      (∀ item ∈ next.link.tbs.txQ, item ∈ sender.link.tbs.txQ ∨ item = csumSkb skb) ∧
      (∀ item ∈ next.link.tbs.txRQ,
        item ∈ sender.link.tbs.txRQ ∨ ∃ data, rskb = some data ∧ item = csumSkb data) := by
  by_cases long : maxTxQ < sender.link.tbs.txQ.length
  · refine ⟨sender, ?_, sending, rfl, rfl, rfl, fun _ => Or.inl, fun _ => Or.inl⟩
    rw [txStep, wpMtp1TxData, if_pos long]
    simp
  · obtain ⟨link, taken, cfg_eq, dequeued, tbs⟩ := txData_taken sender.link skb rskb long
    have stepped : txStep fuel sender (.txData skb rskb) = some
        { sender with
          link := link
          accepted := sender.accepted ++ [skb]
          repeats := sender.repeats ++ rskb.toList } := by
      simp [txStep, taken]
    have line : lineOf link.cfg.hdlcBitEndian link.dequeued = sender.line := by
      rw [cfg_eq, dequeued, Sender.line]
    have held := sending.pending
    refine ⟨_, stepped, ⟨cfg_eq.trans sending.config, ?_, ?_, ?_, ?_, ?_, ?_⟩, rfl, ?_, ?_, ?_, ?_⟩ <;>
      simp only [Sender.line, line, tbs]
    · exact sending.within
    · exact sending.out
    · exact ⟨held.order, held.bound, held.pos, held.size, held.done, held.building⟩
    · rw [dequeued, ← List.append_assoc, sending.frames, List.map_append]
      rfl
    · intro item member
      rw [List.map_append]
      rcases List.mem_append.mp member with old | new
      · exact List.mem_append_left _ (sending.repeats item old)
      · exact List.mem_append_right _ new
    · intro item member
      rw [dequeued] at member
      rw [List.map_append]
      exact List.mem_append_left _ (sending.repeated item member)
    · intro item member
      simpa using member
    · intro item member
      cases rskb <;> simpa using member

theorem txBh_sending (fuel : Nat) (cfg : Cfg) (sender : Sender) (mtu : Nat)
    (sending : Sending cfg sender) (roomy : Roomy fuel sender (.txBh mtu)) :
    ∃ next, txStep fuel sender (.txBh mtu) = some next ∧ Sending cfg next ∧
      (∀ item ∈ next.link.tbs.txQ, item ∈ sender.link.tbs.txQ) ∧
      (∀ item ∈ next.link.tbs.txRQ, item ∈ sender.link.tbs.txRQ) ∧
      (next.link.tbs.cardIndex = 0 ∨
        mtu ≤ next.link.tbs.curIndex - next.link.tbs.cardIndex) := by
  obtain ⟨enough, ready⟩ := roomy
  have held := sending.pending
  rw [← sending.config] at held
  obtain ⟨link, data, items, more, ran, spelled, long, given, pending, cfg_eq, dequeued, queue,
    repeats, repeated, card⟩ :=
      wpMtp1TxBhHandler_spec fuel sender.link mtu _ held ready enough
  have stepped : txStep fuel sender (.txBh mtu) =
      some { sender with link := link, out := sender.out ++ data } := by
    simp [txStep, ran]
  have count : data.length = mtu := by rw [given, unitOctets_length]
  have line : Sender.line { sender with link := link, out := sender.out ++ data } =
      sender.line ++ lineOf sender.link.cfg.hdlcBitEndian items := by
    simp only [Sender.line, cfg_eq, dequeued, lineOf_append]
  have within := sending.within
  rw [sending.config] at *
  have rest : more = (sender.line ++ lineOf cfg.hdlcBitEndian items).drop
      (cfg.hdlcOpMode.width * sender.out.length) := by
    rw [spelled, List.drop_append_of_le_length within]
  refine ⟨_, stepped, ⟨cfg_eq, ?_, ?_, ?_, ?_, ?_, ?_⟩, ?_, repeats, card⟩ <;>
    simp only [line, List.length_append, count, Nat.mul_add]
  · rw [rest, List.length_drop, List.length_append] at long
    omega
  · rw [unitOctets_add, ← rest, ← given, unitOctets_append _ _ _ _ _ within, ← sending.out]
  · rw [← List.drop_drop, ← rest]
    exact pending
  · rw [dequeued, List.filterMap_append, List.append_assoc, ← queue]
    exact sending.frames
  · intro skb member
    exact sending.repeats skb (repeats skb member)
  · intro skb member
    rw [dequeued] at member
    rcases List.mem_append.mp member with old | new
    · exact sending.repeated skb old
    · exact sending.repeats skb (repeated skb new)
  · intro skb member
    rw [queue]
    exact List.mem_append_right _ member

theorem txStep_sending (fuel : Nat) (cfg : Cfg) (sender : Sender) (op : TxOp)
    (sending : Sending cfg sender) (roomy : Roomy fuel sender op) :
    ∃ next, txStep fuel sender op = some next ∧ Sending cfg next := by
  cases op with
  | txData skb rskb =>
      obtain ⟨next, stepped, keeps, _⟩ := txData_sending fuel cfg sender skb rskb sending
      exact ⟨next, stepped, keeps⟩
  | txBh mtu =>
      obtain ⟨next, stepped, keeps, _⟩ := txBh_sending fuel cfg sender mtu sending roomy
      exact ⟨next, stepped, keeps⟩

end Wanpipe.Mtp1
