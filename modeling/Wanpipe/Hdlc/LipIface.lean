import Wanpipe.Hdlc.Retry
import Wanpipe.Runs

/-! The LIP HDLC protocol of `wanpipe_hdlc_iface.c`: packets wait in `tx_q`, and each block of octets
that is received gives leave to send. -/

namespace Wanpipe.Hdlc

open Line Runs

/-- Where `wp_lip_hdlc_rx` stands: not called, at the top of its loop, or with a packet out of the
queue. `len` is the length of the block received. -/
inductive RxPlace
  | out
  | loop (len txOut : Nat)
  | holding (len txOut : Nat) (txSkb : List Octet)
  deriving DecidableEq, Repr

/-- `wp_lip_hdlc_t`; `lineidleMark` is `cfg.lineidle == WANOPT_IDLE_MARK`. Not in the source are
`queued` and `unsent`, the packets that were queued and those that were freed for want of an
`hdlc_skb`, and `line`, the octets that `tx_chan_down` took. -/
structure LipHdlc where
  sevenBitHdlc : Bool
  lineidleMark : Bool
  encoder : Encoder
  nextIdle : Octet
  txQ : List (List Octet)
  rx : RxPlace
  queued : List (List Octet)
  unsent : List (List Octet)
  line : List Octet

/-- `down` is whether `tx_chan_down` returns 0, `alloc` whether there is an `hdlc_skb`. -/
inductive LipOp
  | tx (skb : List Octet)
  | rx (len : Nat)
  | dequeue (down : Bool)
  | send (alloc down : Bool)
  deriving DecidableEq, Repr

def wpLipHdlcTx (prot : LipHdlc) (skb : List Octet) : LipHdlc :=
  if 32 < prot.txQ.length then prot
  else { prot with txQ := prot.txQ ++ [skb], queued := prot.queued ++ [skb] }

/-- The end of `wp_lip_hdlc_rx` that sends the block back as idle octets, unless packets went out in
its place that are longer. -/
def wpLipTxIdle (prot : LipHdlc) (len txOut : Nat) (down : Bool) : LipHdlc :=
  if len < txOut ∨ down = false then { prot with rx := .out }
  else
    { prot with
      rx := .out
      line := prot.line ++ List.replicate len (if prot.lineidleMark then 0xFF else prot.nextIdle) }

/-- A packet's turn. `wanpipe_hdlc_encode` returns 0, so that the branch for its error is dead, and
writes all its octets, for which `Capacity` tells when the `hdlc_skb` has the room. -/
def sendPacket (prot : LipHdlc) (len txOut : Nat) (txSkb : List Octet) (down : Bool) : LipHdlc :=
  let backup := wanpipeHdlcBkp prot.encoder
  let call := wanpipeHdlcEncode kernel prot.sevenBitHdlc prot.encoder txSkb
  if down then
    { prot with
      encoder := call.1
      nextIdle := call.2.2
      rx := .loop len (txOut + call.2.1.length)
      line := prot.line ++ call.2.1 }
  else
    let restored := wanpipeHdlcRestore backup call.1
    { prot with
      encoder := restored, nextIdle := restored.txFlagIdle, txQ := txSkb :: prot.txQ, rx := .out }

/-- The loop of `wp_lip_hdlc_rx` in pieces, so that packets are queued at any time. -/
def lipStep (prot : LipHdlc) : LipOp → Option LipHdlc
  | .tx skb => some (wpLipHdlcTx prot skb)
  | .rx len =>
      match prot.rx with
      | .out => some { prot with rx := .loop len 0 }
      | _ => none
  | .dequeue down =>
      match prot.rx, prot.txQ with
      | .loop len txOut, [] => some (wpLipTxIdle prot len txOut down)
      | .loop len txOut, txSkb :: txQ =>
          some { prot with txQ := txQ, rx := .holding len txOut txSkb }
      | _, _ => none
  | .send alloc down =>
      match prot.rx with
      | .holding len txOut txSkb =>
          if alloc then some (sendPacket prot len txOut txSkb down)
          else some (wpLipTxIdle { prot with unsent := prot.unsent ++ [txSkb] } len txOut down)
      | _ => none

/-- The protocol on an engine in any state, the idle octet being the engine's. -/
def lipStart (sevenBitHdlc lineidleMark : Bool) (encoder : Encoder) : LipHdlc :=
  { sevenBitHdlc := sevenBitHdlc, lineidleMark := lineidleMark, encoder := encoder
    nextIdle := encoder.txFlagIdle, txQ := [], rx := .out, queued := [], unsent := [], line := [] }

/-- The packets of `tx_q`, with the one that is out of it in front. -/
def waiting (prot : LipHdlc) : List (List Octet) :=
  match prot.rx with
  | .holding _ _ txSkb => txSkb :: prot.txQ
  | _ => prot.txQ

/-- What a line carries where no frame is ever refused; `lost` is a packet that is not sent. -/
inductive Sent
  | packet (usrData : List Octet)
  | lost (usrData : List Octet)
  | idle (n : Nat)
  deriving DecidableEq, Repr

def Sent.taken : Sent → Option (List Octet)
  | .packet usrData => some usrData
  | .lost usrData => some usrData
  | .idle _ => none

def Sent.unsent : Sent → Option (List Octet)
  | .lost usrData => some usrData
  | _ => none

def encodeSent (sevenBitHdlc lineidleMark : Bool) (chan : Encoder) : Sent → Encoder × List Octet
  | .packet usrData =>
      let call := wanpipeHdlcEncode kernel sevenBitHdlc chan usrData
      (call.1, call.2.1)
  | .lost _ => (chan, [])
  | .idle n => (chan, List.replicate n (if lineidleMark then 0xFF else chan.txFlagIdle))

/-- The encoder behind a history and the octets on the line. -/
def lineOf (sevenBitHdlc lineidleMark : Bool) (chan : Encoder) : List Sent →
    Encoder × List Octet
  | [] => (chan, [])
  | one :: sent =>
      let first := encodeSent sevenBitHdlc lineidleMark chan one
      let rest := lineOf sevenBitHdlc lineidleMark first.1 sent
      (rest.1, first.2 ++ rest.2)

/-- What happens between two states: `more` is sent and `arrived` is queued. -/
structure Adds (prot next : LipHdlc) (more : List Sent) (arrived : List (List Octet)) : Prop where
  mode : next.sevenBitHdlc = prot.sevenBitHdlc ∧ next.lineidleMark = prot.lineidleMark
  idle : prot.nextIdle = prot.encoder.txFlagIdle → next.nextIdle = next.encoder.txFlagIdle
  carry : SameCarry next.encoder
    (lineOf prot.sevenBitHdlc prot.lineidleMark prot.encoder more).1
  line : next.line =
    prot.line ++ (lineOf prot.sevenBitHdlc prot.lineidleMark prot.encoder more).2
  order : more.filterMap Sent.taken ++ waiting next = waiting prot ++ arrived
  queued : next.queued = prot.queued ++ arrived
  unsent : next.unsent = prot.unsent ++ more.filterMap Sent.unsent

section Steps

variable {prot next last : LipHdlc}

theorem encodeSent_same (sevenBitHdlc lineidleMark : Bool) {a b : Encoder} (same : SameCarry a b)
    (one : Sent) :
    (encodeSent sevenBitHdlc lineidleMark a one).2 = (encodeSent sevenBitHdlc lineidleMark b one).2 ∧
      SameCarry (encodeSent sevenBitHdlc lineidleMark a one).1
        (encodeSent sevenBitHdlc lineidleMark b one).1 := by
  cases one with
  | packet usrData =>
      have call := wanpipeHdlcEncode_same kernel sevenBitHdlc same usrData
      exact ⟨congrArg Prod.fst call.1, call.2⟩
  | lost _ => exact ⟨rfl, same⟩
  | idle n =>
      refine ⟨?_, same⟩
      simp only [encodeSent, same.txFlagIdle]

theorem lineOf_same (sevenBitHdlc lineidleMark : Bool) {a b : Encoder} (same : SameCarry a b)
    (sent : List Sent) :
    (lineOf sevenBitHdlc lineidleMark a sent).2 = (lineOf sevenBitHdlc lineidleMark b sent).2 ∧
      SameCarry (lineOf sevenBitHdlc lineidleMark a sent).1
        (lineOf sevenBitHdlc lineidleMark b sent).1 := by
  induction sent generalizing a b with
  | nil => exact ⟨rfl, same⟩
  | cons one sent ih =>
      have first := encodeSent_same sevenBitHdlc lineidleMark same one
      have rest := ih first.2
      refine ⟨?_, rest.2⟩
      rw [lineOf, lineOf, first.1, rest.1]

theorem lineOf_append (sevenBitHdlc lineidleMark : Bool) (chan : Encoder) (sent more : List Sent) :
    lineOf sevenBitHdlc lineidleMark chan (sent ++ more) =
      let before := lineOf sevenBitHdlc lineidleMark chan sent
      let behind := lineOf sevenBitHdlc lineidleMark before.1 more
      (behind.1, before.2 ++ behind.2) := by
  induction sent generalizing chan with
  | nil => rfl
  | cons one sent ih => simp only [List.cons_append, lineOf, ih, List.append_assoc]

theorem Adds.refl (prot : LipHdlc) : Adds prot prot [] [] :=
  ⟨⟨rfl, rfl⟩, id, SameCarry.refl _, (List.append_nil _).symm, (List.append_nil _).symm,
    (List.append_nil _).symm, (List.append_nil _).symm⟩

theorem Adds.trans {sent more : List Sent} {queued arrived : List (List Octet)}
    (first : Adds prot next sent queued) (second : Adds next last more arrived) :
    Adds prot last (sent ++ more) (queued ++ arrived) := by
  have behind := lineOf_same prot.sevenBitHdlc prot.lineidleMark first.carry more
  have carry := second.carry
  have line := second.line
  rw [first.mode.1, first.mode.2] at carry line
  refine ⟨⟨second.mode.1.trans first.mode.1, second.mode.2.trans first.mode.2⟩,
    fun idle => second.idle (first.idle idle), ?_, ?_, ?_, ?_, ?_⟩
  · rw [lineOf_append]
    exact carry.trans behind.2
  · rw [lineOf_append, line, first.line, behind.1, List.append_assoc]
  · rw [List.filterMap_append, List.append_assoc, second.order, ← List.append_assoc, first.order,
      List.append_assoc]
  · rw [second.queued, first.queued, List.append_assoc]
  · rw [second.unsent, first.unsent, List.filterMap_append, List.append_assoc]

theorem wpLipHdlcTx_adds (prot : LipHdlc) (skb : List Octet) :
    ∃ arrived, Adds prot (wpLipHdlcTx prot skb) [] arrived := by
  rw [wpLipHdlcTx]
  split
  · exact ⟨[], Adds.refl prot⟩
  · refine ⟨[skb], ⟨rfl, rfl⟩, id, SameCarry.refl _, (List.append_nil _).symm, ?_, rfl,
      (List.append_nil _).symm⟩
    simp only [waiting, List.filterMap_nil, List.nil_append]
    split <;> rfl

/-- The end of a call, with the packet in hand lost or with none in hand. -/
theorem wpLipTxIdle_adds (prot : LipHdlc) (len txOut : Nat) (down : Bool)
    (idle : prot.nextIdle = prot.encoder.txFlagIdle) :
    ∃ more, Adds { prot with rx := .out } (wpLipTxIdle prot len txOut down) more [] := by
  rw [wpLipTxIdle]
  split
  · exact ⟨[], Adds.refl _⟩
  · refine ⟨[.idle len], ⟨rfl, rfl⟩, id, SameCarry.refl _, ?_, (List.append_nil _).symm,
      (List.append_nil _).symm, (List.append_nil _).symm⟩
    simp only [lineOf, encodeSent, idle, List.append_nil]

theorem lost_adds {len txOut : Nat} {txSkb : List Octet} (here : prot.rx = .holding len txOut txSkb) :
    Adds prot { prot with unsent := prot.unsent ++ [txSkb], rx := .out } [.lost txSkb] [] := by
  refine ⟨⟨rfl, rfl⟩, id, SameCarry.refl _, (List.append_nil _).symm, ?_,
    (List.append_nil _).symm, rfl⟩
  rw [waiting, waiting, here]
  exact (List.append_nil _).symm

/-- A frame that is refused leaves what it found, its packet back at the head of the queue. -/
theorem sendPacket_adds {len txOut : Nat} {txSkb : List Octet} (down : Bool)
    (here : prot.rx = .holding len txOut txSkb) :
    ∃ more, Adds prot (sendPacket prot len txOut txSkb down) more [] := by
  have held : waiting prot = txSkb :: prot.txQ := by
    rw [waiting, here]
  rw [sendPacket]
  split
  · refine ⟨[.packet txSkb], ⟨rfl, rfl⟩, fun _ => rfl, SameCarry.refl _, ?_, ?_,
      (List.append_nil _).symm, (List.append_nil _).symm⟩
    · simp only [lineOf, encodeSent, List.append_nil]
    · rw [held]
      exact (List.append_nil _).symm
  · refine ⟨[], ⟨rfl, rfl⟩, fun _ => rfl,
      restore_same prot.encoder kernel prot.sevenBitHdlc txSkb, (List.append_nil _).symm, ?_,
      (List.append_nil _).symm, (List.append_nil _).symm⟩
    rw [held]
    exact (List.append_nil _).symm

theorem lipStep_adds (idle : prot.nextIdle = prot.encoder.txFlagIdle) (op : LipOp)
    (moved : lipStep prot op = some next) : ∃ more arrived, Adds prot next more arrived := by
  have still {state : LipHdlc} (same : waiting state = waiting prot) (place : RxPlace)
      (queue : List (List Octet)) (kept : state = { prot with rx := place, txQ := queue }) :
      Adds prot state [] [] := by
    rw [kept] at same ⊢
    refine ⟨⟨rfl, rfl⟩, id, SameCarry.refl _, (List.append_nil _).symm, ?_,
      (List.append_nil _).symm, (List.append_nil _).symm⟩
    rw [List.filterMap_nil, List.nil_append, same, List.append_nil]
  cases op with
  | tx skb =>
      rw [lipStep, Option.some.injEq] at moved
      rw [← moved]
      exact ⟨[], wpLipHdlcTx_adds prot skb⟩
  | rx len =>
      cases here : prot.rx with
      | out =>
          simp only [lipStep, here, Option.some.injEq] at moved
          refine ⟨[], [], still ?_ (.loop len 0) prot.txQ moved.symm⟩
          rw [← moved, waiting, waiting, here]
      | loop _ _ => simp [lipStep, here] at moved
      | holding _ _ _ => simp [lipStep, here] at moved
  | dequeue down =>
      cases here : prot.rx with
      | out => simp [lipStep, here] at moved
      | holding _ _ _ => simp [lipStep, here] at moved
      | loop len txOut =>
          cases queue : prot.txQ with
          | nil =>
              simp only [lipStep, here, queue, Option.some.injEq] at moved
              obtain ⟨more, ends⟩ := wpLipTxIdle_adds prot len txOut down idle
              have left : Adds prot { prot with rx := .out } [] [] := by
                refine still ?_ .out prot.txQ rfl
                rw [waiting, waiting, here]
              rw [← moved]
              exact ⟨_, _, left.trans ends⟩
          | cons txSkb txQ =>
              simp only [lipStep, here, queue, Option.some.injEq] at moved
              refine ⟨[], [], still ?_ (.holding len txOut txSkb) txQ moved.symm⟩
              rw [← moved, waiting, waiting, here, queue]
  | send alloc down =>
      cases here : prot.rx with
      | out => simp [lipStep, here] at moved
      | loop _ _ => simp [lipStep, here] at moved
      | holding len txOut txSkb =>
          cases alloc with
          | false =>
              simp only [lipStep, here, Bool.false_eq_true, if_false, Option.some.injEq] at moved
              obtain ⟨more, ends⟩ := wpLipTxIdle_adds
                { prot with
                  unsent := prot.unsent ++ [txSkb], rx := .holding len txOut txSkb }
                len txOut down idle
              rw [← moved]
              exact ⟨_, _, (lost_adds here).trans ends⟩
          | true =>
              simp only [lipStep, here, if_true, Option.some.injEq] at moved
              obtain ⟨more, adds⟩ := sendPacket_adds down here
              rw [← moved]
              exact ⟨more, [], adds⟩

theorem lipRun_adds (idle : prot.nextIdle = prot.encoder.txFlagIdle) (ops : List LipOp)
    (ran : run lipStep prot ops = some last) : ∃ more arrived, Adds prot last more arrived := by
  induction ops generalizing prot with
  | nil =>
      rw [run, Option.some.injEq] at ran
      rw [← ran]
      exact ⟨[], [], Adds.refl prot⟩
  | cons op ops ih =>
      obtain ⟨next, moved, rest⟩ := Option.bind_eq_some_iff.mp ran
      obtain ⟨sent, queued, first⟩ := lipStep_adds idle op moved
      obtain ⟨more, arrived, second⟩ := ih (first.idle idle) rest
      exact ⟨_, _, first.trans second⟩

end Steps

/-- A call that is taken back is invisible to every later one; and whatever `tx_chan_down` refuses,
the line carries the packets in the order in which they were queued, as an engine sends them that
nothing was ever refused, and those not sent yet are still in the queue. -/
theorem lip_hdlc_retry (sevenBitHdlc lineidleMark : Bool) (chan : Encoder) :
    (∀ usrData packets,
      encodings kernel sevenBitHdlc
          (wanpipeHdlcRestore (wanpipeHdlcBkp chan)
            (wanpipeHdlcEncode kernel sevenBitHdlc chan usrData).1) packets =
        encodings kernel sevenBitHdlc chan packets) ∧
      ∀ ops last, run lipStep (lipStart sevenBitHdlc lineidleMark chan) ops = some last →
        ∃ sent, last.line = (lineOf sevenBitHdlc lineidleMark chan sent).2 ∧
          sent.filterMap Sent.taken ++ waiting last = last.queued ∧
          sent.filterMap Sent.unsent = last.unsent := by
  constructor
  · intro usrData packets
    exact encodings_same kernel sevenBitHdlc (restore_same chan kernel sevenBitHdlc usrData) packets
  · intro ops last ran
    obtain ⟨sent, arrived, adds⟩ := lipRun_adds rfl ops ran
    refine ⟨sent, adds.line, ?_, adds.unsent.symm⟩
    rw [adds.order, adds.queued]
    rfl

theorem lip_hdlc_retry_refused :
    let ops : List LipOp :=
      [.tx [0x55#8, 0xFF#8], .rx 40, .dequeue true, .send true false, .rx 40, .dequeue true,
        .send true true]
    (∃ last, run lipStep (lipStart false false freshEncoder) ops = some last ∧
      ∃ sent, last.line = (lineOf false false freshEncoder sent).2 ∧
        sent.filterMap Sent.taken ++ waiting last = last.queued ∧
        sent.filterMap Sent.unsent = last.unsent) := by
  intro ops
  obtain ⟨last, ran⟩ : ∃ last, run lipStep (lipStart false false freshEncoder) ops = some last :=
    ⟨_, rfl⟩
  exact ⟨last, ran, (lip_hdlc_retry false false freshEncoder).2 ops last ran⟩

end Wanpipe.Hdlc
