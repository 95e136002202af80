import Wanpipe.Mtp1.Transmit

/-! The transmit buffer holds the line bits that were written and not yet handed out. -/

namespace Wanpipe.Mtp1

open Line

namespace OpMode

def width : OpMode → Nat
  | .hdlc8Bit => 8
  | .hdlc7Bit => 7

def mark : OpMode → List Bool
  | .hdlc8Bit => []
  | .hdlc7Bit => [true]

theorem width_mark (mode : OpMode) : mode.width + mode.mark.length = 8 := by
  cases mode <;> rfl

theorem width_pos (mode : OpMode) : 0 < mode.width := by
  cases mode <;> decide

end OpMode

/-- `line` is what the buffer holds from `cardIndex` on: complete octets, marked in 7-bit mode,
and then the octet that is being built. -/
structure Pending (mode : OpMode) (tbs : Tbs) (line : List Bool) : Prop where
  order : tbs.cardIndex ≤ tbs.curIndex
  bound : tbs.curIndex < txBufSize
  pos : tbs.curBitPos < 8
  size : line.length = mode.width * (tbs.curIndex - tbs.cardIndex) + tbs.curBitPos
  done : ∀ j < tbs.curIndex - tbs.cardIndex,
    tbs.buf (tbs.cardIndex + j) = octetOf ((line.drop (mode.width * j)).take mode.width ++ mode.mark)
  building : tbs.buf tbs.curIndex =
    octetOf (line.drop (mode.width * (tbs.curIndex - tbs.cardIndex)))

/-- There is room for a line of `n` bits behind `cardIndex`; in 7-bit mode the last octet is not
closed before a further bit comes. -/
def Room (mode : OpMode) (tbs : Tbs) (n : Nat) : Prop :=
  n + (mode.width - 7) ≤ mode.width * (txBufSize - tbs.cardIndex)

/-- Completing the octet being built with its last slots. -/
private theorem pending_close (mode : OpMode) (tbs : Tbs) (line last : List Bool) (bit : Bool)
    (held : Pending mode tbs line) (at7 : tbs.curBitPos = 7) (next : tbs.curIndex + 1 < txBufSize)
    (shape : ∀ bits : List Bool, bits.length = 7 →
      bits ++ [bit] = (bits ++ last).take mode.width ++ mode.mark)
    (filled : last.length + 7 = mode.width) :
    Pending mode (Tbs.nextBit (tbs.orBuf (if bit then 1#8 <<< tbs.curBitPos else 0#8)))
      (line ++ last) := by
  obtain ⟨order, bound, pos, size, done, building⟩ := held
  have stays : ¬ txBufSize ≤ tbs.curIndex + 1 := by omega
  have count : tbs.curIndex + 1 - tbs.cardIndex = tbs.curIndex - tbs.cardIndex + 1 := by omega
  have tail : (line.drop (mode.width * (tbs.curIndex - tbs.cardIndex))).length = 7 := by
    rw [List.length_drop, size, at7]
    omega
  have octet : tbs.buf tbs.curIndex ||| (if bit then 1#8 <<< tbs.curBitPos else 0#8) =
      octetOf (line.drop (mode.width * (tbs.curIndex - tbs.cardIndex)) ++ [bit]) := by
    rw [building, ← octetOf_append_bit _ _ (by omega), tail, at7]
  simp only [Tbs.nextBit, Tbs.orBuf, at7, Nat.le_refl, if_true, stays, if_false] at octet ⊢
  constructor <;> dsimp only
  · omega
  · exact next
  · omega
  · rw [count, Nat.mul_succ, List.length_append, size, at7]
    omega
  · intro j hj
    rcases Nat.lt_or_ge j (tbs.curIndex - tbs.cardIndex) with before | here
    · have room : mode.width * (j + 1) ≤ mode.width * (tbs.curIndex - tbs.cardIndex) :=
        Nat.mul_le_mul_left _ (by omega)
      rw [Nat.mul_succ] at room
      rw [Function.update_of_ne (by omega), Function.update_of_ne (by omega), done j before,
        List.drop_append_of_le_length (by omega), List.take_append_of_le_length]
      rw [List.length_drop]
      omega
    · have last_octet : j = tbs.curIndex - tbs.cardIndex := by omega
      have index : tbs.cardIndex + j = tbs.curIndex := by omega
      rw [index, Function.update_of_ne (by omega), Function.update_self, octet, last_octet,
        List.drop_append_of_le_length (by omega), ← shape _ tail]
  · have whole : (line ++ last).length = mode.width * (tbs.curIndex + 1 - tbs.cardIndex) := by
      rw [count, Nat.mul_succ, List.length_append, size, at7]
      omega
    rw [Function.update_self, ← whole, List.drop_length]
    rfl

/-- A bit that leaves the octet being built incomplete. -/
private theorem pending_within (mode : OpMode) (tbs : Tbs) (line : List Bool) (bit : Bool)
    (held : Pending mode tbs line) (low : tbs.curBitPos < 7) :
    Pending mode (Tbs.nextBit (tbs.orBuf (if bit then 1#8 <<< tbs.curBitPos else 0#8)))
      (line ++ [bit]) := by
  obtain ⟨order, bound, pos, size, done, building⟩ := held
  have open_ : ¬ 8 ≤ tbs.curBitPos + 1 := by omega
  have tail : (line.drop (mode.width * (tbs.curIndex - tbs.cardIndex))).length = tbs.curBitPos := by
    rw [List.length_drop, size]
    omega
  simp only [Tbs.nextBit, Tbs.orBuf, open_, if_false]
  constructor <;> dsimp only
  · exact order
  · exact bound
  · omega
  · rw [List.length_append, size, List.length_singleton]
    omega
  · intro j hj
    have room : mode.width * (j + 1) ≤ mode.width * (tbs.curIndex - tbs.cardIndex) :=
      Nat.mul_le_mul_left _ (by omega)
    rw [Nat.mul_succ] at room
    rw [Function.update_of_ne (by omega), done j hj,
      List.drop_append_of_le_length (by omega), List.take_append_of_le_length]
    rw [List.length_drop]
    omega
  · rw [Function.update_self, List.drop_append_of_le_length (by omega), building,
      ← octetOf_append_bit _ _ (by omega), tail]

theorem putBit_pending (mode : OpMode) (tbs : Tbs) (line : List Bool) (bit : Bool)
    (held : Pending mode tbs line) (room : Room mode tbs (line.length + 1)) :
    Pending mode (Tbs.putBit mode tbs bit) (line ++ [bit]) := by
  have size := held.size
  have order := held.order
  unfold Room at room
  rcases Nat.lt_or_ge tbs.curBitPos 7 with low | high
  · have unmarked : ¬ (tbs.curBitPos = 7 ∧ mode = .hdlc7Bit) := by omega
    rw [Tbs.putBit, if_neg unmarked]
    exact pending_within mode tbs line bit held low
  · have at7 : tbs.curBitPos = 7 := by
      have := held.pos
      omega
    cases mode with
    | hdlc8Bit =>
        have next : tbs.curIndex + 1 < txBufSize := by
          simp only [OpMode.width] at size room
          omega
        have unmarked : ¬ (tbs.curBitPos = 7 ∧ OpMode.hdlc8Bit = .hdlc7Bit) := by simp
        rw [Tbs.putBit, if_neg unmarked]
        apply pending_close .hdlc8Bit tbs line [bit] bit held at7 next
        · intro bits seven
          simp [OpMode.width, OpMode.mark, List.take_of_length_le, seven]
        · rfl
    | hdlc7Bit =>
        have next : tbs.curIndex + 1 < txBufSize := by
          simp only [OpMode.width] at size room
          omega
        have closed : Pending .hdlc7Bit (Tbs.nextBit (tbs.orBuf bit7)) line := by
          have := pending_close .hdlc7Bit tbs line [] true held at7 next
            (by intro bits seven; simp [OpMode.width, OpMode.mark, List.take_of_length_le, seven])
            rfl
          rw [at7] at this
          simpa [bit7] using this
        have first : (Tbs.nextBit (tbs.orBuf bit7)).curBitPos = 0 := by
          simp [Tbs.nextBit, Tbs.orBuf, at7]
        rw [Tbs.putBit, if_pos ⟨at7, rfl⟩]
        exact pending_within .hdlc7Bit _ line bit closed (by omega)

/-- Everything of the buffer that writing line bits leaves alone. -/
structure Tbs.Kept (before after : Tbs) : Prop where
  cardIndex : after.cardIndex = before.cardIndex
  txQ : after.txQ = before.txQ
  txRQ : after.txRQ = before.txRQ
  txQDealloc : after.txQDealloc = before.txQDealloc

namespace Tbs

theorem Kept.refl (tbs : Tbs) : Kept tbs tbs := ⟨rfl, rfl, rfl, rfl⟩

theorem Kept.trans {first second third : Tbs} (left : Kept first second)
    (right : Kept second third) : Kept first third :=
  ⟨right.cardIndex.trans left.cardIndex, right.txQ.trans left.txQ, right.txRQ.trans left.txRQ,
    right.txQDealloc.trans left.txQDealloc⟩

theorem ones_kept (tbs : Tbs) (ones : Nat) : Kept tbs { tbs with cur1sBitCount := ones } :=
  ⟨rfl, rfl, rfl, rfl⟩

theorem nextBit_kept (tbs : Tbs) (mask : Octet) : Kept tbs (tbs.orBuf mask).nextBit := by
  unfold nextBit
  split <;> exact ⟨rfl, rfl, rfl, rfl⟩

theorem putBit_kept (mode : OpMode) (tbs : Tbs) (bit : Bool) : Kept tbs (putBit mode tbs bit) := by
  unfold putBit
  split
  · exact (nextBit_kept _ _).trans (nextBit_kept _ _)
  · exact nextBit_kept _ _

theorem suZeroToTbs_kept (mode : OpMode) (tbs : Tbs) : Kept tbs (suZeroToTbs mode tbs) :=
  (putBit_kept mode tbs false).trans (ones_kept _ 0)

theorem nextBit_cur1sBitCount (tbs : Tbs) : tbs.nextBit.cur1sBitCount = tbs.cur1sBitCount := by
  unfold nextBit
  split <;> rfl

@[simp] theorem putBit_cur1sBitCount (mode : OpMode) (tbs : Tbs) (bit : Bool) :
    (putBit mode tbs bit).cur1sBitCount = tbs.cur1sBitCount := by
  unfold putBit
  split <;> simp only [nextBit_cur1sBitCount, orBuf]

end Tbs

theorem Room.mono {mode : OpMode} {tbs : Tbs} {m n : Nat} (room : Room mode tbs n) (le : m ≤ n) :
    Room mode tbs m := by
  unfold Room at *
  omega

theorem Room.kept {mode : OpMode} {before after : Tbs} {n : Nat} (room : Room mode before n)
    (kept : Tbs.Kept before after) : Room mode after n := by
  unfold Room at *
  rw [kept.cardIndex]
  exact room

theorem Pending.ones {mode : OpMode} {tbs : Tbs} {line : List Bool} (held : Pending mode tbs line)
    (ones : Nat) : Pending mode { tbs with cur1sBitCount := ones } line :=
  ⟨held.order, held.bound, held.pos, held.size, held.done, held.building⟩

theorem putBits_pending (mode : OpMode) (bits : List Bool) (tbs : Tbs) (line : List Bool)
    (held : Pending mode tbs line) (room : Room mode tbs (line.length + bits.length)) :
    Pending mode (bits.foldl (Tbs.putBit mode) tbs) (line ++ bits) ∧
      Tbs.Kept tbs (bits.foldl (Tbs.putBit mode) tbs) ∧
      (bits.foldl (Tbs.putBit mode) tbs).cur1sBitCount = tbs.cur1sBitCount := by
  induction bits generalizing tbs line with
  | nil => exact ⟨by simpa using held, Tbs.Kept.refl tbs, rfl⟩
  | cons bit bits ih =>
      have kept := Tbs.putBit_kept mode tbs bit
      have next := putBit_pending mode tbs line bit held (room.mono (by simp))
      have rest := ih _ _ next ((room.kept kept).mono (by simp; omega))
      refine ⟨?_, kept.trans rest.2.1, ?_⟩
      · simpa using rest.1
      · rw [List.foldl_cons, rest.2.2, Tbs.putBit_cur1sBitCount]

theorem suZero_pending (mode : OpMode) (tbs : Tbs) (line : List Bool)
    (held : Pending mode tbs line) (room : Room mode tbs (line.length + 1)) :
    Pending mode (Tbs.suZeroToTbs mode tbs) (line ++ [false]) :=
  (putBit_pending mode tbs line false held room).ones 0

theorem suBit_pending (mode : OpMode) (bit : Bool) (tbs : Tbs) (line : List Bool)
    (held : Pending mode tbs line)
    (room : Room mode tbs (line.length + (stuff tbs.cur1sBitCount [bit]).length)) :
    Pending mode (Tbs.suBitToTbs mode tbs bit) (line ++ stuff tbs.cur1sBitCount [bit]) ∧
      Tbs.Kept tbs (Tbs.suBitToTbs mode tbs bit) ∧
      (Tbs.suBitToTbs mode tbs bit).cur1sBitCount = stuffOnes tbs.cur1sBitCount [bit] := by
  cases bit with
  | false =>
      exact ⟨suZero_pending mode tbs line held room, Tbs.suZeroToTbs_kept mode tbs, rfl⟩
  | true =>
      let counted := { Tbs.putBit mode tbs true with cur1sBitCount := tbs.cur1sBitCount + 1 }
      have kept : Tbs.Kept tbs counted :=
        (Tbs.putBit_kept mode tbs true).trans (Tbs.ones_kept _ _)
      have one : Pending mode counted (line ++ [true]) :=
        (putBit_pending mode tbs line true held
          (room.mono (by simp only [stuff]; split <;> simp))).ones _
      by_cases fifth : tbs.cur1sBitCount + 1 = 5
      · have step : Tbs.suBitToTbs mode tbs true = Tbs.suZeroToTbs mode counted := by
          simp [Tbs.suBitToTbs, fifth, counted]
        have two := suZero_pending mode counted _ one
          ((room.kept kept).mono (by simp [stuff, fifth]))
        rw [step]
        refine ⟨?_, kept.trans (Tbs.suZeroToTbs_kept mode counted), ?_⟩
        · simpa [stuff, fifth] using two
        · simp [stuffOnes, fifth, Tbs.suZeroToTbs]
      · have step : Tbs.suBitToTbs mode tbs true = counted := by
          simp [Tbs.suBitToTbs, fifth, counted]
        rw [step]
        refine ⟨?_, kept, ?_⟩
        · simpa [stuff, fifth] using one
        · simp [stuffOnes, fifth, counted]

/-- Writing signal unit bits puts the zero-stuffed bits on the line. -/
theorem suBits_pending (mode : OpMode) (bits : List Bool) (tbs : Tbs) (line : List Bool)
    (held : Pending mode tbs line)
    (room : Room mode tbs (line.length + (stuff tbs.cur1sBitCount bits).length)) :
    Pending mode (bits.foldl (Tbs.suBitToTbs mode) tbs) (line ++ stuff tbs.cur1sBitCount bits) ∧
      Tbs.Kept tbs (bits.foldl (Tbs.suBitToTbs mode) tbs) ∧
      (bits.foldl (Tbs.suBitToTbs mode) tbs).cur1sBitCount =
        stuffOnes tbs.cur1sBitCount bits := by
  induction bits generalizing tbs line with
  | nil => exact ⟨by simpa [stuff] using held, Tbs.Kept.refl tbs, rfl⟩
  | cons bit bits ih =>
      have split := stuff_append tbs.cur1sBitCount [bit] bits
      have counts := stuffOnes_append tbs.cur1sBitCount [bit] bits
      rw [List.singleton_append] at split counts
      rw [split, List.length_append] at room
      obtain ⟨next, kept, ones⟩ := suBit_pending mode bit tbs line held (room.mono (by omega))
      have rest := ih _ _ next
        ((room.kept kept).mono (by rw [ones, List.length_append]; omega))
      rw [ones] at rest
      rw [List.foldl_cons, split, counts, ← List.append_assoc]
      exact ⟨rest.1, kept.trans rest.2.1, rest.2.2⟩

/-- The signal unit bits of `octets` in the order `daed_tx` sends them. -/
def suLine (endian : BitEndian) (octets : List Octet) : List Bool :=
  octets.flatMap (txOctetBits endian)

namespace Dequeued

def octets : Dequeued → List Octet
  | .data skb => skb.data ++ crcOctets (skb.csum.setWidth 16)
  | .repeated skb => skb.data ++ crcOctets (skb.csum.setWidth 16)
  | .idle => []

/-- What `daed_tx` puts on the line for one dequeued frame, or for none. -/
def line (endian : BitEndian) (item : Dequeued) : List Bool :=
  flag ++ stuff 0 (suLine endian item.octets)

/-- The number of octets that an encoding takes up in the buffer. -/
def encodedLen (cfg : Cfg) (item : Dequeued) : Nat :=
  ((item.line cfg.hdlcBitEndian).length + (cfg.hdlcOpMode.width - 1)) / cfg.hdlcOpMode.width

end Dequeued

def lineOf (endian : BitEndian) (items : List Dequeued) : List Bool :=
  items.flatMap (Dequeued.line endian)

theorem lineOf_append (endian : BitEndian) (left right : List Dequeued) :
    lineOf endian (left ++ right) = lineOf endian left ++ lineOf endian right := by
  simp [lineOf]

theorem daedTx_pending (link : Link) (buf : List Octet) (crc : Option (BitVec 16))
    (line sent : List Bool) (held : Pending link.cfg.hdlcOpMode link.tbs line)
    (spelled : sent =
      flag ++ stuff 0 (suLine link.cfg.hdlcBitEndian (buf ++ (crc.map crcOctets).getD [])))
    (room : Room link.cfg.hdlcOpMode link.tbs (line.length + sent.length)) :
    Pending link.cfg.hdlcOpMode (daedTx link buf crc).tbs (line ++ sent) ∧
      Tbs.Kept link.tbs (daedTx link buf crc).tbs := by
  let mode := link.cfg.hdlcOpMode
  let su := suLine link.cfg.hdlcBitEndian (buf ++ (crc.map crcOctets).getD [])
  let cleared := { link.tbs with cur1sBitCount := 0 }
  have written : (daedTx link buf crc).tbs =
      su.foldl (Tbs.suBitToTbs mode) (cleared.flagBitToTxb mode) := by
    have octetwise : ∀ (octets : List Octet) (tbs : Tbs),
        octets.foldl (suOctetToTbs link.cfg) tbs =
          (suLine link.cfg.hdlcBitEndian octets).foldl (Tbs.suBitToTbs mode) tbs := by
      intro octets tbs
      rw [suLine, List.foldl_flatMap]
      rfl
    cases crc with
    | none => simp [daedTx, octetwise, su, cleared, mode]
    | some crc =>
        simp [daedTx, octetwise, su, cleared, mode, suLine, List.foldl_append]
  have length : sent.length = flag.length + (stuff 0 su).length := by
    rw [spelled, List.length_append]
  obtain ⟨flagged, keptFlag, onesFlag⟩ :=
    putBits_pending mode flag cleared line (held.ones 0)
      ((room.kept (Tbs.ones_kept link.tbs 0)).mono (by omega))
  have noOnes : (cleared.flagBitToTxb mode).cur1sBitCount = 0 := onesFlag
  obtain ⟨stuffed, keptSu, _⟩ :=
    suBits_pending mode su (cleared.flagBitToTxb mode) (line ++ flag) flagged
      ((room.kept ((Tbs.ones_kept link.tbs 0).trans keptFlag)).mono (by
        rw [noOnes, List.length_append]
        omega))
  rw [noOnes] at stuffed
  rw [written, spelled, ← List.append_assoc]
  exact ⟨stuffed, ((Tbs.ones_kept link.tbs 0).trans keptFlag).trans keptSu⟩

/-- What the next pass of the encoding loop sends. -/
def nextItem (link : Link) : Dequeued :=
  match link.tbs.txQ with
  | skb :: _ => .data skb
  | [] =>
      match link.tbs.txRQ.getLast? with
      | some skb => .repeated skb
      | none => .idle

theorem latestRepeat_fst (txRQ dealloc : List Skb) :
    (latestRepeat txRQ dealloc).1 = txRQ.getLast? := by
  fun_induction latestRepeat txRQ dealloc with
  | case1 => rfl
  | case2 => rfl
  | case3 skb txRQ dealloc nonempty ih =>
      rw [ih]
      cases txRQ with
      | nil => exact absurd rfl nonempty
      | cons head tail => rw [List.getLast?_cons_cons]

def Dequeued.fresh? : Dequeued → Option Skb
  | .data skb => some skb
  | _ => none

/-- The encoding loop went from `link` to `next` by sending `items`. -/
structure Encodes (link next : Link) (items : List Dequeued) : Prop where
  cfg : next.cfg = link.cfg
  cardIndex : next.tbs.cardIndex = link.tbs.cardIndex
  dequeued : next.dequeued = link.dequeued ++ items
  queue : link.tbs.txQ = items.filterMap Dequeued.fresh? ++ next.tbs.txQ
  repeats : ∀ skb ∈ next.tbs.txRQ, skb ∈ link.tbs.txRQ
  repeated : ∀ skb, Dequeued.repeated skb ∈ items → skb ∈ link.tbs.txRQ

theorem Encodes.refl (link : Link) : Encodes link link [] where
  cfg := rfl
  cardIndex := rfl
  dequeued := by simp
  queue := rfl
  repeats := fun _ member => member
  repeated := by simp

theorem Encodes.trans {first second third : Link} {left right : List Dequeued}
    (before : Encodes first second left) (after : Encodes second third right) :
    Encodes first third (left ++ right) where
  cfg := after.cfg.trans before.cfg
  cardIndex := after.cardIndex.trans before.cardIndex
  dequeued := by rw [after.dequeued, before.dequeued, List.append_assoc]
  queue := by rw [before.queue, after.queue, List.filterMap_append, List.append_assoc]
  repeats := fun skb member => before.repeats skb (after.repeats skb member)
  repeated := by
    intro skb member
    rcases List.mem_append.mp member with early | late
    · exact before.repeated skb early
    · exact before.repeats skb (after.repeated skb late)

theorem txEncodeSkb_pending (link : Link) (skb : Skb) (line sent : List Bool)
    (held : Pending link.cfg.hdlcOpMode link.tbs line)
    (spelled : sent = (Dequeued.data skb).line link.cfg.hdlcBitEndian)
    (room : Room link.cfg.hdlcOpMode link.tbs (line.length + sent.length)) :
    Pending link.cfg.hdlcOpMode (txEncodeSkb link skb).tbs (line ++ sent) ∧
      Tbs.Kept link.tbs (txEncodeSkb link skb).tbs :=
  daedTx_pending link skb.data (some (skb.csum.setWidth 16)) line sent held spelled room

theorem setQueues_pending (link : Link) (txQ txRQ dealloc : List Skb) (line : List Bool)
    (held : Pending link.cfg.hdlcOpMode link.tbs line) :
    Pending (setQueues link txQ txRQ dealloc).cfg.hdlcOpMode
      (setQueues link txQ txRQ dealloc).tbs line :=
  ⟨held.order, held.bound, held.pos, held.size, held.done, held.building⟩

theorem txDataDone_pending (mode : OpMode) (link : Link) (skb : Skb) (line : List Bool)
    (held : Pending mode link.tbs line) : Pending mode (txDataDone link skb).tbs line :=
  ⟨held.order, held.bound, held.pos, held.size, held.done, held.building⟩

theorem txRepeatDone_empty (link : Link) (skb : Skb) (empty : link.tbs.txRQ = []) :
    txRepeatDone link skb =
      { link with
        tbs := { link.tbs with txRQ := [skb] }
        dequeued := link.dequeued ++ [.repeated skb] } := by
  simp [txRepeatDone, empty]

theorem data_encodes (link : Link) (skb : Skb) (txQ : List Skb) (queue : link.tbs.txQ = skb :: txQ)
    (after : Link) (kept : Tbs.Kept (setQueues link txQ link.tbs.txRQ link.tbs.txQDealloc).tbs after.tbs)
    (cfg : after.cfg = link.cfg) (dequeued : after.dequeued = link.dequeued) :
    Encodes link (txDataDone after skb) [.data skb] where
  cfg := cfg
  cardIndex := kept.cardIndex
  dequeued := by rw [← dequeued]; rfl
  queue := by
    rw [queue]
    exact congrArg (skb :: ·) kept.txQ.symm
  repeats := by
    intro other member
    have same : (txDataDone after skb).tbs.txRQ = link.tbs.txRQ := kept.txRQ
    rwa [same] at member
  repeated := by simp

theorem repeat_encodes (link : Link) (skb : Skb) (dealloc : List Skb) (queue : link.tbs.txQ = [])
    (present : skb ∈ link.tbs.txRQ) (after : Link)
    (kept : Tbs.Kept (setQueues link [] [] dealloc).tbs after.tbs)
    (cfg : after.cfg = link.cfg) (dequeued : after.dequeued = link.dequeued) :
    Encodes link (txRepeatDone after skb) [.repeated skb] := by
  rw [txRepeatDone_empty after skb kept.txRQ]
  refine ⟨cfg, kept.cardIndex, by rw [← dequeued], ?_, ?_, ?_⟩
  · rw [queue]
    exact kept.txQ.symm
  · intro other member
    rwa [List.mem_singleton.mp member]
  · intro other member
    rw [List.mem_singleton, Dequeued.repeated.injEq] at member
    rwa [member]

theorem idle_encodes (link after : Link) (queue : link.tbs.txQ = [])
    (kept : Tbs.Kept link.tbs after.tbs) (cfg : after.cfg = link.cfg)
    (dequeued : after.dequeued = link.dequeued) : Encodes link (txIdleDone after) [.idle] := by
  refine ⟨cfg, kept.cardIndex, by rw [← dequeued]; rfl, ?_, ?_, by simp⟩
  · rw [queue]
    exact (kept.txQ.trans queue).symm
  · intro other member
    have same : (txIdleDone after).tbs.txRQ = link.tbs.txRQ := kept.txRQ
    rwa [same] at member

theorem txIdleDone_pending (mode : OpMode) (link : Link) (line : List Bool)
    (held : Pending mode link.tbs line) : Pending mode (txIdleDone link).tbs line := held

/-- One pass: the next frame goes on the line and leaves its queue, the repeat frame stays. -/
theorem txEncodeNext_spec (link : Link) (line : List Bool)
    (held : Pending link.cfg.hdlcOpMode link.tbs line)
    (room : Room link.cfg.hdlcOpMode link.tbs
      (line.length + ((nextItem link).line link.cfg.hdlcBitEndian).length)) :
    Pending link.cfg.hdlcOpMode (txEncodeNext link).tbs
        (line ++ (nextItem link).line link.cfg.hdlcBitEndian) ∧
      Encodes link (txEncodeNext link) [nextItem link] := by
  cases queue : link.tbs.txQ with
  | cons skb txQ =>
      have item : nextItem link = .data skb := by simp [nextItem, queue]
      rw [item] at room ⊢
      have next : txEncodeNext link = txDataDone
          (txEncodeSkb (setQueues link txQ link.tbs.txRQ link.tbs.txQDealloc) skb) skb := by
        simp [txEncodeNext, queue]
      obtain ⟨sent, kept⟩ :=
        txEncodeSkb_pending (setQueues link txQ link.tbs.txRQ link.tbs.txQDealloc) skb line _
          (setQueues_pending link _ _ _ line held) rfl room
      rw [next]
      exact ⟨txDataDone_pending _ _ skb _ sent,
        data_encodes link skb txQ queue _ kept (txEncodeSkb_cfg _ skb) (txEncodeSkb_dequeued _ skb)⟩
  | nil =>
      cases last : link.tbs.txRQ.getLast? with
      | none =>
          have empty : link.tbs.txRQ = [] := List.getLast?_eq_none_iff.mp last
          have item : nextItem link = .idle := by simp [nextItem, queue, last]
          rw [item] at room ⊢
          have next : txEncodeNext link = txIdleDone (daedTx link [] none) := by
            simp [txEncodeNext, queue, empty]
          obtain ⟨sent, kept⟩ := daedTx_pending link [] none line _ held rfl room
          have cfg := daedTx_cfg link [] none
          have dequeued := daedTx_dequeued link [] none
          rw [next]
          generalize daedTx link [] none = after at sent kept cfg dequeued ⊢
          exact ⟨txIdleDone_pending _ after _ sent, idle_encodes link after queue kept cfg dequeued⟩
      | some skb =>
          have nonempty : link.tbs.txRQ ≠ [] := by
            intro empty
            simp [empty] at last
          have item : nextItem link = .repeated skb := by simp [nextItem, queue, last]
          rw [item] at room ⊢
          obtain ⟨dealloc, drained⟩ : ∃ dealloc,
              latestRepeat link.tbs.txRQ link.tbs.txQDealloc = (some skb, dealloc) :=
            ⟨_, Prod.ext ((latestRepeat_fst _ _).trans last) rfl⟩
          have next : txEncodeNext link =
              txRepeatDone (txEncodeSkb (setQueues link [] [] dealloc) skb) skb := by
            simp [txEncodeNext, queue, nonempty, drained]
          obtain ⟨sent, kept⟩ := txEncodeSkb_pending (setQueues link [] [] dealloc) skb line _
            (setQueues_pending link _ _ _ line held) rfl room
          have encodes := repeat_encodes link skb dealloc queue (List.mem_of_getLast? last) _ kept
            (txEncodeSkb_cfg _ skb) (txEncodeSkb_dequeued _ skb)
          rw [next]
          refine ⟨?_, encodes⟩
          rw [txRepeatDone_empty _ skb kept.txRQ]
          exact ⟨sent.order, sent.bound, sent.pos, sent.size, sent.done, sent.building⟩

end Wanpipe.Mtp1
