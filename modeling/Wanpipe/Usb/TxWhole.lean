import Wanpipe.Runs
import Wanpipe.Usb.TxRing

/-! The transmit ring sends whole buffers, in order, as long as no start of a transfer fails. -/

namespace Wanpipe.Usb.TxRing

open Line Store Wanpipe.Circle Runs

/-- The octets that are queued and have been given to no transfer. -/
def queued (sender : Sender) : List Octet :=
  around sender.writebuf maxWriteBufLen sender.nextTxInd
    ((sender.nextWriteInd + maxWriteBufLen - sender.nextTxInd) % maxWriteBufLen)

/-- The transfers carry what was reported as sent, in order, and none of it changes before it is
complete. -/
structure Carried (sender : Sender) : Prop where
  same : sender.carried = sender.reported
  intact : ∀ k, (sender.datawrite k).flying = true →
    urbOctets sender k = (sender.datawrite k).octets

structure Unmoved (sender next : Sender) : Prop where
  write : next.nextWriteInd = sender.nextWriteInd
  tx : next.nextTxInd = sender.nextTxInd
  urb : next.urbWriteInd = sender.urbWriteInd
  queued : queued next = queued sender

/-- A call reports its whole buffer, cut to what a transfer takes, or nothing has moved. -/
def Answers (sender : Sender) : Op → Prop
  | .raw buffer taken =>
      (sdlaUsbTxdataRaw sender buffer taken).2 = min buffer.octets.length maxUsbTxLen ∨
        (sdlaUsbTxdataRaw sender buffer taken).2 = 0 ∧
          Unmoved sender (sdlaUsbTxdataRaw sender buffer taken).1
  | .complete _ _ => True

def Meets (sender : Sender) (op : Op) : Prop := Carried (step sender op) ∧ Answers sender op

/-- The next transfer is not flying, and the USB core takes it. -/
def Startable (sender : Sender) : Op → Prop
  | .raw _ taken => taken = true ∧ (sender.datawrite (nextUrb sender)).flying = false
  | .complete _ _ => True

/-- The transfer ends where the next octets are queued. -/
structure Behind (urb : Urb) (ind : Nat) : Prop where
  start : urb.start < maxWriteBufLen
  short : urb.len ≤ maxUsbTxLen
  ends : (urb.start + urb.len) % maxWriteBufLen = ind

structure Level (sender : Sender) : Prop where
  ready : ∀ k, (sender.datawrite k).ready = true
  inside : sender.nextTxInd < maxWriteBufLen
  level : sender.nextWriteInd = sender.nextTxInd
  behind : (sender.datawrite sender.urbWriteInd).flying = true →
    Behind (sender.datawrite sender.urbWriteInd) sender.nextTxInd
  carried : Carried sender

theorem ring_size : maxWriteBufLen = 3200 := rfl

theorem block_size : maxUsbTxLen = 32 := rfl

section Cut

variable (buffer : Buffer)

theorem cut_length : (cut buffer).length = min buffer.octets.length maxUsbTxLen := by
  rw [cut, List.length_take, Nat.min_comm]

theorem cut_short : (cut buffer).length ≤ maxUsbTxLen := cut_length buffer ▸ Nat.min_le_right _ _

theorem cut_some : 0 < (cut buffer).length := by
  have some := List.length_pos_iff.mpr buffer.some
  rw [cut_length, block_size]
  omega

theorem cut_take : buffer.octets.take (cut buffer).length = cut buffer := by
  rw [cut_length, cut, Nat.min_comm, ← List.take_eq_take_min]

end Cut

section Call

variable {sender : Sender}

/-- On a level ring, what is queued is what the ring has been moved by. -/
theorem queueData_level (level : Level sender) (buffer : Buffer) :
    queueData sender (cut buffer) =
      { sender with
        writebuf := store sender.writebuf sender.nextTxInd (cut buffer)
        nextWriteInd := (sender.nextTxInd + (cut buffer).length) % maxWriteBufLen } := by
  have some := cut_some buffer
  have short := cut_short buffer
  have inside := level.inside
  have moved : (sender.nextTxInd + (cut buffer).length) % maxWriteBufLen ≠ sender.nextTxInd := by
    rw [ring_size, block_size] at *
    omega
  rw [queueData, level.level, if_neg moved]

/-- The ring with the octets of a buffer queued. -/
def filled (sender : Sender) (buffer : Buffer) : Sender :=
  { sender with
    writebuf := store sender.writebuf sender.nextTxInd (cut buffer)
    nextWriteInd := (sender.nextTxInd + (cut buffer).length) % maxWriteBufLen }

def aimed (sender : Sender) (buffer : Buffer) : Sender :=
  aimUrb (filled sender buffer) (cut buffer).length

def begun (sender : Sender) (buffer : Buffer) : Sender :=
  report (startUrb (aimed sender buffer)) buffer (cut buffer).length

theorem prepare_level (level : Level sender) (buffer : Buffer) (taken : Bool) :
    sdlaUsbTxdataPrepare sender (cut buffer) taken =
      if starts sender taken then (startUrb (aimed sender buffer), true)
      else ({ aimed sender buffer with txNotreadyCnt := sender.txNotreadyCnt + 1 }, false) := by
  have ready : ¬ ((filled sender buffer).datawrite (nextUrb (filled sender buffer))).ready =
      false := by
    rw [Bool.not_eq_false]
    exact level.ready _
  rw [sdlaUsbTxdataPrepare, queueData_level level, ← filled, submit, if_neg ready]
  rfl

/-- A call whose transfer starts reports its octets. -/
theorem raw_started (level : Level sender) (buffer : Buffer) {taken : Bool}
    (started : starts sender taken = true) :
    sdlaUsbTxdataRaw sender buffer taken =
      (startUrb (aimed sender buffer), (cut buffer).length) := by
  rw [sdlaUsbTxdataRaw, prepare_level level, if_pos started]

/-- A call whose transfer does not start reports nothing, but has moved the ring. -/
theorem raw_failed (level : Level sender) (buffer : Buffer) {taken : Bool}
    (failed : starts sender taken = false) :
    (sdlaUsbTxdataRaw sender buffer taken).2 = 0 ∧
      (sdlaUsbTxdataRaw sender buffer taken).1.nextTxInd ≠ sender.nextTxInd := by
  have some := cut_some buffer
  have short := cut_short buffer
  have inside := level.inside
  rw [sdlaUsbTxdataRaw, prepare_level level, failed]
  refine ⟨rfl, ?_⟩
  change (sender.nextTxInd + (cut buffer).length) % maxWriteBufLen ≠ sender.nextTxInd
  rw [ring_size, block_size] at *
  omega

/-- What is queued next lies apart from the last transfer. -/
theorem Behind.apart {urb : Urb} {ind len : Nat} (behind : Behind urb ind)
    (short : len ≤ maxUsbTxLen) : urb.start + urb.len ≤ ind ∨ ind + len ≤ urb.start := by
  have start := behind.start
  have few := behind.short
  have ends := behind.ends
  rw [ring_size, block_size] at *
  omega

theorem other_urb {k : Fin 2} (other : k ≠ nextUrb sender) : k = sender.urbWriteInd := by
  have apart : (k : Nat) ≠ (sender.urbWriteInd + 1) % 2 := fun same => other (Fin.ext same)
  omega

theorem begun_other (buffer : Buffer) {k : Fin 2} (other : k ≠ nextUrb sender) :
    (begun sender buffer).datawrite k = sender.datawrite k := by
  change Function.update (Function.update sender.datawrite (nextUrb sender) _) (nextUrb sender) _ k
    = _
  rw [Function.update_of_ne other, Function.update_of_ne other]

/-- The transfer that a call starts. -/
def begunUrb (sender : Sender) (buffer : Buffer) : Urb :=
  { sender.datawrite (nextUrb sender) with
    start := sender.nextTxInd
    len := (cut buffer).length
    flying := true
    octets := cut buffer }

theorem begun_octets (sender : Sender) (buffer : Buffer) :
    urbOctets (aimed sender buffer) (nextUrb sender) = cut buffer := by
  have here : (aimed sender buffer).datawrite (nextUrb sender) =
      { sender.datawrite (nextUrb sender) with
        start := sender.nextTxInd, len := (cut buffer).length } :=
    Function.update_self _ _ _
  rw [urbOctets, here]
  exact load_store _ _ _

theorem begun_urb (sender : Sender) (buffer : Buffer) :
    (begun sender buffer).datawrite (nextUrb sender) = begunUrb sender buffer := by
  change Function.update (aimed sender buffer).datawrite (nextUrb sender)
    { (aimed sender buffer).datawrite (nextUrb sender) with
      flying := true, octets := urbOctets (aimed sender buffer) (nextUrb sender) } (nextUrb sender)
    = _
  have here : (aimed sender buffer).datawrite (nextUrb sender) =
      { sender.datawrite (nextUrb sender) with
        start := sender.nextTxInd, len := (cut buffer).length } :=
    Function.update_self _ _ _
  rw [Function.update_self, begun_octets, here]
  rfl

theorem begun_carried (level : Level sender) (buffer : Buffer) : Carried (begun sender buffer) where
  same := by
    change sender.carried ++ urbOctets (aimed sender buffer) (nextUrb sender) =
      sender.reported ++ buffer.octets.take (cut buffer).length
    rw [begun_octets, cut_take, level.carried.same]
  intact := by
    intro k flying
    by_cases other : k = nextUrb sender
    · subst other
      rw [urbOctets, begun_urb]
      exact load_store _ _ _
    · have last := other_urb other
      rw [begun_other buffer other] at flying
      rw [urbOctets, begun_other buffer other]
      have behind := level.behind (last ▸ flying)
      rw [← last] at behind
      rw [← level.carried.intact k flying, urbOctets]
      exact load_store_apart (behind.apart (cut_short buffer))

theorem begun_level (level : Level sender) (buffer : Buffer) : Level (begun sender buffer) where
  ready := by
    intro k
    by_cases other : k = nextUrb sender
    · subst other
      rw [begun_urb]
      exact level.ready _
    · rw [begun_other buffer other]
      exact level.ready k
  inside := Nat.mod_lt _ (by decide)
  level := rfl
  behind := by
    intro _
    have last : (begun sender buffer).urbWriteInd = nextUrb sender := rfl
    rw [last, begun_urb]
    exact ⟨level.inside, cut_short buffer, rfl⟩
  carried := begun_carried level buffer

theorem startable_iff (buffer : Buffer) (taken : Bool) :
    Startable sender (.raw buffer taken) ↔ starts sender taken = true := by
  unfold Startable starts
  rw [Bool.and_eq_true, Bool.not_eq_true']

end Call

section Complete

variable {sender : Sender}

/-- Only a transfer that was not set to rest is flying. -/
theorem flying_other {k j : Fin 2} {urb : Urb} (still : urb.flying = false)
    (flying : ((setUrb sender k urb).datawrite j).flying = true) : j ≠ k := by
  intro here
  rw [here, setUrb_self, still] at flying
  cases flying

/-- A transfer that has landed leaves the ring as it was. -/
theorem landed_level (level : Level sender) (k : Fin 2) {urb : Urb} (ready : urb.ready = true)
    (still : urb.flying = false) : Level (setUrb sender k urb) where
  ready := by
    intro j
    by_cases here : j = k
    · rw [here, setUrb_self]
      exact ready
    · rw [setUrb_other sender urb here]
      exact level.ready j
  inside := level.inside
  level := level.level
  behind := by
    intro flying
    have last : (setUrb sender k urb).urbWriteInd = sender.urbWriteInd := rfl
    rw [last] at flying ⊢
    have other := flying_other still flying
    rw [setUrb_other sender urb other] at flying ⊢
    exact level.behind flying
  carried := by
    refine ⟨level.carried.same, ?_⟩
    intro j flying
    have other := flying_other still flying
    rw [setUrb_other sender urb other] at flying
    rw [urbOctets, setUrb_other sender urb other]
    exact level.carried.intact j flying

theorem complete_level (level : Level sender) (k : Fin 2) (status : Bool) :
    Level (sdlausbWriteComplete sender k status) := by
  unfold sdlausbWriteComplete
  split_ifs
  · exact level
  · have landed : Level (setUrb sender k
        { sender.datawrite k with flying := false, ready := true }) := landed_level level k rfl rfl
    exact ⟨landed.ready, landed.inside, landed.level, landed.behind, landed.carried.same,
      landed.carried.intact⟩
  · exact landed_level level k (level.ready k) rfl

end Complete

section Runs

theorem step_level {sender : Sender} (level : Level sender) {op : Op}
    (startable : Startable sender op) : Level (step sender op) := by
  cases op with
  | raw buffer taken =>
      have started := (startable_iff buffer taken).mp startable
      rw [step, raw_started level buffer started]
      exact begun_level level buffer
  | complete k status => exact complete_level level k status

theorem meets_iff {sender : Sender} (level : Level sender) (op : Op) :
    Meets sender op ↔ Startable sender op := by
  constructor
  · intro meets
    cases op with
    | raw buffer taken =>
        rw [startable_iff]
        by_contra failed
        obtain ⟨nothing, moved⟩ := raw_failed level buffer (Bool.not_eq_true _ ▸ failed)
        rcases meets.2 with whole | ⟨_, unmoved⟩
        · have some := cut_some buffer
          rw [← cut_length] at whole
          omega
        · exact moved unmoved.tx
    | complete k status => trivial
  · intro startable
    refine ⟨(step_level level startable).carried, ?_⟩
    cases op with
    | raw buffer taken =>
        have started := (startable_iff buffer taken).mp startable
        left
        rw [raw_started level buffer started, cut_length]
    | complete k status => trivial

theorem setUp_level (writebuf : Nat → Octet) : Level (setUp writebuf) := by
  have inside : 0 < maxWriteBufLen := by decide
  refine ⟨fun _ => rfl, inside, rfl, ?_, rfl, ?_⟩
  · intro flying
    cases flying
  · intro k flying
    cases flying

/-- Every call sends its whole buffer or moves nothing, along a run in which and only in which
every transfer can be started. -/
theorem usb_tx (writebuf : Nat → Octet) (ops : List Op) :
    Along (fun sender op => some (step sender op)) Meets (setUp writebuf) ops ↔
      Along (fun sender op => some (step sender op)) Startable (setUp writebuf) ops := by
  have steps : ∀ sender op next, Level sender → Meets sender op → some (step sender op) = some next →
      Level next := by
    intro sender op next level meets moved
    rw [← Option.some.inj moved]
    exact step_level level ((meets_iff level op).mp meets)
  have same : ∀ sender op, Level sender → (Meets sender op ↔ Startable sender op) := by
    intro sender op level
    exact meets_iff level op
  exact Along.iff steps same (setUp_level writebuf)

/-- A first call of one octet whose transfer does not start. -/
theorem usb_tx_refused :
    ¬ Along (fun sender op => some (step sender op)) Meets (setUp fun _ => 0#8)
      [.raw ⟨[0#8], by decide⟩ false] := by
  intro along
  rcases along.1.2 with whole | ⟨_, unmoved⟩
  · exact absurd whole (by decide)
  · exact absurd unmoved.tx (by decide)

end Runs

end Wanpipe.Usb.TxRing
