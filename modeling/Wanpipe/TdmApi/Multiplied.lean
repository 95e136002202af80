import Mathlib.Data.List.Range
import Wanpipe.TdmApi.Channel

/-! Writes to a device in a block mode, which go to the driver at once, with a multiplier in as many
frames as it says. -/

namespace Wanpipe.TdmApi

open Line

def enomem : Int := 12

/-- What `write_hdlc_frame` answers. -/
inductive Answer
  | taken
  | takenFull
  | refused (err : Nat)
  deriving DecidableEq, Repr

def Answer.code : Answer → Int
  | .taken => 0
  | .takenFull => 1
  | .refused err => Int.negSucc err

/-- The driver owns the frame. -/
def Answer.accepts : Answer → Bool
  | .refused _ => false
  | _ => true

/-- What a write meets: another write (`WP_TDM_HDLC_TX`), the functions of the driver, the first of
which need not be there, and whether there is memory for the frames. -/
structure Driver where
  hdlcTx : Bool
  writeHdlcCheck : Option Int
  writeHdlcFrame : Option (Nat → Answer)
  alloc : Nat → Bool

inductive TxEffect
  | write (i : Nat) (frame : List Octet) (answer : Answer)
  | freeFrame (i : Nat)
  | freeSkb
  | queueSkb
  | start
  | stop
  deriving DecidableEq, Repr

structure Tx where
  err : Int
  effects : List TxEffect

/-- The octets of the frame `i`. -/
def frameOf (data : List Octet) (len i : Nat) : List Octet := (data.drop (i * len)).take len

/-- The loop over the frames from `i` on, so many of them; `err` is what it began with. -/
def writeFrames (driver : Driver) (data : List Octet) (len : Nat) : Nat → Nat → Int → Tx
  | 0, _, err => ⟨err, []⟩
  | todo + 1, i, _ =>
      if driver.alloc i then
        match driver.writeHdlcFrame with
        | none => ⟨-einval, [.freeFrame i]⟩
        | some answers =>
            let write := TxEffect.write i (frameOf data len i) (answers i)
            if (answers i).code = 0 then
              let rest := writeFrames driver data len todo (i + 1) 0
              ⟨rest.err, write :: rest.effects⟩
            else ⟨(answers i).code, [write, .freeFrame i]⟩
      else ⟨-enomem, []⟩

def writeMultiplied (driver : Driver) (multiplier : Nat) (data : List Octet) : Tx :=
  if driver.writeHdlcCheck.getD 0 ≠ 0 then ⟨-einval, []⟩
  else if data.length % multiplier ≠ 0 then ⟨-einval, []⟩
  else
    let sent := writeFrames driver data (data.length / multiplier) multiplier 0 (-einval)
    if sent.err = 0 then ⟨0, sent.effects ++ [.freeSkb]⟩ else sent

def writeOne (driver : Driver) (data : List Octet) : Tx :=
  match driver.writeHdlcFrame with
  | some answers => ⟨(answers 0).code, [.write 0 data (answers 0)]⟩
  | none => ⟨-einval, []⟩

/-- What a write returns, with the skb behind it. -/
structure Written where
  err : Int
  status : Option SangStatus
  skb : Skb
  effects : List TxEffect

/-- `wp_tdmapi_tx_exit`. -/
def txExit (dev : Dev) (skb : Skb) (sent : Tx) : Written × Dev :=
  if sent.err = -ebusy then (⟨1, some .deviceBusy, skb, sent.effects ++ [.stop]⟩, dev)
  else if sent.err = 1 then (⟨0, none, skb, sent.effects ++ [.stop]⟩, dev)
  else if sent.err = 0 then (⟨0, none, skb, sent.effects ++ [.start]⟩, dev)
  else (⟨sent.err, some .ioError, skb, sent.effects ++ [.start]⟩, addStats dev txErrors)

/-- `wp_tdmapi_tx`, which sees the skb without its header. -/
def wpTdmapiTx (dev : Dev) (driver : Driver) (skb : Skb) : Written × Dev :=
  if driver.hdlcTx then (⟨-einval, some .generalError, skb, []⟩, dev)
  else if 1 < dev.bufferMultiplier then
    txExit dev skb (writeMultiplied driver dev.bufferMultiplier (payload skb))
  else txExit dev skb (writeOne driver (payload skb))

/-- The skb behind the gain. -/
def gained (dev : Dev) (skb : Skb) : Skb :=
  if dev.hdlcFraming then skb else wpTdmapiSetGain skb dev.txGain

/-- No length for the device. -/
def badLength (dev : Dev) (skb : Skb) : Bool :=
  if 1 < dev.bufferMultiplier then (skb.length - hdrSz) % dev.bufferMultiplier != 0
  else decide (dev.cfg.usrMtuMru + hdrSz < skb.length)

def writeBlock (dev : Dev) (driver : Driver) (skb : Skb) : Written × Dev :=
  if badLength dev skb then (⟨-efbig, some .txDataTooLong, skb, []⟩, addStats dev txErrors)
  else
    let sent := wpTdmapiTx dev driver (gained dev skb)
    if sent.1.err = 0 then
      ({ sent.1 with status := some .success },
        addStats sent.2 fun stats => { stats with txPackets := stats.txPackets + 1 })
    else sent

/-- `wp_tdmapi_write_msg` of a device in any mode. -/
def wpTdmapiWrite (dev : Dev) (driver : Driver) (skb : Skb) : Written × Dev :=
  if !dev.init || !dev.used then (⟨-enodev, none, skb, []⟩, dev)
  else if dev.down then (⟨-enodev, some .generalError, skb, []⟩, addStats dev txErrors)
  else if skb.length ≤ hdrSz then
    (⟨-einval, some .bufferTooSmall, skb, []⟩, addStats dev txErrors)
  else if dev.blockMode then writeBlock dev driver skb
  else
    let sent := writeChan dev skb
    (⟨sent.1.err, sent.1.status, skb, if sent.1.err = 0 then [.queueSkb] else []⟩, sent.2)

/-- The frames that are the driver's. -/
def TxEffect.accepted : TxEffect → Option (List Octet)
  | .write _ frame answer => if answer.accepts then some frame else none
  | _ => none

/-- All the frames of the payload are the driver's and the skb is freed once, or none is and the
caller has its skb; a frame that is the driver's is not freed. -/
def AllOrNothing (dev : Dev) (skb : Skb) (sent : Written) : Prop :=
  let data := payload (gained dev skb)
  (if sent.err = 0 then
    sent.effects.filterMap TxEffect.accepted =
        (List.range dev.bufferMultiplier).map (frameOf data (data.length / dev.bufferMultiplier)) ∧
      sent.effects.count .freeSkb = 1
  else
    sent.effects.filterMap TxEffect.accepted = [] ∧ sent.effects.count .freeSkb = 0 ∧
      sent.skb = skb) ∧
    ∀ i frame answer, TxEffect.write i frame answer ∈ sent.effects → answer.accepts = true →
      TxEffect.freeFrame i ∉ sent.effects

/-- The write gets to the driver. -/
def Reaches (dev : Dev) (skb : Skb) : Prop :=
  dev.init = true ∧ dev.used = true ∧ dev.down = false ∧ hdrSz < skb.length ∧ badLength dev skb = false

/-- Every frame finds memory and is taken by a driver whose queue is not full then. -/
def TakesAll (driver : Driver) (multiplier : Nat) : Prop :=
  driver.hdlcTx = false ∧ driver.writeHdlcCheck.getD 0 = 0 ∧
    ∃ answers, driver.writeHdlcFrame = some answers ∧
      ∀ i < multiplier, driver.alloc i = true ∧ answers i = .taken

/-- The write ends before a frame is the driver's. -/
def TakesNone (driver : Driver) : Prop :=
  driver.hdlcTx = true ∨ driver.writeHdlcCheck.getD 0 ≠ 0 ∨ driver.alloc 0 = false ∨
    driver.writeHdlcFrame = none ∨
      ∃ answers, driver.writeHdlcFrame = some answers ∧ (answers 0).accepts = false

section Frames

variable {driver : Driver} {answers : Nat → Answer} {data : List Octet} {len : Nat}

theorem refused_code (err : Nat) : (Answer.refused err).code ≠ 0 := Int.negSucc_ne_zero err

/-- The frame `i` is written and the loop goes on. -/
def TakesFrame (driver : Driver) (i : Nat) : Prop :=
  driver.alloc i = true ∧ ∃ answers, driver.writeHdlcFrame = some answers ∧ answers i = .taken

/-- What the loop does with a frame that ends it. -/
inductive Ends (driver : Driver) (data : List Octet) (len i : Nat) : Int → List TxEffect → Prop
  | noMemory : driver.alloc i = false → Ends driver data len i (-enomem) []
  | noDriver : driver.writeHdlcFrame = none → Ends driver data len i (-einval) [.freeFrame i]
  | full {answers : Nat → Answer} : driver.alloc i = true → driver.writeHdlcFrame = some answers →
      answers i = .takenFull →
      Ends driver data len i 1 [.write i (frameOf data len i) .takenFull, .freeFrame i]
  | refused {answers : Nat → Answer} {err : Nat} : driver.writeHdlcFrame = some answers →
      answers i = .refused err →
      Ends driver data len i (Int.negSucc err)
        [.write i (frameOf data len i) (.refused err), .freeFrame i]

/-- The frames from `first` on, so many of them, are written. -/
def written (data : List Octet) (len first count : Nat) : List TxEffect :=
  (List.range' first count).map fun i => .write i (frameOf data len i) .taken

theorem written_succ (data : List Octet) (len first count : Nat) :
    written data len first (count + 1) =
      .write first (frameOf data len first) .taken :: written data len (first + 1) count := rfl

/-- The loop writes all its frames, or the first ones until it ends with the next. -/
inductive Loops (driver : Driver) (data : List Octet) (len first todo : Nat) (tx : Tx) : Prop
  | all : (∀ k < todo, TakesFrame driver (first + k)) → tx.err = 0 →
      tx.effects = written data len first todo → Loops driver data len first todo tx
  | ends {count : Nat} {effects : List TxEffect} : count < todo →
      (∀ k < count, TakesFrame driver (first + k)) →
      Ends driver data len (first + count) tx.err effects →
      tx.effects = written data len first count ++ effects → Loops driver data len first todo tx

theorem takesFrame_cons {first count : Nat} (head : TakesFrame driver first)
    (tail : ∀ k < count, TakesFrame driver (first + 1 + k)) :
    ∀ k < count + 1, TakesFrame driver (first + k) := by
  intro k bound
  cases k with
  | zero => exact head
  | succ k =>
      have next := tail k (Nat.lt_of_succ_lt_succ bound)
      rwa [Nat.add_assoc, Nat.add_comm 1 k] at next

/-- A frame that is taken comes in front of what the rest of the loop does. -/
theorem Loops.cons {first todo : Nat} {tx : Tx} (head : TakesFrame driver first)
    (loops : Loops driver data len (first + 1) todo tx) :
    Loops driver data len first (todo + 1)
      ⟨tx.err, .write first (frameOf data len first) .taken :: tx.effects⟩ := by
  cases loops with
  | all tail err effects =>
      exact .all (takesFrame_cons head tail) err
        (congrArg _ effects)
  | ends bound tail ends effects =>
      refine .ends (Nat.succ_lt_succ bound) (takesFrame_cons head tail) ?_ (congrArg _ effects)
      rwa [Nat.add_assoc, Nat.add_comm 1] at ends

theorem writeFrames_loops (driver : Driver) (data : List Octet) (len todo first : Nat)
    (err : Int) (started : todo = 0 → err = 0) :
    Loops driver data len first todo (writeFrames driver data len todo first err) := by
  induction todo generalizing first err with
  | zero =>
      exact .all (fun k bound => absurd bound (Nat.not_lt_zero k)) (started rfl) rfl
  | succ todo ih =>
      rw [writeFrames]
      by_cases memory : driver.alloc first = true
      · rw [if_pos memory]
        cases write : driver.writeHdlcFrame with
        | none =>
            exact .ends (Nat.succ_pos todo) (fun k bound => absurd bound (Nat.not_lt_zero k))
              (.noDriver write) rfl
        | some answers =>
            simp only
            cases answer : answers first with
            | taken =>
                rw [if_pos (show Answer.taken.code = 0 from rfl)]
                exact Loops.cons ⟨memory, answers, write, answer⟩
                  (ih (first + 1) 0 fun _ => rfl)
            | takenFull =>
                rw [if_neg (show Answer.takenFull.code ≠ 0 by decide)]
                exact .ends (Nat.succ_pos todo) (fun k bound => absurd bound (Nat.not_lt_zero k))
                  (.full memory write answer) rfl
            | refused err =>
                rw [if_neg (refused_code err)]
                exact .ends (Nat.succ_pos todo) (fun k bound => absurd bound (Nat.not_lt_zero k))
                  (.refused write answer) rfl
      · rw [if_neg memory]
        exact .ends (Nat.succ_pos todo) (fun k bound => absurd bound (Nat.not_lt_zero k))
          (.noMemory (eq_false_of_ne_true memory)) rfl

/-- What becomes of a write whose length the multiplier divides. -/
inductive Multiplied (driver : Driver) (data : List Octet) (len multiplier : Nat) : Tx → Prop
  | unchecked : driver.writeHdlcCheck.getD 0 ≠ 0 →
      Multiplied driver data len multiplier ⟨-einval, []⟩
  | all : driver.writeHdlcCheck.getD 0 = 0 → (∀ i < multiplier, TakesFrame driver i) →
      Multiplied driver data len multiplier ⟨0, written data len 0 multiplier ++ [.freeSkb]⟩
  | ends {count : Nat} {err : Int} {effects : List TxEffect} :
      driver.writeHdlcCheck.getD 0 = 0 → count < multiplier →
      (∀ i < count, TakesFrame driver i) → Ends driver data len count err effects →
      Multiplied driver data len multiplier ⟨err, written data len 0 count ++ effects⟩

theorem Ends.err_ne {i : Nat} {err : Int} {effects : List TxEffect}
    (ends : Ends driver data len i err effects) : err ≠ 0 := by
  cases ends with
  | noMemory memory => decide
  | noDriver write => decide
  | full memory write answer => decide
  | @refused _ err write answer => exact Int.negSucc_ne_zero err

theorem writeMultiplied_cases (driver : Driver) (data : List Octet) {multiplier : Nat}
    (some : 0 < multiplier) (divides : data.length % multiplier = 0) :
    Multiplied driver data (data.length / multiplier) multiplier
      (writeMultiplied driver multiplier data) := by
  rw [writeMultiplied]
  by_cases check : driver.writeHdlcCheck.getD 0 = 0
  · rw [if_neg (not_not_intro check), if_neg (not_not_intro divides)]
    have loops := writeFrames_loops driver data (data.length / multiplier) multiplier 0
      (-einval) fun none => absurd none (Nat.ne_of_gt some)
    simp only
    generalize writeFrames driver data (data.length / multiplier) multiplier 0 (-einval) = tx at *
    cases loops with
    | all taken err effects =>
        rw [if_pos err, effects]
        refine .all check ?_
        intro i bound
        have frame := taken i bound
        rwa [Nat.zero_add] at frame
    | @ends count _ bound taken ends effects =>
        rw [if_neg ends.err_ne]
        rw [Nat.zero_add] at ends
        obtain ⟨err, _⟩ := tx
        subst effects
        refine .ends check bound ?_ ends
        intro i bound
        have frame := taken i bound
        rwa [Nat.zero_add] at frame
  · rw [if_pos check]
    exact .unchecked check

theorem written_accepted (data : List Octet) (len first count : Nat) :
    (written data len first count).filterMap TxEffect.accepted =
      (List.range' first count).map (frameOf data len) := by
  rw [written, List.filterMap_map]
  exact congrFun (List.filterMap_eq_map) _

theorem mem_written {first count : Nat} {effect : TxEffect} :
    effect ∈ written data len first count ↔
      ∃ i < count, .write (first + i) (frameOf data len (first + i)) .taken = effect := by
  simp [written, List.mem_range']

theorem written_freeSkb (data : List Octet) (len first count : Nat) :
    (written data len first count).count .freeSkb = 0 := by
  refine List.count_eq_zero.mpr fun freed => ?_
  obtain ⟨i, -, write⟩ := mem_written.mp freed
  cases write

theorem written_freeFrame (data : List Octet) (len first count i : Nat) :
    TxEffect.freeFrame i ∉ written data len first count := by
  intro freed
  obtain ⟨k, -, write⟩ := mem_written.mp freed
  cases write

end Frames

section Outcomes

variable {dev : Dev} {driver : Driver} {skb rest : Skb} {err : Int} {effects : List TxEffect}

def exitErr (err : Int) : Int := if err = -ebusy then 1 else if err = 1 then 0 else err

/-- What `AllOrNothing` says of effects: starting or stopping the queue is none of its matter. -/
theorem allOrNothing_queue {status : Option SangStatus} {queue : TxEffect}
    (only : queue = .start ∨ queue = .stop) :
    AllOrNothing dev skb ⟨err, status, rest, effects ++ [queue]⟩ ↔
      AllOrNothing dev skb ⟨err, none, rest, effects⟩ := by
  have accepted : (effects ++ [queue]).filterMap TxEffect.accepted =
      effects.filterMap TxEffect.accepted := by
    rw [List.filterMap_append]
    rcases only with rfl | rfl <;> exact List.append_nil _
  have freed : (effects ++ [queue]).count .freeSkb = effects.count .freeSkb := by
    rcases only with rfl | rfl <;> exact List.count_append
  have mem (effect : TxEffect) (other : effect ≠ .start ∧ effect ≠ .stop) :
      effect ∈ effects ++ [queue] ↔ effect ∈ effects := by
    rw [List.mem_append, List.mem_singleton, or_iff_left]
    rcases only with rfl | rfl
    · exact other.1
    · exact other.2
  have write (i : Nat) (frame : List Octet) (answer : Answer) :=
    mem (.write i frame answer) ⟨nofun, nofun⟩
  have free (i : Nat) := mem (.freeFrame i) ⟨nofun, nofun⟩
  simp only [AllOrNothing, accepted, freed, write, free]

theorem allOrNothing_exit (dev next : Dev) (skb rest : Skb) (sent : Tx) :
    AllOrNothing dev skb (txExit next rest sent).1 ↔
      AllOrNothing dev skb ⟨exitErr sent.err, none, rest, sent.effects⟩ := by
  rw [txExit, exitErr]
  split
  · exact allOrNothing_queue (.inr rfl)
  · split
    · exact allOrNothing_queue (.inr rfl)
    · split
      · next zero =>
          rw [zero]
          exact allOrNothing_queue (.inl rfl)
      · exact allOrNothing_queue (.inl rfl)

theorem allOrNothing_nothing {status : Option SangStatus} (failed : err ≠ 0) :
    AllOrNothing dev skb ⟨err, status, rest, []⟩ ↔ rest = skb := by
  simp [AllOrNothing, failed]

theorem allOrNothing_all (dev : Dev) (skb rest : Skb) :
    AllOrNothing dev skb
      ⟨exitErr 0, none, rest,
        written (payload (gained dev skb)) ((payload (gained dev skb)).length / dev.bufferMultiplier)
          0 dev.bufferMultiplier ++ [.freeSkb]⟩ := by
  constructor
  · rw [if_pos (show exitErr 0 = 0 from rfl)]
    constructor
    · rw [List.filterMap_append, written_accepted, List.range_eq_range']
      exact List.append_nil _
    · rw [List.count_append, written_freeSkb]
      rfl
  · intro i frame answer _ _ freed
    rcases List.mem_append.mp freed with freed | freed
    · exact written_freeFrame _ _ _ _ i freed
    · cases List.mem_singleton.mp freed

/-- A loop that ends early is as if it had done nothing only when it ends at once. -/
theorem allOrNothing_early (data : List Octet) (len count : Nat) (failed : err ≠ 0)
    (none : effects.filterMap TxEffect.accepted = []) (held : effects.count .freeSkb = 0)
    (own : ∀ i, TxEffect.freeFrame i ∈ effects → i = count) :
    AllOrNothing dev skb ⟨err, .none, rest, written data len 0 count ++ effects⟩ ↔
      count = 0 ∧ rest = skb := by
  have accepted : (written data len 0 count ++ effects).filterMap TxEffect.accepted =
      (List.range' 0 count).map (frameOf data len) := by
    rw [List.filterMap_append, written_accepted, none, List.append_nil]
  have empty : (List.range' 0 count).map (frameOf data len) = [] ↔ count = 0 := by
    rw [List.map_eq_nil_iff, List.range'_eq_nil_iff]
  have kept : (written data len 0 count ++ effects).count .freeSkb = 0 := by
    rw [List.count_append, written_freeSkb, held]
  rw [AllOrNothing]
  simp only [if_neg failed, accepted, empty, kept, true_and]
  refine and_iff_left ?_
  intro i frame answer wrote accepts freed
  have last : i = count := by
    rcases List.mem_append.mp freed with freed | freed
    · exact absurd freed (written_freeFrame _ _ _ _ i)
    · exact own i freed
  rcases List.mem_append.mp wrote with wrote | wrote
  · obtain ⟨k, bound, same⟩ := mem_written.mp wrote
    cases same
    omega
  · have own : TxEffect.accepted (.write i frame answer) = some frame := if_pos accepts
    have some := List.mem_filterMap.mpr ⟨_, wrote, own⟩
    rw [none] at some
    cases some

/-- The driver took a frame and reports its queue full: the skb is not freed. -/
theorem allOrNothing_full (data : List Octet) (len count : Nat) :
    ¬ AllOrNothing dev skb
      ⟨exitErr 1, .none, rest, written data len 0 count ++
        [.write count (frameOf data len count) .takenFull, .freeFrame count]⟩ := by
  rintro ⟨whole, -⟩
  rw [if_pos (show exitErr 1 = 0 from rfl)] at whole
  have freed := whole.2
  rw [List.count_append, written_freeSkb] at freed
  cases freed

theorem TakesFrame.takesAll {multiplier : Nat} (idle : driver.hdlcTx = false)
    (check : driver.writeHdlcCheck.getD 0 = 0) (some : 0 < multiplier)
    (taken : ∀ i < multiplier, TakesFrame driver i) : TakesAll driver multiplier := by
  obtain ⟨-, answers, write, -⟩ := taken 0 some
  refine ⟨idle, check, answers, write, ?_⟩
  intro i bound
  obtain ⟨memory, others, same, answer⟩ := taken i bound
  cases write.symm.trans same
  exact ⟨memory, answer⟩

theorem TakesAll.takesFrame {multiplier i : Nat} (all : TakesAll driver multiplier)
    (bound : i < multiplier) : TakesFrame driver i := by
  obtain ⟨-, -, answers, write, taken⟩ := all
  exact ⟨(taken i bound).1, answers, write, (taken i bound).2⟩

theorem TakesFrame.not_takesNone (idle : driver.hdlcTx = false)
    (check : driver.writeHdlcCheck.getD 0 = 0) (taken : TakesFrame driver 0) :
    ¬ TakesNone driver := by
  obtain ⟨memory, answers, write, answer⟩ := taken
  rintro (busy | refused | none | noDriver | ⟨others, same, refuses⟩)
  · cases idle.symm.trans busy
  · exact refused check
  · cases memory.symm.trans none
  · cases write.symm.trans noDriver
  · cases write.symm.trans same
    rw [answer] at refuses
    cases refuses

theorem Ends.not_takesFrame {data : List Octet} {len i : Nat}
    (ends : Ends driver data len i err effects) : ¬ TakesFrame driver i := by
  rintro ⟨memory, answers, write, answer⟩
  cases ends with
  | noMemory none => cases memory.symm.trans none
  | noDriver none => cases write.symm.trans none
  | full _ same full =>
      cases write.symm.trans same
      cases answer.symm.trans full
  | refused same refused =>
      cases write.symm.trans same
      cases answer.symm.trans refused

/-- Where the loop ends with a frame, the promise holds exactly when that is the first and was not
taken. -/
theorem allOrNothing_ends {data : List Octet} {len count : Nat}
    (idle : driver.hdlcTx = false) (check : driver.writeHdlcCheck.getD 0 = 0)
    (taken : ∀ i < count, TakesFrame driver i) (ends : Ends driver data len count err effects) :
    AllOrNothing dev skb ⟨exitErr err, none, rest, written data len 0 count ++ effects⟩ ↔
      TakesNone driver ∧ rest = skb := by
  have early (none : TakesNone driver) : count = 0 := by
    cases count with
    | zero => rfl
    | succ count => exact absurd none ((taken 0 (Nat.succ_pos count)).not_takesNone idle check)
  have same (none : count = 0 → TakesNone driver) :
      (count = 0 ∧ rest = skb) ↔ TakesNone driver ∧ rest = skb :=
    and_congr_left' ⟨none, early⟩
  cases ends with
  | noMemory memory =>
      rw [allOrNothing_early data len count (by decide) rfl rfl
        fun i freed => absurd freed List.not_mem_nil]
      refine same fun first => ?_
      cases first
      exact .inr (.inr (.inl memory))
  | noDriver write =>
      rw [allOrNothing_early data len count (by decide) rfl rfl]
      · refine same fun first => ?_
        exact .inr (.inr (.inr (.inl write)))
      · intro i freed
        cases List.mem_singleton.mp freed
        rfl
  | full memory write answer =>
      refine iff_of_false (allOrNothing_full data len count) ?_
      rintro ⟨none, -⟩
      cases early none
      rcases none with busy | refused | none | noDriver | ⟨others, same, refuses⟩
      · cases idle.symm.trans busy
      · exact refused check
      · cases memory.symm.trans none
      · cases write.symm.trans noDriver
      · cases write.symm.trans same
        rw [answer] at refuses
        cases refuses
  | @refused answers err write answer =>
      have failed : exitErr (Int.negSucc err) ≠ 0 := by
        rw [exitErr]
        split
        · decide
        · rw [if_neg (by omega)]
          exact Int.negSucc_ne_zero err
      rw [allOrNothing_early data len count failed rfl rfl]
      · refine same fun first => ?_
        cases first
        exact .inr (.inr (.inr (.inr ⟨answers, write, by rw [answer]; rfl⟩)))
      · intro i freed
        simpa using freed

theorem payload_gained (dev : Dev) (skb : Skb) :
    (payload (gained dev skb)).length = skb.length - hdrSz := by
  rw [payload, List.length_drop, gained]
  split
  · rfl
  · rw [wpTdmapiSetGain_length]

/-- The driver's part of a write, with the skb behind the gain. -/
theorem tx_allOrNothing (driver : Driver) (multiplied : 1 < dev.bufferMultiplier)
    (divides : (skb.length - hdrSz) % dev.bufferMultiplier = 0) :
    AllOrNothing dev skb (wpTdmapiTx dev driver (gained dev skb)).1 ↔
      TakesAll driver dev.bufferMultiplier ∨ (TakesNone driver ∧ gained dev skb = skb) := by
  have some : 0 < dev.bufferMultiplier := Nat.zero_lt_of_lt multiplied
  rw [wpTdmapiTx]
  by_cases busy : driver.hdlcTx = true
  · rw [if_pos busy, allOrNothing_nothing (by decide)]
    have none : TakesNone driver := .inl busy
    have notAll : ¬ TakesAll driver dev.bufferMultiplier := by
      intro all
      cases all.1.symm.trans busy
    rw [or_iff_right notAll, and_iff_right none]
  · have idle := eq_false_of_ne_true busy
    rw [if_neg busy, if_pos multiplied, allOrNothing_exit]
    have outcome := writeMultiplied_cases driver (payload (gained dev skb)) some
      (by rw [payload_gained]; exact divides)
    generalize writeMultiplied driver dev.bufferMultiplier (payload (gained dev skb)) = tx at *
    cases outcome with
    | unchecked check =>
        rw [allOrNothing_nothing (by decide)]
        have none : TakesNone driver := .inr (.inl check)
        have notAll : ¬ TakesAll driver dev.bufferMultiplier := fun all => check all.2.1
        rw [or_iff_right notAll, and_iff_right none]
    | all check taken =>
        exact iff_of_true (allOrNothing_all dev skb (gained dev skb))
          (.inl (TakesFrame.takesAll idle check some taken))
    | ends check bound taken ends =>
        rw [allOrNothing_ends idle check taken ends]
        have notAll : ¬ TakesAll driver dev.bufferMultiplier := fun all =>
          ends.not_takesFrame (all.takesFrame bound)
        exact (or_iff_right notAll).symm

end Outcomes

/-- A write is all or nothing exactly when, having got to the driver, all its frames are taken
without filling the queue, or none is and there was no gain to change the skb. -/
theorem tdm_api_multiplied_write (dev : Dev) (driver : Driver) (skb : Skb)
    (mode : dev.operationMode = .span) (multiplied : 1 < dev.bufferMultiplier) :
    AllOrNothing dev skb (wpTdmapiWrite dev driver skb).1 ↔
      (Reaches dev skb →
        TakesAll driver dev.bufferMultiplier ∨ (TakesNone driver ∧ gained dev skb = skb)) := by
  have block : dev.blockMode = true := by rw [Dev.blockMode, mode]; rfl
  have stopped {err : Int} {status : Option SangStatus} (failed : err ≠ 0)
      (short : ¬ Reaches dev skb) :
      AllOrNothing dev skb ⟨err, status, skb, []⟩ ↔
        (Reaches dev skb →
          TakesAll driver dev.bufferMultiplier ∨ (TakesNone driver ∧ gained dev skb = skb)) :=
    iff_of_true ((allOrNothing_nothing failed).mpr rfl) fun reaches => absurd reaches short
  rw [wpTdmapiWrite]
  by_cases unused : (!dev.init || !dev.used) = true
  · rw [if_pos unused]
    refine stopped (by decide) fun reaches => ?_
    simp [reaches.1, reaches.2.1] at unused
  rw [if_neg unused]
  by_cases down : dev.down = true
  · rw [if_pos down]
    refine stopped (by decide) fun reaches => ?_
    cases reaches.2.2.1.symm.trans down
  rw [if_neg down]
  by_cases short : skb.length ≤ hdrSz
  · rw [if_pos short]
    refine stopped (by decide) fun reaches => ?_
    exact Nat.not_le_of_lt reaches.2.2.2.1 short
  rw [if_neg short, if_pos block, writeBlock]
  by_cases bad : badLength dev skb = true
  · rw [if_pos bad]
    refine stopped (by decide) fun reaches => ?_
    cases reaches.2.2.2.2.symm.trans bad
  rw [if_neg bad]
  have divides : (skb.length - hdrSz) % dev.bufferMultiplier = 0 := by
    rw [badLength, if_pos multiplied] at bad
    simpa using bad
  have inUse : dev.init = true ∧ dev.used = true := by
    simpa using unused
  have reaches : Reaches dev skb :=
    ⟨inUse.1, inUse.2, eq_false_of_ne_true down, Nat.lt_of_not_le short, eq_false_of_ne_true bad⟩
  rw [forall_prop_of_true reaches, ← tx_allOrNothing driver multiplied divides]
  -- the status and the counter of the packets are none of the promise
  simp only
  split
  · exact Iff.rfl
  · exact Iff.rfl

/-- A span device with a multiplier of two. -/
def spanDev : Dev :=
  { Dev.zero with
    init := true, used := true, operationMode := .span, bufferMultiplier := 2 }

/-- A driver whose queue is full after its second frame. -/
def fullDriver : Driver :=
  { hdlcTx := false
    writeHdlcCheck := none
    writeHdlcFrame := some fun i => if i = 0 then .taken else .takenFull
    alloc := fun _ => true }

def willing : Driver := { fullDriver with writeHdlcFrame := some fun _ => .taken }

theorem tdm_api_multiplied_write_taken :
    (spanDev.operationMode = .span ∧ 1 < spanDev.bufferMultiplier ∧
      TakesAll willing spanDev.bufferMultiplier) ∧
    AllOrNothing spanDev (List.replicate 66 0x55#8)
      (wpTdmapiWrite spanDev willing (List.replicate 66 0x55#8)).1 := by
  have all : TakesAll willing spanDev.bufferMultiplier :=
    ⟨rfl, rfl, fun _ => .taken, rfl, fun _ _ => ⟨rfl, rfl⟩⟩
  exact ⟨⟨rfl, by decide, all⟩,
    (tdm_api_multiplied_write spanDev willing (List.replicate 66 0x55#8) rfl (by decide)).mpr
      fun _ => .inl all⟩

/-- The driver takes both frames, the second of which is freed, and the write succeeds without
freeing the skb. -/
theorem tdm_api_multiplied_write_full :
    (wpTdmapiWrite spanDev fullDriver (List.replicate 66 0x55#8)).1.err = 0 ∧
    (wpTdmapiWrite spanDev fullDriver (List.replicate 66 0x55#8)).1.effects =
      [.write 0 [0x55#8] .taken, .write 1 [0x55#8] .takenFull, .freeFrame 1, .stop] ∧
    ¬ AllOrNothing spanDev (List.replicate 66 0x55#8)
      (wpTdmapiWrite spanDev fullDriver (List.replicate 66 0x55#8)).1 := by
  have effects : (wpTdmapiWrite spanDev fullDriver (List.replicate 66 0x55#8)).1.effects =
      [.write 0 [0x55#8] .taken, .write 1 [0x55#8] .takenFull, .freeFrame 1, .stop] := rfl
  refine ⟨rfl, effects, fun promise => ?_⟩
  rw [AllOrNothing, effects] at promise
  exact promise.2 1 [0x55#8] .takenFull (by decide) rfl (by decide)

end Wanpipe.TdmApi
