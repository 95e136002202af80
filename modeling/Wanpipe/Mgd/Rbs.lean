import Wanpipe.Circle
import Wanpipe.Line.Octets
import Wanpipe.Runs

/-! The relay of RBS bits in `sangoma_mgd`: the values that the driver reports wait in a ring of their
circuit until it is time to send them to the client. -/

namespace Wanpipe.Mgd.Rbs

open Line Wanpipe.Circle

/-- `WOOMERA_MAX_RBS_BITS`. -/
def woomeraMaxRbsBits : Nat := 4

theorem woomeraMaxRbsBits_pos : 0 < woomeraMaxRbsBits := by decide

def sangomaUsrPeriod : Nat := 20

/-- The count of dequeue calls for which a value waits. -/
def rbsDelay : Nat := 500 / sangomaUsrPeriod

/-- `woomera_rbs_bits_t`. -/
structure RbsBits where
  init : Nat
  abcd : Octet
  deriving DecidableEq, Repr

/-- `woomera_rbs_relay_t`. -/
structure RbsRelay where
  rbsBits : Nat → RbsBits
  rxIdx : Nat
  txIdx : Nat

/-- A call: its span and channel are valid, RBS is relayed on its span, and it is answered. -/
structure Call where
  valid : Bool
  relay : Bool
  answer : Bool
  deriving DecidableEq, Repr

/-- A relay with one more value. -/
def put (rbs : RbsRelay) (digit : Octet) : RbsRelay :=
  { rbs with
    rbsBits := Function.update rbs.rbsBits rbs.rxIdx ⟨rbsDelay, digit⟩
    rxIdx := (rbs.rxIdx + 1) % woomeraMaxRbsBits }

/-- The value to be sent next waits for one call less. -/
def countDown (rbs : RbsRelay) : RbsRelay :=
  let head := rbs.rbsBits rbs.txIdx
  { rbs with rbsBits := Function.update rbs.rbsBits rbs.txIdx { head with init := head.init - 1 } }

/-- A relay without the value that is sent. -/
def take (rbs : RbsRelay) : RbsRelay :=
  let head := rbs.rbsBits rbs.txIdx
  { rbs with
    rbsBits := Function.update rbs.rbsBits rbs.txIdx { head with init := 0 }
    txIdx := (rbs.txIdx + 1) % woomeraMaxRbsBits }

/-- `handle_event_rbs`. -/
def handleEventRbs (call : Call) (rbs : RbsRelay) (digit : Octet) : Int × RbsRelay :=
  if ¬ call.valid then (-1, rbs)
  else if ¬ call.relay then (-1, rbs)
  else if (rbs.rbsBits rbs.rxIdx).init ≠ 0 then (-1, rbs)
  else (0, put rbs digit)

/-- `handle_dequeue_and_woomera_tx_event_rbs`, with the value of the RBS event that it enqueues. -/
def handleDequeue (call : Call) (rbs : RbsRelay) : Int × Option Octet × RbsRelay :=
  let head := rbs.rbsBits rbs.txIdx
  if ¬ call.valid then (-1, none, rbs)
  else if ¬ call.relay then (-1, none, rbs)
  else if ¬ call.answer then (0, none, rbs)
  else if head.init = 0 then (-1, none, rbs)
  else if 1 < head.init then (-1, none, countDown rbs)
  else (0, some head.abcd, take rbs)

inductive Op
  | rbs (digit : Octet)
  | dequeue
  | answered
  deriving DecidableEq, Repr

/-- A call and its relay. `calls` counts the dequeue calls since it was answered, `accepted` has the
values that were taken and `sent` those of the events, each with the count at the time. -/
structure State where
  call : Call
  rbs : RbsRelay
  calls : Nat
  accepted : List (Octet × Nat)
  sent : List (Octet × Nat)

def step (state : State) : Op → State
  | .rbs digit =>
      let out := handleEventRbs state.call state.rbs digit
      { state with
        rbs := out.2
        accepted := if out.1 = 0 then state.accepted ++ [(digit, state.calls)] else state.accepted }
  | .dequeue =>
      let out := handleDequeue state.call state.rbs
      let calls := if state.call.answer then state.calls + 1 else state.calls
      { state with
        rbs := out.2.2, calls := calls
        sent := state.sent ++ (out.2.1.map fun abcd => (abcd, calls)).toList }
  | .answered => { state with call := { state.call with answer := true } }

/-- The relay of a circuit is cleared for a new call. -/
def cleared : RbsRelay := ⟨fun _ => ⟨0, 0⟩, 0, 0⟩

def start (call : Call) : State := ⟨call, cleared, 0, [], []⟩

def final (call : Call) (ops : List Op) : State := ops.foldl step (start call)

/-- When the last of some values is due. -/
def lastDue (dues : List (Octet × Nat)) : Nat := (dues.getLast?.map Prod.snd).getD 0

/-- A value waits from when it comes, or from when the one before it is sent. -/
def wait (dues : List (Octet × Nat)) (value : Octet × Nat) : List (Octet × Nat) :=
  dues ++ [(value.1, max (lastDue dues) value.2 + rbsDelay)]

/-- When each of the accepted values is due. -/
def schedule (accepted : List (Octet × Nat)) : List (Octet × Nat) := accepted.foldl wait []

/-- The values that have not been sent. -/
def State.unsent (state : State) : Nat := state.accepted.length - state.sent.length

/-- The value is taken. -/
def Accepts (state : State) (digit : Octet) : Prop :=
  (handleEventRbs state.call state.rbs digit).1 = 0

/-- What the relay is for. -/
structure Relayed (state : State) : Prop where
  order : state.sent.map Prod.fst <+: state.accepted.map Prod.fst
  sent : state.sent = (schedule state.accepted).filter fun value => value.2 ≤ state.calls
  accepts : ∀ digit, Accepts state digit ↔
    state.call.valid = true ∧ state.call.relay = true ∧ state.unsent < woomeraMaxRbsBits

/-- A value in its slot, as long as the slot is in use. -/
def slot (rbs : RbsRelay) (i : Nat) : Option Octet :=
  if (rbs.rbsBits i).init = 0 then none else some (rbs.rbsBits i).abcd

theorem slot_update_ne {bits : Nat → RbsBits} {rx tx rx' tx' i j : Nat} {value : RbsBits}
    (other : j ≠ i) :
    slot ⟨Function.update bits i value, rx, tx⟩ j = slot ⟨bits, rx', tx'⟩ j := by
  simp only [slot, Function.update_of_ne other]

theorem slot_update_self {bits : Nat → RbsBits} {rx tx i : Nat} {value : RbsBits} :
    slot ⟨Function.update bits i value, rx, tx⟩ i =
      if value.init = 0 then none else some value.abcd := by
  simp only [slot, Function.update_self]

/-- A value is put into a slot. -/
theorem slot_put (bits : Nat → RbsBits) (rx tx rx' tx' i : Nat) (digit : Octet) :
    slot ⟨Function.update bits i ⟨rbsDelay, digit⟩, rx, tx⟩ =
      Function.update (slot ⟨bits, rx', tx'⟩) i (some digit) := by
  funext j
  by_cases here : j = i
  · rw [here, slot_update_self, Function.update_self]
    rfl
  · rw [slot_update_ne here, Function.update_of_ne here]

/-- A slot is emptied. -/
theorem slot_take (bits : Nat → RbsBits) (rx tx rx' tx' i : Nat) (digit : Octet) :
    slot ⟨Function.update bits i ⟨0, digit⟩, rx, tx⟩ =
      Function.update (slot ⟨bits, rx', tx'⟩) i none := by
  funext j
  by_cases here : j = i
  · rw [here, slot_update_self, Function.update_self]
    rfl
  · rw [slot_update_ne here, Function.update_of_ne here]

/-- A slot counts down and stays in use. -/
theorem slot_count (bits : Nat → RbsBits) (rx tx i : Nat) (more : 1 < (bits i).init) :
    slot ⟨Function.update bits i { bits i with init := (bits i).init - 1 }, rx, tx⟩ =
      slot ⟨bits, rx, tx⟩ := by
  funext j
  by_cases here : j = i
  · rw [here, slot_update_self, slot, if_neg (by dsimp only; omega), if_neg (by dsimp only; omega)]
  · rw [slot_update_ne here]

theorem slot_none {rbs : RbsRelay} {i : Nat} : slot rbs i = none ↔ (rbs.rbsBits i).init = 0 := by
  rw [slot]
  split
  next unused => simp [unused]
  next used => simp [used]

theorem advance_mod {i : Nat} (inside : i < woomeraMaxRbsBits) :
    (i + 1) % woomeraMaxRbsBits = advance woomeraMaxRbsBits i := by
  rw [advance]
  split
  next room => exact Nat.mod_eq_of_lt room
  next last =>
    rw [show i + 1 = woomeraMaxRbsBits by omega, Nat.mod_self]

/-- The values that wait, and how long the first one still waits. -/
structure Waiting (state : State) (rest : List (Octet × Nat)) : Prop where
  schedule : schedule state.accepted = state.sent ++ rest
  holds : Holds woomeraMaxRbsBits (slot state.rbs) state.rbs.txIdx (rest.map Prod.fst)
  inside : state.rbs.txIdx < woomeraMaxRbsBits
  few : rest.length ≤ woomeraMaxRbsBits
  tail : state.rbs.rxIdx = place woomeraMaxRbsBits state.rbs.txIdx rest.length
  past : ∀ value ∈ state.sent, value.2 ≤ state.calls
  head : ∀ value ∈ rest.head?, state.calls < value.2 ∧
    (state.rbs.rbsBits state.rbs.txIdx).init + state.calls = value.2
  chain : rest.IsChain fun before after => after.2 = before.2 + rbsDelay
  whole : ∀ i < woomeraMaxRbsBits, i ≠ state.rbs.txIdx → (state.rbs.rbsBits i).init ≠ 0 →
    (state.rbs.rbsBits i).init = rbsDelay
  idle : ¬(state.call.valid = true ∧ state.call.relay = true) → rest = []

theorem schedule_push (accepted : List (Octet × Nat)) (value : Octet × Nat) :
    schedule (accepted ++ [value]) = wait (schedule accepted) value := by
  rw [schedule, List.foldl_append]
  rfl

theorem schedule_length (accepted : List (Octet × Nat)) :
    (schedule accepted).length = accepted.length := by
  induction accepted using List.reverseRecOn with
  | nil => rfl
  | append_singleton accepted value ih =>
      rw [schedule_push, wait, List.length_append, List.length_append, ih]
      rfl

theorem schedule_values (accepted : List (Octet × Nat)) :
    (schedule accepted).map Prod.fst = accepted.map Prod.fst := by
  induction accepted using List.reverseRecOn with
  | nil => rfl
  | append_singleton accepted value ih =>
      rw [schedule_push, wait, List.map_append, List.map_append, ih]
      rfl

theorem chain_later {first : Octet × Nat} {rest : List (Octet × Nat)}
    (chain : (first :: rest).IsChain fun before after => after.2 = before.2 + rbsDelay) :
    ∀ value ∈ first :: rest, first.2 ≤ value.2 := by
  induction rest generalizing first with
  | nil =>
      intro value member
      rw [List.mem_singleton.mp member]
  | cons second rest ih =>
      rw [List.isChain_cons_cons] at chain
      intro value member
      rcases List.mem_cons.mp member with same | member
      · rw [same]
      · have later := ih chain.2 value member
        omega

theorem Waiting.future {state : State} {rest : List (Octet × Nat)} (waiting : Waiting state rest) :
    ∀ value ∈ rest, state.calls < value.2 := by
  cases rest with
  | nil => exact fun value member => absurd member List.not_mem_nil
  | cons first rest =>
      intro value member
      have start := (waiting.head first rfl).1
      have later := chain_later waiting.chain value member
      omega

theorem Waiting.unsent {state : State} {rest : List (Octet × Nat)}
    (waiting : Waiting state rest) : state.unsent = rest.length := by
  rw [State.unsent, ← schedule_length, waiting.schedule, List.length_append]
  omega

/-- The slot for the next value is in use when the ring is full. -/
theorem Waiting.full {state : State} {rest : List (Octet × Nat)} (waiting : Waiting state rest) :
    (state.rbs.rbsBits state.rbs.rxIdx).init ≠ 0 ↔ rest.length = woomeraMaxRbsBits := by
  have few : (rest.map Prod.fst).length ≤ woomeraMaxRbsBits := by
    rw [List.length_map]
    exact waiting.few
  have tail := waiting.holds.at_tail waiting.inside few
  rw [List.length_map, ← waiting.tail, Option.isSome_iff_ne_none, ne_eq, slot_none] at tail
  exact tail

theorem Waiting.accepts {state : State} {rest : List (Octet × Nat)} (waiting : Waiting state rest)
    (digit : Octet) :
    Accepts state digit ↔
      state.call.valid = true ∧ state.call.relay = true ∧ state.unsent < woomeraMaxRbsBits := by
  have few := waiting.few
  rw [Accepts, handleEventRbs, waiting.unsent]
  by_cases valid : state.call.valid = true
  · rw [if_neg (not_not.mpr valid)]
    by_cases relay : state.call.relay = true
    · rw [if_neg (not_not.mpr relay)]
      by_cases full : (state.rbs.rbsBits state.rbs.rxIdx).init ≠ 0
      · rw [if_pos full]
        have all := waiting.full.mp full
        simp [all]
      · rw [if_neg full]
        have room : rest.length ≠ woomeraMaxRbsBits := fun all => full (waiting.full.mpr all)
        exact iff_of_true rfl ⟨valid, relay, Nat.lt_of_le_of_ne few room⟩
    · rw [if_pos relay]
      simp [relay]
  · rw [if_pos valid]
    simp [valid]

theorem lastDue_concat (dues : List (Octet × Nat)) (value : Octet × Nat) :
    lastDue (dues ++ [value]) = value.2 := by
  rw [lastDue, List.getLast?_concat]
  rfl

/-- A value that comes now and has none before it is due after the delay. -/
theorem Waiting.due_first {state : State} (waiting : Waiting state []) :
    max (lastDue (state.sent ++ [])) state.calls = state.calls := by
  rw [List.append_nil]
  apply Nat.max_eq_right
  rcases List.eq_nil_or_concat' state.sent with none | ⟨front, last, some⟩
  · rw [none]
    exact Nat.zero_le _
  · rw [some, lastDue_concat]
    exact waiting.past last (by simp [some])

/-- One that has others before it waits for the last of them. -/
theorem Waiting.due_next {state : State} {front : List (Octet × Nat)} {last : Octet × Nat}
    (waiting : Waiting state (front ++ [last])) :
    max (lastDue (state.sent ++ (front ++ [last]))) state.calls = last.2 := by
  have future := waiting.future last (by simp)
  rw [← List.append_assoc, lastDue_concat]
  omega

/-- The slot for the next value is another one than that of the value to be sent next. -/
theorem Waiting.apart {state : State} {first : Octet × Nat} {rest : List (Octet × Nat)}
    (waiting : Waiting state (first :: rest)) (room : (first :: rest).length < woomeraMaxRbsBits) :
    state.rbs.txIdx ≠ state.rbs.rxIdx := by
  intro same
  have far := offset_place waiting.inside room
  rw [← waiting.tail, ← same, offset_self] at far
  exact absurd far (by simp)

theorem put_bits_ne {rbs : RbsRelay} {digit : Octet} {i : Nat} (other : i ≠ rbs.rxIdx) :
    (put rbs digit).rbsBits i = rbs.rbsBits i :=
  Function.update_of_ne other _ rbs.rbsBits

theorem put_bits_self {rbs : RbsRelay} {digit : Octet} :
    (put rbs digit).rbsBits rbs.rxIdx = ⟨rbsDelay, digit⟩ :=
  Function.update_self rbs.rxIdx _ rbs.rbsBits

theorem put_slot (rbs : RbsRelay) (digit : Octet) :
    slot (put rbs digit) = Function.update (slot rbs) rbs.rxIdx (some digit) :=
  slot_put rbs.rbsBits _ _ rbs.rxIdx rbs.txIdx rbs.rxIdx digit

theorem Waiting.put {state : State} {rest : List (Octet × Nat)} {digit : Octet}
    (waiting : Waiting state rest) (room : rest.length < woomeraMaxRbsBits)
    (live : state.call.valid = true ∧ state.call.relay = true) :
    Waiting
      { state with
        rbs := put state.rbs digit, accepted := state.accepted ++ [(digit, state.calls)] }
      (rest ++ [(digit, max (lastDue (state.sent ++ rest)) state.calls + rbsDelay)]) := by
  have inside := waiting.inside
  constructor
  · rw [schedule_push, wait, waiting.schedule, List.append_assoc]
  · have holds : Holds woomeraMaxRbsBits (Function.update (slot state.rbs)
        (place woomeraMaxRbsBits state.rbs.txIdx (rest.map Prod.fst).length) (some digit))
        state.rbs.txIdx (rest.map Prod.fst ++ [digit]) :=
      waiting.holds.push inside (by rw [List.length_map]; exact room)
    rw [List.length_map, ← waiting.tail, ← put_slot] at holds
    rw [List.map_append]
    exact holds
  · exact inside
  · rw [List.length_append, List.length_singleton]
    exact room
  · rw [List.length_append, List.length_singleton]
    change (state.rbs.rxIdx + 1) % woomeraMaxRbsBits =
      place woomeraMaxRbsBits state.rbs.txIdx (rest.length + 1)
    rw [waiting.tail, advance_mod (place_lt inside room), advance_place inside room]
  · exact waiting.past
  · intro value member
    cases rest with
    | nil =>
        rw [List.nil_append, List.head?_cons, Option.mem_some_iff] at member
        have here : state.rbs.txIdx = state.rbs.rxIdx := by
          rw [waiting.tail]
          exact (place_zero inside).symm
        have init : ((Rbs.put state.rbs digit).rbsBits state.rbs.txIdx).init = rbsDelay := by
          rw [here, put_bits_self]
        have delay : 0 < rbsDelay := by decide
        rw [← member, waiting.due_first]
        change state.calls < state.calls + rbsDelay ∧
          ((Rbs.put state.rbs digit).rbsBits state.rbs.txIdx).init + state.calls =
            state.calls + rbsDelay
        rw [init]
        omega
    | cons first rest =>
        rw [List.cons_append, List.head?_cons, Option.mem_some_iff] at member
        rw [← member]
        have head := waiting.head first rfl
        have same : (Rbs.put state.rbs digit).rbsBits state.rbs.txIdx =
            state.rbs.rbsBits state.rbs.txIdx := put_bits_ne (waiting.apart room)
        change state.calls < first.2 ∧
          ((Rbs.put state.rbs digit).rbsBits state.rbs.txIdx).init + state.calls = first.2
        rw [same]
        exact head
  · rcases List.eq_nil_or_concat' rest with rfl | ⟨front, last, rfl⟩
    · exact List.isChain_singleton _
    · rw [waiting.due_next, List.isChain_append]
      refine ⟨waiting.chain, List.isChain_singleton _, fun before ends after starts => ?_⟩
      rw [List.getLast?_concat, Option.mem_some_iff] at ends
      rw [List.head?_cons, Option.mem_some_iff] at starts
      rw [← ends, ← starts]
  · intro i bound other used
    change ((Rbs.put state.rbs digit).rbsBits i).init = rbsDelay
    change ((Rbs.put state.rbs digit).rbsBits i).init ≠ 0 at used
    by_cases here : i = state.rbs.rxIdx
    · rw [here, put_bits_self]
    · rw [put_bits_ne here] at used ⊢
      exact waiting.whole i bound other used
  · intro idle
    exact absurd live idle

theorem countDown_slot {rbs : RbsRelay} (more : 1 < (rbs.rbsBits rbs.txIdx).init) :
    slot (countDown rbs) = slot rbs :=
  slot_count rbs.rbsBits rbs.rxIdx rbs.txIdx rbs.txIdx more

theorem take_slot (rbs : RbsRelay) :
    slot (take rbs) = Function.update (slot rbs) rbs.txIdx none :=
  slot_take rbs.rbsBits _ _ rbs.rxIdx rbs.txIdx rbs.txIdx (rbs.rbsBits rbs.txIdx).abcd

/-- A call that does not find the time to send. -/
theorem Waiting.countDown {state : State} {rest : List (Octet × Nat)}
    (waiting : Waiting state rest) (more : 1 < (state.rbs.rbsBits state.rbs.txIdx).init) :
    Waiting { state with rbs := countDown state.rbs, calls := state.calls + 1 } rest := by
  have head : (Rbs.countDown state.rbs).rbsBits state.rbs.txIdx =
      { state.rbs.rbsBits state.rbs.txIdx with
        init := (state.rbs.rbsBits state.rbs.txIdx).init - 1 } :=
    Function.update_self state.rbs.txIdx _ state.rbs.rbsBits
  refine ⟨waiting.schedule, ?_, waiting.inside, waiting.few, waiting.tail, fun value member => ?_,
    fun value member => ?_, waiting.chain, fun i bound other used => ?_, waiting.idle⟩
  · rw [countDown_slot more]
    exact waiting.holds
  · have past := waiting.past value member
    dsimp only
    omega
  · obtain ⟨later, due⟩ := waiting.head value member
    change state.calls + 1 < value.2 ∧
      ((Rbs.countDown state.rbs).rbsBits state.rbs.txIdx).init + (state.calls + 1) = value.2
    rw [head]
    dsimp only
    omega
  · have same : (Rbs.countDown state.rbs).rbsBits i = state.rbs.rbsBits i :=
      Function.update_of_ne other _ state.rbs.rbsBits
    change ((Rbs.countDown state.rbs).rbsBits i).init = rbsDelay
    change ((Rbs.countDown state.rbs).rbsBits i).init ≠ 0 at used
    rw [same] at used ⊢
    exact waiting.whole i bound other used

/-- The value that is due is sent. -/
theorem Waiting.take {state : State} {first : Octet × Nat} {rest : List (Octet × Nat)}
    (waiting : Waiting state (first :: rest))
    (due : state.calls + 1 = first.2) :
    Waiting
      { state with
        rbs := take state.rbs, calls := state.calls + 1
        sent := state.sent ++ [(first.1, state.calls + 1)] } rest := by
  have inside := waiting.inside
  have few := waiting.few
  rw [List.length_cons] at few
  have here : (first.1, state.calls + 1) = first := by rw [due]
  have elsewhere : ∀ i, i ≠ state.rbs.txIdx →
      (Rbs.take state.rbs).rbsBits i = state.rbs.rbsBits i :=
    fun i other => Function.update_of_ne other _ state.rbs.rbsBits
  have emptied : ((Rbs.take state.rbs).rbsBits state.rbs.txIdx).init = 0 := by
    rw [show (Rbs.take state.rbs).rbsBits state.rbs.txIdx =
      { state.rbs.rbsBits state.rbs.txIdx with init := 0 } from
      Function.update_self state.rbs.txIdx _ state.rbs.rbsBits]
  have moved : (Rbs.take state.rbs).txIdx = advance woomeraMaxRbsBits state.rbs.txIdx :=
    advance_mod inside
  have holds : Holds woomeraMaxRbsBits (slot (Rbs.take state.rbs)) (Rbs.take state.rbs).txIdx
      (rest.map Prod.fst) := by
    rw [take_slot, moved]
    exact waiting.holds.pop inside (by rw [List.length_map]; omega)
  rw [here]
  refine ⟨?_, holds, ?_, ?_, ?_, fun value member => ?_, fun value member => ?_, ?_,
    fun i bound other used => ?_, fun idle => ?_⟩
  · rw [waiting.schedule, List.append_assoc]
    rfl
  · change (Rbs.take state.rbs).txIdx < woomeraMaxRbsBits
    rw [moved]
    exact advance_lt inside
  · omega
  · change state.rbs.rxIdx = place woomeraMaxRbsBits (Rbs.take state.rbs).txIdx rest.length
    rw [moved, place_advance inside (by omega), waiting.tail]
    rfl
  · dsimp only
    rcases List.mem_append.mp member with before | now
    · have past := waiting.past value before
      omega
    · rw [List.mem_singleton.mp now, due]
  · cases rest with
    | nil => exact absurd member (by simp)
    | cons second rest =>
        rw [List.head?_cons, Option.mem_some_iff] at member
        have next : second.2 = first.2 + rbsDelay := by
          have chain := waiting.chain
          rw [List.isChain_cons_cons] at chain
          exact chain.1
        have used : ((Rbs.take state.rbs).rbsBits (Rbs.take state.rbs).txIdx).init ≠ 0 := by
          have head := holds.at_head (by rw [moved]; exact advance_lt inside)
          intro unused
          rw [slot_none.mpr unused] at head
          exact absurd head (by simp)
        have other : (Rbs.take state.rbs).txIdx ≠ state.rbs.txIdx := by
          intro same
          rw [same] at used
          exact used emptied
        have whole : ((Rbs.take state.rbs).rbsBits (Rbs.take state.rbs).txIdx).init = rbsDelay := by
          rw [elsewhere _ other] at used ⊢
          exact waiting.whole _ (by rw [moved]; exact advance_lt inside) other used
        have delay : 0 < rbsDelay := by decide
        change state.calls + 1 < value.2 ∧
          ((Rbs.take state.rbs).rbsBits (Rbs.take state.rbs).txIdx).init + (state.calls + 1) =
            value.2
        rw [whole, ← member]
        omega
  · exact waiting.chain.tail
  · change ((Rbs.take state.rbs).rbsBits i).init = rbsDelay
    change ((Rbs.take state.rbs).rbsBits i).init ≠ 0 at used
    have apart : i ≠ state.rbs.txIdx := by
      rintro rfl
      exact used emptied
    rw [elsewhere i apart] at used ⊢
    exact waiting.whole i bound apart used
  · exact absurd (waiting.idle idle) (by simp)

/-- Nothing waits, and a call has nothing to do. -/
theorem Waiting.empty {state : State} (waiting : Waiting state []) :
    Waiting { state with calls := state.calls + 1 } [] := by
  refine ⟨waiting.schedule, waiting.holds, waiting.inside, waiting.few, waiting.tail,
    fun value member => ?_, fun value member => absurd member (by simp), waiting.chain,
    waiting.whole, waiting.idle⟩
  have past := waiting.past value member
  dsimp only
  omega

/-- A value is put into the ring, or refused without a trace. -/
theorem handleEventRbs_cases (call : Call) (rbs : RbsRelay) (digit : Octet) :
    handleEventRbs call rbs digit = (0, put rbs digit) ∨
      handleEventRbs call rbs digit = (-1, rbs) := by
  rw [handleEventRbs]
  split
  · exact Or.inr rfl
  · split
    · exact Or.inr rfl
    · split
      · exact Or.inr rfl
      · exact Or.inl rfl

/-- How a dequeue call ends. -/
inductive Dequeues (call : Call) (rbs : RbsRelay) : Int × Option Octet × RbsRelay → Prop
  | dead (ret : Int) (idle : ¬(call.valid = true ∧ call.relay = true)) :
      Dequeues call rbs (ret, none, rbs)
  | unanswered (ret : Int) (waits : call.answer = false) : Dequeues call rbs (ret, none, rbs)
  | empty (ret : Int) (unused : (rbs.rbsBits rbs.txIdx).init = 0) :
      Dequeues call rbs (ret, none, rbs)
  | early (ret : Int) (answer : call.answer = true)
      (more : 1 < (rbs.rbsBits rbs.txIdx).init) : Dequeues call rbs (ret, none, countDown rbs)
  | due (ret : Int) (answer : call.answer = true)
      (last : (rbs.rbsBits rbs.txIdx).init = 1) :
      Dequeues call rbs (ret, some (rbs.rbsBits rbs.txIdx).abcd, take rbs)

theorem handleDequeue_cases (call : Call) (rbs : RbsRelay) :
    Dequeues call rbs (handleDequeue call rbs) := by
  rw [handleDequeue]
  split
  next invalid => exact .dead _ fun live => invalid live.1
  · split
    next off => exact .dead _ fun live => off live.2
    · split
      next waits => exact .unanswered _ (Bool.not_eq_true _ ▸ waits)
      next answer =>
        split
        next unused => exact .empty _ unused
        next used =>
          split
          next more => exact .early _ (not_not.mp answer) more
          next few => exact .due _ (not_not.mp answer) (by omega)

/-- A slot in use at the head of the ring has the value that waits longest. -/
theorem Waiting.first {state : State} {rest : List (Octet × Nat)} (waiting : Waiting state rest)
    (used : (state.rbs.rbsBits state.rbs.txIdx).init ≠ 0) :
    ∃ first left, rest = first :: left ∧
      (state.rbs.rbsBits state.rbs.txIdx).abcd = first.1 := by
  have head := waiting.holds.at_head waiting.inside
  rw [slot, if_neg used] at head
  cases rest with
  | nil => exact absurd head (by simp)
  | cons first left =>
      rw [List.map_cons, List.head?_cons, Option.some.injEq] at head
      exact ⟨first, left, rfl, head⟩

theorem Waiting.none {state : State} {rest : List (Octet × Nat)} (waiting : Waiting state rest)
    (unused : (state.rbs.rbsBits state.rbs.txIdx).init = 0) : rest = [] := by
  have head := waiting.holds.at_head waiting.inside
  rw [slot_none.mpr unused] at head
  cases rest with
  | nil => rfl
  | cons first left => exact absurd head (by simp)

/-- A call with nothing to send. -/
theorem Waiting.idles {state : State} (waiting : Waiting state []) :
    Waiting
      { state with calls := if state.call.answer then state.calls + 1 else state.calls } [] := by
  split
  · exact waiting.empty
  · exact waiting

theorem Waiting.dequeue {state : State} {rest : List (Octet × Nat)}
    (waiting : Waiting state rest) : ∃ left, Waiting (step state .dequeue) left := by
  rw [step]
  generalize same : handleDequeue state.call state.rbs = out
  have ends := handleDequeue_cases state.call state.rbs
  rw [same] at ends
  cases ends with
  | dead ret idle =>
      have none := waiting.idle idle
      subst none
      simp only [Option.map_none, Option.toList_none, List.append_nil]
      exact ⟨[], waiting.idles⟩
  | unanswered ret waits =>
      simp only [waits, Option.map_none, Option.toList_none, List.append_nil]
      exact ⟨rest, waiting⟩
  | empty ret unused =>
      have none := waiting.none unused
      subst none
      simp only [Option.map_none, Option.toList_none, List.append_nil]
      exact ⟨[], waiting.idles⟩
  | early ret answer more =>
      simp only [answer, Option.map_none, Option.toList_none, List.append_nil, if_true]
      exact ⟨rest, waiting.countDown more⟩
  | due ret answer last =>
      obtain ⟨first, left, split, value⟩ := waiting.first (by omega)
      subst split
      have due := (waiting.head first rfl).2
      rw [last] at due
      simp only [answer, value, Option.map_some, Option.toList_some, if_true]
      exact ⟨left, waiting.take (by omega)⟩

theorem Waiting.step {state : State} {rest : List (Octet × Nat)} (op : Op)
    (waiting : Waiting state rest) : ∃ left, Waiting (step state op) left := by
  cases op with
  | rbs digit =>
      rw [Rbs.step]
      rcases handleEventRbs_cases state.call state.rbs digit with taken | refused
      · have accepts : Accepts state digit := congrArg Prod.fst taken
        obtain ⟨valid, relay, room⟩ := (waiting.accepts digit).mp accepts
        rw [waiting.unsent] at room
        rw [taken]
        exact ⟨_, waiting.put room ⟨valid, relay⟩⟩
      · rw [refused]
        exact ⟨rest, waiting⟩
  | dequeue => exact waiting.dequeue
  | answered =>
      exact ⟨rest, waiting.schedule, waiting.holds, waiting.inside, waiting.few, waiting.tail,
        waiting.past, waiting.head, waiting.chain, waiting.whole, waiting.idle⟩

theorem waiting_start (call : Call) : Waiting (start call) [] := by
  refine ⟨rfl, ?_, woomeraMaxRbsBits_pos, Nat.zero_le _, rfl,
    fun value member => absurd member List.not_mem_nil,
    fun value member => absurd member (by simp), List.isChain_nil,
    fun i bound other used => absurd rfl used, fun _ => rfl⟩
  exact Holds.empty woomeraMaxRbsBits 0

theorem Waiting.run {state : State} {rest : List (Octet × Nat)} (waiting : Waiting state rest)
    (ops : List Op) : ∃ left, Waiting (ops.foldl Rbs.step state) left := by
  induction ops generalizing state rest with
  | nil => exact ⟨rest, waiting⟩
  | cons op ops ih =>
      obtain ⟨next, moved⟩ := waiting.step op
      exact ih moved

theorem Waiting.relayed {state : State} {rest : List (Octet × Nat)}
    (waiting : Waiting state rest) : Relayed state := by
  refine ⟨?_, ?_, waiting.accepts⟩
  · rw [← schedule_values state.accepted, waiting.schedule, List.map_append]
    exact List.prefix_append _ _
  have done : (state.sent.filter fun value => value.2 ≤ state.calls) = state.sent :=
    List.filter_eq_self.mpr fun value member => decide_eq_true (waiting.past value member)
  have later : (rest.filter fun value => value.2 ≤ state.calls) = [] := by
    refine List.filter_eq_nil_iff.mpr fun value member => ?_
    have future := waiting.future value member
    rw [decide_eq_true_eq]
    omega
  rw [waiting.schedule, List.filter_append, done, later, List.append_nil]

/-- A value that was accepted is sent by the 25th dequeue call behind its arrival and behind the one
that sent the value before it, and not before. A call with the relay on refuses a value exactly when
four others wait. -/
theorem rbs_relayed (call : Call) (ops : List Op) : Relayed (final call ops) := by
  obtain ⟨rest, waiting⟩ := (waiting_start call).run ops
  exact waiting.relayed

/-- Dequeue calls of an answered call are counted, and accept nothing. -/
theorem dequeues (state : State) (answer : state.call.answer = true) (count : Nat) :
    ((List.replicate count .dequeue).foldl step state).calls = state.calls + count ∧
      ((List.replicate count .dequeue).foldl step state).accepted = state.accepted := by
  induction count generalizing state with
  | zero => exact ⟨rfl, rfl⟩
  | succ count ih =>
      have calls : (step state .dequeue).calls = state.calls + 1 := by
        simp only [step, answer, if_true]
      rw [List.replicate_succ, List.foldl_cons]
      obtain ⟨counted, accepted⟩ := ih (step state .dequeue) answer
      rw [counted, accepted, calls]
      exact ⟨by omega, rfl⟩

def answeredCall : Call := ⟨true, true, true⟩

/-- Two values that come together, and as many calls as a value waits. -/
def together : List Op := [.rbs 1, .rbs 2] ++ List.replicate rbsDelay .dequeue

theorem rbs_relayed_together :
    ¬∀ call : Call, ∀ ops : List Op,
      call.valid = true → call.relay = true → call.answer = true →
        (final call ops).sent =
          ((final call ops).accepted.map fun value => (value.1, value.2 + rbsDelay)).filter
            fun value => value.2 ≤ (final call ops).calls := by
  intro all
  have sent := all answeredCall together rfl rfl rfl
  obtain ⟨rest, waiting⟩ := (waiting_start answeredCall).run together
  obtain ⟨calls, accepted⟩ :=
    dequeues ([.rbs 1, .rbs 2].foldl step (start answeredCall)) rfl rbsDelay
  rw [← List.foldl_append] at calls accepted
  have relayed := waiting.relayed.sent
  rw [final] at sent
  rw [relayed, together, calls, accepted] at sent
  exact absurd sent (by decide)

end Wanpipe.Mgd.Rbs
