import Wanpipe.Mgd.Boost

/-! The digits of an incoming call in `sangoma_mgd`: those that come after the call are queued in the
process table until a client takes the call. -/

namespace Wanpipe.Mgd.Dialed

open Line Runs

/-- `char digits[MAX_DIALED_DIGITS+1]`. -/
structure DigitArray where
  octets : List Octet
  sized : octets.length = maxDialedDigits + 1
  deriving DecidableEq, Repr

theorem cleared_sized :
    (List.replicate (maxDialedDigits + 1) (0 : Octet)).length = maxDialedDigits + 1 :=
  List.length_replicate

def DigitArray.cleared : DigitArray := ⟨List.replicate (maxDialedDigits + 1) 0, cleared_sized⟩

theorem written_sized {octets written : List Octet} {start : Nat}
    (sized : octets.length = maxDialedDigits + 1)
    (fits : start + written.length ≤ maxDialedDigits + 1) :
    (octets.take start ++ written ++ octets.drop (start + written.length)).length =
      maxDialedDigits + 1 := by
  simp only [List.length_append, List.length_take, List.length_drop, sized]
  omega

/-- Octets are written from an index on. A write past the array has no result. -/
def DigitArray.write (digits : DigitArray) (start : Nat) (written : List Octet) :
    Option DigitArray :=
  if fits : start + written.length ≤ maxDialedDigits + 1 then
    some ⟨digits.octets.take start ++ written ++ digits.octets.drop (start + written.length),
      written_sized digits.sized fits⟩
  else none

/-- The string `called_number_digits` of an event. -/
structure Called where
  digits : List Octet
  nonzero : 0 ∉ digits
  short : digits.length ≤ maxDialedDigits
  deriving DecidableEq, Repr

/-- What `strncpy` writes for a string and a count. -/
def strncpy (string : List Octet) (count : Nat) : List Octet :=
  string.take count ++ List.replicate (count - string.length) 0

/-- The digits and what belongs to them in `struct woomera_session`. -/
structure Entry where
  dev : Option Ptr
  session : Option UniqueId
  digits : DigitArray
  digitsLen : Nat
  clients : Nat
  deriving DecidableEq, Repr

/-- An entry of the process table by its span and channel. -/
abbrev TableCircuit := { circuit : Circuit // InTable circuit }

/-- The members of `struct woomera_interface` that have to do with digits; `events` has the digits of
the DTMF events that were enqueued. -/
structure Session where
  session : Option UniqueId
  interface : Option TableCircuit
  checkDigits : Bool
  hangup : Bool
  mediaEnd : Bool
  events : List Octet
  deriving DecidableEq, Repr

/-- Where the monitor thread is in `handle_incoming_digit`: outside, behind the copy of the digits of
a circuit, or about to check the digits of a session. -/
inductive Monitor
  | idle
  | appended (circuit : TableCircuit)
  | checking (ptr : Ptr)
  deriving DecidableEq, Repr

/-- `received` has the digits since the last CALL_START that was taken; it is not in the source. -/
structure State where
  table : TableCircuit → Entry
  session : Ptr → Session
  monitor : Monitor
  received : TableCircuit → List Octet

/-- The critical sections of the monitor thread and of the threads of the sessions. -/
inductive Op
  | callStart (circuit : TableCircuit) (rand : List Nat) (clients : Nat)
  | digitIn (circuit : TableCircuit) (called : Called) (count : Octet)
  | digitLook
  | digitCheck
  | claim (ptr : Ptr) (circuit : TableCircuit) (rest : List Nat) (hangup : Bool)
  | check (ptr : Ptr)
  deriving DecidableEq, Repr

def State.setEntry (state : State) (circuit : TableCircuit) (entry : Entry) : State :=
  { state with table := Function.update state.table circuit entry }

def State.setSession (state : State) (ptr : Ptr) (session : Session) : State :=
  { state with session := Function.update state.session ptr session }

def State.receive (state : State) (circuit : TableCircuit) (digits : List Octet) : State :=
  { state with received := Function.update state.received circuit digits }

def State.at (state : State) (monitor : Monitor) : State := { state with monitor := monitor }

/-- The span and channel of an event are those of a circuit. -/
def valid (config : Config) (circuit : TableCircuit) : Bool :=
  smgValidateSpanChan config circuit.1.1 circuit.1.2

/-- The numbers in an interface name count from one, and are validated so. -/
def named (config : Config) (circuit : TableCircuit) : Bool :=
  smgValidateSpanChan config (circuit.1.1 + 1 : Nat) (circuit.1.2 + 1 : Nat)

def uniqueId (circuit : TableCircuit) (rest : List Nat) : UniqueId :=
  ⟨circuit.1.1, circuit.1.2, rest⟩

/-- A new call on a circuit. -/
def offer (state : State) (circuit : TableCircuit) (session : Option UniqueId) (clients : Nat) :
    State :=
  (state.setEntry circuit ⟨none, session, .cleared, 0, clients⟩).receive circuit []

/-- `handle_call_start`. -/
def callStart (config : Config) (state : State) (circuit : TableCircuit) (rand : List Nat)
    (clients : Nat) : State :=
  if valid config circuit then
    match (state.table circuit).dev with
    | some busy =>
        state.setSession busy { state.session busy with hangup := true, mediaEnd := true }
    | none =>
        offer state circuit (if clients = 0 then none else some (uniqueId circuit rand)) clients
  else state

/-- The part of `handle_incoming_digit` under `digits_lock`. -/
def digitIn (config : Config) (state : State) (circuit : TableCircuit) (called : Called)
    (count : Octet) : Option State :=
  let received := state.receive circuit (state.received circuit ++ called.digits)
  if valid config circuit then
    let entry := state.table circuit
    (entry.digits.write entry.digitsLen (strncpy called.digits count.toNat)).map fun digits =>
      (received.setEntry circuit
        { entry with digits := digits, digitsLen := entry.digitsLen + count.toNat }).at
        (.appended circuit)
  else some received

/-- The part of `handle_incoming_digit` under `process_lock`. -/
def digitLook (state : State) (circuit : TableCircuit) : State :=
  match (state.table circuit).dev with
  | none => state.at .idle
  | some ptr =>
      if (state.session ptr).session.isSome then state.at (.checking ptr) else state.at .idle

/-- The digits that wait for the session of their call. -/
def Entry.pending (entry : Entry) : List Octet := entry.digits.octets.take entry.digitsLen

/-- The digits of a circuit go to a session, an event for each. -/
def drain (state : State) (circuit : TableCircuit) (ptr : Ptr) : State :=
  let session := state.session ptr
  let entry := state.table circuit
  (state.setEntry circuit { entry with digitsLen := 0 }).setSession ptr
    { session with events := session.events ++ entry.pending }

/-- `woomera_check_digits`. -/
def woomeraCheckDigits (config : Config) (state : State) (ptr : Ptr) : State :=
  if (state.session ptr).session.isSome then
    match (state.session ptr).interface with
    | none => state
    | some circuit => if named config circuit then drain state circuit ptr else state
  else state

/-- The session of a client takes the call of a circuit. -/
def bind (state : State) (ptr : Ptr) (circuit : TableCircuit) (id : UniqueId) : State :=
  (state.setEntry circuit { state.table circuit with dev := some ptr }).setSession ptr
    { state.session ptr with session := some id, interface := some circuit, checkDigits := true }

/-- The part of `interpret_command` that finds the session of a command by its Unique-Call-Id. -/
def claim (config : Config) (state : State) (ptr : Ptr) (circuit : TableCircuit)
    (rest : List Nat) (hangup : Bool) : State :=
  let session := state.session ptr
  let refused := state.setSession ptr { session with hangup := true }
  match session.session with
  | some own => if own = uniqueId circuit rest then state else refused
  | none =>
      if valid config circuit then
        let entry := state.table circuit
        if entry.dev.isSome ∨ entry.session ≠ some (uniqueId circuit rest) then refused
        else if hangup ∧ 1 < entry.clients then
          refused.setEntry circuit { entry with clients := entry.clients - 1 }
        else bind state ptr circuit (uniqueId circuit rest)
      else refused

/-- The digits at the end of a pass of the loop of a session. -/
def check (config : Config) (state : State) (ptr : Ptr) : State :=
  if (state.session ptr).checkDigits then
    let checked := woomeraCheckDigits config state ptr
    checked.setSession ptr { checked.session ptr with checkDigits := false }
  else state

def step (config : Config) (state : State) : Op → Option State
  | .callStart circuit rand clients =>
      if state.monitor = .idle then some (callStart config state circuit rand clients)
      else some state
  | .digitIn circuit called count =>
      if state.monitor = .idle then digitIn config state circuit called count else some state
  | .digitLook =>
      match state.monitor with
      | .appended circuit => some (digitLook state circuit)
      | _ => some state
  | .digitCheck =>
      match state.monitor with
      | .checking ptr => some ((woomeraCheckDigits config state ptr).at .idle)
      | _ => some state
  | .claim ptr circuit rest hangup => some (claim config state ptr circuit rest hangup)
  | .check ptr => some (check config state ptr)

/-- The cleared process table, and sessions that have taken no call. -/
def initial : State :=
  ⟨fun _ => ⟨none, none, .cleared, 0, 0⟩, fun _ => ⟨none, none, false, false, false, []⟩, .idle,
    fun _ => []⟩

/-- The count of the digits is their number. -/
def Counted : Op → Prop
  | .digitIn _ called count => count.toNat = called.digits.length
  | _ => True

/-- No digits wait for the session, or its interface name, which counts from one, is valid. -/
def Drains (config : Config) (state : State) (ptr : Ptr) : Prop :=
  ∀ circuit, (state.session ptr).interface = some circuit →
    (state.table circuit).digitsLen ≠ 0 → named config circuit = true

/-- There is room for the digits behind those that wait, and those that wait can be found. -/
def Room (config : Config) (state : State) : Op → Prop
  | .digitIn circuit _ count =>
      state.monitor = .idle → valid config circuit = true →
        (state.table circuit).digitsLen + count.toNat ≤ maxDialedDigits + 1
  | .digitCheck => ∀ ptr, state.monitor = .checking ptr → Drains config state ptr
  | .check ptr => (state.session ptr).checkDigits = true → Drains config state ptr
  | _ => True

instance (op : Op) : Decidable (Counted op) :=
  match op with
  | .digitIn _ called count => inferInstanceAs (Decidable (count.toNat = called.digits.length))
  | .callStart _ _ _ => isTrue trivial
  | .digitLook => isTrue trivial
  | .digitCheck => isTrue trivial
  | .claim _ _ _ _ => isTrue trivial
  | .check _ => isTrue trivial

/-- The digits of a circuit reach the session that its name is given to. -/
def DrainsFrom (config : Config) (state : State) : Option TableCircuit → Prop
  | none => True
  | some circuit => (state.table circuit).digitsLen ≠ 0 → named config circuit = true

instance (config : Config) (state : State) (held : Option TableCircuit) :
    Decidable (DrainsFrom config state held) :=
  match held with
  | none => isTrue trivial
  | some circuit =>
      inferInstanceAs
        (Decidable ((state.table circuit).digitsLen ≠ 0 → named config circuit = true))

theorem drainsFrom_iff (config : Config) (state : State) (ptr : Ptr) :
    DrainsFrom config state (state.session ptr).interface ↔ Drains config state ptr := by
  rw [Drains]
  cases (state.session ptr).interface with
  | none => simp [DrainsFrom]
  | some circuit => simp [DrainsFrom]

instance (config : Config) (state : State) (ptr : Ptr) : Decidable (Drains config state ptr) :=
  decidable_of_iff _ (drainsFrom_iff config state ptr)

/-- The session that the monitor thread is about to check. -/
def Monitor.session : Monitor → Option Ptr
  | .checking ptr => some ptr
  | _ => none

theorem checking_iff (config : Config) (state : State) :
    (∀ ptr ∈ state.monitor.session, Drains config state ptr) ↔
      Room config state .digitCheck := by
  rw [Room]
  cases state.monitor with
  | idle => simp [Monitor.session]
  | appended circuit => simp [Monitor.session]
  | checking ptr => simp [Monitor.session]

instance (config : Config) (state : State) (op : Op) : Decidable (Room config state op) :=
  match op with
  | .digitIn circuit _ count =>
      inferInstanceAs (Decidable (state.monitor = .idle → valid config circuit = true →
        (state.table circuit).digitsLen + count.toNat ≤ maxDialedDigits + 1))
  | .digitCheck => decidable_of_iff _ (checking_iff config state)
  | .check ptr =>
      inferInstanceAs
        (Decidable ((state.session ptr).checkDigits = true → Drains config state ptr))
  | .callStart _ _ _ => isTrue trivial
  | .digitLook => isTrue trivial
  | .claim _ _ _ _ => isTrue trivial

/-- A session has got the digits of its call, but for those that wait for it, and none waits once it
has looked and the monitor thread is done. -/
structure Delivered (state : State) : Prop where
  order : ∀ circuit ptr, (state.table circuit).dev = some ptr →
    (state.session ptr).events ++ (state.table circuit).pending = state.received circuit
  all : ∀ circuit ptr, (state.table circuit).dev = some ptr →
    (state.session ptr).checkDigits = false → state.monitor = .idle →
      (state.session ptr).events = state.received circuit

end Wanpipe.Mgd.Dialed
