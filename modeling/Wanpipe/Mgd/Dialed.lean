import Wanpipe.Mgd.Digits

/-! Every digit of a call reaches the session that takes it, once and in order. -/

namespace Wanpipe.Mgd.Dialed

open Line Runs

section Updates

variable (state : State) (circuit : TableCircuit) (entry : Entry) (ptr : Ptr) (session : Session)
  (digits : List Octet) (monitor : Monitor)

@[simp] theorem setEntry_table :
    (state.setEntry circuit entry).table = Function.update state.table circuit entry := rfl

@[simp] theorem setEntry_session : (state.setEntry circuit entry).session = state.session := rfl

@[simp] theorem setEntry_monitor : (state.setEntry circuit entry).monitor = state.monitor := rfl

@[simp] theorem setEntry_received : (state.setEntry circuit entry).received = state.received := rfl

@[simp] theorem setSession_table : (state.setSession ptr session).table = state.table := rfl

@[simp] theorem setSession_session :
    (state.setSession ptr session).session = Function.update state.session ptr session := rfl

@[simp] theorem setSession_monitor : (state.setSession ptr session).monitor = state.monitor := rfl

@[simp] theorem setSession_received :
    (state.setSession ptr session).received = state.received := rfl

@[simp] theorem receive_table : (state.receive circuit digits).table = state.table := rfl

@[simp] theorem receive_session : (state.receive circuit digits).session = state.session := rfl

@[simp] theorem receive_monitor : (state.receive circuit digits).monitor = state.monitor := rfl

@[simp] theorem receive_received :
    (state.receive circuit digits).received = Function.update state.received circuit digits := rfl

@[simp] theorem at_table : (state.at monitor).table = state.table := rfl

@[simp] theorem at_session : (state.at monitor).session = state.session := rfl

@[simp] theorem at_monitor : (state.at monitor).monitor = monitor := rfl

@[simp] theorem at_received : (state.at monitor).received = state.received := rfl

end Updates

/-- A session that may still get digits: it has not looked, or the monitor thread is on the way. -/
def Awaits (state : State) (circuit : TableCircuit) (ptr : Ptr) : Prop :=
  (state.session ptr).checkDigits = true ∨ state.monitor = .appended circuit ∨
    state.monitor = .checking ptr

/-- What is known of a circuit and its session. -/
structure Taken (config : Config) (state : State) (circuit : TableCircuit) (ptr : Ptr) : Prop where
  valid : valid config circuit = true
  session : (state.session ptr).session.isSome = true
  interface : (state.session ptr).interface = some circuit
  order : (state.session ptr).events ++ (state.table circuit).pending = state.received circuit
  awaits : (state.table circuit).digitsLen ≠ 0 → Awaits state circuit ptr

/-- A session that has taken no call. -/
structure Fresh (session : Session) : Prop where
  interface : session.interface = none
  checkDigits : session.checkDigits = false
  events : session.events = []

structure Kept (config : Config) (state : State) : Prop where
  free : ∀ circuit, valid config circuit = true → (state.table circuit).dev = none →
    (state.table circuit).pending = state.received circuit
  taken : ∀ circuit ptr, (state.table circuit).dev = some ptr → Taken config state circuit ptr
  fresh : ∀ ptr, (state.session ptr).session = none → Fresh (state.session ptr)
  holds : ∀ ptr circuit, (state.session ptr).interface = some circuit →
    (state.table circuit).dev = some ptr

/-- The next state differs from this one in a circuit and its session only. -/
structure Around (circuit : TableCircuit) (state next : State) : Prop where
  table : ∀ other, other ≠ circuit → next.table other = state.table other
  received : ∀ other, other ≠ circuit → next.received other = state.received other
  session : ∀ other ptr, other ≠ circuit → (state.table other).dev = some ptr →
    next.session ptr = state.session ptr
  awaits : ∀ other ptr, other ≠ circuit → (state.table other).dev = some ptr →
    Awaits state other ptr → Awaits next other ptr

variable {config : Config}

theorem Taken.around {circuit other : TableCircuit} {ptr : Ptr} {state next : State}
    (taken : Taken config state other ptr) (around : Around circuit state next)
    (elsewhere : other ≠ circuit) (dev : (state.table other).dev = some ptr) :
    Taken config next other ptr := by
  have session := around.session other ptr elsewhere dev
  have table := around.table other elsewhere
  constructor
  · exact taken.valid
  · rw [session]
    exact taken.session
  · rw [session]
    exact taken.interface
  · rw [session, table, around.received other elsewhere]
    exact taken.order
  · rw [table]
    intro some
    exact around.awaits other ptr elsewhere dev (taken.awaits some)

theorem Kept.around {circuit : TableCircuit} {state next : State} (kept : Kept config state)
    (around : Around circuit state next)
    (free : valid config circuit = true → (next.table circuit).dev = none →
      (next.table circuit).pending = next.received circuit)
    (taken : ∀ ptr, (next.table circuit).dev = some ptr → Taken config next circuit ptr)
    (fresh : ∀ ptr, (next.session ptr).session = none → Fresh (next.session ptr))
    (holds : ∀ ptr other, (next.session ptr).interface = some other →
      (next.table other).dev = some ptr) : Kept config next := by
  refine ⟨fun other ok dev => ?_, fun other ptr dev => ?_, fresh, holds⟩
  · by_cases here : other = circuit
    · rw [here] at ok dev ⊢
      exact free ok dev
    · rw [around.table other here] at dev ⊢
      rw [around.received other here]
      exact kept.free other ok dev
  · by_cases here : other = circuit
    · rw [here] at dev ⊢
      exact taken ptr dev
    · rw [around.table other here] at dev
      exact (kept.taken other ptr dev).around around here dev

/-- A session of which only flags change, or that has no digits to wait for. -/
structure Alike (state : State) (ptr : Ptr) (next : Session) : Prop where
  session : next.session = (state.session ptr).session
  interface : next.interface = (state.session ptr).interface
  events : next.events = (state.session ptr).events
  checkDigits : next.checkDigits = (state.session ptr).checkDigits ∨
    next.checkDigits = false ∧ ∀ circuit, next.interface = some circuit →
      (state.table circuit).digitsLen = 0

theorem Kept.setSession {state : State} {ptr : Ptr} {session : Session}
    (kept : Kept config state) (alike : Alike state ptr session) :
    Kept config (state.setSession ptr session) := by
  have same : ∀ other, ((state.setSession ptr session).session other).session =
      (state.session other).session ∧ ((state.setSession ptr session).session other).interface =
      (state.session other).interface ∧ ((state.setSession ptr session).session other).events =
      (state.session other).events := by
    intro other
    by_cases here : other = ptr
    · rw [here, setSession_session, Function.update_self]
      exact ⟨alike.session, alike.interface, alike.events⟩
    · rw [setSession_session, Function.update_of_ne here]
      exact ⟨rfl, rfl, rfl⟩
  refine ⟨kept.free, fun circuit other dev => ?_, fun other none => ?_, fun other circuit held => ?_⟩
  · have taken := kept.taken circuit other dev
    obtain ⟨sameSession, sameInterface, sameEvents⟩ := same other
    refine ⟨taken.valid, ?_, sameInterface.trans taken.interface, ?_, fun some => ?_⟩
    · rw [sameSession]
      exact taken.session
    · rw [sameEvents]
      exact taken.order
    · have awaits := taken.awaits some
      rw [Awaits, setSession_session, setSession_monitor]
      by_cases here : other = ptr
      · rw [here, Function.update_self]
        rw [here] at awaits taken
        rcases alike.checkDigits with flag | ⟨-, empty⟩
        · rw [flag]
          exact awaits
        · exact absurd (empty circuit (alike.interface.trans taken.interface)) some
      · rw [Function.update_of_ne here]
        exact awaits
  · obtain ⟨sameSession, sameInterface, sameEvents⟩ := same other
    have fresh := kept.fresh other (sameSession.symm.trans none)
    refine ⟨sameInterface.trans fresh.interface, ?_, sameEvents.trans fresh.events⟩
    rw [setSession_session]
    by_cases here : other = ptr
    · rw [here, Function.update_self]
      rcases alike.checkDigits with flag | ⟨off, -⟩
      · rw [flag, ← here]
        exact fresh.checkDigits
      · exact off
    · rw [Function.update_of_ne here]
      exact fresh.checkDigits
  · exact kept.holds other circuit ((same other).2.1.symm.trans held)

/-- The monitor thread moves on, and no digits are left behind. -/
theorem Kept.at {state : State} {monitor : Monitor} (kept : Kept config state)
    (awaits : ∀ circuit ptr, (state.table circuit).dev = some ptr →
      (state.table circuit).digitsLen ≠ 0 → Awaits (state.at monitor) circuit ptr) :
    Kept config (state.at monitor) := by
  refine ⟨kept.free, fun circuit ptr dev => ?_, kept.fresh, kept.holds⟩
  have taken := kept.taken circuit ptr dev
  exact ⟨taken.valid, taken.session, taken.interface, taken.order, awaits circuit ptr dev⟩

theorem Kept.ne_ptr {state : State} {circuit other : TableCircuit} {ptr another : Ptr}
    (kept : Kept config state) (dev : (state.table circuit).dev = some ptr)
    (others : (state.table other).dev = some another) (elsewhere : other ≠ circuit) :
    another ≠ ptr := by
  intro same
  have here := (kept.taken circuit ptr dev).interface
  have there := (kept.taken other another others).interface
  rw [same, here, Option.some.injEq] at there
  exact elsewhere there.symm

theorem pending_empty {entry : Entry} (empty : entry.digitsLen = 0) : entry.pending = [] := by
  rw [Entry.pending, empty, List.take_zero]

section Drain

variable (state : State) (circuit : TableCircuit) (ptr : Ptr)

theorem drain_table_self :
    (drain state circuit ptr).table circuit = { state.table circuit with digitsLen := 0 } :=
  Function.update_self circuit _ state.table

theorem drain_table_ne {other : TableCircuit} (elsewhere : other ≠ circuit) :
    (drain state circuit ptr).table other = state.table other :=
  Function.update_of_ne elsewhere _ state.table

theorem drain_session_self :
    (drain state circuit ptr).session ptr =
      { state.session ptr with
        events := (state.session ptr).events ++ (state.table circuit).pending } :=
  Function.update_self ptr _ state.session

theorem drain_session_ne {other : Ptr} (elsewhere : other ≠ ptr) :
    (drain state circuit ptr).session other = state.session other :=
  Function.update_of_ne elsewhere _ state.session

theorem drain_interface (other : Ptr) :
    ((drain state circuit ptr).session other).interface = (state.session other).interface := by
  by_cases here : other = ptr
  · rw [here, drain_session_self]
  · rw [drain_session_ne _ _ _ here]

theorem drain_dev (other : TableCircuit) :
    ((drain state circuit ptr).table other).dev = (state.table other).dev := by
  by_cases here : other = circuit
  · rw [here, drain_table_self]
  · rw [drain_table_ne _ _ _ here]

end Drain

theorem Kept.drain {state : State} {circuit : TableCircuit} {ptr : Ptr}
    (kept : Kept config state) (dev : (state.table circuit).dev = some ptr) :
    Kept config (drain state circuit ptr) := by
  have taken := kept.taken circuit ptr dev
  have empty : ({ state.table circuit with digitsLen := 0 } : Entry).pending = [] :=
    pending_empty rfl
  have around : Around circuit state (Dialed.drain state circuit ptr) := by
    refine ⟨fun other => drain_table_ne state circuit ptr, fun other _ => rfl,
      fun other another elsewhere others => ?_, fun other another elsewhere others awaits => ?_⟩
    · exact drain_session_ne state circuit ptr (kept.ne_ptr dev others elsewhere)
    · rw [Awaits, drain_session_ne state circuit ptr (kept.ne_ptr dev others elsewhere)]
      exact awaits
  refine kept.around around ?_ ?_ ?_ ?_
  · intro _ none
    rw [drain_dev, dev] at none
    exact absurd none (by simp)
  · intro other others
    rw [drain_dev, dev, Option.some.injEq] at others
    rw [← others]
    refine ⟨taken.valid, ?_, ?_, ?_, ?_⟩
    · rw [drain_session_self]
      exact taken.session
    · rw [drain_session_self]
      exact taken.interface
    · rw [drain_session_self, drain_table_self, empty, List.append_nil]
      exact taken.order
    · rw [drain_table_self]
      intro some
      exact absurd rfl some
  · intro other none
    by_cases here : other = ptr
    · rw [here, drain_session_self] at none
      have idle : (state.session ptr).session = Option.none := none
      have busy := taken.session
      rw [idle] at busy
      exact absurd busy (by simp)
    · rw [drain_session_ne _ _ _ here] at none ⊢
      exact kept.fresh other none
  · intro other another held
    rw [drain_interface] at held
    rw [drain_dev]
    exact kept.holds other another held

/-- The digits go to the session that has the circuit, or there are none for it. -/
theorem woomeraCheckDigits_cases {state : State} {ptr : Ptr} (kept : Kept config state)
    (drains : Drains config state ptr) :
    (woomeraCheckDigits config state ptr = state ∧
        ∀ circuit, (state.session ptr).interface = some circuit →
          (state.table circuit).digitsLen = 0) ∨
      ∃ circuit, (state.session ptr).interface = some circuit ∧
        woomeraCheckDigits config state ptr = drain state circuit ptr := by
  rw [woomeraCheckDigits]
  cases named : (state.session ptr).session with
  | none =>
      refine Or.inl ⟨rfl, fun circuit held => ?_⟩
      rw [(kept.fresh ptr named).interface] at held
      exact absurd held (by simp)
  | some id =>
      cases held : (state.session ptr).interface with
      | none => exact Or.inl ⟨rfl, fun circuit none => absurd none (by simp)⟩
      | some circuit =>
          dsimp only [Option.isSome_some]
          rw [if_pos rfl]
          by_cases valid : Dialed.named config circuit = true
          · rw [if_pos valid]
            exact Or.inr ⟨circuit, rfl, rfl⟩
          · rw [if_neg valid]
            refine Or.inl ⟨rfl, fun other same => ?_⟩
            rw [← Option.some.inj same]
            by_contra some
            exact valid (drains circuit held some)

/-- Once the digits are checked none waits for the session. -/
theorem Kept.checkDigits {state : State} {ptr : Ptr} (kept : Kept config state)
    (drains : Drains config state ptr) :
    Kept config (woomeraCheckDigits config state ptr) ∧
      ∀ circuit, ((woomeraCheckDigits config state ptr).session ptr).interface = some circuit →
        ((woomeraCheckDigits config state ptr).table circuit).digitsLen = 0 := by
  rcases woomeraCheckDigits_cases kept drains with ⟨same, empty⟩ | ⟨circuit, held, same⟩
  · rw [same]
    exact ⟨kept, empty⟩
  · rw [same]
    refine ⟨kept.drain (kept.holds ptr circuit held), fun other others => ?_⟩
    rw [drain_interface, held, Option.some.injEq] at others
    rw [← others, drain_table_self]

theorem Kept.check {state : State} {ptr : Ptr} (kept : Kept config state)
    (drains : (state.session ptr).checkDigits = true → Drains config state ptr) :
    Kept config (check config state ptr) := by
  rw [Dialed.check]
  by_cases checks : (state.session ptr).checkDigits = true
  · rw [if_pos checks]
    obtain ⟨drained, empty⟩ := kept.checkDigits (drains checks)
    exact drained.setSession ⟨rfl, rfl, rfl, Or.inr ⟨rfl, empty⟩⟩
  · rw [if_neg checks]
    exact kept

theorem woomeraCheckDigits_monitor (state : State) (ptr : Ptr) :
    (woomeraCheckDigits config state ptr).monitor = state.monitor := by
  rw [woomeraCheckDigits]
  split
  · split
    · rfl
    · split
      · rfl
      · rfl
  · rfl

theorem Kept.digitCheck {state : State} {ptr : Ptr} (kept : Kept config state)
    (checking : state.monitor = .checking ptr) (drains : Drains config state ptr) :
    Kept config ((woomeraCheckDigits config state ptr).at .idle) := by
  obtain ⟨drained, empty⟩ := kept.checkDigits drains
  refine drained.at fun circuit other dev some => ?_
  have taken := drained.taken circuit other dev
  rcases taken.awaits some with flag | appended | checked
  · exact Or.inl flag
  · rw [woomeraCheckDigits_monitor, checking] at appended
    exact absurd appended (by simp)
  · rw [woomeraCheckDigits_monitor, checking, Monitor.checking.injEq] at checked
    rw [← checked] at taken
    exact absurd (empty circuit taken.interface) some

theorem Kept.digitLook {state : State} {circuit : TableCircuit} (kept : Kept config state)
    (appended : state.monitor = .appended circuit) :
    Kept config (digitLook state circuit) := by
  have others : ∀ monitor other ptr, other ≠ circuit →
      (state.table other).dev = some ptr → (state.table other).digitsLen ≠ 0 →
        Awaits (state.at monitor) other ptr := by
    intro monitor other ptr elsewhere dev some
    rcases (kept.taken other ptr dev).awaits some with flag | here | checked
    · exact Or.inl flag
    · rw [appended, Monitor.appended.injEq] at here
      exact absurd here.symm elsewhere
    · rw [appended] at checked
      exact absurd checked (by simp)
  rw [Dialed.digitLook]
  cases owner : (state.table circuit).dev with
  | none =>
      refine kept.at fun other ptr dev => others .idle other ptr ?_ dev
      rintro rfl
      rw [owner] at dev
      exact absurd dev (by simp)
  | some ptr =>
      dsimp only
      rw [if_pos (kept.taken circuit ptr owner).session]
      refine kept.at fun other another dev some => ?_
      by_cases here : other = circuit
      · rw [here, owner, Option.some.injEq] at dev
        rw [← dev]
        exact Or.inr (Or.inr rfl)
      · exact others _ other another here dev some

theorem write_fits (digits : DigitArray) {start : Nat} {written : List Octet}
    (fits : start + written.length ≤ maxDialedDigits + 1) :
    ∃ next, digits.write start written = some next ∧
      next.octets.take (start + written.length) = digits.octets.take start ++ written := by
  refine ⟨_, dif_pos fits, ?_⟩
  have taken : (digits.octets.take start ++ written).length = start + written.length := by
    rw [List.length_append, List.length_take, digits.sized]
    omega
  exact List.take_left' taken

theorem strncpy_length (digits : List Octet) : strncpy digits digits.length = digits := by
  rw [strncpy, List.take_length, Nat.sub_self]
  exact List.append_nil digits

theorem Kept.received {state : State} {circuit : TableCircuit} {digits : List Octet}
    (kept : Kept config state) (bad : valid config circuit ≠ true) :
    Kept config (state.receive circuit digits) := by
  have other : ∀ another, valid config another = true →
      (state.receive circuit digits).received another = state.received another := by
    intro another ok
    apply Function.update_of_ne
    rintro rfl
    exact bad ok
  refine ⟨fun another ok dev => ?_, fun another ptr dev => ?_, kept.fresh, kept.holds⟩
  · rw [other another ok]
    exact kept.free another ok dev
  · have taken := kept.taken another ptr dev
    refine ⟨taken.valid, taken.session, taken.interface, ?_, taken.awaits⟩
    rw [other another taken.valid]
    exact taken.order

/-- Digits of a circuit come in. -/
def append (state : State) (circuit : TableCircuit) (digits : DigitArray)
    (called : List Octet) : State :=
  ((state.receive circuit (state.received circuit ++ called)).setEntry circuit
    { state.table circuit with
      digits := digits, digitsLen := (state.table circuit).digitsLen + called.length }).at
    (.appended circuit)

section Append

variable {state : State} {circuit : TableCircuit} {digits : DigitArray} {called : List Octet}

theorem append_table_self :
    (append state circuit digits called).table circuit =
      { state.table circuit with
        digits := digits, digitsLen := (state.table circuit).digitsLen + called.length } :=
  Function.update_self circuit _ state.table

theorem append_received_self :
    (append state circuit digits called).received circuit = state.received circuit ++ called :=
  Function.update_self circuit _ state.received

theorem append_dev (other : TableCircuit) :
    ((append state circuit digits called).table other).dev = (state.table other).dev := by
  by_cases here : other = circuit
  · rw [here, append_table_self]
  · exact congrArg Entry.dev (Function.update_of_ne here _ state.table)

theorem append_pending
    (written : digits.octets.take ((state.table circuit).digitsLen + called.length) =
      (state.table circuit).pending ++ called) :
    ((append state circuit digits called).table circuit).pending =
      (state.table circuit).pending ++ called := by
  rw [append_table_self]
  exact written

theorem Kept.append (kept : Kept config state) (idle : state.monitor = .idle)
    (written : digits.octets.take ((state.table circuit).digitsLen + called.length) =
      (state.table circuit).pending ++ called) :
    Kept config (append state circuit digits called) := by
  have around : Around circuit state (Dialed.append state circuit digits called) := by
    refine ⟨fun other elsewhere => Function.update_of_ne elsewhere _ state.table,
      fun other elsewhere => Function.update_of_ne elsewhere _ state.received,
      fun other ptr _ _ => rfl, fun other ptr elsewhere dev awaits => ?_⟩
    rcases awaits with flag | appended | checking
    · exact Or.inl flag
    · rw [idle] at appended
      exact absurd appended (by simp)
    · rw [idle] at checking
      exact absurd checking (by simp)
  refine kept.around around ?_ ?_ kept.fresh ?_
  · intro ok none
    rw [append_dev] at none
    rw [append_pending written, append_received_self, kept.free circuit ok none]
  · intro ptr dev
    rw [append_dev] at dev
    have taken := kept.taken circuit ptr dev
    refine ⟨taken.valid, taken.session, taken.interface, ?_, fun _ => Or.inr (Or.inl rfl)⟩
    rw [append_pending written, append_received_self, ← taken.order, List.append_assoc]
    rfl
  · intro ptr other held
    rw [append_dev]
    exact kept.holds ptr other held

end Append

theorem Kept.digitIn {state : State} {circuit : TableCircuit} {called : Called} {count : Octet}
    (kept : Kept config state) (idle : state.monitor = .idle)
    (counted : count.toNat = called.digits.length)
    (room : valid config circuit = true →
      (state.table circuit).digitsLen + count.toNat ≤ maxDialedDigits + 1) :
    ∃ next, digitIn config state circuit called count = some next ∧ Kept config next := by
  rw [Dialed.digitIn]
  by_cases ok : valid config circuit = true
  · rw [counted] at room
    obtain ⟨digits, wrote, taken⟩ := write_fits (state.table circuit).digits (room ok)
    refine ⟨Dialed.append state circuit digits called.digits, ?_, kept.append idle taken⟩
    simp only [if_pos ok, counted, strncpy_length, wrote]
    rfl
  · refine ⟨_, if_neg ok, kept.received ok⟩

section Offer

variable {state : State} {circuit : TableCircuit} {session : Option UniqueId} {clients : Nat}

theorem offer_table_self :
    (offer state circuit session clients).table circuit =
      ⟨none, session, .cleared, 0, clients⟩ :=
  Function.update_self circuit _ state.table

theorem offer_received_self : (offer state circuit session clients).received circuit = [] :=
  Function.update_self circuit _ state.received

theorem offer_dev (free : (state.table circuit).dev = none) (other : TableCircuit) :
    ((offer state circuit session clients).table other).dev = (state.table other).dev := by
  by_cases here : other = circuit
  · rw [here, offer_table_self, free]
  · exact congrArg Entry.dev (Function.update_of_ne here _ state.table)

theorem Kept.offer (kept : Kept config state) (free : (state.table circuit).dev = none) :
    Kept config (offer state circuit session clients) := by
  have around : Around circuit state (Dialed.offer state circuit session clients) :=
    ⟨fun other elsewhere => Function.update_of_ne elsewhere _ state.table,
      fun other elsewhere => Function.update_of_ne elsewhere _ state.received,
      fun other ptr _ _ => rfl, fun other ptr _ _ awaits => awaits⟩
  refine kept.around around (fun _ _ => ?_) (fun ptr dev => ?_) kept.fresh fun ptr other held => ?_
  · rw [offer_received_self, offer_table_self]
    exact pending_empty rfl
  · rw [offer_table_self] at dev
    exact absurd dev (by simp)
  · rw [offer_dev free]
    exact kept.holds ptr other held

end Offer

theorem Kept.callStart {state : State} {circuit : TableCircuit} {rand : List Nat}
    {clients : Nat} (kept : Kept config state) :
    Kept config (callStart config state circuit rand clients) := by
  rw [Dialed.callStart]
  split
  · split
    · exact kept.setSession ⟨rfl, rfl, rfl, Or.inl rfl⟩
    next free => exact kept.offer free
  · exact kept

section Bind

variable {state : State} {circuit : TableCircuit} {ptr : Ptr} {id : UniqueId}

theorem bind_table_self :
    (bind state ptr circuit id).table circuit = { state.table circuit with dev := some ptr } :=
  Function.update_self circuit _ state.table

theorem bind_table_ne {other : TableCircuit} (elsewhere : other ≠ circuit) :
    (bind state ptr circuit id).table other = state.table other :=
  Function.update_of_ne elsewhere _ state.table

theorem bind_session_self :
    (bind state ptr circuit id).session ptr =
      { state.session ptr with
        session := some id, interface := some circuit, checkDigits := true } :=
  Function.update_self ptr _ state.session

theorem bind_session_ne {other : Ptr} (elsewhere : other ≠ ptr) :
    (bind state ptr circuit id).session other = state.session other :=
  Function.update_of_ne elsewhere _ state.session

/-- A session that has taken no call takes one that no session has. -/
theorem Kept.bind (kept : Kept config state) (ok : valid config circuit = true)
    (free : (state.table circuit).dev = none) (idle : (state.session ptr).session = none) :
    Kept config (bind state ptr circuit id) := by
  have fresh := kept.fresh ptr idle
  have apart : ∀ other another, (state.table other).dev = some another → another ≠ ptr := by
    rintro other another dev rfl
    have held := (kept.taken other another dev).interface
    rw [fresh.interface] at held
    exact absurd held (by simp)
  have around : Around circuit state (Dialed.bind state ptr circuit id) := by
    refine ⟨fun other elsewhere => bind_table_ne elsewhere, fun other _ => rfl,
      fun other another elsewhere dev => bind_session_ne (apart other another dev),
      fun other another elsewhere dev awaits => ?_⟩
    rw [Awaits, bind_session_ne (apart other another dev)]
    exact awaits
  refine kept.around around (fun _ none => ?_) (fun another dev => ?_) (fun another none => ?_)
    fun another other held => ?_
  · rw [bind_table_self] at none
    exact absurd none (by simp)
  · rw [bind_table_self, Option.some.injEq] at dev
    rw [← dev]
    refine ⟨ok, ?_, ?_, ?_, fun _ => Or.inl ?_⟩
    · rw [bind_session_self]
      rfl
    · rw [bind_session_self]
    · rw [bind_session_self, bind_table_self]
      change (state.session ptr).events ++ (state.table circuit).pending = state.received circuit
      rw [fresh.events, kept.free circuit ok free]
      rfl
    · rw [bind_session_self]
  · by_cases here : another = ptr
    · rw [here, bind_session_self] at none
      exact absurd none (by simp)
    · rw [bind_session_ne here] at none ⊢
      exact kept.fresh another none
  · by_cases here : another = ptr
    · rw [here, bind_session_self, Option.some.injEq] at held
      rw [← held, bind_table_self, here]
    · rw [bind_session_ne here] at held
      have dev := kept.holds another other held
      rw [bind_table_ne, dev]
      rintro rfl
      rw [free] at dev
      exact absurd dev (by simp)

end Bind

/-- One client less for a call. -/
theorem Kept.setClients {state : State} {circuit : TableCircuit} {clients : Nat}
    (kept : Kept config state) :
    Kept config (state.setEntry circuit { state.table circuit with clients := clients }) := by
  generalize next : state.setEntry circuit { state.table circuit with clients := clients } = changed
  have self : changed.table circuit = { state.table circuit with clients := clients } := by
    rw [← next]
    exact Function.update_self circuit _ state.table
  have elsewhere : ∀ other, other ≠ circuit → changed.table other = state.table other := by
    intro other ne
    rw [← next]
    exact Function.update_of_ne ne _ state.table
  have sessions : changed.session = state.session := by rw [← next, setEntry_session]
  have received : changed.received = state.received := by rw [← next, setEntry_received]
  have monitor : changed.monitor = state.monitor := by rw [← next, setEntry_monitor]
  have devs : ∀ other, (changed.table other).dev = (state.table other).dev := by
    intro other
    by_cases here : other = circuit
    · rw [here, self]
    · rw [elsewhere other here]
  have around : Around circuit state changed := by
    refine ⟨elsewhere, fun other _ => by rw [received], fun other ptr _ _ => by rw [sessions],
      fun other ptr _ _ awaits => ?_⟩
    rw [Awaits, sessions, monitor]
    exact awaits
  refine kept.around around (fun ok none => ?_) (fun ptr dev => ?_) ?_ fun ptr other held => ?_
  · rw [devs] at none
    rw [self, received]
    exact kept.free circuit ok none
  · rw [devs] at dev
    have taken := kept.taken circuit ptr dev
    refine ⟨taken.valid, ?_, ?_, ?_, ?_⟩
    · rw [sessions]
      exact taken.session
    · rw [sessions]
      exact taken.interface
    · rw [sessions, self, received]
      exact taken.order
    · rw [self, Awaits, sessions, monitor]
      exact taken.awaits
  · rw [sessions]
    exact kept.fresh
  · rw [sessions] at held
    rw [devs]
    exact kept.holds ptr other held

theorem Kept.claim {state : State} {ptr : Ptr} {circuit : TableCircuit} {rest : List Nat}
    {hangup : Bool} (kept : Kept config state) :
    Kept config (claim config state ptr circuit rest hangup) := by
  have refused : Kept config (state.setSession ptr { state.session ptr with hangup := true }) :=
    kept.setSession ⟨rfl, rfl, rfl, Or.inl rfl⟩
  rw [Dialed.claim]
  dsimp only
  split
  · split
    · exact kept
    · exact refused
  next idle =>
    split
    next ok =>
      split
      · exact refused
      next unowned =>
        split
        · exact refused.setClients
        · refine kept.bind ok ?_ idle
          cases owner : (state.table circuit).dev with
          | none => rfl
          | some other => exact absurd (Or.inl (by rw [owner]; rfl)) unowned
    · exact refused

theorem Kept.step {state : State} {op : Op} (kept : Kept config state) (counted : Counted op)
    (room : Room config state op) :
    ∃ next, step config state op = some next ∧ Kept config next := by
  cases op with
  | callStart circuit rand clients =>
      rw [Dialed.step]
      split
      · exact ⟨_, rfl, kept.callStart⟩
      · exact ⟨_, rfl, kept⟩
  | digitIn circuit called count =>
      rw [Dialed.step]
      split
      next idle => exact kept.digitIn idle counted (room idle)
      · exact ⟨_, rfl, kept⟩
  | digitLook =>
      rw [Dialed.step]
      split
      next appended => exact ⟨_, rfl, kept.digitLook appended⟩
      · exact ⟨_, rfl, kept⟩
  | digitCheck =>
      rw [Dialed.step]
      split
      next ptr checking => exact ⟨_, rfl, kept.digitCheck checking (room ptr checking)⟩
      · exact ⟨_, rfl, kept⟩
  | claim ptr circuit rest hangup => exact ⟨_, rfl, kept.claim⟩
  | check ptr => exact ⟨_, rfl, kept.check room⟩

theorem kept_initial : Kept config initial := by
  refine ⟨fun _ _ _ => ?_, fun _ _ dev => ?_, fun _ _ => ⟨rfl, rfl, rfl⟩, fun _ _ held => ?_⟩
  · exact pending_empty rfl
  · exact absurd dev (by simp [initial])
  · exact absurd held (by simp [initial])

theorem Kept.delivered {state : State} (kept : Kept config state) : Delivered state := by
  refine ⟨fun circuit ptr dev => (kept.taken circuit ptr dev).order, ?_⟩
  intro circuit ptr dev looked idle
  have taken := kept.taken circuit ptr dev
  have empty : (state.table circuit).digitsLen = 0 := by
    by_contra some
    rcases taken.awaits some with flag | appended | checking
    · rw [looked] at flag
      exact absurd flag (by simp)
    · rw [idle] at appended
      exact absurd appended (by simp)
    · rw [idle] at checking
      exact absurd checking (by simp)
  have order := taken.order
  rwa [pending_empty empty, List.append_nil] at order

/-- As long as the digits fit into their array and can be found from the name of the interface, none
is written outside of the array and a session gets the digits of the call it takes, each once and in
order. -/
theorem overlap_digits (config : Config) (ops : List Op) (counted : ∀ op ∈ ops, Counted op)
    (room : Along (step config) (Room config) initial ops) :
    ∃ last, run (step config) initial ops = some last ∧ Delivered last := by
  obtain ⟨last, ran, kept⟩ :=
    (Along.and (Along.of_forall initial ops counted) room).run
      (fun state op kept allowed => kept.step allowed.1 allowed.2) kept_initial
  exact ⟨last, ran, kept.delivered⟩

def spans : Config := { maxSpans := 32, maxChans := 31, autoacm := false }

theorem first_inTable : InTable (0, 0) := by decide

def first : TableCircuit := ⟨(0, 0), first_inTable⟩

theorem digit_nonzero : (0 : Octet) ∉ ([0x31, 0x32] : List Octet) := by decide

theorem digit_short : ([0x31, 0x32] : List Octet).length ≤ maxDialedDigits := by decide

def twoDigits : Called := ⟨[0x31, 0x32], digit_nonzero, digit_short⟩

theorem overlap_digits_taken :
    ∃ last, run (step spans) initial
        [.callStart first [4, 5] 1, .digitIn first twoDigits 2, .digitLook,
          .claim 7 first [4, 5] false, .check 7, .digitIn first twoDigits 2, .digitLook,
          .digitCheck] = some last ∧ Delivered last :=
  overlap_digits spans _ (by decide) (by decide)

theorem full_nonzero : (0 : Octet) ∉ List.replicate 31 (0x39 : Octet) := by decide

theorem full_short : (List.replicate 31 (0x39 : Octet)).length ≤ maxDialedDigits := by decide

def fullDigits : Called := ⟨List.replicate 31 0x39, full_nonzero, full_short⟩

/-- A call, 31 digits of it and then two more before a client takes it. -/
def tooManyDigits : List Op :=
  [.callStart first [4, 5] 1, .digitIn first fullDigits 31, .digitLook,
    .digitIn first twoDigits 2]

theorem overlap_digits_overrun :
    ¬∀ config : Config, ∀ ops : List Op, (∀ op ∈ ops, Counted op) →
      ∃ last, run (step config) initial ops = some last ∧ Delivered last := by
  intro all
  obtain ⟨last, ran, -⟩ := all spans tooManyDigits (by decide)
  have stops : (run (step spans) initial tooManyDigits).isNone = true := by decide
  rw [ran] at stops
  exact absurd stops (by simp)

end Wanpipe.Mgd.Dialed
