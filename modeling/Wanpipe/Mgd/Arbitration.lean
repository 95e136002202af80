import Mathlib.Data.List.Induction
import Wanpipe.Mgd.Offer
import Wanpipe.Mgd.Survive

/-! How the clients share an incoming call that is offered to all of them. -/

namespace Wanpipe.Mgd

open Line Runs

namespace Offer

variable {offer : Offer} {server : Server} {ptr : Ptr} {command : SessionCommand}

/-- The client's session takes the call. -/
def entered (offer : Offer) (server : Server) (ptr : Ptr) : Server :=
  (server.onSlot offer.event.circuit fun slot => { slot with dev := some ptr }).onWoomera ptr
    (boundWoomera offer.uniqueId offer.event.circuit)

/-- One client less is waited for. -/
def skipped (offer : Offer) (server : Server) (ptr : Ptr) : Server :=
  (server.onSlot offer.event.circuit fun slot =>
    { slot with clients := slot.clients - 1 }).onWoomera ptr hangUp

theorem valid_session :
    smgValidateSpanChan offer.config offer.uniqueId.span offer.uniqueId.chan = true :=
  offer.valid

theorem reply_refused (fresh : (server.woomera ptr).session = none)
    (busy : (offer.slot server).dev.isSome = true) :
    offer.step server (.reply ptr command) = some (server.onWoomera ptr hangUp) := by
  have found : findSession offer.config server ptr offer.uniqueId command =
      some (.hungUp (server.onWoomera ptr hangUp)) := by
    simp only [findSession, fresh]
    rw [if_pos valid_session]
    exact (if_pos offer.inTable).trans (if_pos busy)
  simp only [step, interpretCommand, found]

section Unclaimed

variable (fresh : (server.woomera ptr).session = none) (idle : (offer.slot server).dev = none)
  (own : (offer.slot server).session = some offer.uniqueId)
include fresh idle own

theorem reply_skipped (hangs : command.hangsUp = true) (more : 1 < (offer.slot server).clients) :
    offer.step server (.reply ptr command) = some (offer.skipped server ptr) := by
  have free : ¬ (offer.slot server).dev.isSome = true := by simp [idle]
  have found : findSession offer.config server ptr offer.uniqueId command =
      some (.hungUp (offer.skipped server ptr)) := by
    simp only [findSession, fresh]
    rw [if_pos valid_session]
    refine (if_pos offer.inTable).trans ((if_neg free).trans ((if_neg (not_not.mpr own)).trans ?_))
    cases command with
    | hangup cause => exact if_pos more
    | progress | media | accept | answer | other => contradiction
  simp only [step, interpretCommand, found]

theorem reply_taken (last : command.hangsUp = false ∨ (offer.slot server).clients ≤ 1) :
    offer.step server (.reply ptr command) =
      some (runCommand offer.config (offer.entered server ptr) ptr command) := by
  have free : ¬ (offer.slot server).dev.isSome = true := by simp [idle]
  have found : findSession offer.config server ptr offer.uniqueId command =
      some (.found (offer.entered server ptr)) := by
    simp only [findSession, fresh]
    rw [if_pos valid_session]
    refine (if_pos offer.inTable).trans ((if_neg free).trans ((if_neg (not_not.mpr own)).trans ?_))
    cases command with
    | hangup cause =>
        rcases last with apart | few
        · contradiction
        · exact if_neg (Nat.not_lt.mpr few)
    | progress | media | accept | answer | other => rfl
  simp only [step, interpretCommand, found]

end Unclaimed

@[simp] theorem slot_entered : offer.slot (offer.entered server ptr) =
    { offer.slot server with dev := some ptr } := by
  simp [slot, entered]

@[simp] theorem slot_skipped : offer.slot (offer.skipped server ptr) =
    { offer.slot server with clients := (offer.slot server).clients - 1 } := by
  simp [slot, skipped]

@[simp] theorem slot_stored (clients : Nat) :
    offer.slot (storeClients server offer.event.circuit clients) =
      { offer.slot server with clients := clients } := by
  simp [slot, storeClients]

@[simp] theorem slot_onWoomera (change : Woomera → Woomera) :
    offer.slot (server.onWoomera ptr change) = offer.slot server := rfl

theorem slot_taken : offer.slot (runCommand offer.config (offer.entered server ptr) ptr command) =
    { offer.slot server with dev := some ptr } := by
  rw [← slot_entered, slot, slot, (runCommand_untouched command).table]

theorem session_taken :
    ((runCommand offer.config (offer.entered server ptr) ptr command).woomera ptr).session =
      some offer.uniqueId := by
  rw [(runCommand_untouched command).session, entered, onWoomera_woomera, Function.update_self]
  rfl

theorem taken_releases (idle : (offer.slot server).dev = none) (hangs : command.hangsUp = true) :
    offer.Releases server (runCommand offer.config (offer.entered server ptr) ptr command) ptr := by
  refine ⟨idle, by rw [slot_taken], ?_⟩
  cases command with
  | hangup cause =>
      apply hangup_ends
      rw [entered, onWoomera_woomera, Function.update_self]
      exact offer.valid
  | progress | media | accept | answer | other => contradiction

theorem taken_others {other : Ptr} (apart : other ≠ ptr) :
    (runCommand offer.config (offer.entered server ptr) ptr command).woomera other =
      server.woomera other := by
  rw [(runCommand_served command Served.refl).others other apart, entered, onWoomera_woomera,
    Function.update_of_ne apart, onSlot_woomera]

/-- What an order leaves for the step behind the steps of `front`. -/
structure Next (offer : Offer) (front : List OfferOp) (op : OfferOp) : Prop where
  store : op = .store → .store ∉ front
  reply : ∀ ptr command, op = .reply ptr command →
    ptr ∈ offer.clients ∧ ptr ∉ front.filterMap OfferOp.client ∧
      (command.takes = true ∨ command.hangsUp = true) ∧
      (front.filterMap OfferOp.client).length < offer.clients.length

theorem Order.next {front rest : List OfferOp} {op : OfferOp}
    (order : offer.Order (front ++ op :: rest)) : offer.Next front op := by
  constructor
  · rintro rfl earlier
    have once := order.stored
    have some_ := List.count_pos_iff.mpr earlier
    rw [List.count_append, List.count_cons_self] at once
    omega
  · rintro ptr command rfl
    have replies := order.replies
    have here : OfferOp.client (.reply ptr command) = some ptr := rfl
    rw [List.filterMap_append, List.filterMap_cons_some here] at replies
    have distinct := replies.nodup_iff.mpr offer.distinct
    have length := replies.length_eq
    refine ⟨replies.subset (by simp), ?_, ?_, ?_⟩
    · intro earlier
      exact (List.nodup_append.mp distinct).2.2 ptr earlier ptr List.mem_cons_self rfl
    · exact order.commands (.reply ptr command) (by simp) (by simp)
    · rw [List.length_append, List.length_cons] at length
      omega

/-- The call waits for a client to take it. -/
structure Unclaimed (offer : Offer) (server : Server) (clients : Nat) : Prop where
  dev : (offer.slot server).dev = none
  session : (offer.slot server).session = some offer.uniqueId
  clients : (offer.slot server).clients = clients

/-- Behind the steps of `front` the call is taken, or nothing has happened, or all the answers were
hangups and the number that is left stands in the slot. -/
inductive Phase (offer : Offer) (server : Server) (front : List OfferOp) : Prop
  | taken (dev : (offer.slot server).dev.isSome = true)
  | offered (start : front = []) (unclaimed : offer.Unclaimed server 0)
  | waiting (left : Nat) (stored : .store ∈ front) (refused : ∀ op ∈ front, op.takes = false)
      (unclaimed : offer.Unclaimed server left)
      (counted : left + (front.filterMap OfferOp.client).length = offer.clients.length)

def Fresh (offer : Offer) (server : Server) (front : List OfferOp) : Prop :=
  ∀ ptr ∈ offer.clients, ptr ∉ front.filterMap OfferOp.client →
    (server.woomera ptr).session = none

theorem Fresh.store {front : List OfferOp} (fresh : offer.Fresh server front) (clients : Nat) :
    offer.Fresh (storeClients server offer.event.circuit clients) (front ++ [.store]) := by
  intro ptr member silent
  apply fresh ptr member
  simpa [OfferOp.client] using silent

theorem Fresh.reply {front : List OfferOp} {next : Server} (fresh : offer.Fresh server front)
    (others : ∀ other, other ≠ ptr → next.woomera other = server.woomera other) :
    offer.Fresh next (front ++ [.reply ptr command]) := by
  intro other member silent
  rw [List.filterMap_append, List.mem_append, not_or] at silent
  have apart : other ≠ ptr := by
    intro same
    apply silent.2
    simp [OfferOp.client, same]
  rw [others other apart]
  exact fresh other member silent.1

theorem hangUp_others {change : Woomera → Woomera} (other : Ptr) (apart : other ≠ ptr) :
    (server.onWoomera ptr change).woomera other = server.woomera other := by
  rw [onWoomera_woomera, Function.update_of_ne apart]

/-- A client takes the call, or is the last one to refuse it. -/
theorem taken_fair {front : List OfferOp} (idle : (offer.slot server).dev = none)
    (last : command.hangsUp = true →
      (front.filterMap OfferOp.client).length + 1 = offer.clients.length ∧
        ∀ earlier ∈ front, earlier.takes = false) :
    offer.Fair front server
      (runCommand offer.config (offer.entered server ptr) ptr command) (.reply ptr command) where
  kept other claimed := by
    rw [idle] at claimed
    contradiction
  taken other answer same _ _ := by
    cases same
    exact ⟨by rw [slot_taken], session_taken⟩
  released other answer same hangs _ := by
    cases same
    exact last hangs

/-- A step that enters nobody takes no call, and releases none. -/
theorem unmoved_fair {front : List OfferOp} {next : Server} {op : OfferOp}
    (same : (offer.slot next).dev = (offer.slot server).dev)
    (busy : op.takes = true → (offer.slot server).dev.isSome = true) :
    offer.Fair front server next op where
  kept ptr claimed := same.trans claimed
  taken ptr command here takes idle := by
    have claimed := busy (by rw [here]; exact takes)
    rw [idle] at claimed
    contradiction
  released ptr command _ _ releases := by
    have entered := releases.2.1
    rw [same, releases.1] at entered
    contradiction

/-- One step, unless it is a hangup that comes first while others are still to answer. -/
theorem step_fair {front : List OfferOp} {op : OfferOp} (fresh : offer.Fresh server front)
    (phase : offer.Phase server front) (next : offer.Next front op)
    (sound : offer.clients.length = 1 ∨ (front = [] → op.hangsUp = false)) :
    ∃ after, offer.step server op = some after ∧ offer.Fresh after (front ++ [op]) ∧
      offer.Phase after (front ++ [op]) ∧ offer.Fair front server after op := by
  cases op with
  | store =>
      refine ⟨_, rfl, fresh.store _, ?_, ?_⟩
      · cases phase with
        | taken dev => exact .taken (by rw [slot_stored]; exact dev)
        | offered start unclaimed =>
            refine .waiting offer.clients.length (by simp) ?_ ⟨?_, ?_, ?_⟩ ?_
            · simp [start, OfferOp.takes]
            · rw [slot_stored]
              exact unclaimed.dev
            · rw [slot_stored]
              exact unclaimed.session
            · rw [slot_stored]
            · simp [start, OfferOp.client]
        | waiting left stored => exact absurd stored (next.store rfl)
      · apply unmoved_fair
        · rw [slot_stored]
        · nofun
  | reply ptr command =>
      obtain ⟨member, silent, answers, few⟩ := next.reply ptr command rfl
      have own := fresh ptr member silent
      cases phase with
      | taken dev =>
          refine ⟨_, reply_refused own dev, fresh.reply hangUp_others, .taken dev, ?_⟩
          exact unmoved_fair rfl fun _ => dev
      | offered start unclaimed =>
          refine ⟨_, reply_taken own unclaimed.dev unclaimed.session (.inr ?_),
            fresh.reply fun other apart => taken_others apart, .taken ?_,
            taken_fair unclaimed.dev ?_⟩
          · rw [unclaimed.clients]
            exact Nat.zero_le 1
          · rw [slot_taken]
            rfl
          · intro hangs
            rcases sound with alone | later
            · simp [start, alone]
            · rw [OfferOp.hangsUp, hangs] at later
              exact absurd (later start) (by simp)
      | waiting left stored refused unclaimed counted =>
          by_cases takes : command.hangsUp = false ∨ left ≤ 1
          · have last : command.hangsUp = true → left = 1 := by
              intro hangs
              rcases takes with apart | one
              · rw [hangs] at apart
                contradiction
              · omega
            rw [← unclaimed.clients] at takes
            refine ⟨_, reply_taken own unclaimed.dev unclaimed.session takes,
              fresh.reply fun other apart => taken_others apart, .taken ?_,
              taken_fair unclaimed.dev ?_⟩
            · rw [slot_taken]
              rfl
            · intro hangs
              have one := last hangs
              exact ⟨by omega, refused⟩
          · obtain ⟨hangs, more⟩ := not_or.mp takes
            rw [Bool.not_eq_false] at hangs
            have not_takes : command.takes = false := by
              cases command <;> first | rfl | contradiction
            refine ⟨_, reply_skipped own unclaimed.dev unclaimed.session hangs ?_,
              fresh.reply ?_, .waiting (left - 1) (by simp [stored]) ?_ ⟨?_, ?_, ?_⟩ ?_, ?_⟩
            · rw [unclaimed.clients]
              omega
            · intro other apart
              rw [skipped, hangUp_others other apart, onSlot_woomera]
            · intro earlier known
              rcases List.mem_append.mp known with old | new
              · exact refused earlier old
              · rw [List.mem_singleton.mp new]
                exact not_takes
            · rw [slot_skipped]
              exact unclaimed.dev
            · rw [slot_skipped]
              exact unclaimed.session
            · rw [slot_skipped, ← unclaimed.clients]
            · rw [List.filterMap_append, List.length_append]
              simp only [List.filterMap_cons, OfferOp.client, List.filterMap_nil,
                List.length_singleton]
              omega
            · apply unmoved_fair
              · rw [slot_skipped]
              · intro impossible
                rw [OfferOp.takes, not_takes] at impossible
                contradiction

/-- The state that each prefix of an order leads to. -/
theorem run_phase {ops : List OfferOp} (order : offer.Order ops) (fresh : offer.Fresh server [])
    (unclaimed : offer.Unclaimed server 0)
    (sound : offer.clients.length = 1 ∨ ∀ op ∈ ops.head?, op.hangsUp = false)
    (front rest : List OfferOp) (split : ops = front ++ rest) :
    ∃ here, run offer.step server front = some here ∧ offer.Fresh here front ∧
      offer.Phase here front := by
  induction front using List.reverseRecOn generalizing rest with
  | nil => exact ⟨server, rfl, fresh, .offered rfl unclaimed⟩
  | append_singleton front op ih =>
      rw [List.append_assoc] at split
      obtain ⟨here, ran, known, phase⟩ := ih _ split
      have next : offer.Next front op := @Order.next offer front rest op (split ▸ order)
      have first : offer.clients.length = 1 ∨ (front = [] → op.hangsUp = false) := by
        apply sound.imp_right
        rintro quiet rfl
        exact quiet op (by rw [split]; rfl)
      obtain ⟨after, moved, newly, later, -⟩ := step_fair known phase next first
      refine ⟨after, ?_, newly, later⟩
      rw [run_append, ran, Option.bind_some, run, moved]
      rfl

theorem arbitrated_of {ops : List OfferOp} (order : offer.Order ops)
    (fresh : offer.Fresh server []) (unclaimed : offer.Unclaimed server 0)
    (sound : offer.clients.length = 1 ∨ ∀ op ∈ ops.head?, op.hangsUp = false) :
    offer.Arbitrated server ops := by
  constructor
  · obtain ⟨last, ran, -⟩ := run_phase order fresh unclaimed sound ops [] (by simp)
    rw [ran]
    rfl
  · intro front op rest split before after ran moved
    obtain ⟨here, reached, known, phase⟩ := run_phase order fresh unclaimed sound front _ split
    rw [ran, Option.some.injEq] at reached
    subst reached
    have first : offer.clients.length = 1 ∨ (front = [] → op.hangsUp = false) := by
      apply sound.imp_right
      rintro quiet rfl
      exact quiet op (by rw [split]; rfl)
    obtain ⟨next, went, -, -, fair⟩ := step_fair known phase (Order.next (split ▸ order)) first
    rw [moved, Option.some.injEq] at went
    rw [went]
    exact fair

/-- A hangup before the number of clients is stored ends the call for all of them. -/
theorem early_hangup {ops : List OfferOp} {op : OfferOp} (order : offer.Order (op :: ops))
    (fresh : offer.Fresh server []) (unclaimed : offer.Unclaimed server 0)
    (hangs : op.hangsUp = true) (fair : offer.Arbitrated server (op :: ops)) :
    offer.clients.length = 1 := by
  cases op with
  | store => contradiction
  | reply ptr command =>
      obtain ⟨member, silent, -⟩ := (@Order.next offer [] ops _ order).reply ptr command rfl
      have moved := reply_taken (fresh ptr member silent) unclaimed.dev unclaimed.session
        (.inr (by rw [unclaimed.clients]; exact Nat.zero_le 1) :
          command.hangsUp = false ∨ (offer.slot server).clients ≤ 1)
      have first := fair.fair [] _ ops rfl server _ rfl moved
      have last := first.released ptr command rfl hangs (taken_releases unclaimed.dev hangs)
      exact last.1.symm

theorem unclaimed_offer (offer : Offer) (server : Server) :
    offer.Unclaimed (offerCall offer.config server offer.event offer.rand) 0 := by
  have slot : offer.slot (offerCall offer.config server offer.event offer.rand) =
      startSlot offer.event offer.rand 0 (offer.slot server) := by
    rw [Offer.slot, offerCall]
    split
    · rw [answer, isupExecCommand_processTable, onSlot_processTable, Function.update_self]
      rfl
    · rw [onSlot_processTable, Function.update_self]
      rfl
  constructor
  · rw [slot]
    rfl
  · rw [slot]
    rfl
  · rw [slot]
    rfl

/-- A call is shared fairly among its clients exactly when there is one, or the first to come is
not a hangup. -/
theorem smg_arbitration (offer : Offer) (server : Server) (ops : List OfferOp)
    (own : ∀ ptr ∈ offer.clients, (server.woomera ptr).session = none)
    (order : offer.Order ops) :
    offer.Arbitrated (offerCall offer.config server offer.event offer.rand) ops ↔
      offer.clients.length = 1 ∨ ∀ op ∈ ops.head?, op.hangsUp = false := by
  have unclaimed := unclaimed_offer offer server
  have fresh : offer.Fresh (offerCall offer.config server offer.event offer.rand) [] := by
    intro ptr member _
    rw [offerCall]
    split
    · rw [answer, isupExecCommand_woomera]
      exact own ptr member
    · exact own ptr member
  constructor
  · intro fair
    cases ops with
    | nil => exact .inr (by simp)
    | cons op ops =>
        by_cases hangs : op.hangsUp = true
        · exact .inl (early_hangup order fresh unclaimed hangs fair)
        · right
          intro first here
          cases here
          exact Bool.eq_false_iff.mpr hangs
  · exact arbitrated_of order fresh unclaimed


/-- A call on the first circuit, with two listeners. -/
def twoClients : Offer where
  config := t1Config
  event := { busyNack with id := .callStart }
  rand := [1, 2]
  clients := [0, 1]
  distinct := by decide
  heard := by decide
  valid := by decide
  inTable := by decide

def noMedia : MediaArgs := { raw := false, launch := false }

/-- The first client refuses and the second one accepts, once the number is stored. -/
def refusedThenTaken : List OfferOp :=
  [.store, .reply 0 (.hangup 16), .reply 1 (.accept noMedia)]

theorem smg_arbitration_stored :
    twoClients.Arbitrated (offerCall t1Config idleServer twoClients.event [1, 2])
        refusedThenTaken ↔
      twoClients.clients.length = 1 ∨ ∀ op ∈ refusedThenTaken.head?, op.hangsUp = false :=
  smg_arbitration twoClients idleServer refusedThenTaken (fun _ _ => rfl)
    ⟨.refl _, by decide, by decide⟩

/-- The first client refuses before the number is stored: the call ends for the second one too. -/
theorem smg_arbitration_early :
    ¬ ∀ (offer : Offer) (server : Server) (ops : List OfferOp),
      (∀ ptr ∈ offer.clients, (server.woomera ptr).session = none) → offer.Order ops →
      offer.Arbitrated (offerCall offer.config server offer.event offer.rand) ops := by
  intro always
  have order : twoClients.Order [.reply 0 (.hangup 16), .store, .reply 1 (.accept noMedia)] :=
    ⟨.refl _, by decide, by decide⟩
  have alone := early_hangup order (fun _ _ _ => rfl) (unclaimed_offer twoClients idleServer) rfl
    (always twoClients idleServer _ (fun _ _ => rfl) order)
  contradiction

end Offer

end Wanpipe.Mgd
