import Wanpipe.TdmApi.Table

/-! The registration table over sequences of registrations of which some fail. -/

namespace Wanpipe.TdmApi

open Line Runs

/-- A registration meets no failure up to the character device. -/
structure Admits (card : Card) (t : Nat) (out : Outcomes) : Prop where
  rxBuffers : rxPoolSz ≤ out.rxBuffers
  eventBuffers : eventQueueLen (deviceTimeslots (card.devs t)) ≤ out.eventBuffers
  config : ConfigOk (card.devs t)
  channels : ChannelsFree card (card.devs t)

/-- A registration that keeps the table: it does not reach the error exit before `card` is set, a
missing card device is reported as an error, it does not fail at all while a device is registered,
and not at the character device once channels are entered. -/
structure RegAllowed (card : Card) (t : Nat) (out : Outcomes) : Prop where
  cdev : out.cdev = true
  cardDev : card.tdmApiDev = none → out.cardDev = false → card.wpTdmapiGlobalCnt ≠ 0
  registered : ∀ u, Registered card u → Admits card t out ∧ out.cdevCreate = 0
  cdevCreate : out.cardDev = true → Admits card t out → out.cdevCreate ≠ 0 →
    (card.devs t).activeCh = 0#32

/-- An unregistration that keeps the table: it is refused, or no other device is registered. -/
def UnregAllowed (card : Card) (t : Nat) : Prop :=
  Registered card t → (card.devs t).used = false → ∀ u, Registered card u → u = t

def Allowed (card : Card) : RegOp → Prop
  | .reg t out => RegAllowed card t out
  | .unreg t => UnregAllowed card t
  | _ => True

/-- What a failed registration has to leave alone. -/
structure Unchanged (card next : Card) (t : Nat) : Prop where
  hash : next.wpTdmapiHash = card.wpTdmapiHash
  cardDev : next.tdmApiDev = card.tdmApiDev
  others : ∀ u, u ≠ t → next.devs u = card.devs u

/-- The registration returns with a table that is in order, and an error has changed nothing. -/
def RegKept (card : Card) (t : Nat) (result : Option (Int × Card)) : Prop :=
  ∃ err next, result = some (err, next) ∧ Steady next ∧ (err ≠ 0 → Unchanged card next t)

theorem addTimeslots_refCnt (isE1 : Bool) (cardDev : CardDev) (dev : Dev) :
    (addTimeslots isE1 cardDev dev).refCnt = cardDev.refCnt := by
  simp only [addTimeslots]
  split <;> rfl

theorem putCardDev_last {cardDev : CardDev} (last : cardDev.refCnt = 1) :
    putCardDev (some cardDev) = none := by
  simp [putCardDev, last]

/-- The state in which the buffers are asked for. -/
structure Counted (card : Card) (t : Nat) (cardDev : CardDev) (next : Card) : Prop where
  frame : Frame t card next
  hash : next.wpTdmapiHash = card.wpTdmapiHash
  cardDev : ∃ made, next.tdmApiDev = some made ∧ made.refCnt = cardDev.refCnt
  timeslots : (next.devs t).timeslots = deviceTimeslots (card.devs t)
  config : ConfigOk (next.devs t) ↔ ConfigOk (card.devs t)

theorem countTimeslots_counted (card : Card) (t : Nat) (cardDev : CardDev) :
    Counted card t cardDev (countTimeslots (countDevice card) t cardDev) := by
  constructor
  · exact ((Frame.refl t card).set (countedDev (card.devs t)) rfl rfl).of_devs rfl
  · rfl
  · exact ⟨_, rfl, addTimeslots_refCnt card.isE1 cardDev (card.devs t)⟩
  · simp [countTimeslots, countDevice, countedDev]
  · simp [countTimeslots, countDevice, countedDev, ConfigOk]

theorem wanpipeTdmApiReg_cardDev {card : Card} {t : Nat} {out : Outcomes} (mem : out.cdev = true)
    {cardDev : CardDev} (got : getCardDev card out = some cardDev) :
    wanpipeTdmApiReg card t out =
      some (regBuffers (countTimeslots (countDevice card) t cardDev) t out) := by
  simp only [wanpipeTdmApiReg, if_pos mem, got]

theorem aftTdmApiInit_ok {card next : Card} {t : Nat} {out : Outcomes}
    (ran : wanpipeTdmApiReg card t out = some (0, next)) :
    aftTdmApiInit card t out = some (0, setInit next t true) := by
  simp [aftTdmApiInit, ran]

theorem aftTdmApiInit_error {card next : Card} {t : Nat} {out : Outcomes} {err : Int}
    (ran : wanpipeTdmApiReg card t out = some (err, next)) (failed : err ≠ 0) :
    aftTdmApiInit card t out = some (err, next) := by
  simp [aftTdmApiInit, ran, failed]

/-- A device is entered in a table that has its channels free. -/
theorem Steady.enter {card next : Card} {t : Nat} {cardDev : CardDev} (steady : Steady card)
    (free : ChannelsFree card (card.devs t)) (frame : Frame t card next)
    (hash : next.wpTdmapiHash =
      fun ch => if (card.devs t).activeCh.getLsbD ch then some t else card.wpTdmapiHash ch)
    (made : next.tdmApiDev = some cardDev) (one : cardDev.refCnt = 1) :
    Steady (setInit next t true) := by
  have registered (u : Nat) :
      Registered (setInit next t true) u ↔ u = t ∨ Registered card u := by
    by_cases same : u = t
    · subst same
      simp [Registered, setInit]
    · rw [Registered, setInit, Card.setDev_other _ _ same, frame.others u same]
      simp [same, Registered]
  have activeCh (u : Nat) :
      ((setInit next t true).devs u).activeCh = (card.devs u).activeCh := by
    by_cases same : u = t
    · subst same
      rw [setInit, Card.setDev_self]
      exact frame.activeCh
    · rw [setInit, Card.setDev_other _ _ same, frame.others u same]
  refine ⟨⟨?_, ?_⟩, ?_⟩
  · intro ch u
    rw [registered u, activeCh u]
    have entered : (setInit next t true).wpTdmapiHash ch =
        if (card.devs t).activeCh.getLsbD ch then some t else card.wpTdmapiHash ch := by
      rw [← congrFun hash ch]
      rfl
    rw [entered]
    by_cases bit : (card.devs t).activeCh.getLsbD ch = true
    · rw [if_pos bit]
      constructor
      · rintro ⟨rfl⟩
        exact ⟨.inl rfl, bit⟩
      · rintro ⟨rfl | member, other⟩
        · rfl
        · have taken := (steady.hash ch u).mpr ⟨member, other⟩
          rw [free ch bit] at taken
          cases taken
    · rw [if_neg bit, steady.hash ch u]
      constructor
      · rintro ⟨member, other⟩
        exact ⟨.inr member, other⟩
      · rintro ⟨rfl | member, other⟩
        · exact absurd other bit
        · exact ⟨member, other⟩
  · have some : (setInit next t true).tdmApiDev = some cardDev := made
    simp only [some, Option.isSome_some, true_iff]
    exact ⟨t, (registered t).mpr (.inl rfl)⟩
  · intro other same
    have some : (setInit next t true).tdmApiDev = some cardDev := made
    rw [some, Option.some.injEq] at same
    rw [← same, one]

/-- A registration without failure. -/
theorem reg_admitted {card : Card} {t : Nat} {out : Outcomes} {cardDev : CardDev}
    (steady : Steady card) (mem : out.cdev = true) (got : getCardDev card out = some cardDev)
    (one : cardDev.refCnt = 1) (admits : Admits card t out) (made : out.cdevCreate = 0) :
    RegKept card t (aftTdmApiInit card t out) := by
  have ran := wanpipeTdmApiReg_cardDev (t := t) mem got
  have counted := countTimeslots_counted card t cardDev
  generalize countTimeslots (countDevice card) t cardDev = filled at ran counted
  have events := admits.eventBuffers
  rw [← counted.timeslots] at events
  rcases regBuffers_granted admits.rxBuffers events (counted.config.mpr admits.config) with
    ⟨next, buffered, sameHash, sameDev, rest⟩
  have free : ChannelsFree next (next.devs t) := by
    rw [ChannelsFree, buffered.activeCh, counted.frame.activeCh, sameHash, counted.hash]
    exact admits.channels
  rcases regStore_free out free with ⟨err, stored, entered, kept⟩
  rcases counted.cardDev with ⟨held, dev, same⟩
  rw [made] at err
  rw [if_pos made, sameDev, dev] at kept
  rw [buffered.activeCh, counted.frame.activeCh, sameHash, counted.hash] at entered
  have whole : wanpipeTdmApiReg card t out = some (0, (regStore next t out).2) := by
    rw [ran, rest, ← err]
  refine ⟨0, _, aftTdmApiInit_ok whole, ?_, fun failed => absurd rfl failed⟩
  apply steady.enter admits.channels _ entered kept (same.trans one)
  exact (counted.frame.trans buffered).trans stored

/-- A failure that is met while no device is registered. -/
theorem reg_failed {card next : Card} {t : Nat} {out : Outcomes} {err : Int}
    (steady : Steady card) (ran : wanpipeTdmApiReg card t out = some (err, next))
    (failed : err ≠ 0) (frame : Frame t card next)
    (hash : next.wpTdmapiHash = card.wpTdmapiHash) (cardDev : next.tdmApiDev = card.tdmApiDev) :
    RegKept card t (aftTdmApiInit card t out) :=
  ⟨err, next, aftTdmApiInit_error ran failed, steady.frame frame hash cardDev,
    fun _ => ⟨hash, cardDev, frame.others⟩⟩

/-- The first registration of a card. -/
theorem reg_first {card : Card} {t : Nat} {out : Outcomes} (steady : Steady card)
    (fresh : Fresh card) (allowed : RegAllowed card t out) :
    RegKept card t (aftTdmApiInit card t out) := by
  have free : ChannelsFree card (card.devs t) := fun ch _ => fresh.hash ch
  by_cases mem : out.cardDev = true
  · have got : getCardDev card out = some newCardDev := by
      rw [getCardDev, fresh.cardDev]
      exact if_pos mem
    by_cases admitted : rxPoolSz ≤ out.rxBuffers ∧
        eventQueueLen (deviceTimeslots (card.devs t)) ≤ out.eventBuffers ∧
        ConfigOk (card.devs t)
    · have admits : Admits card t out := ⟨admitted.1, admitted.2.1, admitted.2.2, free⟩
      by_cases made : out.cdevCreate = 0
      · exact reg_admitted steady allowed.cdev got rfl admits made
      · have ran := wanpipeTdmApiReg_cardDev (t := t) allowed.cdev got
        have counted := countTimeslots_counted card t newCardDev
        generalize countTimeslots (countDevice card) t newCardDev = filled at ran counted
        have events := admits.eventBuffers
        rw [← counted.timeslots] at events
        rcases regBuffers_granted admits.rxBuffers events (counted.config.mpr admits.config) with
          ⟨next, buffered, sameHash, sameDev, rest⟩
        have noChannel := allowed.cdevCreate mem admits made
        have none : (next.devs t).activeCh = 0#32 := by
          rw [buffered.activeCh, counted.frame.activeCh, noChannel]
        have nextFree : ChannelsFree next (next.devs t) := by
          intro ch bit
          rw [none] at bit
          simp at bit
        rcases regStore_free out nextFree with ⟨err, stored, entered, kept⟩
        rcases counted.cardDev with ⟨held, dev, same⟩
        have whole : wanpipeTdmApiReg card t out =
            some (out.cdevCreate, (regStore next t out).2) := by
          rw [ran, rest, ← err]
        apply reg_failed steady whole made ((counted.frame.trans buffered).trans stored)
        · rw [entered, none, sameHash, counted.hash]
          simp
        · rw [kept, if_neg made, sameDev, dev, putCardDev_last same, fresh.cardDev]
    · have ran := wanpipeTdmApiReg_cardDev (t := t) allowed.cdev got
      have counted := countTimeslots_counted card t newCardDev
      generalize countTimeslots (countDevice card) t newCardDev = filled at ran counted
      rw [← counted.timeslots, ← counted.config] at admitted
      rcases regBuffers_refused admitted with ⟨err, frame, hash, cardDev⟩
      rcases counted.cardDev with ⟨held, dev, same⟩
      have left : (regBuffers filled t out).2.tdmApiDev = card.tdmApiDev := by
        rw [cardDev, dev, putCardDev_last same, fresh.cardDev]
      exact reg_failed steady ran err (counted.frame.trans frame) (hash.trans counted.hash) left
  · have none : getCardDev card out = none := by
      rw [getCardDev, fresh.cardDev]
      exact if_neg mem
    have count := allowed.cardDev fresh.cardDev (Bool.eq_false_iff.mpr mem)
    have ran : wanpipeTdmApiReg card t out =
        some (-einval, regErrorExit (countDevice card) t false) := by
      simp only [wanpipeTdmApiReg, if_pos allowed.cdev, none, if_neg count]
    have frame : Frame t card (countDevice card) := (Frame.refl t card).of_devs rfl
    apply reg_failed steady ran (by decide) (frame.exit false) rfl
    have put : (regErrorExit (countDevice card) t false).tdmApiDev = putCardDev card.tdmApiDev :=
      rfl
    rw [put, fresh.cardDev]
    rfl

theorem reg_kept {card : Card} {t : Nat} {out : Outcomes} (steady : Steady card)
    (allowed : RegAllowed card t out) : RegKept card t (aftTdmApiInit card t out) := by
  cases made : card.tdmApiDev with
  | none =>
      apply reg_first steady _ allowed
      apply steady.fresh_of_none
      intro u registered
      have some := steady.cardDev.mpr ⟨u, registered⟩
      rw [made] at some
      cases some
  | some cardDev =>
      have some : card.tdmApiDev.isSome = true := by rw [made]; rfl
      rcases steady.cardDev.mp some with ⟨u, registered⟩
      rcases allowed.registered u registered with ⟨admits, created⟩
      have got : getCardDev card out = Option.some cardDev := by rw [getCardDev, made]
      exact reg_admitted steady allowed.cdev got (steady.refCnt cardDev made) admits created

/-- An open device goes on as registered. -/
theorem aftTdmApiFree_busy {card : Card} {t : Nat} (registered : Registered card t)
    (busy : (card.devs t).used = true) :
    aftTdmApiFree card t = (-ebusy, setInit (setDown (setInit card t false) t) t true) := by
  have on : (card.devs t).init = true := registered
  have used : ((setInit card t false).devs t).used = true := by simp [setInit, busy]
  simp only [aftTdmApiFree, if_pos on, wanpipeTdmApiUnreg, if_pos used]
  rfl

theorem setDown_frame (card : Card) (t : Nat) : Frame t card (setDown card t) :=
  (Frame.refl t card).set { card.devs t with down := true } rfl rfl

/-- What is left of a device that is closed. -/
theorem aftTdmApiFree_closed {card : Card} {t : Nat} (registered : Registered card t)
    (closed : (card.devs t).used = false) :
    ∃ next, (aftTdmApiFree card t).2 = next ∧ (next.devs t).init = false ∧
      (∀ u, u ≠ t → next.devs u = card.devs u) ∧
      (next.wpTdmapiHash =
        fun ch => if (card.devs t).activeCh.getLsbD ch then none else card.wpTdmapiHash ch) ∧
      next.tdmApiDev = putCardDev card.tdmApiDev := by
  have on : (card.devs t).init = true := registered
  have idle : ((setInit card t false).devs t).used = false := by simp [setInit, closed]
  have frame := setDown_frame (setInit card t false) t
  have off : ((setInit card t false).devs t).init = false := by simp [setInit]
  have activeCh : ((setInit card t false).devs t).activeCh = (card.devs t).activeCh := by
    simp [setInit]
  have told := wpTdmapiUnregNotifyCtrl_devs (setDown (setInit card t false) t) t
  refine ⟨_, rfl, ?_⟩
  simp only [aftTdmApiFree, if_pos on, wanpipeTdmApiUnreg, idle, Bool.false_eq_true, if_false,
    if_true]
  generalize wpTdmapiUnregNotifyCtrl (setDown (setInit card t false) t) t = notified at told
  rcases told with ⟨devs, hash, cardDev⟩
  have released : (unregRelease notified t).devs =
      Function.update notified.devs t (wpTdmapiFreeBuffs (notified.devs t)) := rfl
  refine ⟨?_, ?_, ?_, ?_⟩
  · calc
      ((unregRelease notified t).devs t).init = (notified.devs t).init := by
        rw [released, Function.update_self]
        rfl
      _ = false := by rw [devs, frame.init, off]
  · intro u other
    rw [released, Function.update_of_ne other, devs, frame.others u other, setInit,
      Card.setDev_other _ _ other]
  · have removed : (unregRelease notified t).wpTdmapiHash =
        removeTdmApiPointerFromCard notified.wpTdmapiHash (notified.devs t).activeCh := rfl
    rw [removed, remove_eq, devs, frame.activeCh, activeCh, hash]
    rfl
  · exact congrArg putCardDev cardDev

theorem unreg_kept {card : Card} {t : Nat} (steady : Steady card)
    (allowed : UnregAllowed card t) : Steady (aftTdmApiFree card t).2 := by
  by_cases registered : Registered card t
  · by_cases busy : (card.devs t).used = true
    · rw [aftTdmApiFree_busy registered busy]
      have on : (card.devs t).init = true := registered
      have frame : Frame t card (setInit (setDown (setInit card t false) t) t true) := by
        constructor
        · intro u other
          simp [setDown, setInit, Card.setDev_other _ _ other]
        · simp [setInit, on]
        · simp [setDown, setInit]
      exact steady.frame frame rfl rfl
    · have idle := Bool.eq_false_iff.mpr busy
      have alone := allowed registered idle
      rcases aftTdmApiFree_closed registered idle with ⟨next, ended, off, others, hash, cardDev⟩
      rw [ended]
      apply Fresh.steady
      constructor
      · intro ch
        rw [hash]
        by_cases bit : (card.devs t).activeCh.getLsbD ch = true
        · exact if_pos bit
        · simp only [if_neg bit]
          cases taken : card.wpTdmapiHash ch with
          | none => rfl
          | some u =>
              rcases (steady.hash ch u).mp taken with ⟨member, other⟩
              rw [alone u member] at other
              exact absurd other bit
      · rw [cardDev]
        cases made : card.tdmApiDev with
        | none => rfl
        | some held => exact putCardDev_last (steady.refCnt held made)
      · intro u member
        by_cases same : u = t
        · rw [Registered, same, off] at member
          cases member
        · rw [Registered, others u same] at member
          exact same (alone u member)
  · have off : ¬ (card.devs t).init = true := registered
    have ended : aftTdmApiFree card t = (0, card) := by rw [aftTdmApiFree, if_neg off]
    rw [ended]
    exact steady

theorem regStep_kept {card : Card} {op : RegOp} (steady : Steady card)
    (allowed : Allowed card op) : ∃ next, regStep card op = some next ∧ Steady next := by
  cases op with
  | prepare t dev =>
      by_cases registered : (card.devs t).init = true
      · exact ⟨card, by simp [regStep, registered], steady⟩
      · refine ⟨card.setDev t { dev with init := false }, by simp [regStep, registered], ?_⟩
        apply steady.congr
        · intro u
          by_cases same : u = t
          · rw [same]
            simp [Registered, registered]
          · rw [Registered, Registered, Card.setDev_other _ _ same]
        · intro u member
          have other : u ≠ t := by
            intro same
            rw [same] at member
            exact registered member
          rw [Card.setDev_other _ _ other]
        · rfl
        · rfl
  | reg t out =>
      rcases reg_kept steady allowed with ⟨err, next, ran, keeps, -⟩
      exact ⟨next, by rw [regStep, ran]; rfl, keeps⟩
  | unreg t => exact ⟨_, rfl, unreg_kept steady allowed⟩
  | openDev t =>
      have kept := wpTdmapiOpen_kept (card.devs t)
      exact ⟨_, rfl, steady.frame ((Frame.refl t card).set _ kept.1 kept.2) rfl rfl⟩
  | closeDev t =>
      have kept := wpTdmapiRelease_kept (card.devs t)
      exact ⟨_, rfl, steady.frame ((Frame.refl t card).set _ kept.1 kept.2) rfl rfl⟩
  | otherCards cnt =>
      exact ⟨_, rfl, steady.frame ((Frame.refl 0 card).of_devs rfl) rfl rfl⟩

theorem regRun_kept {card : Card} {ops : List RegOp} (steady : Steady card)
    (along : Along regStep Allowed card ops) :
    ∃ last, run regStep card ops = some last ∧ Steady last :=
  Along.run (fun _ _ => regStep_kept) steady along

/-- A voice device of one channel. -/
def voiceDev (activeCh : BitVec 32) : Dev :=
  { Dev.zero with
    activeCh := activeCh
    cfg := { Cfg.zero with hwMtuMru := 8, usrPeriod := 20, usrMtuMru := 160, txQueueSz := 16 } }

def emptyCard : Card :=
  { isE1 := false, isBri := false, isAnalog := false, spanNo := 1#8, wpTdmapiHash := fun _ => none
    tdmApiDev := none, wpTdmapiGlobalCnt := 0, devs := fun t => voiceDev (1#32 <<< (t + 1))
    ctrl := Dev.zero, clock := fun _ => ⟨0#32, 0#32⟩, stamps := 0 }

def allThere : Outcomes :=
  { cdev := true, cardDev := true, rxBuffers := 16, eventBuffers := 10, cdevCreate := 0 }

theorem emptyCard_fresh : Fresh emptyCard :=
  ⟨fun _ => rfl, rfl, fun _ => by simp [Registered, emptyCard, voiceDev, Dev.zero]⟩

end Wanpipe.TdmApi
