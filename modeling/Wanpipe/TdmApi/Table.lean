import Wanpipe.TdmApi.Registration

/-! What the registration table of a card holds after any sequence of registrations. -/

namespace Wanpipe.TdmApi

open Line Runs

@[simp] theorem Card.setDev_self (card : Card) (t : Nat) (dev : Dev) :
    (card.setDev t dev).devs t = dev := by
  simp [Card.setDev]

theorem Card.setDev_other (card : Card) (dev : Dev) {t u : Nat} (other : u ≠ t) :
    (card.setDev t dev).devs u = card.devs u := by
  simp [Card.setDev, other]

@[simp] theorem Card.setDev_hash (card : Card) (t : Nat) (dev : Dev) :
    (card.setDev t dev).wpTdmapiHash = card.wpTdmapiHash := rfl

@[simp] theorem Card.setDev_tdmApiDev (card : Card) (t : Nat) (dev : Dev) :
    (card.setDev t dev).tdmApiDev = card.tdmApiDev := rfl

@[simp] theorem Card.setHash_devs (card : Card) (hash : Nat → Option Nat) :
    (card.setHash hash).devs = card.devs := rfl

@[simp] theorem Card.setHash_hash (card : Card) (hash : Nat → Option Nat) :
    (card.setHash hash).wpTdmapiHash = hash := rfl

@[simp] theorem Card.setHash_tdmApiDev (card : Card) (hash : Nat → Option Nat) :
    (card.setHash hash).tdmApiDev = card.tdmApiDev := rfl

@[simp] theorem Card.setCardDev_devs (card : Card) (cardDev : Option CardDev) :
    (card.setCardDev cardDev).devs = card.devs := rfl

@[simp] theorem Card.setCardDev_hash (card : Card) (cardDev : Option CardDev) :
    (card.setCardDev cardDev).wpTdmapiHash = card.wpTdmapiHash := rfl

@[simp] theorem Card.setCardDev_tdmApiDev (card : Card) (cardDev : Option CardDev) :
    (card.setCardDev cardDev).tdmApiDev = cardDev := rfl

/-- A step about one device: the other devices are as they were and this one keeps its channels and
whether it is registered. -/
structure Frame (t : Nat) (card next : Card) : Prop where
  others : ∀ u, u ≠ t → next.devs u = card.devs u
  init : (next.devs t).init = (card.devs t).init
  activeCh : (next.devs t).activeCh = (card.devs t).activeCh

theorem Frame.refl (t : Nat) (card : Card) : Frame t card card := ⟨fun _ _ => rfl, rfl, rfl⟩

theorem Frame.trans {t : Nat} {card next last : Card} (first : Frame t card next)
    (second : Frame t next last) : Frame t card last where
  others u other := (second.others u other).trans (first.others u other)
  init := second.init.trans first.init
  activeCh := second.activeCh.trans first.activeCh

theorem Frame.set {t : Nat} {card next : Card} (frame : Frame t card next) (dev : Dev)
    (init : dev.init = (next.devs t).init) (activeCh : dev.activeCh = (next.devs t).activeCh) :
    Frame t card (next.setDev t dev) where
  others u other := (next.setDev_other dev other).trans (frame.others u other)
  init := by rw [Card.setDev_self, init, frame.init]
  activeCh := by rw [Card.setDev_self, activeCh, frame.activeCh]

theorem Frame.of_devs {t : Nat} {card next last : Card} (frame : Frame t card next)
    (same : last.devs = next.devs) : Frame t card last := by
  constructor
  · rw [same]
    exact frame.others
  · rw [same, frame.init]
  · rw [same, frame.activeCh]

theorem Frame.exit {t : Nat} {card next : Card} (frame : Frame t card next) (queueInit : Bool) :
    Frame t card (regErrorExit next t queueInit) := by
  cases queueInit with
  | false => exact (frame.set (next.devs t) rfl rfl).of_devs rfl
  | true => exact (frame.set (wpTdmapiFreeBuffs (next.devs t)) rfl rfl).of_devs rfl

@[simp] theorem regErrorExit_hash (card : Card) (t : Nat) (queueInit : Bool) :
    (regErrorExit card t queueInit).wpTdmapiHash = card.wpTdmapiHash := rfl

@[simp] theorem regErrorExit_tdmApiDev (card : Card) (t : Nat) (queueInit : Bool) :
    (regErrorExit card t queueInit).tdmApiDev = putCardDev card.tdmApiDev := rfl

theorem storeChannels_free (t : Nat) (activeCh : BitVec 32) (feChans : List Nat)
    (hash : Nat → Option Nat) (inside : ∀ ch ∈ feChans, ch < maxTdmApiChannels)
    (once : feChans.Nodup) (free : ∀ ch ∈ feChans, activeCh.getLsbD ch → hash ch = none) :
    storeChannels t activeCh feChans hash =
      (0, fun ch => if activeCh.getLsbD ch ∧ ch ∈ feChans then some t else hash ch) := by
  induction feChans generalizing hash with
  | nil => simp [storeChannels]
  | cons feChan feChans ih =>
      have later : ∀ ch ∈ feChans, ch < maxTdmApiChannels :=
        fun ch member => inside ch (List.mem_cons_of_mem _ member)
      have absent : feChan ∉ feChans := (List.nodup_cons.mp once).1
      by_cases active : activeCh.getLsbD feChan = true
      · have room : ¬ maxTdmApiChannels ≤ feChan := Nat.not_le.mpr (inside feChan (by simp))
        have stored : storeOne hash t feChan = (0, Function.update hash feChan (some t)) := by
          simp [storeOne, room, free feChan (by simp) active]
        rw [storeChannels, if_pos active, stored, if_pos rfl]
        rw [ih _ later (List.nodup_cons.mp once).2]
        · ext1
          · rfl
          · funext ch
            by_cases here : ch = feChan
            · subst here
              simp [active, absent]
            · simp [here]
        · intro ch member bit
          have other : ch ≠ feChan := fun same => absent (same ▸ member)
          simp only [Function.update_of_ne other]
          exact free ch (List.mem_cons_of_mem _ member) bit
      · rw [storeChannels, if_neg active, ih _ later (List.nodup_cons.mp once).2]
        · ext1
          · rfl
          · funext ch
            by_cases here : ch = feChan
            · subst here
              simp [active]
            · simp [here]
        · exact fun ch member => free ch (List.mem_cons_of_mem _ member)

theorem activeCh_inside (activeCh : BitVec 32) (ch : Nat) (active : activeCh.getLsbD ch = true) :
    ch < numOfE1Channels := by
  by_contra outside
  have high : 32 ≤ ch := Nat.not_lt.mp outside
  rw [BitVec.getLsbD_of_ge activeCh ch high] at active
  cases active

theorem range_inside : ∀ ch ∈ List.range numOfE1Channels, ch < maxTdmApiChannels := by
  intro ch member
  exact List.mem_range.mp member

theorem store_free (hash : Nat → Option Nat) (t : Nat) (activeCh : BitVec 32)
    (free : ∀ ch, activeCh.getLsbD ch → hash ch = none) :
    storeTdmApiPointerInCard hash t activeCh =
      (0, fun ch => if activeCh.getLsbD ch then some t else hash ch) := by
  rw [storeTdmApiPointerInCard,
    storeChannels_free t activeCh _ hash range_inside List.nodup_range (fun ch _ => free ch)]
  congr 1
  funext ch
  congr 1
  have inside := activeCh_inside activeCh ch
  simp only [List.mem_range, and_iff_left_iff_imp, eq_iff_iff]
  exact inside

theorem removeChannels (activeCh : BitVec 32) (feChans : List Nat) (hash : Nat → Option Nat)
    (inside : ∀ ch ∈ feChans, ch < maxTdmApiChannels) :
    feChans.foldl
      (fun hash feChan =>
        if activeCh.getLsbD feChan then
          if maxTdmApiChannels ≤ feChan then hash else Function.update hash feChan none
        else hash)
      hash =
      fun ch => if activeCh.getLsbD ch ∧ ch ∈ feChans then none else hash ch := by
  induction feChans generalizing hash with
  | nil => simp
  | cons feChan feChans ih =>
      have room : ¬ maxTdmApiChannels ≤ feChan := Nat.not_le.mpr (inside feChan (by simp))
      rw [List.foldl_cons, ih _ fun ch member => inside ch (List.mem_cons_of_mem _ member)]
      funext ch
      by_cases here : ch = feChan
      · subst here
        by_cases active : activeCh.getLsbD ch = true <;> simp [active, room]
      · by_cases active : activeCh.getLsbD feChan = true <;> simp [active, room, here]

theorem remove_eq (hash : Nat → Option Nat) (activeCh : BitVec 32) :
    removeTdmApiPointerFromCard hash activeCh =
      fun ch => if activeCh.getLsbD ch then none else hash ch := by
  rw [removeTdmApiPointerFromCard,
    removeChannels activeCh _ hash range_inside]
  funext ch
  congr 1
  have inside := activeCh_inside activeCh ch
  simp only [List.mem_range, and_iff_left_iff_imp, eq_iff_iff]
  exact inside

/-- The owner has filled in what `wanpipe_tdm_api_reg` asks for. -/
def ConfigOk (dev : Dev) : Prop :=
  dev.hdlcFraming = true ∨
    (dev.cfg.hwMtuMru ≠ 0 ∧ dev.cfg.usrPeriod ≠ 0 ∧ dev.cfg.usrMtuMru ≠ 0 ∧
      (dev.operationMode = .chan ∨ dev.cfg.txQueueSz ≠ 0))

/-- No channel of the device is taken. -/
def ChannelsFree (card : Card) (dev : Dev) : Prop :=
  ∀ ch, dev.activeCh.getLsbD ch → card.wpTdmapiHash ch = none

theorem idleCfg_kept (isBri : Bool) (dev : Dev) :
    (idleCfg isBri dev).init = dev.init ∧ (idleCfg isBri dev).activeCh = dev.activeCh := by
  rw [idleCfg]
  split <;> exact ⟨rfl, rfl⟩

theorem configure_kept (isBri : Bool) (dev : Dev) :
    (configure isBri dev).2.init = dev.init ∧ (configure isBri dev).2.activeCh = dev.activeCh := by
  simp only [configure]
  split
  · exact ⟨rfl, rfl⟩
  · split
    · exact ⟨rfl, rfl⟩
    · split
      · exact idleCfg_kept isBri _
      · split
        · exact ⟨rfl, rfl⟩
        · exact idleCfg_kept isBri _

theorem configure_ok (isBri : Bool) (dev : Dev) : (configure isBri dev).1 = 0 ↔ ConfigOk dev := by
  simp only [configure, ConfigOk]
  by_cases hdlc : dev.hdlcFraming = true
  · simp [hdlc]
  · by_cases mtu : dev.cfg.hwMtuMru = 0 ∨ dev.cfg.usrPeriod = 0 ∨ dev.cfg.usrMtuMru = 0
    · simp only [if_pos mtu, hdlc, einval]
      tauto
    · by_cases mode : dev.operationMode = .chan
      · simp only [if_neg hdlc, if_neg mtu, if_pos mode]
        tauto
      · by_cases queue : dev.cfg.txQueueSz = 0
        · simp [hdlc, mtu, mode, queue, einval]
        · simp only [if_neg hdlc, if_neg mtu, if_neg mode, if_neg queue]
          tauto

/-- How `regStore` ends when no channel is taken. -/
theorem regStore_free {card : Card} {t : Nat} (out : Outcomes)
    (free : ChannelsFree card (card.devs t)) :
    (regStore card t out).1 = out.cdevCreate ∧
      Frame t card (regStore card t out).2 ∧
      (regStore card t out).2.wpTdmapiHash =
        (fun ch => if (card.devs t).activeCh.getLsbD ch then some t else card.wpTdmapiHash ch) ∧
      (regStore card t out).2.tdmApiDev =
        if out.cdevCreate = 0 then card.tdmApiDev else putCardDev card.tdmApiDev := by
  have stored := store_free card.wpTdmapiHash t (card.devs t).activeCh free
  have started (hash : Nat → Option Nat) :
      Frame t card ((card.setDev t (startDev (card.devs t))).setHash hash) :=
    ((Frame.refl t card).set (startDev (card.devs t)) rfl rfl).of_devs rfl
  by_cases made : out.cdevCreate = 0
  · simp only [regStore, stored, made, ne_eq, not_true_eq_false, if_false, if_true]
    exact ⟨trivial, started _, rfl, rfl⟩
  · simp only [regStore, stored, made, ne_eq, not_true_eq_false, if_false, not_false_eq_true,
      if_true]
    exact ⟨trivial, (started _).exit true, rfl, rfl⟩

/-- How `regBuffers` ends when the pools or the configuration fail. -/
theorem regBuffers_refused {card : Card} {t : Nat} {out : Outcomes}
    (refused : ¬ (rxPoolSz ≤ out.rxBuffers ∧
      eventQueueLen (card.devs t).timeslots ≤ out.eventBuffers ∧ ConfigOk (card.devs t))) :
    (regBuffers card t out).1 ≠ 0 ∧ Frame t card (regBuffers card t out).2 ∧
      (regBuffers card t out).2.wpTdmapiHash = card.wpTdmapiHash ∧
      (regBuffers card t out).2.tdmApiDev = putCardDev card.tdmApiDev := by
  have start := Frame.refl t card
  by_cases rx : out.rxBuffers < rxPoolSz
  · simp only [regBuffers, if_pos rx]
    exact ⟨by decide, (start.set (allocRx (card.devs t) out) rfl rfl).exit true, rfl, rfl⟩
  · by_cases event : out.eventBuffers < eventQueueLen (card.devs t).timeslots
    · simp only [regBuffers, if_neg rx, if_pos event]
      exact ⟨by decide, (start.set (allocEvents (card.devs t) out) rfl rfl).exit true, rfl, rfl⟩
    · have bad : ¬ ConfigOk (allocEvents (card.devs t) out) := by
        intro ok
        exact refused ⟨Nat.not_lt.mp rx, Nat.not_lt.mp event, ok⟩
      have failed : (configure card.isBri (allocEvents (card.devs t) out)).1 ≠ 0 := by
        intro done
        exact bad ((configure_ok _ _).mp done)
      have kept := configure_kept card.isBri (allocEvents (card.devs t) out)
      have filled := start.set (allocEvents (card.devs t) out) rfl rfl
      have same (dev : Dev) : (card.setDev t dev).isBri = card.isBri := rfl
      simp only [regBuffers, if_neg rx, if_neg event, regConfigure, Card.setDev_self, same,
        if_pos failed]
      refine ⟨failed, (filled.set _ ?_ ?_).exit true, rfl, rfl⟩
      · rw [kept.1, Card.setDev_self]
      · rw [kept.2, Card.setDev_self]

/-- What `regBuffers` hands to `regStore` when neither fails. -/
theorem regBuffers_granted {card : Card} {t : Nat} {out : Outcomes}
    (rx : rxPoolSz ≤ out.rxBuffers)
    (event : eventQueueLen (card.devs t).timeslots ≤ out.eventBuffers)
    (config : ConfigOk (card.devs t)) :
    ∃ next, Frame t card next ∧ next.wpTdmapiHash = card.wpTdmapiHash ∧
      next.tdmApiDev = card.tdmApiDev ∧ regBuffers card t out = regStore next t out := by
  have ok : (configure card.isBri (allocEvents (card.devs t) out)).1 = 0 :=
    (configure_ok _ _).mpr config
  have kept := configure_kept card.isBri (allocEvents (card.devs t) out)
  have filled := (Frame.refl t card).set (allocEvents (card.devs t) out) rfl rfl
  have same (dev : Dev) : (card.setDev t dev).isBri = card.isBri := rfl
  refine ⟨_, filled.set (configure card.isBri (allocEvents (card.devs t) out)).2 ?_ ?_, rfl, rfl, ?_⟩
  · rw [kept.1, Card.setDev_self]
  · rw [kept.2, Card.setDev_self]
  · simp only [regBuffers, if_neg (Nat.not_lt.mpr rx), if_neg (Nat.not_lt.mpr event),
      regConfigure, Card.setDev_self, same, ok, ne_eq, not_true_eq_false, if_false]

theorem wanSkbPushToCtrlEvent_devs (card : Card) (event : WpApiEvent) :
    (wanSkbPushToCtrlEvent card event).devs = card.devs ∧
      (wanSkbPushToCtrlEvent card event).wpTdmapiHash = card.wpTdmapiHash ∧
      (wanSkbPushToCtrlEvent card event).tdmApiDev = card.tdmApiDev := by
  rw [wanSkbPushToCtrlEvent]
  split
  · split <;> exact ⟨rfl, rfl, rfl⟩
  · exact ⟨rfl, rfl, rfl⟩

theorem notifyCtrlLoop_devs (t : Nat) (chs : List Octet) (card : Card) :
    (notifyCtrlLoop t chs card).devs = card.devs ∧
      (notifyCtrlLoop t chs card).wpTdmapiHash = card.wpTdmapiHash ∧
      (notifyCtrlLoop t chs card).tdmApiDev = card.tdmApiDev := by
  induction chs generalizing card with
  | nil => exact ⟨rfl, rfl, rfl⟩
  | cons ch chs ih =>
      rw [notifyCtrlLoop]
      split
      · split
        · exact ih card
        · have pushed := wanSkbPushToCtrlEvent_devs card (apiEvent card .linkStatus ch [0x02#32])
          have rest := ih (wanSkbPushToCtrlEvent card (apiEvent card .linkStatus ch [0x02#32]))
          exact ⟨rest.1.trans pushed.1, rest.2.1.trans pushed.2.1, rest.2.2.trans pushed.2.2⟩
      · exact ih card

theorem wpTdmapiUnregNotifyCtrl_devs (card : Card) (t : Nat) :
    (wpTdmapiUnregNotifyCtrl card t).devs = card.devs ∧
      (wpTdmapiUnregNotifyCtrl card t).wpTdmapiHash = card.wpTdmapiHash ∧
      (wpTdmapiUnregNotifyCtrl card t).tdmApiDev = card.tdmApiDev := by
  rw [wpTdmapiUnregNotifyCtrl]
  split
  · exact notifyCtrlLoop_devs t channels card
  · exact ⟨rfl, rfl, rfl⟩

theorem wpTdmapiInitBuffs_kept (dev : Dev) (flush : Flush) :
    (wpTdmapiInitBuffs dev flush).init = dev.init ∧
      (wpTdmapiInitBuffs dev flush).activeCh = dev.activeCh := by
  have rx : (flushRx dev).init = dev.init ∧ (flushRx dev).activeCh = dev.activeCh := by
    rw [flushRx]
    split <;> exact ⟨rfl, rfl⟩
  cases flush with
  | all => exact rx
  | rx => exact rx
  | tx => exact ⟨rfl, rfl⟩
  | event => exact ⟨rfl, rfl⟩

theorem wpTdmapiOpen_kept (dev : Dev) :
    (wpTdmapiOpen dev).init = dev.init ∧ (wpTdmapiOpen dev).activeCh = dev.activeCh := by
  simp only [wpTdmapiOpen]
  split
  · exact ⟨rfl, rfl⟩
  · split
    · exact wpTdmapiInitBuffs_kept { dev with openCnt := dev.openCnt + 1#32 } .all
    · exact ⟨rfl, rfl⟩

theorem wpTdmapiRelease_kept (dev : Dev) :
    (wpTdmapiRelease dev).init = dev.init ∧ (wpTdmapiRelease dev).activeCh = dev.activeCh := by
  simp only [wpTdmapiRelease]
  split
  · split <;> exact ⟨rfl, rfl⟩
  · exact ⟨rfl, rfl⟩

def Registered (card : Card) (t : Nat) : Prop := (card.devs t).init = true

instance (card : Card) (t : Nat) : Decidable (Registered card t) :=
  inferInstanceAs (Decidable (_ = true))

/-- The registration table is true to the devices that are registered. -/
structure Table (card : Card) : Prop where
  hash : ∀ ch t, card.wpTdmapiHash ch = some t ↔
    Registered card t ∧ (card.devs t).activeCh.getLsbD ch = true
  cardDev : card.tdmApiDev.isSome = true ↔ ∃ t, Registered card t

/-- A card before its first device, and after its last. -/
structure Fresh (card : Card) : Prop where
  hash : ∀ ch, card.wpTdmapiHash ch = none
  cardDev : card.tdmApiDev = none
  devs : ∀ t, ¬ Registered card t

theorem Fresh.table {card : Card} (fresh : Fresh card) : Table card := by
  constructor
  · intro ch t
    simp [fresh.hash ch, fresh.devs t]
  · simp [fresh.cardDev, fresh.devs]

/-- The table, and the one reference that the card device ever has. -/
structure Steady (card : Card) : Prop extends Table card where
  refCnt : ∀ cardDev, card.tdmApiDev = some cardDev → cardDev.refCnt = 1

theorem Steady.fresh_of_none {card : Card} (steady : Steady card)
    (none : ∀ t, ¬ Registered card t) : Fresh card := by
  constructor
  · intro ch
    cases taken : card.wpTdmapiHash ch with
    | none => rfl
    | some t => exact absurd ((steady.hash ch t).mp taken).1 (none t)
  · cases made : card.tdmApiDev with
    | none => rfl
    | some cardDev =>
        have some : card.tdmApiDev.isSome = true := by rw [made]; rfl
        rcases steady.cardDev.mp some with ⟨t, registered⟩
        exact absurd registered (none t)
  · exact none

theorem Fresh.steady {card : Card} (fresh : Fresh card) : Steady card := by
  constructor
  · exact fresh.table
  · intro cardDev made
    rw [fresh.cardDev] at made
    cases made

/-- A step that registers and unregisters nothing. -/
theorem Steady.congr {card next : Card} (steady : Steady card)
    (registered : ∀ t, Registered next t ↔ Registered card t)
    (activeCh : ∀ t, Registered card t → (next.devs t).activeCh = (card.devs t).activeCh)
    (hash : next.wpTdmapiHash = card.wpTdmapiHash) (cardDev : next.tdmApiDev = card.tdmApiDev) :
    Steady next := by
  refine ⟨⟨?_, ?_⟩, ?_⟩
  · intro ch t
    rw [hash, steady.hash ch t, registered t]
    constructor
    · rintro ⟨member, bit⟩
      exact ⟨member, by rw [activeCh t member]; exact bit⟩
    · rintro ⟨member, bit⟩
      exact ⟨member, by rw [← activeCh t member]; exact bit⟩
  · rw [cardDev, steady.cardDev]
    simp only [registered]
  · rw [cardDev]
    exact steady.refCnt

theorem Frame.registered {t : Nat} {card next : Card} (frame : Frame t card next) (u : Nat) :
    Registered next u ↔ Registered card u := by
  by_cases same : u = t
  · rw [same, Registered, Registered, frame.init]
  · rw [Registered, Registered, frame.others u same]

theorem Frame.channels {t : Nat} {card next : Card} (frame : Frame t card next) (u : Nat) :
    (next.devs u).activeCh = (card.devs u).activeCh := by
  by_cases same : u = t
  · rw [same, frame.activeCh]
  · rw [frame.others u same]

theorem Steady.frame {t : Nat} {card next : Card} (steady : Steady card)
    (frame : Frame t card next) (hash : next.wpTdmapiHash = card.wpTdmapiHash)
    (cardDev : next.tdmApiDev = card.tdmApiDev) : Steady next :=
  steady.congr frame.registered (fun u _ => frame.channels u) hash cardDev

end Wanpipe.TdmApi
