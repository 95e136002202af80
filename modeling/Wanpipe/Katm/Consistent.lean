import Mathlib.Data.List.Perm.Subperm
import Wanpipe.Katm.Channels
import Wanpipe.Runs

/-! The channel table of a kernel ATM link over all openings and closings of its circuits. -/

namespace Wanpipe.Katm

open LinkList Runs

/-- What the SAR has been told about a channel. -/
def callsOf (link : AtmLink) (handle : Option Nat) : List SarCall :=
  link.sarCalls.filter fun call => call.handle = handle

/-- A channel that is registered and opened. -/
def begun (handle : Nat) : List SarCall :=
  [.register handle, .open handle true]

/-- A channel that is registered, opened, closed and unregistered, each once. -/
def ended (handle : Nat) : List SarCall :=
  begun handle ++ [.close (some handle), .unregister (some handle)]

/-- The table with the channels on its list. Each of them is that of an open circuit and begun in
the SAR, and every other channel that the SAR has been told about has ended. -/
structure Consistent (link : AtmLink) (listed : List Nat) : Prop where
  lists : Lists link.listHeadIfdev listed
  counted : link.devCnt = listed.length
  opened : ∀ chan ∈ listed, ∃ vcc handle,
    link.channels chan = some { vcc, sarVcc := some handle } ∧
      (link.vccs vcc).devData = some chan ∧ callsOf link (some handle) = begun handle
  closed : ∀ handle, (∀ chan ∈ listed, (link.channels chan).bind Channel.sarVcc ≠ some handle) →
    callsOf link (some handle) = [] ∨ callsOf link (some handle) = ended handle
  real : callsOf link none = []

/-- How often a channel is registered. -/
def registrations (link : AtmLink) (handle : Nat) : Int :=
  link.sarCalls.count (.register handle) - link.sarCalls.count (.unregister (some handle))

/-- What an opening that fails leaves as it was. -/
structure Restored (before after : AtmLink) : Prop where
  lists : ∀ listed, Lists before.listHeadIfdev listed → Lists after.listHeadIfdev listed
  devCnt : after.devCnt = before.devCnt
  sar : registrations after = registrations before
  addr : ∀ vcc, (after.vccs vcc).addr = (before.vccs vcc).addr
  ready : ∀ vcc, (after.vccs vcc).ready = (before.vccs vcc).ready

/-- The call comes back with a consistent table, and with the one before if it fails. -/
def Meets (link : AtmLink) (op : Op) : Prop :=
  ∃ next result, call link op = some (next, result) ∧ (∃ listed, Consistent next listed) ∧
    (result ≠ 0 → Restored link next)

def Accepted (qos : Qos) : Prop :=
  (qos.aal = .aal0 ∨ qos.aal = .aal5) ∧ ¬ (qos.rxtp = .none ∧ qos.txtp = .none)

def Activates (qos : Qos) (answers : Answers) : Prop :=
  qos.txtp ≠ .other ∧ answers.registered = true ∧ answers.opened = true

/-- An opening that is not refused is one of a closed circuit, and if there is memory for its
channel, that is activated. -/
def Fine (link : AtmLink) : Op → Prop
  | .open vcc qos answers =>
      Accepted qos →
        (link.vccs vcc).devData = none ∧ (answers.memory = true → Activates qos answers)
  | .close _ => True

/-- A consistent table whose channels are known to their circuits, and have names and handles of
their own. -/
structure Kept (link : AtmLink) (listed : List Nat) : Prop extends Consistent link listed where
  known : ∀ vcc chan, (link.vccs vcc).devData = some chan →
    chan ∈ listed ∧ (link.channels chan).map Channel.vcc = some vcc
  addr : ∀ vcc, (link.vccs vcc).addr = (link.vccs vcc).devData.isSome
  ready : ∀ vcc, (link.vccs vcc).ready = (link.vccs vcc).devData.isSome
  named : ∀ chan ∈ listed, chan < link.made
  single : ∀ chan ∈ listed, ∀ other ∈ listed,
    (link.channels chan).bind Channel.sarVcc = (link.channels other).bind Channel.sarVcc →
      chan = other
  unused : ∀ handle, link.handles ≤ handle → callsOf link (some handle) = []

section Close

/-- What the closing of an open circuit leaves. -/
structure Closed (link : AtmLink) (vcc chan handle : Nat) (listed : List Nat) (next : AtmLink) :
    Prop where
  vccs : next.vccs =
    Function.update link.vccs vcc { addr := false, ready := false, devData := none }
  channels : next.channels = Function.update link.channels chan none
  lists : Lists next.listHeadIfdev listed
  devCnt : next.devCnt = link.devCnt - 1
  made : next.made = link.made
  handles : next.handles = link.handles
  sarCalls : next.sarCalls = link.sarCalls ++ [.close (some handle), .unregister (some handle)]

theorem wanLipKatmClose_closed {link : AtmLink} {vcc chan handle : Nat} {left right : List Nat}
    (lists : Lists link.listHeadIfdev (left ++ chan :: right))
    (known : (link.vccs vcc).devData = some chan)
    (channel : link.channels chan = some { vcc, sarVcc := some handle }) :
    ∃ next, wanLipKatmClose link vcc = some next ∧
      Closed link vcc chan handle (left ++ right) next := by
  obtain ⟨links, removed, shorter⟩ := lists.remove
  let next : AtmLink := { link with
    vccs := Function.update link.vccs vcc { addr := false, ready := false, devData := none }
    channels := Function.update link.channels chan none
    listHeadIfdev := links
    devCnt := link.devCnt - 1
    sarCalls := link.sarCalls ++ [.close (some handle), .unregister (some handle)] }
  refine ⟨next, ?_, ?_⟩
  · simp only [wanLipKatmClose, known, wpkatmRemoveVccdev, setVcc, setChannel, sar, channel, removed,
      Option.map_some, Option.bind_some, Function.update_self, Function.update_idem, next]
  · exact {
      vccs := rfl
      channels := rfl
      lists := shorter
      devCnt := rfl
      made := rfl
      handles := rfl
      sarCalls := rfl }

end Close

section Open

/-- What the opening of a circuit leaves that succeeds. -/
structure Opened (link : AtmLink) (vcc : Nat) (listed : List Nat) (next : AtmLink) : Prop where
  vccs : next.vccs =
    Function.update link.vccs vcc { addr := true, ready := true, devData := some link.made }
  channels : next.channels =
    Function.update link.channels link.made (some { vcc, sarVcc := some link.handles })
  lists : Lists next.listHeadIfdev (listed ++ [link.made])
  devCnt : next.devCnt = link.devCnt + 1
  made : next.made = link.made + 1
  handles : next.handles = link.handles + 1
  sarCalls : next.sarCalls =
    link.sarCalls ++ [.register link.handles, .open link.handles true]

theorem wanLipKatmOpen_refused {link : AtmLink} {vcc : Nat} {qos : Qos} (answers : Answers)
    (refused : ¬ Accepted qos) : wanLipKatmOpen link vcc qos answers = some (link, einval) := by
  rw [wanLipKatmOpen]
  by_cases aal : qos.aal ≠ .aal0 ∧ qos.aal ≠ .aal5
  · rw [if_pos aal]
  · rw [if_neg aal, if_pos]
    by_contra classes
    exact refused ⟨by tauto, classes⟩

theorem wanLipKatmOpen_accepted {link : AtmLink} {vcc : Nat} {qos : Qos} {answers : Answers}
    (accepted : Accepted qos) :
    wanLipKatmOpen link vcc qos answers =
      if answers.memory then
        finishOpen (wpKatmActivateChannel
          (newChannel (setVcc link vcc { link.vccs vcc with addr := true }) vcc) qos link.made
          answers) vcc link.made
      else some (setVcc link vcc { link.vccs vcc with addr := false }, enomem) := by
  obtain ⟨aal, classes⟩ := accepted
  rw [wanLipKatmOpen, if_neg (by tauto), if_neg classes]
  simp only [setVcc, Function.update_self, Function.update_idem]

theorem activate_fails (link : AtmLink) {qos : Qos} (chan : Nat) {answers : Answers}
    (fails : ¬ Activates qos answers) :
    let activated := wpKatmActivateChannel link qos chan answers
    activated.2 = einval ∧ activated.1.listHeadIfdev = link.listHeadIfdev ∧
      activated.1.vccs = link.vccs := by
  dsimp only [wpKatmActivateChannel, openChan]
  by_cases other : qos.txtp = .other
  · rw [if_pos other]
    exact ⟨rfl, rfl, rfl⟩
  rw [if_neg other]
  cases registered : answers.registered with
  | false => exact ⟨rfl, rfl, rfl⟩
  | true =>
      cases opened : answers.opened with
      | false => exact ⟨rfl, rfl, rfl⟩
      | true => exact absurd ⟨other, registered, opened⟩ fails

theorem wanLipKatmClose_faults {link : AtmLink} {vcc chan : Nat}
    (known : (link.vccs vcc).devData = some chan)
    (unlisted : link.listHeadIfdev.remove chan = none) : wanLipKatmClose link vcc = none := by
  simp only [wanLipKatmClose, known, wpkatmRemoveVccdev, setVcc, setChannel, sar, unlisted,
    Option.map_none]

/-- An opening that fails to activate its channel faults where it takes that off the list. -/
theorem wanLipKatmOpen_faults {link : AtmLink} {vcc : Nat} {qos : Qos} {answers : Answers}
    (accepted : Accepted qos) (memory : answers.memory = true) (fails : ¬ Activates qos answers) :
    wanLipKatmOpen link vcc qos answers = none := by
  let made := newChannel (setVcc link vcc { link.vccs vcc with addr := true }) vcc
  obtain ⟨result, lists, vccs⟩ := activate_fails made link.made fails
  have known : (made.vccs vcc).devData = some link.made := by
    simp only [made, newChannel, setVcc, setChannel, Function.update_self]
  have unlisted : made.listHeadIfdev.remove link.made = none :=
    remove_clear link.listHeadIfdev link.made
  have closes : wanLipKatmClose (wpKatmActivateChannel made qos link.made answers).1 vcc = none :=
    wanLipKatmClose_faults (by rw [vccs]; exact known) (by rw [lists]; exact unlisted)
  rw [wanLipKatmOpen_accepted accepted, if_pos memory, finishOpen, if_pos, closes]
  · rfl
  · rw [result]
    decide

theorem length_named {listed : List Nat} {made : Nat} (nodup : listed.Nodup)
    (named : ∀ chan ∈ listed, chan < made) : listed.length ≤ made := by
  calc
    listed.length ≤ (List.range made).length :=
      (nodup.subperm fun chan member => List.mem_range.mpr (named chan member)).length_le
    _ = made := List.length_range

theorem wanLipKatmOpen_opened {link : AtmLink} {vcc : Nat} {qos : Qos} {answers : Answers}
    {listed : List Nat} (accepted : Accepted qos) (memory : answers.memory = true)
    (activates : Activates qos answers) (lists : Lists link.listHeadIfdev listed)
    (named : ∀ chan ∈ listed, chan < link.made) :
    ∃ next, wanLipKatmOpen link vcc qos answers = some (next, 0) ∧
      Opened link vcc listed next := by
  obtain ⟨supported, registered, opened⟩ := activates
  have fresh : link.made ∉ listed := fun member => absurd (named _ member) (Nat.lt_irrefl _)
  have cleared : Lists (link.listHeadIfdev.clear link.made) listed := lists.clear fresh
  have few := length_named lists.nodup named
  have enough : listed.length < link.made + 1 + 1 := by omega
  obtain ⟨last, walked, behind⟩ := cleared.walk enough
  let next : AtmLink := { link with
    vccs := Function.update link.vccs vcc
      { addr := true, ready := true, devData := some link.made }
    channels := Function.update link.channels link.made
      (some { vcc, sarVcc := some link.handles })
    listHeadIfdev := (link.listHeadIfdev.clear link.made).insert (slotBehind last) link.made
    devCnt := link.devCnt + 1
    made := link.made + 1
    handles := link.handles + 1
    sarCalls := link.sarCalls ++ [.register link.handles, .open link.handles true] }
  refine ⟨next, ?_, ?_⟩
  · rw [wanLipKatmOpen_accepted accepted, if_pos memory]
    simp [finishOpen, wpKatmActivateChannel, openChan, supported, registered, opened, newChannel,
      setVcc, setChannel, sar, wpkatmInsertVccdev, walked, next]
  · exact {
      vccs := rfl
      channels := rfl
      lists := by
        have inserted := cleared.insert_last fresh
        rw [← behind] at inserted
        exact inserted
      devCnt := rfl
      made := rfl
      handles := rfl
      sarCalls := rfl }

end Open

section Kept

theorem pair_about {first second : SarCall} {handle : Option Nat} (one : first.handle = handle)
    (two : second.handle = handle) : ∀ call ∈ [first, second], call.handle = handle := by
  intro call member
  rcases List.mem_pair.mp member with rfl | rfl
  · exact one
  · exact two

theorem callsOf_same {link next : AtmLink} {calls : List SarCall} {handle other : Option Nat}
    (sarCalls : next.sarCalls = link.sarCalls ++ calls)
    (about : ∀ call ∈ calls, call.handle = handle) (apart : other ≠ handle) :
    callsOf next other = callsOf link other := by
  have nothing : calls.filter (fun call => call.handle = other) = [] := by
    apply List.filter_eq_nil_iff.mpr
    intro call member
    rw [about call member]
    simpa using apart.symm
  rw [callsOf, sarCalls, List.filter_append, nothing, List.append_nil]
  rfl

theorem callsOf_more {link next : AtmLink} {calls : List SarCall} {handle : Option Nat}
    (sarCalls : next.sarCalls = link.sarCalls ++ calls)
    (about : ∀ call ∈ calls, call.handle = handle) :
    callsOf next handle = callsOf link handle ++ calls := by
  have everything : calls.filter (fun call => call.handle = handle) = calls := by
    apply List.filter_eq_self.mpr
    intro call member
    simpa using about call member
  rw [callsOf, sarCalls, List.filter_append, everything]
  rfl

variable {link next : AtmLink} {vcc chan handle : Nat} {listed left right : List Nat}

/-- A channel that is begun is of a handle that was given. -/
theorem Kept.given (kept : Kept link listed) (calls : callsOf link (some handle) = begun handle) :
    handle < link.handles := by
  by_contra later
  cases (kept.unused handle (Nat.le_of_not_lt later)).symm.trans calls

/-- A flag that every other circuit keeps, and that tells of this one whether it is open. -/
theorem flag_kept (flag : Vcc → Bool)
    (before : ∀ owner, flag (link.vccs owner) = (link.vccs owner).devData.isSome)
    (others : ∀ other, other ≠ vcc → next.vccs other = link.vccs other)
    (here : flag (next.vccs vcc) = (next.vccs vcc).devData.isSome) (owner : Nat) :
    flag (next.vccs owner) = (next.vccs owner).devData.isSome := by
  by_cases same : owner = vcc
  · rw [same, here]
  · rw [others owner same, before owner]

theorem Kept.closed_calls (closed : Closed link vcc chan handle listed next) {other : Option Nat}
    (apart : other ≠ some handle) : callsOf next other = callsOf link other :=
  callsOf_same closed.sarCalls (pair_about rfl rfl) apart

theorem Kept.close (kept : Kept link (left ++ chan :: right))
    (known : (link.vccs vcc).devData = some chan)
    (channel : link.channels chan = some { vcc, sarVcc := some handle })
    (calls : callsOf link (some handle) = begun handle)
    (closed : Closed link vcc chan handle (left ++ right) next) : Kept next (left ++ right) := by
  have nodup : chan ∉ left ++ right := (List.nodup_middle.mp kept.lists.nodup).notMem
  have earlier : ∀ other, other ∈ left ++ right → other ∈ left ++ chan :: right := by
    intro other member
    exact List.mem_append.mpr ((List.mem_append.mp member).imp id (List.mem_cons_of_mem chan))
  have channels : ∀ other, other ≠ chan → next.channels other = link.channels other := by
    intro other apart
    rw [closed.channels, Function.update_of_ne apart]
  have vccs : ∀ other, other ≠ vcc → next.vccs other = link.vccs other := by
    intro other apart
    rw [closed.vccs, Function.update_of_ne apart]
  have here : next.vccs vcc = { addr := false, ready := false, devData := none } := by
    rw [closed.vccs, Function.update_self]
  have apart : ∀ other ∈ left ++ right, other ≠ chan := by
    rintro other member rfl
    exact nodup member
  exact {
    lists := closed.lists
    counted := by
      rw [closed.devCnt, kept.counted, List.length_append, List.length_cons, List.length_append]
      omega
    opened := by
      intro other member
      obtain ⟨owner, others, told, owned, begins⟩ := kept.opened other (earlier other member)
      have elsewhere : owner ≠ vcc := by
        rintro rfl
        exact apart other member (Option.some.inj (owned.symm.trans known))
      have unlike : some others ≠ some handle := by
        intro same
        apply apart other member
        apply kept.single other (earlier other member) chan List.mem_append_cons_self
        rw [told, channel]
        exact same
      refine ⟨owner, others, ?_, ?_, ?_⟩
      · rw [channels other (apart other member), told]
      · rw [vccs owner elsewhere, owned]
      · rw [Kept.closed_calls closed unlike, begins]
    closed := by
      intro other unheld
      by_cases same : other = handle
      · right
        rw [same]
        calc
          callsOf next (some handle) = callsOf link (some handle) ++ _ :=
            callsOf_more closed.sarCalls (pair_about rfl rfl)
          _ = begun handle ++ _ := by rw [calls]
      · rw [Kept.closed_calls closed (by simpa using same)]
        apply kept.closed other
        intro held member
        by_cases this : held = chan
        · rw [this, channel]
          simpa using Ne.symm same
        · have still : held ∈ left ++ right := by
            simpa [this] using member
          rw [← channels held this]
          exact unheld held still
    real := by
      rw [Kept.closed_calls closed (by simp), kept.real]
    known := by
      intro owner owned held
      by_cases same : owner = vcc
      · rw [same, here] at held
        cases held
      · rw [vccs owner same] at held
        obtain ⟨member, told⟩ := kept.known owner owned held
        have other : owned ≠ chan := by
          rintro rfl
          rw [channel] at told
          exact same (Option.some.inj told).symm
        refine ⟨?_, ?_⟩
        · simpa [other] using member
        · rw [channels owned other, told]
    addr := flag_kept Vcc.addr kept.addr vccs (by rw [here]; rfl)
    ready := flag_kept Vcc.ready kept.ready vccs (by rw [here]; rfl)
    named := by
      intro other member
      rw [closed.made]
      exact kept.named other (earlier other member)
    single := by
      intro first inside second within same
      rw [channels first (apart first inside), channels second (apart second within)] at same
      exact kept.single first (earlier first inside) second (earlier second within) same
    unused := by
      intro other later
      rw [closed.handles] at later
      have given := kept.given calls
      rw [Kept.closed_calls closed (by simp; omega), kept.unused other later] }

theorem Kept.opened_calls (opened : Opened link vcc listed next) {other : Option Nat}
    (apart : other ≠ some link.handles) : callsOf next other = callsOf link other :=
  callsOf_same opened.sarCalls (pair_about rfl rfl) apart

theorem Kept.open (kept : Kept link listed) (free : (link.vccs vcc).devData = none)
    (opened : Opened link vcc listed next) : Kept next (listed ++ [link.made]) := by
  have apart : ∀ other ∈ listed, other ≠ link.made := fun other member =>
    Nat.ne_of_lt (kept.named other member)
  have channels : ∀ other ∈ listed, next.channels other = link.channels other := by
    intro other member
    rw [opened.channels, Function.update_of_ne (apart other member)]
  have made : next.channels link.made = some { vcc, sarVcc := some link.handles } := by
    rw [opened.channels, Function.update_self]
  have vccs : ∀ other, other ≠ vcc → next.vccs other = link.vccs other := by
    intro other unlike
    rw [opened.vccs, Function.update_of_ne unlike]
  have here : next.vccs vcc = { addr := true, ready := true, devData := some link.made } := by
    rw [opened.vccs, Function.update_self]
  have given : ∀ other ∈ listed, (link.channels other).bind Channel.sarVcc ≠ some link.handles := by
    intro other member same
    obtain ⟨owner, others, told, _, begins⟩ := kept.opened other member
    rw [told] at same
    cases same
    exact absurd (kept.given begins) (Nat.lt_irrefl _)
  exact {
    lists := opened.lists
    counted := by
      rw [opened.devCnt, kept.counted, List.length_append]
      rfl
    opened := by
      intro other member
      rcases List.mem_append.mp member with old | new
      · obtain ⟨owner, others, told, owned, begins⟩ := kept.opened other old
        have elsewhere : owner ≠ vcc := by
          rintro rfl
          cases owned.symm.trans free
        have unlike : some others ≠ some link.handles := by
          have held := given other old
          rw [told] at held
          exact held
        refine ⟨owner, others, ?_, ?_, ?_⟩
        · rw [channels other old, told]
        · rw [vccs owner elsewhere, owned]
        · rw [Kept.opened_calls opened unlike, begins]
      · rw [List.mem_singleton.mp new]
        refine ⟨vcc, link.handles, made, ?_, ?_⟩
        · rw [here]
        · calc
            callsOf next (some link.handles) = callsOf link (some link.handles) ++ _ :=
              callsOf_more opened.sarCalls (pair_about rfl rfl)
            _ = [] ++ _ := by rw [kept.unused _ (Nat.le_refl _)]
    closed := by
      intro other unheld
      have unlike : some other ≠ some link.handles := by
        intro same
        apply unheld link.made (List.mem_append_right _ (List.mem_singleton_self _))
        rw [made]
        exact same.symm
      rw [Kept.opened_calls opened unlike]
      apply kept.closed other
      intro held member
      rw [← channels held member]
      exact unheld held (List.mem_append_left _ member)
    real := by
      rw [Kept.opened_calls opened (by simp), kept.real]
    known := by
      intro owner owned held
      by_cases same : owner = vcc
      · rw [same, here] at held
        cases held
        refine ⟨List.mem_append_right _ (List.mem_singleton_self _), ?_⟩
        rw [made, same]
        rfl
      · rw [vccs owner same] at held
        obtain ⟨member, told⟩ := kept.known owner owned held
        refine ⟨List.mem_append_left _ member, ?_⟩
        rw [channels owned member, told]
    addr := flag_kept Vcc.addr kept.addr vccs (by rw [here]; rfl)
    ready := flag_kept Vcc.ready kept.ready vccs (by rw [here]; rfl)
    named := by
      intro other member
      rw [opened.made]
      rcases List.mem_append.mp member with old | new
      · exact Nat.lt_succ_of_lt (kept.named other old)
      · rw [List.mem_singleton.mp new]
        exact Nat.lt_succ_self _
    single := by
      intro first inside second within same
      rcases List.mem_append.mp inside with old | new
      · rcases List.mem_append.mp within with older | newer
        · rw [channels first old, channels second older] at same
          exact kept.single first old second older same
        · rw [List.mem_singleton.mp newer, made, channels first old] at same
          exact absurd same (given first old)
      · rcases List.mem_append.mp within with older | newer
        · rw [List.mem_singleton.mp new, made, channels second older] at same
          exact absurd same.symm (given second older)
        · rw [List.mem_singleton.mp new, List.mem_singleton.mp newer]
    unused := by
      intro other later
      rw [opened.handles] at later
      have unlike : some other ≠ some link.handles := by
        intro same
        cases same
        exact absurd later (Nat.not_succ_le_self _)
      rw [Kept.opened_calls opened unlike, kept.unused other (Nat.le_of_succ_le later)] }

theorem start_kept : Kept start [] where
  lists := ⟨List.nodup_nil, trivial, rfl⟩
  counted := rfl
  opened := fun _ member => absurd member List.not_mem_nil
  closed := fun _ _ => Or.inl rfl
  real := rfl
  known := fun _ _ held => nomatch held
  addr := fun _ => rfl
  ready := fun _ => rfl
  named := fun _ member => absurd member List.not_mem_nil
  single := fun _ member => absurd member List.not_mem_nil
  unused := fun _ _ => rfl

end Kept

section Runs

variable {link next : AtmLink} {listed : List Nat} {op : Op}

theorem Restored.refl (link : AtmLink) : Restored link link :=
  ⟨fun _ lists => lists, rfl, rfl, fun _ => rfl, fun _ => rfl⟩

theorem Kept.call_close (kept : Kept link listed) (vcc : Nat) :
    ∃ next after, wanLipKatmClose link vcc = some next ∧ Kept next after := by
  cases known : (link.vccs vcc).devData with
  | none =>
      refine ⟨link, listed, ?_, kept⟩
      rw [wanLipKatmClose, known]
  | some chan =>
      obtain ⟨member, told⟩ := kept.known vcc chan known
      obtain ⟨owner, handle, channel, _, calls⟩ := kept.opened chan member
      have same : owner = vcc := by
        rw [channel] at told
        exact Option.some.inj told
      subst same
      obtain ⟨left, right, rfl⟩ := List.append_of_mem member
      obtain ⟨next, closes, closed⟩ := wanLipKatmClose_closed kept.lists known channel
      exact ⟨next, left ++ right, closes, kept.close known channel calls closed⟩

/-- Without memory the flag is cleared again that was set. -/
theorem Kept.open_nomem (kept : Kept link listed) {vcc : Nat}
    (free : (link.vccs vcc).devData = none) :
    setVcc link vcc { link.vccs vcc with addr := false } = link := by
  have addr : (link.vccs vcc).addr = false := by
    rw [kept.addr, free]
    rfl
  have same : ({ link.vccs vcc with addr := false } : Vcc) = link.vccs vcc := by
    rw [← addr]
  rw [setVcc, same, Function.update_eq_self]

/-- A fine call keeps what is kept, and changes nothing if it fails. -/
theorem Kept.call (kept : Kept link listed) (fine : Fine link op) :
    ∃ next result after, call link op = some (next, result) ∧ Kept next after ∧
      (result ≠ 0 → next = link) := by
  cases op with
  | close vcc =>
      obtain ⟨next, after, closes, keeps⟩ := kept.call_close vcc
      refine ⟨next, 0, after, ?_, keeps, fun failed => absurd rfl failed⟩
      rw [Katm.call, closes]
      rfl
  | «open» vcc qos answers =>
      rw [Katm.call]
      by_cases accepted : Accepted qos
      · obtain ⟨free, activates⟩ := fine accepted
        cases memory : answers.memory with
        | false =>
            refine ⟨link, enomem, listed, ?_, kept, fun _ => rfl⟩
            rw [wanLipKatmOpen_accepted accepted, memory, kept.open_nomem free]
            rfl
        | true =>
            obtain ⟨next, opens, opened⟩ := wanLipKatmOpen_opened accepted memory
              (activates memory) kept.lists kept.named
            exact ⟨next, 0, listed ++ [link.made], opens, kept.open free opened,
              fun failed => absurd rfl failed⟩
      · exact ⟨link, einval, listed, wanLipKatmOpen_refused answers accepted, kept, fun _ => rfl⟩

theorem Kept.meets_of_fine (kept : Kept link listed) (fine : Fine link op) : Meets link op := by
  obtain ⟨next, result, after, ran, keeps, same⟩ := kept.call fine
  refine ⟨next, result, ran, ⟨after, keeps.toConsistent⟩, ?_⟩
  intro failed
  rw [same failed]
  exact Restored.refl link

/-- The channel that an open circuit had stays on the list when it is opened again. -/
theorem Kept.reopened (kept : Kept link listed) {vcc chan : Nat} {after : List Nat}
    (known : (link.vccs vcc).devData = some chan) (opened : Opened link vcc listed next) :
    ¬ Consistent next after := by
  intro consistent
  obtain ⟨member, told⟩ := kept.known vcc chan known
  have apart : chan ≠ link.made := Nat.ne_of_lt (kept.named chan member)
  have listed_eq : after = listed ++ [link.made] := consistent.lists.unique opened.lists
  have inside : chan ∈ after := by
    rw [listed_eq]
    exact List.mem_append_left _ member
  obtain ⟨owner, handle, channel, owned, _⟩ := consistent.opened chan inside
  rw [opened.channels, Function.update_of_ne apart] at channel
  rw [channel] at told
  have same : owner = vcc := Option.some.inj told
  rw [same, opened.vccs, Function.update_self] at owned
  exact apart (Option.some.inj owned).symm

/-- A call that meets what is asked is fine. -/
theorem Kept.fine_of_meets (kept : Kept link listed) (meets : Meets link op) : Fine link op := by
  cases op with
  | close vcc => trivial
  | «open» vcc qos answers =>
      intro accepted
      obtain ⟨next, result, ran, ⟨after, consistent⟩, restored⟩ := meets
      rw [Katm.call] at ran
      cases memory : answers.memory with
      | false =>
          rw [wanLipKatmOpen_accepted accepted, memory] at ran
          cases ran
          have addr := (restored (by decide)).addr vcc
          simp only [setVcc, Function.update_self, kept.addr vcc] at addr
          exact ⟨Option.isSome_eq_false_iff.mp addr.symm |> Option.isNone_iff_eq_none.mp,
            fun enough => nomatch enough⟩
      | true =>
          by_cases activates : Activates qos answers
          · have opening : ∃ other, wanLipKatmOpen link vcc qos answers = some (other, 0) ∧
                Opened link vcc listed other :=
              wanLipKatmOpen_opened accepted memory activates kept.lists kept.named
            obtain ⟨other, opens, opened⟩ := opening
            cases opens.symm.trans ran
            refine ⟨?_, fun _ => activates⟩
            cases known : (link.vccs vcc).devData with
            | none => rfl
            | some chan => exact absurd consistent (kept.reopened known opened)
          · rw [wanLipKatmOpen_faults accepted memory activates] at ran
            cases ran

/-- The table is consistent after every call, and an opening that fails leaves it, the
registrations and the flags as they were, exactly in the runs in which no opening is one of an
open circuit or fails to activate its channel. -/
theorem katm_table (ops : List Op) :
    Along (fun link op => (call link op).map Prod.fst) Meets start ops ↔
      Along (fun link op => (call link op).map Prod.fst) Fine start ops := by
  have steps : ∀ link op next, (∃ listed, Kept link listed) → Fine link op →
      (call link op).map Prod.fst = some next → ∃ listed, Kept next listed := by
    rintro link op next ⟨listed, kept⟩ fine moved
    obtain ⟨reached, result, after, ran, keeps, _⟩ := kept.call fine
    rw [ran] at moved
    cases moved
    exact ⟨after, keeps⟩
  have same : ∀ link op, (∃ listed, Kept link listed) → (Fine link op ↔ Meets link op) := by
    rintro link op ⟨listed, kept⟩
    exact ⟨kept.meets_of_fine, kept.fine_of_meets⟩
  exact (Along.iff steps same ⟨[], start_kept⟩).symm

/-- The SAR does not register the channel of the first circuit that is opened. -/
theorem katm_table_unregistered :
    ¬ Along (fun link op => (call link op).map Prod.fst) Meets start
      [.open 0 { aal := .aal5, rxtp := .ubr, txtp := .ubr }
        { memory := true, registered := false, opened := false }] := by
  rintro ⟨⟨next, result, ran, _⟩, _⟩
  have faults : call start (.open 0 { aal := .aal5, rxtp := .ubr, txtp := .ubr }
      { memory := true, registered := false, opened := false }) = none := rfl
  cases faults.symm.trans ran

end Runs

end Wanpipe.Katm
