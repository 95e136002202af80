import Wanpipe.Aft.Clock

/-! The loops of `aft_handle_clock_master` on a card without BRI ports. -/

namespace Wanpipe.Aft.Clock

section Loops

variable {State : Type} {turn : State → Nat → State} {ports : State → Nat → Option Port}
  {kept : State → Prop} {left : Port → Port}

/-- A loop whose turns change one port each. -/
theorem foldl_ports
    (each : ∀ state i, kept state → kept (turn state i) ∧
      ∀ j, ports (turn state i) j = if j = i then (ports state j).map left else ports state j)
    {state : State} (start : kept state) (n : Nat) :
    kept ((List.range n).foldl turn state) ∧
      ∀ j, ports ((List.range n).foldl turn state) j =
        if j < n then (ports state j).map left else ports state j := by
  induction n with
  | zero => exact ⟨start, fun j => (if_neg (Nat.not_lt_zero j)).symm⟩
  | succ n ih =>
      obtain ⟨between, before⟩ := ih
      rw [List.range_succ, List.foldl_append, List.foldl_cons, List.foldl_nil]
      obtain ⟨after, here⟩ := each _ n between
      refine ⟨after, fun j => ?_⟩
      rw [here, before]
      by_cases last : j = n
      · rw [if_pos last, if_neg (by omega), if_pos (by omega)]
      · rw [if_neg last]
        by_cases less : j < n
        · rw [if_pos less, if_pos (Nat.lt_succ_of_lt less)]
        · rw [if_neg less, if_neg (by omega)]

/-- A flag that each turn may set for its port. -/
theorem foldl_flag
    (each : ∀ state i, kept state → kept (turn state i) ∧
      ∀ j, ports (turn state i) j = if j = i then (ports state j).map left else ports state j)
    {flag : State → Bool} {hit : Port → Bool}
    (sets : ∀ state i, kept state → flag (turn state i) = (flag state || (ports state i).any hit))
    {state : State} (start : kept state) (n : Nat) :
    flag ((List.range n).foldl turn state) = true ↔
      flag state = true ∨ ∃ i < n, ∃ port, ports state i = some port ∧ hit port = true := by
  induction n with
  | zero =>
      constructor
      · exact Or.inl
      · rintro (set | ⟨i, wrong, -⟩)
        · exact set
        · exact absurd wrong (Nat.not_lt_zero i)
  | succ n ih =>
      obtain ⟨between, before⟩ := foldl_ports each start n
      rw [List.range_succ, List.foldl_append, List.foldl_cons, List.foldl_nil, sets _ n between,
        Bool.or_eq_true, ih, before, if_neg (Nat.lt_irrefl n), Option.any_eq_true]
      constructor
      · rintro ((set | ⟨i, less, port, there, hits⟩) | ⟨port, there, hits⟩)
        · exact Or.inl set
        · exact Or.inr ⟨i, Nat.lt_succ_of_lt less, port, there, hits⟩
        · exact Or.inr ⟨n, Nat.lt_succ_self n, port, there, hits⟩
      · rintro (set | ⟨i, less, port, there, hits⟩)
        · exact Or.inl (Or.inl set)
        · rcases Nat.lt_succ_iff_lt_or_eq.mp less with before | rfl
          · exact Or.inl (Or.inr ⟨i, before, port, there, hits⟩)
          · exact Or.inr ⟨port, there, hits⟩

end Loops

/-- What the first loop leaves of a port. -/
def Port.slaved (card : Card) (port : Port) : Port :=
  if port.down || port.kind != .te1 || port.refClk == 0 then port
  else
    match card.ports (port.refClk - 1) with
    | none => port
    | some master =>
        if master.down then port
        else if port.refOsc == !master.connected then port
        else { port with refOsc := !master.connected, setClock := true }

theorem Port.slaved_same (card : Card) (port : Port) :
    port.slaved card =
      { port with refOsc := (port.slaved card).refOsc, setClock := (port.slaved card).setClock } := by
  unfold Port.slaved
  split
  · rfl
  · split
    · rfl
    · split
      · rfl
      · split <;> rfl

theorem slave_cases {card : Card} {i : Nat} {port : Port} (here : card.ports i = some port) :
    (slave card i = card ∧ port.slaved card = port) ∨ slave card i = card.put i (port.slaved card) := by
  rw [slave, here]
  unfold Port.slaved
  dsimp only
  cases port.down || port.kind != .te1 || port.refClk == 0 with
  | true => exact Or.inl ⟨rfl, rfl⟩
  | false =>
      cases card.ports (port.refClk - 1) with
      | none => exact Or.inl ⟨rfl, rfl⟩
      | some master =>
          dsimp only
          cases master.down with
          | true => exact Or.inl ⟨rfl, rfl⟩
          | false =>
              cases port.refOsc == !master.connected with
              | true => exact Or.inl ⟨rfl, rfl⟩
              | false => exact Or.inr rfl

theorem slave_ports (card : Card) (i : Nat) :
    (∀ j, (slave card i).ports j =
        if j = i then (card.ports j).map (Port.slaved card) else card.ports j) ∧
      (slave card i).ecSource = card.ecSource ∧ (slave card i).freeRun = card.freeRun := by
  have still : slave card i = card → (card.ports i).map (Port.slaved card) = card.ports i →
      (∀ j, (slave card i).ports j =
          if j = i then (card.ports j).map (Port.slaved card) else card.ports j) ∧
        (slave card i).ecSource = card.ecSource ∧ (slave card i).freeRun = card.freeRun := by
    intro unchanged same
    rw [unchanged]
    refine ⟨fun j => ?_, rfl, rfl⟩
    by_cases equal : j = i
    · rw [if_pos equal, equal, same]
    · rw [if_neg equal]
  cases here : card.ports i with
  | none =>
      apply still
      · rw [slave, here]
      · rw [here]
        rfl
  | some port =>
      rcases slave_cases here with ⟨unchanged, same⟩ | changed
      · apply still unchanged
        rw [here, Option.map_some, same]
      · rw [changed]
        refine ⟨fun j => ?_, rfl, rfl⟩
        rw [put_ports]
        by_cases equal : j = i
        · rw [if_pos equal, if_pos equal, equal, here, Option.map_some]
        · rw [if_neg equal, if_neg equal]

/-- A turn does not change what the other turns go by. -/
theorem slaved_congr {card next : Card} (turned : ∀ i, next.ports i = card.ports i ∨
      next.ports i = (card.ports i).map (Port.slaved card)) (port : Port) :
    port.slaved next = port.slaved card := by
  unfold Port.slaved
  split
  · rfl
  · rcases turned (port.refClk - 1) with same | changed
    · rw [same]
    · rw [changed]
      cases card.ports (port.refClk - 1) with
      | none => rfl
      | some master =>
          rw [Option.map_some, Port.slaved_same card master]

/-- The first loop. -/
theorem slaves (card : Card) :
    (∀ j, ((List.range maxBriLines).foldl slave card).ports j =
        if j < maxBriLines then (card.ports j).map (Port.slaved card) else card.ports j) ∧
      ((List.range maxBriLines).foldl slave card).ecSource = card.ecSource ∧
      ((List.range maxBriLines).foldl slave card).freeRun = card.freeRun := by
  have each : ∀ (next : Card) (i : Nat),
      ((∀ port : Port, port.slaved next = port.slaved card) ∧ next.ecSource = card.ecSource ∧
        next.freeRun = card.freeRun) →
      ((∀ port : Port, port.slaved (slave next i) = port.slaved card) ∧
        (slave next i).ecSource = card.ecSource ∧ (slave next i).freeRun = card.freeRun) ∧
      ∀ j, (slave next i).ports j =
        if j = i then (next.ports j).map (Port.slaved card) else next.ports j := by
    rintro next i ⟨goesBy, source, freeRun⟩
    obtain ⟨ports, source', freeRun'⟩ := slave_ports next i
    have same : Port.slaved next = Port.slaved card := funext goesBy
    refine ⟨⟨fun port => ?_, source'.trans source, freeRun'.trans freeRun⟩, fun j => ?_⟩
    · rw [slaved_congr (fun j => ?_) port, goesBy]
      rw [ports]
      by_cases equal : j = i
      · exact Or.inr (if_pos equal)
      · exact Or.inl (if_neg equal)
    · rw [ports, same]
  obtain ⟨⟨-, source, freeRun⟩, ports⟩ :=
    @foldl_ports Card slave Card.ports _ _ each card ⟨fun _ => rfl, rfl, rfl⟩ maxBriLines
  exact ⟨ports, source, freeRun⟩

/-- A port that voice is paced by with the free running timer. -/
def Port.running (port : Port) : Bool := port.freeRunIsr && port.voice

/-- A port that clocks the echo canceller. -/
def Port.echoes (port : Port) : Bool :=
  port.kind == .te1 && port.ecEnableMap && port.shark && port.masterClock

/-- What the second loop leaves of a port that is not a BRI one. -/
def Port.checked (port : Port) : Port :=
  if port.down then port
  else if port.echoes && !port.connected && port.ecClockCtrl then { port.timed with masterClock := false }
  else port.timed

theorem timed_same (port : Port) :
    port.timed = { port with wdtTdmTiming := port.timed.wdtTdmTiming, wdt := port.timed.wdt } := by
  unfold Port.timed
  split <;> rfl

theorem put_same {card : Card} {i : Nat} {port : Port} (here : card.ports i = some port) :
    card.put i port = card := by
  rw [Card.put, ← here, Function.update_eq_self]

theorem timed_idle {port : Port} (unpaced : port.paced = false) : port.timed = port := by
  rw [Port.timed, unpaced, Bool.false_and, if_neg Bool.false_ne_true]

/-- What a turn of the second loop does with a port that is not a BRI one. -/
structure Looked (scan next : Scan) (i : Nat) : Prop where
  ports : ∀ j, next.card.ports j =
    if j = i then (scan.card.ports j).map Port.checked else scan.card.ports j
  source : next.card.ecSource = scan.card.ecSource
  freeRun : next.card.freeRun = scan.card.freeRun
  masterFound : next.masterFound = (scan.masterFound ||
    (scan.card.ports i).any fun port => !port.down && port.echoes && port.connected)
  timerDetect : next.timerDetect = (scan.timerDetect ||
    (scan.card.ports i).any fun port => !port.down && port.paced)
  timerOff : (!next.timerEnable) = (!scan.timerEnable ||
    (scan.card.ports i).any fun port => !port.down && port.paced && port.connected)
  freeRunDetect : next.freeRunDetect = (scan.freeRunDetect ||
    (scan.card.ports i).any fun port => !port.down && port.running)
  freeRunOff : (!next.freeRunEnable) = (!scan.freeRunEnable ||
    (scan.card.ports i).any fun port => !port.down && port.running && port.connected)
  ms : 1 ≤ scan.ms → 1 ≤ next.ms

theorem msOf_pos (port : Port) : 1 ≤ msOf port := by
  unfold msOf
  split
  · exact Nat.le_refl 1
  · next more => exact Nat.le_of_not_lt more

theorem running_unpaced {port : Port} (running : port.running = true) : port.paced = false := by
  rw [Port.running, Bool.and_eq_true] at running
  rw [Port.paced, running.1]
  cases port.kind == .te1 <;> rfl

theorem checkVoice_looked {scan : Scan} {i : Nat} {port : Port} (here : scan.card.ports i = some port) :
    checkVoice scan i port =
      { scan with
        card := scan.card.put i port.timed
        timerDetect := scan.timerDetect || port.paced
        timerEnable := scan.timerEnable && !(port.paced && port.connected)
        freeRunDetect := scan.freeRunDetect || port.running
        freeRunEnable := scan.freeRunEnable && !(port.running && port.connected)
        ms := if port.running then msOf port else scan.ms } := by
  have unfolded : checkVoice scan i port =
      if port.running then
        { scan with
          freeRunDetect := true
          ms := msOf port
          freeRunEnable := scan.freeRunEnable && !port.connected }
      else if port.paced then
        { scan with
          timerDetect := true
          timerEnable := scan.timerEnable && !port.connected
          card := scan.card.put i port.timed }
      else scan := rfl
  rw [unfolded]
  cases running : port.running with
  | true =>
      have unpaced := running_unpaced running
      rw [timed_idle unpaced, put_same here, unpaced]
      simp
  | false =>
      cases paced : port.paced with
      | true => simp
      | false =>
          rw [timed_idle paced, put_same here]
          simp

theorem checked_up {port : Port} (up : port.down = false) :
    port.checked =
      if port.echoes && !port.connected && port.ecClockCtrl then { port.timed with masterClock := false }
      else port.timed := by
  rw [Port.checked, up, if_neg Bool.false_ne_true]

theorem checkEc_looked {scan : Scan} {i : Nat} {port : Port} (up : port.down = false)
    (kind : port.kind = .te1) (here : scan.card.ports i = some port.timed) :
    checkEc scan i port.timed =
      { scan with
        card := scan.card.put i port.checked
        masterFound := scan.masterFound || (port.echoes && port.connected) } := by
  have echoes : (port.timed.ecEnableMap && port.timed.shark && port.timed.masterClock) = port.echoes := by
    rw [timed_same, Port.echoes, kind]
    cases port.ecEnableMap <;> rfl
  have connected : port.timed.connected = port.connected := by rw [timed_same]
  have ctrl : port.timed.ecClockCtrl = port.ecClockCtrl := by rw [timed_same]
  rw [checkEc, checked_up up]
  cases isEcho : port.echoes with
  | false =>
      rw [if_neg (by rw [echoes, isEcho]; exact Bool.false_ne_true)]
      simp [put_same here]
  | true =>
      rw [if_pos (echoes.trans isEcho)]
      cases isUp : port.connected with
      | true =>
          rw [if_pos (connected.trans isUp)]
          simp [put_same here]
      | false =>
          rw [if_neg (by rw [connected, isUp]; exact Bool.false_ne_true)]
          cases able : port.ecClockCtrl with
          | true =>
              rw [if_pos (ctrl.trans able)]
              simp
          | false =>
              rw [if_neg (by rw [ctrl, able]; exact Bool.false_ne_true)]
              simp [put_same here]

/-- A turn for a port, given what it leaves. -/
theorem Looked.of_some {scan next : Scan} {i : Nat} {port : Port} (here : scan.card.ports i = some port)
    (result : next =
      { card := scan.card.put i port.checked
        masterFound := scan.masterFound || (!port.down && port.echoes && port.connected)
        timerDetect := scan.timerDetect || (!port.down && port.paced)
        timerEnable := scan.timerEnable && !(!port.down && port.paced && port.connected)
        freeRunDetect := scan.freeRunDetect || (!port.down && port.running)
        freeRunEnable := scan.freeRunEnable && !(!port.down && port.running && port.connected)
        ms := if !port.down && port.running then msOf port else scan.ms }) : Looked scan next i := by
  subst result
  refine ⟨fun j => ?_, rfl, rfl, ?_, ?_, ?_, ?_, ?_, ?_⟩
  · rw [put_ports]
    by_cases equal : j = i
    · rw [if_pos equal, if_pos equal, equal, here, Option.map_some]
    · rw [if_neg equal, if_neg equal]
  · rw [here, Option.any_some]
  · rw [here, Option.any_some]
  · rw [here, Option.any_some, Bool.not_and, Bool.not_not]
  · rw [here, Option.any_some]
  · rw [here, Option.any_some, Bool.not_and, Bool.not_not]
  · intro positive
    dsimp only
    split
    · exact msOf_pos port
    · exact positive

theorem check_looked {scan : Scan} {i : Nat}
    (notBri : ∀ port, scan.card.ports i = some port → port.kind ≠ .bri) :
    Looked scan (check scan i) i := by
  cases here : scan.card.ports i with
  | none =>
      rw [check, here]
      refine ⟨fun j => ?_, rfl, rfl, ?_, ?_, ?_, ?_, ?_, id⟩
      · by_cases equal : j = i
        · rw [if_pos equal, equal, here, Option.map_none]
        · rw [if_neg equal]
      all_goals rw [here, Option.any_none, Bool.or_false]
  | some port =>
      apply Looked.of_some here
      rw [check, here]
      dsimp only
      cases up : port.down with
      | true =>
          rw [if_pos rfl, Port.checked, if_pos up, put_same here]
          simp
      | false =>
          rw [if_neg Bool.false_ne_true]
          have voiced := checkVoice_looked here
          cases kind : port.kind with
          | bri => exact absurd kind (notBri port here)
          | te1 =>
              have there : (checkVoice scan i port).card.ports i = some port.timed := by
                rw [voiced]
                dsimp only
                rw [put_ports, if_pos rfl]
              dsimp only
              rw [checkEc_looked up kind there, voiced]
              simp [Card.put]
          | gsm | other =>
              have apart : port.echoes = false ∧ port.paced = false := by
                rw [Port.echoes, Port.paced, kind]
                exact ⟨rfl, rfl⟩
              dsimp only
              rw [voiced, checked_up up, apart.1, apart.2]
              simp

theorem checked_same (port : Port) :
    port.checked =
      { port with
        masterClock := port.checked.masterClock
        wdtTdmTiming := port.checked.wdtTdmTiming
        wdt := port.checked.wdt } := by
  unfold Port.checked
  split
  · rfl
  · rw [timed_same port]
    split <;> rfl

/-- The second loop on a card without BRI ports. -/
structure Looks (before : Card) (scan : Scan) : Prop where
  ports : ∀ j, scan.card.ports j = (before.ports j).map Port.checked
  source : scan.card.ecSource = before.ecSource
  freeRun : scan.card.freeRun = before.freeRun
  masterFound : scan.masterFound = true ↔
    ∃ i port, before.ports i = some port ∧ (!port.down && port.echoes && port.connected) = true
  timerDetect : scan.timerDetect = true ↔
    ∃ i port, before.ports i = some port ∧ (!port.down && port.paced) = true
  timerOff : scan.timerEnable = false ↔
    ∃ i port, before.ports i = some port ∧ (!port.down && port.paced && port.connected) = true
  freeRunDetect : scan.freeRunDetect = true ↔
    ∃ i port, before.ports i = some port ∧ (!port.down && port.running) = true
  freeRunOff : scan.freeRunEnable = false ↔
    ∃ i port, before.ports i = some port ∧ (!port.down && port.running && port.connected) = true
  ms : 1 ≤ scan.ms

theorem checks {before : Card} (inside : ∀ i port, before.ports i = some port → i < maxBriLines)
    (notBri : ∀ i port, before.ports i = some port → port.kind ≠ .bri) :
    Looks before
      ((List.range maxBriLines).foldl check (Scan.start before)) := by
  have each : ∀ (scan : Scan) (i : Nat),
      ((∀ i port, scan.card.ports i = some port → port.kind ≠ .bri) ∧
        scan.card.ecSource = before.ecSource ∧ scan.card.freeRun = before.freeRun ∧ 1 ≤ scan.ms) →
      ((∀ j port, (check scan i).card.ports j = some port → port.kind ≠ .bri) ∧
        (check scan i).card.ecSource = before.ecSource ∧
        (check scan i).card.freeRun = before.freeRun ∧ 1 ≤ (check scan i).ms) ∧
      ∀ j, (check scan i).card.ports j =
        if j = i then (scan.card.ports j).map Port.checked else scan.card.ports j := by
    rintro scan i ⟨kinds, source, freeRun, ms⟩
    have looked := check_looked (kinds i)
    refine ⟨⟨fun j port there => ?_, looked.source.trans source, looked.freeRun.trans freeRun,
      looked.ms ms⟩, looked.ports⟩
    rw [looked.ports] at there
    split at there
    · obtain ⟨first, was, same⟩ := Option.map_eq_some_iff.mp there
      rw [← same, checked_same]
      exact kinds j first was
    · exact kinds j port there
  have start : (∀ i port, before.ports i = some port → port.kind ≠ .bri) ∧
      before.ecSource = before.ecSource ∧ before.freeRun = before.freeRun ∧ 1 ≤ 1 :=
    ⟨notBri, rfl, rfl, Nat.le_refl 1⟩
  have flags : ∀ {flag : Scan → Bool} {hit : Port → Bool},
      (∀ scan i, Looked scan (check scan i) i →
        flag (check scan i) = (flag scan || (scan.card.ports i).any hit)) →
      flag (Scan.start before) = false →
      (flag ((List.range maxBriLines).foldl check (Scan.start before)) = true ↔
        ∃ i port, before.ports i = some port ∧ hit port = true) := by
    intro flag hit sets clear
    have set := @foldl_flag Scan check (fun scan => scan.card.ports) _ Port.checked each flag hit
      (fun scan i kept => sets scan i (check_looked (kept.1 i))) (Scan.start before) start maxBriLines
    rw [set, clear]
    constructor
    · rintro (wrong | ⟨i, -, port, there, hits⟩)
      · cases wrong
      · exact ⟨i, port, there, hits⟩
    · rintro ⟨i, port, there, hits⟩
      exact Or.inr ⟨i, inside i port there, port, there, hits⟩
  obtain ⟨⟨-, source, freeRun, ms⟩, ports⟩ :=
    @foldl_ports Scan check (fun scan => scan.card.ports) _ Port.checked each (Scan.start before) start maxBriLines
  refine ⟨fun j => ?_, source, freeRun, ?_, ?_, ?_, ?_, ?_, ms⟩
  · refine (ports j).trans ?_
    by_cases less : j < maxBriLines
    · rw [if_pos less]
      rfl
    · rw [if_neg less]
      change before.ports j = _
      cases there : before.ports j with
      | none => rfl
      | some port => exact absurd (inside j port there) less
  · exact flags (fun scan i looked => looked.masterFound) rfl
  · exact flags (fun scan i looked => looked.timerDetect) rfl
  · rw [← Bool.not_eq_true']
    exact @flags (fun scan => !scan.timerEnable) _ (fun scan i looked => looked.timerOff) rfl
  · exact flags (fun scan i looked => looked.freeRunDetect) rfl
  · rw [← Bool.not_eq_true']
    exact @flags (fun scan => !scan.freeRunEnable) _ (fun scan i looked => looked.freeRunOff) rfl

/-- A port that the echo canceller may take its clock from, and that is not its master. -/
def Port.candidate (port : Port) : Bool :=
  !port.down && port.kind == .te1 && port.ecEnableMap && port.connected && port.refClk == 0 &&
    port.ecClockCtrl && !port.masterClock

/-- A port whose span nothing paces unless the watchdog does. -/
def Port.waiting (port : Port) : Bool := !port.down && port.paced && !port.connected

/-- What the third loop may do to a port. -/
structure Turned (port other : Port) : Prop where
  same : other =
    { port with
      masterClock := other.masterClock, wdtTdmTiming := other.wdtTdmTiming, wdt := other.wdt }
  master : port.masterClock = true → other.masterClock = true
  keeps : port.wdtTdmTiming = true → other.wdtTdmTiming = true
  sets : other.wdtTdmTiming = true → port.wdtTdmTiming = true ∨ port.connected = false

/-- What the third loop does on some of the lines of a card without BRI ports. -/
structure Chosen (lines : List Nat) (scan last : Scan) : Prop where
  ports : ∀ j, Option.Rel Turned (scan.card.ports j) (last.card.ports j)
  freeRun : last.card.freeRun = scan.card.freeRun
  mono : scan.masterFound = true → last.masterFound = true
  same : last.masterFound = scan.masterFound →
    last.card.ecSource = scan.card.ecSource ∧
      ∀ j port other, scan.card.ports j = some port → last.card.ports j = some other →
        other.masterClock = port.masterClock
  found : scan.masterFound = false → last.masterFound = true →
    ∃ i port, scan.card.ports i = some port ∧ port.candidate = true ∧
      last.card.ecSource = some i ∧
      (∀ other, last.card.ports i = some other → other.masterClock = true) ∧
      ∀ j ≠ i, ∀ port other, scan.card.ports j = some port → last.card.ports j = some other →
        other.masterClock = port.masterClock
  unfit : last.masterFound = false → ∀ i ∈ lines, ∀ port, scan.card.ports i = some port →
    port.candidate = false
  timer : last.timerEnable = true → scan.timerEnable = true ∧
    ∀ i ∈ lines, ∀ port, scan.card.ports i = some port → port.waiting = false
  paced : scan.timerEnable = true → last.timerEnable = false →
    ∃ i port, last.card.ports i = some port ∧ (!port.down && port.paced) = true ∧
      port.wdtTdmTiming = true

theorem Turned.refl (port : Port) : Turned port port :=
  ⟨rfl, id, id, Or.inl⟩

theorem Turned.trans {first second third : Port} (left : Turned first second)
    (right : Turned second third) : Turned first third := by
  refine ⟨?_, fun set => right.master (left.master set), fun set => right.keeps (left.keeps set), ?_⟩
  · rw [right.same, left.same]
  · intro set
    rcases right.sets set with before | off
    · exact left.sets before
    · rw [left.same] at off
      exact Or.inr off

theorem rel_some {scan last : Scan} (ports : ∀ j, Option.Rel Turned (scan.card.ports j) (last.card.ports j))
    {i : Nat} {port : Port} (here : scan.card.ports i = some port) :
    ∃ other, last.card.ports i = some other ∧ Turned port other := by
  have related := ports i
  rw [here] at related
  cases there : last.card.ports i with
  | none =>
      rw [there] at related
      cases related
  | some other =>
      rw [there] at related
      cases related with
      | some turned => exact ⟨other, rfl, turned⟩

theorem rel_back {scan last : Scan} (ports : ∀ j, Option.Rel Turned (scan.card.ports j) (last.card.ports j))
    {i : Nat} {other : Port} (there : last.card.ports i = some other) :
    ∃ port, scan.card.ports i = some port ∧ Turned port other := by
  have related := ports i
  rw [there] at related
  cases here : scan.card.ports i with
  | none =>
      rw [here] at related
      cases related
  | some port =>
      rw [here] at related
      cases related with
      | some turned => exact ⟨port, rfl, turned⟩

theorem Chosen.nil (scan : Scan) : Chosen [] scan scan := by
  have self : ∀ j, Option.Rel Turned (scan.card.ports j) (scan.card.ports j) := by
    intro j
    cases scan.card.ports j with
    | none => exact Option.Rel.none
    | some port => exact Option.Rel.some (Turned.refl port)
  refine ⟨self, rfl, id, fun _ => ⟨rfl, ?_⟩, ?_, ?_, ?_, ?_⟩
  · intro j port other here there
    rw [here, Option.some.injEq] at there
    rw [there]
  · intro off on
    rw [off] at on
    cases on
  · exact fun _ i wrong => absurd wrong List.not_mem_nil
  · exact fun on => ⟨on, fun i wrong => absurd wrong List.not_mem_nil⟩
  · intro on off
    rw [off] at on
    cases on

theorem candidate_turned {port other : Port} (turned : Turned port other)
    (same : other.masterClock = port.masterClock) : other.candidate = port.candidate := by
  unfold Port.candidate
  rw [same, turned.same]

theorem waiting_turned {port other : Port} (turned : Turned port other) :
    other.waiting = port.waiting := by
  rw [turned.same]
  rfl

theorem Chosen.trans {left right : List Nat} {scan mid last : Scan} (first : Chosen left scan mid)
    (second : Chosen right mid last) : Chosen (left ++ right) scan last := by
  refine ⟨fun j => ?_, second.freeRun.trans first.freeRun, fun on => second.mono (first.mono on),
    fun same => ?_, fun off on => ?_, fun off i member port here => ?_, fun on => ?_, fun on off => ?_⟩
  · cases here : scan.card.ports j with
    | none =>
        have related := first.ports j
        have related' := second.ports j
        rw [here] at related
        cases there : mid.card.ports j with
        | none =>
            rw [there] at related'
            exact related'
        | some other =>
            rw [there] at related
            cases related
    | some port =>
        obtain ⟨other, there, turned⟩ := rel_some first.ports here
        obtain ⟨another, end_, turned'⟩ := rel_some second.ports there
        rw [end_]
        exact Option.Rel.some (turned.trans turned')
  · -- Nothing was found, or it was found before.
    have between : mid.masterFound = scan.masterFound ∧ last.masterFound = mid.masterFound := by
      cases found : mid.masterFound with
      | true =>
          have later := second.mono found
          rw [later] at same
          exact ⟨same, later⟩
      | false =>
          cases before : scan.masterFound with
          | true =>
              rw [first.mono before] at found
              cases found
          | false => exact ⟨rfl, same.trans before⟩
    obtain ⟨source, flags⟩ := first.same between.1
    obtain ⟨source', flags'⟩ := second.same between.2
    refine ⟨source'.trans source, fun j port other here there => ?_⟩
    obtain ⟨middle, at_, -⟩ := rel_some first.ports here
    rw [flags' j middle other at_ there, flags j port middle here at_]
  · cases found : mid.masterFound with
    | true =>
        obtain ⟨i, port, here, fit, source, master, others⟩ := first.found off found
        obtain ⟨source', flags'⟩ := second.same ((second.mono found).trans found.symm)
        obtain ⟨middle, at_, -⟩ := rel_some first.ports here
        refine ⟨i, port, here, fit, source'.trans source, ?_, ?_⟩
        · intro other there
          rw [flags' i middle other at_ there]
          exact master middle at_
        · intro j apart port' other' here' there'
          obtain ⟨middle', at', -⟩ := rel_some first.ports here'
          rw [flags' j middle' other' at' there', others j apart port' middle' here' at']
    | false =>
        obtain ⟨-, flags⟩ := first.same (found.trans off.symm)
        obtain ⟨i, middle, at_, fit, source, master, others⟩ := second.found found on
        obtain ⟨port, here, turned⟩ := rel_back first.ports at_
        refine ⟨i, port, here, ?_, source, master, ?_⟩
        · rw [← candidate_turned turned (flags i port middle here at_)]
          exact fit
        · intro j apart port' other' here' there'
          obtain ⟨middle', at', -⟩ := rel_some first.ports here'
          rw [others j apart middle' other' at' there', flags j port' middle' here' at']
  · have between : mid.masterFound = false := by
      rw [Bool.eq_false_iff]
      intro found
      rw [second.mono found] at off
      cases off
    rcases List.mem_append.mp member with early | late
    · exact first.unfit between i early port here
    · have before : scan.masterFound = false := by
        rw [Bool.eq_false_iff]
        intro found
        rw [first.mono found] at between
        cases between
      obtain ⟨-, flags⟩ := first.same (between.trans before.symm)
      obtain ⟨middle, at_, turned⟩ := rel_some first.ports here
      rw [← candidate_turned turned (flags i port middle here at_)]
      exact second.unfit off i late middle at_
  · obtain ⟨on', late⟩ := second.timer on
    obtain ⟨on'', early⟩ := first.timer on'
    refine ⟨on'', fun i member port here => ?_⟩
    rcases List.mem_append.mp member with inLeft | inRight
    · exact early i inLeft port here
    · obtain ⟨middle, at_, turned⟩ := rel_some first.ports here
      rw [← waiting_turned turned]
      exact late i inRight middle at_
  · cases between : mid.timerEnable with
    | true => exact second.paced between off
    | false =>
        obtain ⟨i, middle, at_, up, set⟩ := first.paced on between
        obtain ⟨other, there, turned⟩ := rel_some second.ports at_
        refine ⟨i, other, there, ?_, turned.keeps set⟩
        rw [turned.same]
        exact up

/-- The watchdog is to pace the span of the port. -/
def Scan.starts (scan : Scan) (port : Port) : Bool :=
  port.paced && scan.timerEnable && !port.connected

/-- The port becomes the one that clocks the echo canceller. -/
def Scan.picks (scan : Scan) (port : Port) : Bool :=
  port.ecEnableMap && !scan.masterFound && !port.masterClock && port.connected && port.refClk == 0 &&
    port.ecClockCtrl

/-- A turn of the third loop leaves this of the port. -/
def Scan.leaves (scan : Scan) (port : Port) : Port :=
  { port with
    masterClock := port.masterClock || scan.picks port
    wdtTdmTiming := port.wdtTdmTiming || scan.starts port
    wdt := if scan.starts port then if port.wdtTdmTiming then port.wdt else 1 else port.wdt }

theorem chooseEc_eq {scan : Scan} {i : Nat} {port : Port} (here : scan.card.ports i = some port) :
    chooseEc scan i port =
      { scan with
        masterFound := scan.masterFound || scan.picks port
        card :=
          { scan.card.put i { port with masterClock := port.masterClock || scan.picks port } with
            ecSource := if scan.picks port then some i else scan.card.ecSource } } := by
  have unfolded : chooseEc scan i port =
      if scan.picks port then
        { scan with
          masterFound := true
          card := { scan.card.put i { port with masterClock := true } with ecSource := some i } }
      else scan := rfl
  rw [unfolded]
  cases scan.picks port with
  | true =>
      rw [Bool.or_true, Bool.or_true]
      rfl
  | false =>
      rw [if_neg Bool.false_ne_true, Bool.or_false, Bool.or_false, put_same here]
      rfl

theorem clocked_eq (port : Port) :
    port.clocked =
      { port with wdtTdmTiming := true, wdt := if port.wdtTdmTiming then port.wdt else 1 } := by
  rw [Port.clocked]
  split
  · next set =>
      cases port
      dsimp only at set
      subst set
      rfl
  · rfl

theorem chooseTe1_eq {scan : Scan} {i : Nat} {port : Port} (here : scan.card.ports i = some port) :
    chooseTe1 scan i port =
      { scan with
        masterFound := scan.masterFound || scan.picks port
        timerEnable := scan.timerEnable && !scan.starts port
        card :=
          { scan.card.put i (scan.leaves port) with
            ecSource := if scan.picks port then some i else scan.card.ecSource } } := by
  have unfolded : chooseTe1 scan i port =
      if scan.starts port then
        chooseEc { scan with timerEnable := false, card := scan.card.put i port.clocked } i port.clocked
      else chooseEc scan i port := rfl
  rw [unfolded, Scan.leaves]
  cases started : scan.starts port with
  | false =>
      rw [if_neg Bool.false_ne_true, chooseEc_eq here]
      simp
  | true =>
      have there : (scan.card.put i port.clocked).ports i = some port.clocked := by
        rw [put_ports, if_pos rfl]
      have same : ({ scan with timerEnable := false, card := scan.card.put i port.clocked } : Scan).picks
          port.clocked = scan.picks port := by
        rw [clocked_eq]
        rfl
      rw [if_pos rfl, chooseEc_eq there, same, clocked_eq]
      simp [Card.put]

theorem leaves_turned (scan : Scan) (port : Port) : Turned port (scan.leaves port) := by
  refine ⟨rfl, fun set => ?_, fun set => ?_, fun set => ?_⟩
  · rw [Scan.leaves, set, Bool.true_or]
  · rw [Scan.leaves, set, Bool.true_or]
  · rw [Scan.leaves, Bool.or_eq_true] at set
    rcases set with before | starts
    · exact Or.inl before
    · rw [Scan.starts, Bool.and_eq_true, Bool.not_eq_true'] at starts
      exact Or.inr starts.2

theorem Chosen.one {scan : Scan} {i : Nat} {port : Port} (here : scan.card.ports i = some port)
    (up : port.down = false) (kind : port.kind = .te1) : Chosen [i] scan (chooseTe1 scan i port) := by
  have result := chooseTe1_eq here
  have ports : ∀ j, (chooseTe1 scan i port).card.ports j =
      if j = i then some (scan.leaves port) else scan.card.ports j := by
    intro j
    rw [result]
    exact put_ports scan.card i (scan.leaves port) j
  have candidate : port.candidate =
      (port.ecEnableMap && port.connected && port.refClk == 0 && port.ecClockCtrl &&
        !port.masterClock) := by
    rw [Port.candidate, up, kind]
    rfl
  have picks : scan.masterFound = false → scan.picks port = port.candidate := by
    intro off
    rw [candidate, Scan.picks, off]
    cases port.ecEnableMap <;> cases port.masterClock <;> cases port.connected <;>
      cases port.refClk == 0 <;> cases port.ecClockCtrl <;> rfl
  have found : (chooseTe1 scan i port).masterFound = (scan.masterFound || scan.picks port) := by
    rw [result]
  have source : (chooseTe1 scan i port).card.ecSource =
      if scan.picks port then some i else scan.card.ecSource := by
    rw [result]
  have timer : (chooseTe1 scan i port).timerEnable = (scan.timerEnable && !scan.starts port) := by
    rw [result]
  have unpicked : (chooseTe1 scan i port).masterFound = scan.masterFound → scan.picks port = false := by
    intro same
    rw [found] at same
    cases before : scan.masterFound with
    | true =>
        rw [Scan.picks, before]
        cases port.ecEnableMap <;> rfl
    | false =>
        rw [before, Bool.false_or] at same
        exact same
  refine ⟨fun j => ?_, ?_, fun on => ?_, fun same => ⟨?_, ?_⟩, fun off on => ?_, fun off => ?_,
    fun on => ?_, fun on off => ?_⟩
  · rw [ports]
    by_cases equal : j = i
    · rw [if_pos equal, equal, here]
      exact Option.Rel.some (leaves_turned scan port)
    · rw [if_neg equal]
      cases scan.card.ports j with
      | none => exact Option.Rel.none
      | some other => exact Option.Rel.some (Turned.refl other)
  · rw [result]
    rfl
  · rw [found, on, Bool.true_or]
  · rw [source, unpicked same, if_neg Bool.false_ne_true]
  · intro j other another was there
    rw [ports] at there
    split at there
    · next equal =>
        rw [equal, here, Option.some.injEq] at was
        rw [Option.some.injEq] at there
        rw [← there, ← was, Scan.leaves, unpicked same, Bool.or_false]
    · rw [was, Option.some.injEq] at there
      rw [there]
  · rw [found, off, Bool.false_or] at on
    refine ⟨i, port, here, (picks off).symm.trans on, ?_, fun other there => ?_, ?_⟩
    · rw [source, if_pos on]
    · rw [ports, if_pos rfl, Option.some.injEq] at there
      rw [← there, Scan.leaves, on, Bool.or_true]
    · intro j apart other another was there
      rw [ports, if_neg apart, was, Option.some.injEq] at there
      rw [there]
  · intro j member other was
    rw [List.mem_singleton] at member
    rw [member, here, Option.some.injEq] at was
    rw [found, Bool.or_eq_false_iff] at off
    rw [← was, ← picks off.1, off.2]
  · rw [timer, Bool.and_eq_true, Bool.not_eq_true'] at on
    refine ⟨on.1, fun j member other was => ?_⟩
    rw [List.mem_singleton] at member
    rw [member, here, Option.some.injEq] at was
    have idle := on.2
    rw [Scan.starts, on.1, Bool.and_true] at idle
    rw [← was, Port.waiting, up, Bool.not_false, Bool.true_and]
    exact idle
  · rw [timer, on, Bool.true_and, Bool.not_eq_false'] at off
    refine ⟨i, scan.leaves port, by rw [ports, if_pos rfl], ?_, ?_⟩
    · rw [Scan.starts, Bool.and_eq_true, Bool.and_eq_true] at off
      have paced : (scan.leaves port).paced = true := off.1.1
      have still : (scan.leaves port).down = false := up
      rw [paced, still]
      rfl
    · rw [Scan.leaves, off, Bool.or_true]

/-- A line without a port for the third loop. -/
theorem Chosen.skip {scan : Scan} {i : Nat}
    (idle : ∀ port, scan.card.ports i = some port → port.down = true ∨ port.kind ≠ .te1) :
    Chosen [i] scan scan := by
  have still := Chosen.nil scan
  refine ⟨still.ports, rfl, id, still.same, still.found, fun _ j member port here => ?_,
    fun on => ⟨on, fun j member port here => ?_⟩, still.paced⟩
  · rw [List.mem_singleton] at member
    rw [member] at here
    rw [Port.candidate]
    rcases idle port here with down | other
    · rw [down]
      rfl
    · rw [beq_eq_false_iff_ne.mpr other, Bool.and_false]
      rfl
  · rw [List.mem_singleton] at member
    rw [member] at here
    rw [Port.waiting, Port.paced]
    rcases idle port here with down | other
    · rw [down]
      rfl
    · rw [beq_eq_false_iff_ne.mpr other, Bool.false_and, Bool.false_and, Bool.and_false]
      rfl

/-- The third loop on a card without BRI ports. -/
theorem chooses (lines : List Nat) {scan : Scan}
    (notBri : ∀ i port, scan.card.ports i = some port → port.kind ≠ .bri) :
    Chosen lines scan (choose lines scan) := by
  induction lines generalizing scan with
  | nil => exact Chosen.nil scan
  | cons i rest ih =>
      have skipped : choose (i :: rest) scan = choose rest scan →
          (∀ port, scan.card.ports i = some port → port.down = true ∨ port.kind ≠ .te1) →
          Chosen (i :: rest) scan (choose (i :: rest) scan) := by
        intro same idle
        rw [same]
        exact (Chosen.skip idle).trans (ih notBri)
      cases here : scan.card.ports i with
      | none =>
          apply skipped
          · rw [choose, here]
          · intro port wrong
            rw [here] at wrong
            cases wrong
      | some port =>
          cases up : port.down with
          | true =>
              apply skipped
              · rw [choose, here]
                dsimp only
                rw [up, if_pos rfl]
              · intro other there
                rw [here, Option.some.injEq] at there
                rw [← there]
                exact Or.inl up
          | false =>
              cases kind : port.kind with
              | bri => exact absurd kind (notBri i port here)
              | te1 =>
                  have turn : choose (i :: rest) scan = choose rest (chooseTe1 scan i port) := by
                    rw [choose, here]
                    dsimp only
                    rw [up, kind, if_neg Bool.false_ne_true]
                  have first := Chosen.one here up kind
                  rw [turn]
                  refine @Chosen.trans [i] rest _ _ _ first (ih ?_)
                  intro j other there
                  obtain ⟨before, was, turned⟩ := rel_back first.ports there
                  rw [turned.same]
                  exact notBri j before was
              | gsm | other =>
                  apply skipped
                  · rw [choose, here]
                    dsimp only
                    rw [up, kind, if_neg Bool.false_ne_true]
                  · intro other there
                    rw [here, Option.some.injEq] at there
                    rw [← there, kind]
                    exact Or.inr (fun wrong => by cases wrong)

end Wanpipe.Aft.Clock
