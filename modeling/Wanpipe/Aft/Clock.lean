import Mathlib.Data.List.Range
import Mathlib.Logic.Function.Basic
import Mathlib.Tactic.Common

/-! The clocks of an AFT card: the port that a BRI card takes its clock from, the port that clocks the
echo canceller of a T1/E1 card, and what paces voice while no line is up. -/

namespace Wanpipe.Aft.Clock

def maxBriLines : Nat := 24

def aftWdtctrlTimeout : Nat := 75

inductive Kind
  | bri
  | te1
  | gsm
  | other
  deriving DecidableEq, Repr

/-- A port. `osc` is set where its BRI module is to run on the oscillator, `refClk` is one more than
the port whose clock it is a slave of. `recovers` is what `clock_ctrl` was last called with, and
`setClock` is set once the port task is asked for `AFT_FE_SET_CLOCK`. -/
structure Port where
  kind : Kind
  te : Bool
  osc : Bool
  khz512 : Bool
  clockCtrl : Bool
  refClk : Nat
  shark : Bool
  ecClockCtrl : Bool
  ecEnableMap : Bool
  freeRunIsr : Bool
  sc : Bool
  globalTdmIrq : Bool
  tdmvMtu : Nat
  down : Bool
  connected : Bool
  masterClock : Bool
  refOsc : Bool
  wdtTdmTiming : Bool
  recovers : Bool
  setClock : Bool
  wdt : Nat
  deriving DecidableEq, Repr

/-- The ports by their lines, and the registers of the chip: whether it is in step with a line, which
port clocks the echo canceller, and the divider of the free running timer while that is on. -/
structure Card where
  ports : Nat → Option Port
  lineSync : Bool
  ecSource : Option Nat
  freeRun : Option Nat

def Card.put (card : Card) (i : Nat) (port : Port) : Card :=
  { card with ports := Function.update card.ports i (some port) }

theorem put_ports (card : Card) (i : Nat) (port : Port) (j : Nat) :
    (card.put i port).ports j = if j = i then some port else card.ports j := by
  rw [Card.put]
  dsimp only
  by_cases same : j = i
  · rw [same, Function.update_self, if_pos rfl]
  · rw [Function.update_of_ne same, if_neg same]

/-- The variables of `aft_handle_clock_master`. -/
structure Scan where
  card : Card
  masterFound : Bool
  freeRunEnable : Bool
  freeRunDetect : Bool
  timerDetect : Bool
  timerEnable : Bool
  ms : Nat

def Scan.start (card : Card) : Scan where
  card
  masterFound := false
  freeRunEnable := true
  freeRunDetect := false
  timerDetect := false
  timerEnable := true
  ms := 1

/-- The slave of another port waits while that is disconnected. -/
def slave (card : Card) (i : Nat) : Card :=
  match card.ports i with
  | none => card
  | some port =>
      if port.down || port.kind != .te1 || port.refClk == 0 then card
      else
        match card.ports (port.refClk - 1) with
        | none => card
        | some master =>
            if master.down then card
            else if port.refOsc == !master.connected then card
            else card.put i { port with refOsc := !master.connected, setClock := true }

/-- `aft_bri_clock_control`: the bit is written when it is not as it should be. -/
def aftBriClockControl (card : Card) (lineState : Bool) : Card := { card with lineSync := lineState }

def checkBri (scan : Scan) (i : Nat) (port : Port) : Scan :=
  if port.te && port.masterClock then
    if port.connected then { scan with masterFound := true }
    else
      { scan with
        card := aftBriClockControl
          (scan.card.put i
            { port with masterClock := false, recovers := !port.clockCtrl && port.recovers }) false }
  else scan

def msOf (port : Port) : Nat := if port.tdmvMtu / 8 < 1 then 1 else port.tdmvMtu / 8

/-- A port that paces the voice of its span, with the free running timer or without it. -/
def Port.voice (port : Port) : Bool := port.sc && port.globalTdmIrq

def Port.paced (port : Port) : Bool := port.kind == .te1 && !port.freeRunIsr && port.voice

/-- What the scan leaves of a port that paces its span. -/
def Port.timed (port : Port) : Port :=
  if port.paced && port.connected then
    { port with wdtTdmTiming := false, wdt := aftWdtctrlTimeout }
  else port

def checkVoice (scan : Scan) (i : Nat) (port : Port) : Scan :=
  if port.freeRunIsr && port.voice then
    { scan with
      freeRunDetect := true
      ms := msOf port
      freeRunEnable := scan.freeRunEnable && !port.connected }
  else if port.paced then
    { scan with
      timerDetect := true
      timerEnable := scan.timerEnable && !port.connected
      card := scan.card.put i port.timed }
  else scan

def checkEc (scan : Scan) (i : Nat) (port : Port) : Scan :=
  if port.ecEnableMap && port.shark && port.masterClock then
    if port.connected then { scan with masterFound := true }
    else if port.ecClockCtrl then
      { scan with card := scan.card.put i { port with masterClock := false } }
    else scan
  else scan

/-- One turn of the loop that looks for the master. -/
def check (scan : Scan) (i : Nat) : Scan :=
  match scan.card.ports i with
  | none => scan
  | some port =>
      if port.down then scan
      else
        match port.kind with
        | .bri => checkBri scan i port
        | .te1 => checkEc (checkVoice scan i port) i port.timed
        | _ => checkVoice scan i port

def aftFreeRunningTimerSetEnable (own : Port) (ms : Nat) (card : Card) : Card :=
  if !own.freeRunIsr then card
  else if ms == 0 then card
  else if (2 * ms - 1) % 64 == 0 then card
  else { card with freeRun := some ((2 * ms - 1) % 64) }

def aftFreeRunningTimerDisable (own : Port) (card : Card) : Card :=
  if !own.freeRunIsr then card else { card with freeRun := none }

/-- What is done between the two loops. -/
def timers (own : Port) (scan : Scan) : Scan :=
  if scan.freeRunDetect then
    { scan with
      card :=
        if scan.freeRunEnable then aftFreeRunningTimerSetEnable own scan.ms scan.card
        else aftFreeRunningTimerDisable own scan.card }
  else if scan.timerDetect then scan
  else { scan with timerEnable := false }

def chooseBri (scan : Scan) (i : Nat) (port : Port) : Scan :=
  if port.osc || !port.khz512 then scan
  else if port.te && !port.masterClock && port.connected && port.clockCtrl then
    { scan with
      masterFound := true
      card := aftBriClockControl
        (scan.card.put i { port with masterClock := true, recovers := true }) true }
  else scan

/-- What is left of a port that is to pace its span with the watchdog. -/
def Port.clocked (port : Port) : Port :=
  if port.wdtTdmTiming then port else { port with wdtTdmTiming := true, wdt := 1 }

def chooseEc (scan : Scan) (i : Nat) (port : Port) : Scan :=
  if port.ecEnableMap && !scan.masterFound && !port.masterClock && port.connected &&
      port.refClk == 0 && port.ecClockCtrl then
    { scan with
      masterFound := true
      card := { scan.card.put i { port with masterClock := true } with ecSource := some i } }
  else scan

def chooseTe1 (scan : Scan) (i : Nat) (port : Port) : Scan :=
  if port.paced && scan.timerEnable && !port.connected then
    chooseEc { scan with timerEnable := false, card := scan.card.put i port.clocked } i port.clocked
  else chooseEc scan i port

/-- The loop that chooses a master. It ends when a BRI port has been chosen. -/
def choose : List Nat → Scan → Scan
  | [], scan => scan
  | i :: rest, scan =>
      match scan.card.ports i with
      | none => choose rest scan
      | some port =>
          if port.down then choose rest scan
          else
            match port.kind with
            | .bri =>
                if scan.masterFound then choose rest scan
                else
                  let next := chooseBri scan i port
                  if next.masterFound then next else choose rest next
            | .te1 => choose rest (chooseTe1 scan i port)
            | _ => choose rest scan

/-- `own` is the port that `aft_handle_clock_master` is called for. -/
def aftHandleClockMaster (own : Port) (card : Card) : Card :=
  if own.kind == .bri && !own.clockCtrl then card
  else
    let paused := (List.range maxBriLines).foldl slave card
    let checked := (List.range maxBriLines).foldl check (Scan.start paused)
    let scan := timers own checked
    if (if own.kind == .bri then scan.masterFound else !scan.timerEnable && scan.masterFound) then
      scan.card
    else (choose (List.range maxBriLines) scan).card

/-- What happens to the ports of a card. `voice` is that of interfaces that come and go. -/
inductive Op
  | up (i : Fin maxBriLines) (port : Port)
  | connect (i : Fin maxBriLines)
  | disconnect (i : Fin maxBriLines)
  | newIf (i : Fin maxBriLines) (hwec : Bool)
  | voice (i : Fin maxBriLines) (sc globalTdmIrq : Bool)
  | criticalShutdown (i : Fin maxBriLines)
  | disableComm (i : Fin maxBriLines)

/-- The state of a port changes, and the clocks of the card are looked at again. -/
def changed (card : Card) (i : Nat) (port : Port) : Card := aftHandleClockMaster port (card.put i port)

/-- `setup` leaves nothing of an earlier start in `critical`. -/
def Port.fresh (port : Port) : Port :=
  { port with
    down := false, connected := false, masterClock := false, refOsc := false, wdtTdmTiming := false
    recovers := false, setClock := false, wdt := 0 }

/-- `AFT_HAS_FAKE_PORTS`. -/
def Port.fake (port : Port) : Bool := port.kind == .bri || port.kind == .gsm

/-- `aft_critical_shutdown`. A card with fake ports goes down as a whole. -/
def shutDown (i : Nat) (own : Port) (card : Card) : Card :=
  { card with
    ports := fun j => (card.ports j).map fun port =>
      if j == i || own.fake then { port with down := true, connected := false } else port }

def step (card : Card) : Op → Card
  | .up i port => if (card.ports i).isSome then card else card.put i port.fresh
  | .connect i =>
      match card.ports i with
      | none => card
      | some port => if port.connected then card else changed card i { port with connected := true }
  | .disconnect i =>
      match card.ports i with
      | none => card
      | some port => if port.connected then changed card i { port with connected := false } else card
  | .newIf i hwec =>
      match card.ports i with
      | none => card
      | some port => changed card i { port with ecEnableMap := port.ecEnableMap || hwec }
  | .voice i sc globalTdmIrq =>
      match card.ports i with
      | none => card
      | some port => card.put i { port with sc, globalTdmIrq }
  | .criticalShutdown i =>
      match card.ports i with
      | none => card
      | some port => shutDown i port card
  | .disableComm i =>
      match card.ports i with
      | none => card
      | some port =>
          { changed card i { port with connected := false } with
            ports := Function.update (changed card i { port with connected := false }).ports i none }

def noPorts : Card := ⟨fun _ => none, false, none, none⟩

def run (card : Card) (ops : List Op) : Card := ops.foldl step card

end Wanpipe.Aft.Clock
