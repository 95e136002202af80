import Wanpipe.LinkList

/-! The channels of a kernel ATM link: opening and closing a virtual circuit. -/

namespace Wanpipe.Katm

open LinkList

/-- `traffic_class` of one direction, as far as it is told apart. -/
inductive TrafficClass
  | none
  | ubr
  | cbr
  | other
  deriving DecidableEq

/-- `qos.aal`, as far as it is told apart. -/
inductive Aal
  | aal0
  | aal5
  | other
  deriving DecidableEq

structure Qos where
  aal : Aal
  rxtp : TrafficClass
  txtp : TrafficClass

/-- `atm_vcc`: two of its flags, and the channel it was given. -/
structure Vcc where
  addr : Bool
  ready : Bool
  devData : Option Nat

/-- `wp_katm_channel_t`: the circuit it belongs to and its channel in the SAR. -/
structure Channel where
  vcc : Nat
  sarVcc : Option Nat
  deriving DecidableEq

/-- The calls that the SAR gets. A channel that is closed or unregistered may be a null pointer. -/
inductive SarCall
  | register (handle : Nat)
  | open (handle : Nat) (opened : Bool)
  | close (handle : Option Nat)
  | unregister (handle : Option Nat)
  deriving DecidableEq

def SarCall.handle : SarCall → Option Nat
  | .register handle => some handle
  | .open handle _ => some handle
  | .close handle => handle
  | .unregister handle => handle

/-- `wp_katm_t` with its circuits, the channels in memory and the calls that the SAR has got.
Channels and handles are named in the order in which they are made. -/
structure AtmLink where
  vccs : Nat → Vcc
  channels : Nat → Option Channel
  listHeadIfdev : Links Nat
  devCnt : Int
  made : Nat
  handles : Nat
  sarCalls : List SarCall

/-- What an opening meets: whether there is memory, and whether the SAR registers the channel and
opens it. -/
structure Answers where
  memory : Bool
  registered : Bool
  opened : Bool

def einval : Int := -22

def enomem : Int := -12

section Calls

def setVcc (link : AtmLink) (vcc : Nat) (next : Vcc) : AtmLink :=
  { link with vccs := Function.update link.vccs vcc next }

def setChannel (link : AtmLink) (chan : Nat) (next : Option Channel) : AtmLink :=
  { link with channels := Function.update link.channels chan next }

def sar (link : AtmLink) (calls : List SarCall) : AtmLink :=
  { link with sarCalls := link.sarCalls ++ calls }

/-- The list holds at most as many channels as were made. -/
def wpkatmInsertVccdev (link : AtmLink) (chan : Nat) : Option AtmLink :=
  (link.listHeadIfdev.walk (link.made + 1) link.listHeadIfdev.first).map fun last =>
    { link with
      listHeadIfdev := link.listHeadIfdev.insert (slotBehind last) chan
      devCnt := link.devCnt + 1 }

/-- A channel that is not in the list is removed through a null pointer. -/
def wpkatmRemoveVccdev (link : AtmLink) (chan : Nat) : Option AtmLink :=
  (link.listHeadIfdev.remove chan).map fun links =>
    { link with listHeadIfdev := links, devCnt := link.devCnt - 1 }

/-- `wan_lip_katm_close`, when what it waits for has been sent. -/
def wanLipKatmClose (link : AtmLink) (vcc : Nat) : Option AtmLink :=
  match (link.vccs vcc).devData with
  | none => some link
  | some chan =>
      let link := setVcc link vcc { link.vccs vcc with ready := false }
      let sarVcc := (link.channels chan).bind Channel.sarVcc
      let link := sar link [.close sarVcc, .unregister sarVcc]
      let link := setChannel link chan ((link.channels chan).map ({ · with sarVcc := none }))
      (wpkatmRemoveVccdev link chan).map fun link =>
        let link := setVcc link vcc { link.vccs vcc with devData := none }
        let link := setChannel link chan none
        setVcc link vcc { link.vccs vcc with addr := false }

/-- What `wp_atm_open_chan` answers to a registered channel. -/
def openChan (link : AtmLink) (handle : Nat) (opened : Bool) : AtmLink × Int :=
  if opened then (sar link [.open handle true], 0)
  else (sar link [.open handle false, .unregister (some handle)], einval)

def wpKatmActivateChannel (link : AtmLink) (qos : Qos) (chan : Nat) (answers : Answers) :
    AtmLink × Int :=
  if qos.txtp = .other then (link, einval)
  else if answers.registered then
    let handle := link.handles
    let link := { sar link [.register handle] with handles := handle + 1 }
    let link := setChannel link chan ((link.channels chan).map ({ · with sarVcc := some handle }))
    openChan link handle answers.opened
  else (link, einval)

/-- The memory of a new channel is cleared, its links with it. -/
def newChannel (link : AtmLink) (vcc : Nat) : AtmLink :=
  let chan := link.made
  let link := setChannel link chan (some { vcc, sarVcc := none })
  let link := { link with listHeadIfdev := link.listHeadIfdev.clear chan, made := chan + 1 }
  setVcc link vcc { link.vccs vcc with devData := some chan }

/-- A channel that is not activated is closed, an activated one is put in the list. -/
def finishOpen (activated : AtmLink × Int) (vcc chan : Nat) : Option (AtmLink × Int) :=
  if activated.2 ≠ 0 then (wanLipKatmClose activated.1 vcc).map fun link => (link, activated.2)
  else
    (wpkatmInsertVccdev activated.1 chan).map fun link =>
      (setVcc link vcc { link.vccs vcc with ready := true }, 0)

def wanLipKatmOpen (link : AtmLink) (vcc : Nat) (qos : Qos) (answers : Answers) :
    Option (AtmLink × Int) :=
  if qos.aal ≠ .aal0 ∧ qos.aal ≠ .aal5 then some (link, einval)
  else if qos.rxtp = .none ∧ qos.txtp = .none then some (link, einval)
  else
    let link := setVcc link vcc { link.vccs vcc with addr := true }
    if answers.memory then
      let chan := link.made
      finishOpen (wpKatmActivateChannel (newChannel link vcc) qos chan answers) vcc chan
    else some (setVcc link vcc { link.vccs vcc with addr := false }, enomem)

end Calls

inductive Op
  | open (vcc : Nat) (qos : Qos) (answers : Answers)
  | close (vcc : Nat)

/-- One call and what it returns; `none` when it faults. -/
def call (link : AtmLink) : Op → Option (AtmLink × Int)
  | .open vcc qos answers => wanLipKatmOpen link vcc qos answers
  | .close vcc => (wanLipKatmClose link vcc).map fun link => (link, 0)

/-- A link without circuits. -/
def start : AtmLink where
  vccs _ := { addr := false, ready := false, devData := none }
  channels _ := none
  listHeadIfdev := { first := none, next := fun _ => none, prev := fun _ => none }
  devCnt := 0
  made := 0
  handles := 0
  sarCalls := []

end Wanpipe.Katm
