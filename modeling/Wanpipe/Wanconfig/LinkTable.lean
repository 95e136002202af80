import Mathlib.Data.List.Basic
import Mathlib.Tactic.Common

/-! The table of links that the daemon keeps, and the commands that bring it up to date with the
configuration files. -/

namespace Wanpipe.Wanconfig.LinkTable

section

variable (Name Conf Chan : Type)

/-- `link_def_t`. `conf` is what its file says for the device, `chan` the definitions of its
channels. `readFrom` is the device whose file it was read from, which the code does not keep. -/
structure LinkDef where
  name : Name
  conf : Conf
  modified : Nat
  chan : List Chan
  readFrom : Name

/-- A configuration file: when it was modified, the devices it declares with what it says for them,
the channels of its interfaces, and whether the parser then meets an error. -/
structure ConfFile where
  modified : Nat
  devices : List (Name × Conf)
  interfaces : List Chan
  failed : Bool

/-- What a command meets: the files in the configuration directory, what the name in a definition
reads as when that is freed, and whether a link is configured. -/
structure Surroundings where
  files : Name → Option (ConfFile Name Conf Chan)
  freed : Name → Name
  configured : LinkDef Name Conf Chan → Bool

/-- How a command leaves the table, unless it reads through a null pointer. -/
inductive Outcome
  | fault
  | error (table : List (LinkDef Name Conf Chan))
  | done (table : List (LinkDef Name Conf Chan))

end

variable {Name Conf Chan : Type} [DecidableEq Name]

section Parse

/-- The definition of each device is put in front of the table. -/
def buildLinkdefList (readFrom : Name) (devices : List (Name × Conf))
    (table : List (LinkDef Name Conf Chan)) : List (LinkDef Name Conf Chan) :=
  devices.foldl (fun table device =>
    { name := device.1, conf := device.2, modified := 0, chan := [], readFrom } :: table) table

/-- All channels are those of the first definition of the table. -/
def buildChandefList (interfaces : List Chan) :
    List (LinkDef Name Conf Chan) → List (LinkDef Name Conf Chan)
  | [] => []
  | linkdef :: table => { linkdef with chan := linkdef.chan ++ interfaces } :: table

/-- The table, and whether there was an error. -/
def parseConfFile (files : Name → Option (ConfFile Name Conf Chan)) (name : Name)
    (table : List (LinkDef Name Conf Chan)) : List (LinkDef Name Conf Chan) × Bool :=
  match files name with
  | some file =>
      (buildChandefList file.interfaces (buildLinkdefList name file.devices table), file.failed)
  | none => (table, true)

end Parse

section Commands

/-- A definition of another time gets that of its file. -/
def hasConfigChanged (files : Name → Option (ConfFile Name Conf Chan))
    (linkdef : LinkDef Name Conf Chan) : LinkDef Name Conf Chan × Int :=
  match files linkdef.name with
  | some file =>
      if linkdef.modified ≠ file.modified then ({ linkdef with modified := file.modified }, 1)
      else (linkdef, 0)
  | none => (linkdef, -1)

/-- `has_config_changed` of the first definition of that name. -/
def hasNamedChanged (files : Name → Option (ConfFile Name Conf Chan)) (name : Name) :
    List (LinkDef Name Conf Chan) → List (LinkDef Name Conf Chan) × Int
  | [] => ([], -1)
  | linkdef :: table =>
      if linkdef.name = name then
        ((hasConfigChanged files linkdef).1 :: table, (hasConfigChanged files linkdef).2)
      else (linkdef :: (hasNamedChanged files name table).1, (hasNamedChanged files name table).2)

def freeDeviceLink (devname : Name) (table : List (LinkDef Name Conf Chan)) :
    List (LinkDef Name Conf Chan) :=
  table.eraseP fun linkdef => linkdef.name = devname

/-- `reads` is what the device's name reads as behind `free_device_link`. -/
def deviceSyncup (surroundings : Surroundings Name Conf Chan) (devname reads : Name)
    (table : List (LinkDef Name Conf Chan)) : Outcome Name Conf Chan :=
  let parsed := parseConfFile surroundings.files reads (freeDeviceLink devname table)
  if parsed.2 then .error parsed.1
  else
    match parsed.1 with
    | [] => .fault
    | linkdef :: table =>
        let linkdef := (hasConfigChanged surroundings.files linkdef).1
        if surroundings.configured linkdef then .done (linkdef :: table)
        else .error (linkdef :: table)

/-- The first definition that has changed, by name, and the table as the test leaves it. -/
def firstChanged (files : Name → Option (ConfFile Name Conf Chan)) :
    List (LinkDef Name Conf Chan) → Option (List (LinkDef Name Conf Chan) × Name)
  | [] => none
  | linkdef :: table =>
      if (hasConfigChanged files linkdef).2 ≠ 0 then
        some ((hasConfigChanged files linkdef).1 :: table, linkdef.name)
      else (firstChanged files table).map fun found => (linkdef :: found.1, found.2)

/-- The loop of `start_cfg_chk`, followed through at most so many scans of the table. -/
def rescan (surroundings : Surroundings Name Conf Chan) :
    Nat → List (LinkDef Name Conf Chan) → Option (Outcome Name Conf Chan)
  | 0, _ => none
  | scans + 1, table =>
      match firstChanged surroundings.files table with
      | none => some (.done table)
      | some (table, name) =>
          match deviceSyncup surroundings name (surroundings.freed name) table with
          | .done table => rescan surroundings scans table
          | outcome => some outcome

/-- The part of `start_link` in front of the links being started. -/
def startLink (surroundings : Surroundings Name Conf Chan) (cardName : Option Name) (scans : Nat)
    (table : List (LinkDef Name Conf Chan)) : Option (Outcome Name Conf Chan) :=
  match table, cardName with
  | [], some card => some (deviceSyncup surroundings card card [])
  | [], none => some (.error [])
  | table, some card =>
      let checked := hasNamedChanged surroundings.files card table
      if checked.2 ≠ 0 then some (deviceSyncup surroundings card card checked.1)
      else some (.done checked.1)
  | table, none => rescan surroundings scans table

/-- The commands that change the table, each with what it meets, and for how many scans a rescan is
followed. -/
inductive Command (Name Conf Chan : Type)
  | init (cardName : Name) (surroundings : Surroundings Name Conf Chan)
  | start (cardName : Option Name) (surroundings : Surroundings Name Conf Chan) (scans : Nat)

def execCommand (table : List (LinkDef Name Conf Chan)) :
    Command Name Conf Chan → Option (Outcome Name Conf Chan)
  | .init card surroundings => some (deviceSyncup surroundings card card table)
  | .start cardName surroundings scans => startLink surroundings cardName scans table

/-- The table behind a command that comes back. -/
def Outcome.table : Outcome Name Conf Chan → Option (List (LinkDef Name Conf Chan))
  | .fault => none
  | .error table => some table
  | .done table => some table

end Commands

end Wanpipe.Wanconfig.LinkTable
