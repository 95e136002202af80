import Mathlib.Data.List.Nodup
import Wanpipe.Runs
import Wanpipe.Wanconfig.LinkTable

/-! The rescan of the configuration files ends, with a table that says what the files say, when
every file that is read again declares the device it is named for and no other. -/

namespace Wanpipe.Wanconfig.LinkTable

open Runs

variable {Name Conf Chan : Type}

/-- The file declares the device with what the definition holds. The channels of the interfaces are
those of the device that is declared last. -/
def Says (file : ConfFile Name Conf Chan) (linkdef : LinkDef Name Conf Chan) : Prop :=
  ∃ before behind, file.devices = before ++ (linkdef.name, linkdef.conf) :: behind ∧
    (behind = [] ∧ linkdef.chan = file.interfaces ∨ behind ≠ [] ∧ linkdef.chan = [])

/-- One definition for each device, with the time and the contents of the file it was read from. -/
structure Consistent (files : Name → Option (ConfFile Name Conf Chan))
    (table : List (LinkDef Name Conf Chan)) : Prop where
  single : (table.map LinkDef.name).Nodup
  fresh : ∀ linkdef ∈ table, ∃ file, files linkdef.readFrom = some file ∧
    linkdef.modified = file.modified ∧ Says file linkdef

/-- The file of a device declares that device only, if it is not one that fails before. -/
def Own (files : Name → Option (ConfFile Name Conf Chan)) (name : Name) : Prop :=
  ∀ file, files name = some file →
    (∃ conf, file.devices = [(name, conf)]) ∨ file.devices = [] ∧ file.failed = true

def changed (files : Name → Option (ConfFile Name Conf Chan)) (linkdef : LinkDef Name Conf Chan) :
    Bool :=
  (hasConfigChanged files linkdef).2 ≠ 0

/-- Every definition is the only one of its device, whose own file it was read from. -/
structure Kept (table : List (LinkDef Name Conf Chan)) : Prop where
  single : (table.map LinkDef.name).Nodup
  own : ∀ linkdef ∈ table, linkdef.readFrom = linkdef.name

/-- A kept table on which the files can be read again where they have changed, and still say what
the definitions hold where they have not. -/
structure Ready (surroundings : Surroundings Name Conf Chan)
    (table : List (LinkDef Name Conf Chan)) : Prop extends Kept table where
  again : ∀ linkdef ∈ table, changed surroundings.files linkdef = true →
    Own surroundings.files linkdef.name ∧ surroundings.freed linkdef.name = linkdef.name
  same : ∀ linkdef ∈ table, changed surroundings.files linkdef = false →
    ∃ file, surroundings.files linkdef.name = some file ∧ linkdef.modified = file.modified ∧
      Says file linkdef

section Kept

variable {table next : List (LinkDef Name Conf Chan)} {linkdef : LinkDef Name Conf Chan}

theorem Kept.shorter (kept : Kept table) (shorter : next.Sublist table) : Kept next where
  single := kept.single.sublist (shorter.map LinkDef.name)
  own := fun linkdef member => kept.own linkdef (shorter.subset member)

theorem Kept.cons (kept : Kept table) (absent : ∀ other ∈ table, other.name ≠ linkdef.name)
    (own : linkdef.readFrom = linkdef.name) : Kept (linkdef :: table) where
  single := by
    rw [List.map_cons, List.nodup_cons]
    refine ⟨?_, kept.single⟩
    rw [List.mem_map]
    rintro ⟨other, member, same⟩
    exact absent other member same
  own := by
    intro other member
    rcases List.mem_cons.mp member with rfl | old
    · exact own
    · exact kept.own other old

theorem Kept.head (kept : Kept (linkdef :: table)) : ∀ other ∈ table, other.name ≠ linkdef.name := by
  intro other member same
  have single := kept.single
  rw [List.map_cons, List.nodup_cons, ← same] at single
  exact single.1 (List.mem_map_of_mem member)

theorem Kept.tail (kept : Kept (linkdef :: table)) : Kept table :=
  kept.shorter (List.sublist_cons_self linkdef table)

/-- Only the names matter, and the files that the definitions were read from. -/
theorem Kept.of_labels (kept : Kept table)
    (labels : next.map (fun linkdef => (linkdef.name, linkdef.readFrom)) =
      table.map fun linkdef => (linkdef.name, linkdef.readFrom)) : Kept next where
  single := by
    have names := congrArg (List.map Prod.fst) labels
    rw [List.map_map, List.map_map] at names
    have single : (table.map (Prod.fst ∘ fun linkdef => (linkdef.name, linkdef.readFrom))).Nodup :=
      kept.single
    rw [← names] at single
    exact single
  own := by
    intro linkdef member
    have label : (linkdef.name, linkdef.readFrom) ∈
        next.map fun linkdef => (linkdef.name, linkdef.readFrom) := List.mem_map_of_mem member
    rw [labels] at label
    obtain ⟨other, inside, same⟩ := List.mem_map.mp label
    obtain ⟨name, readFrom⟩ := Prod.mk.inj same
    rw [← name, ← readFrom]
    exact kept.own other inside

theorem Kept.channels (kept : Kept table) (interfaces : List Chan) :
    Kept (buildChandefList interfaces table) := by
  apply kept.of_labels
  cases table <;> rfl

/-- A definition may become another of the same device. -/
theorem Kept.replace {left right : List (LinkDef Name Conf Chan)} {other : LinkDef Name Conf Chan}
    (kept : Kept (left ++ linkdef :: right)) (name : other.name = linkdef.name)
    (readFrom : other.readFrom = linkdef.readFrom) : Kept (left ++ other :: right) := by
  apply kept.of_labels
  simp only [List.map_append, List.map_cons, name, readFrom]

end Kept

section Files

/-- The definition of the only device of a file. -/
def synced (name : Name) (conf : Conf) (file : ConfFile Name Conf Chan) :
    LinkDef Name Conf Chan where
  name := name
  conf := conf
  modified := file.modified
  chan := file.interfaces
  readFrom := name

variable {files : Name → Option (ConfFile Name Conf Chan)} {name : Name} {conf : Conf}
variable {file : ConfFile Name Conf Chan} {linkdef : LinkDef Name Conf Chan}
variable {table next : List (LinkDef Name Conf Chan)}

theorem parseConfFile_alone (table : List (LinkDef Name Conf Chan))
    (found : files name = some file) (alone : file.devices = [(name, conf)]) :
    parseConfFile files name table =
      ({ synced name conf file with modified := 0 } :: table, file.failed) := by
  simp only [parseConfFile, found, alone, buildLinkdefList, buildChandefList, List.foldl_cons,
    List.foldl_nil, List.nil_append, synced]

theorem hasConfigChanged_time (found : files linkdef.name = some file) :
    (hasConfigChanged files linkdef).1 = { linkdef with modified := file.modified } := by
  simp only [hasConfigChanged, found]
  by_cases other : linkdef.modified ≠ file.modified
  · rw [if_pos other]
  · rw [if_neg other, ← not_not.mp other]

/-- The only device of its file gets the file's time. -/
theorem hasConfigChanged_synced (found : files name = some file) :
    (hasConfigChanged files { synced name conf file with modified := 0 }).1 =
      synced name conf file :=
  hasConfigChanged_time found

theorem synced_unchanged (found : files name = some file) :
    changed files (synced name conf file) = false := by
  simp [changed, hasConfigChanged, synced, found]

theorem hasConfigChanged_name (files : Name → Option (ConfFile Name Conf Chan))
    (linkdef : LinkDef Name Conf Chan) :
    (hasConfigChanged files linkdef).1.name = linkdef.name ∧
      (hasConfigChanged files linkdef).1.readFrom = linkdef.readFrom := by
  rw [hasConfigChanged]
  cases files linkdef.name with
  | none => exact ⟨rfl, rfl⟩
  | some file =>
      by_cases other : linkdef.modified ≠ file.modified
      · simp only [if_pos other, and_self]
      · simp only [if_neg other, and_self]

/-- A definition that has not changed is of the time of its file. -/
theorem unchanged_file (unchanged : changed files linkdef = false) :
    ∃ file, files linkdef.name = some file ∧ linkdef.modified = file.modified := by
  rw [changed, hasConfigChanged] at unchanged
  cases found : files linkdef.name with
  | none => simp [found] at unchanged
  | some file =>
      refine ⟨file, rfl, ?_⟩
      by_contra other
      simp [found, other] at unchanged

theorem firstChanged_none (none : firstChanged files table = none) :
    ∀ linkdef ∈ table, changed files linkdef = false := by
  induction table with
  | nil => exact fun linkdef member => absurd member List.not_mem_nil
  | cons linkdef table ih =>
      rw [firstChanged] at none
      by_cases differs : (hasConfigChanged files linkdef).2 ≠ 0
      · rw [if_pos differs] at none
        cases none
      · rw [if_neg differs, Option.map_eq_none_iff] at none
        intro other member
        rcases List.mem_cons.mp member with rfl | rest
        · simpa [changed] using differs
        · exact ih none other rest

theorem firstChanged_some (found : firstChanged files table = some (next, name)) :
    ∃ left linkdef right, table = left ++ linkdef :: right ∧ changed files linkdef = true ∧
      linkdef.name = name ∧ next = left ++ (hasConfigChanged files linkdef).1 :: right := by
  induction table generalizing next with
  | nil => cases found
  | cons linkdef table ih =>
      rw [firstChanged] at found
      by_cases differs : (hasConfigChanged files linkdef).2 ≠ 0
      · rw [if_pos differs] at found
        cases found
        exact ⟨[], linkdef, table, rfl, by simpa [changed] using differs, rfl, rfl⟩
      · rw [if_neg differs] at found
        obtain ⟨⟨rest, reached⟩, later, same⟩ := Option.map_eq_some_iff.mp found
        cases same
        obtain ⟨left, other, right, rfl, changes, named, rfl⟩ := ih later
        exact ⟨linkdef :: left, other, right, rfl, changes, named, rfl⟩

/-- A table that is ready and on which nothing has changed is consistent. -/
theorem Ready.consistent {surroundings : Surroundings Name Conf Chan}
    (ready : Ready surroundings table)
    (unchanged : ∀ linkdef ∈ table, changed surroundings.files linkdef = false) :
    Consistent surroundings.files table where
  single := ready.single
  fresh := by
    intro linkdef member
    rw [ready.own linkdef member]
    exact ready.same linkdef member (unchanged linkdef member)

end Files

variable [DecidableEq Name]

/-- The rescan comes to an error or to its end, and there the table is consistent. -/
def Synchronises (surroundings : Surroundings Name Conf Chan)
    (table : List (LinkDef Name Conf Chan)) : Prop :=
  ∃ scans outcome, rescan surroundings scans table = some outcome ∧ outcome ≠ .fault ∧
    ∀ next, outcome = .done next → Consistent surroundings.files next

/-- Every rescan is one that synchronises the table. -/
def Meets (table : List (LinkDef Name Conf Chan)) : Command Name Conf Chan → Prop
  | .start none surroundings _ => Synchronises surroundings table
  | _ => True

/-- The files that a command reads declare the devices that they are named for. In a rescan the name
of a definition that has changed can still be read when that is freed, and the file of one that has
not still says what the definition holds. -/
def Fine (table : List (LinkDef Name Conf Chan)) : Command Name Conf Chan → Prop
  | .init card surroundings => Own surroundings.files card
  | .start (some card) surroundings _ =>
      (table = [] ∨ (hasNamedChanged surroundings.files card table).2 ≠ 0) →
        Own surroundings.files card
  | .start none surroundings _ => ∀ linkdef ∈ table,
      if changed surroundings.files linkdef then
        Own surroundings.files linkdef.name ∧ surroundings.freed linkdef.name = linkdef.name
      else ∀ file, surroundings.files linkdef.name = some file → Says file linkdef

section Syncup

variable {surroundings : Surroundings Name Conf Chan} {name : Name}
variable {table : List (LinkDef Name Conf Chan)}

theorem Kept.freed (kept : Kept table) (name : Name) : Kept (freeDeviceLink name table) :=
  kept.shorter (List.eraseP_sublist)

/-- With single definitions none is left of a device that is freed. -/
theorem Kept.absent (kept : Kept table) (name : Name) :
    ∀ other ∈ freeDeviceLink name table, other.name ≠ name := by
  induction table with
  | nil => exact fun other member => absurd member List.not_mem_nil
  | cons linkdef table ih =>
      intro other member
      by_cases same : linkdef.name = name
      · have found : freeDeviceLink name (linkdef :: table) = table :=
          List.eraseP_cons_of_pos (by simpa using same)
        rw [found] at member
        rw [← same]
        exact kept.head other member
      · have later : freeDeviceLink name (linkdef :: table) =
            linkdef :: freeDeviceLink name table :=
          List.eraseP_cons_of_neg (by simpa using same)
        rw [later] at member
        rcases List.mem_cons.mp member with rfl | rest
        · exact same
        · exact ih kept.tail other rest

/-- Of single definitions the one of the device is freed. -/
theorem Kept.frees {left right : List (LinkDef Name Conf Chan)} {linkdef : LinkDef Name Conf Chan}
    (kept : Kept (left ++ linkdef :: right)) :
    freeDeviceLink linkdef.name (left ++ linkdef :: right) = left ++ right := by
  have single := kept.single
  rw [List.map_append, List.map_cons, List.nodup_append'] at single
  have apart : ∀ other ∈ left, other.name ≠ linkdef.name := by
    intro other member same
    apply single.2.2 (List.mem_map_of_mem member)
    rw [same]
    exact List.mem_cons_self
  rw [freeDeviceLink, List.eraseP_append_right, List.eraseP_cons_of_pos]
  · simp
  · intro other member
    simpa using apart other member

theorem Kept.synced (kept : Kept table) (name : Name) (conf : Conf)
    (file : ConfFile Name Conf Chan) (modified : Nat) :
    Kept ({ synced name conf file with modified } :: freeDeviceLink name table) :=
  (kept.freed name).cons (kept.absent name) rfl

/-- The device's file is read with an error, or its definition is put in the table instead of the
one that was there. -/
theorem deviceSyncup_own (kept : Kept table) (own : Own surroundings.files name) :
    (∃ next, deviceSyncup surroundings name name table = .error next ∧ Kept next) ∨
      ∃ file conf, surroundings.files name = some file ∧ file.devices = [(name, conf)] ∧
        deviceSyncup surroundings name name table =
          .done (LinkTable.synced name conf file :: freeDeviceLink name table) := by
  cases found : surroundings.files name with
  | none =>
      refine Or.inl ⟨freeDeviceLink name table, ?_, kept.freed name⟩
      simp only [deviceSyncup, parseConfFile, found, if_pos]
  | some file =>
      rcases own file found with ⟨conf, alone⟩ | ⟨nothing, failed⟩
      · have parsed := parseConfFile_alone (freeDeviceLink name table) found alone
        cases failed : file.failed with
        | true =>
            refine Or.inl ⟨_, ?_, kept.synced name conf file 0⟩
            simp only [deviceSyncup, parsed, failed, if_pos]
        | false =>
            cases configured : surroundings.configured (LinkTable.synced name conf file) with
            | true =>
                refine Or.inr ⟨file, conf, rfl, alone, ?_⟩
                simp only [deviceSyncup, parsed, failed, hasConfigChanged_synced found, configured]
                rfl
            | false =>
                refine Or.inl ⟨_, ?_, kept.synced name conf file file.modified⟩
                simp only [deviceSyncup, parsed, failed, hasConfigChanged_synced found, configured]
                rfl
      · refine Or.inl ⟨_, ?_, (kept.freed name).channels file.interfaces⟩
        simp only [deviceSyncup, parseConfFile, found, failed, nothing, buildLinkdefList,
          List.foldl_nil, if_pos]

end Syncup

section Loop

variable {surroundings : Surroundings Name Conf Chan} {name : Name}
variable {table next : List (LinkDef Name Conf Chan)}

/-- One turn of the loop: nothing has changed, or the first definition that has is read again, and
with that one fewer has changed. -/
theorem Ready.turn (ready : Ready surroundings table)
    (found : firstChanged surroundings.files table = some (next, name)) :
    (∃ last, deviceSyncup surroundings name (surroundings.freed name) next = .error last ∧
      Kept last) ∨
    ∃ later, deviceSyncup surroundings name (surroundings.freed name) next = .done later ∧
      Ready surroundings later ∧
      later.countP (changed surroundings.files) < table.countP (changed surroundings.files) := by
  obtain ⟨left, linkdef, right, rfl, changes, rfl, rfl⟩ := firstChanged_some found
  obtain ⟨own, reads⟩ := ready.again linkdef
    (List.mem_append_right left List.mem_cons_self) changes
  obtain ⟨sameName, sameFile⟩ := hasConfigChanged_name surroundings.files linkdef
  have kept : Kept (left ++ (hasConfigChanged surroundings.files linkdef).1 :: right) :=
    ready.toKept.replace sameName sameFile
  have frees := kept.frees
  rw [sameName] at frees
  rw [reads]
  rcases deviceSyncup_own kept own with failed | ⟨file, conf, opened, alone, done⟩
  · exact Or.inl failed
  · right
    rw [frees] at done
    have unchanged : changed surroundings.files (synced linkdef.name conf file) = false :=
      synced_unchanged opened
    have rest : ∀ other ∈ left ++ right, other ∈ left ++ linkdef :: right := by
      intro other member
      exact List.mem_append.mpr
        ((List.mem_append.mp member).imp id (List.mem_cons_of_mem linkdef))
    refine ⟨_, done, ?_, ?_⟩
    · refine { toKept := ?_, again := ?_, same := ?_ }
      · rw [← frees]
        exact kept.synced linkdef.name conf file file.modified
      · intro other member changes
        rcases List.mem_cons.mp member with rfl | old
        · rw [unchanged] at changes
          cases changes
        · exact ready.again other (rest other old) changes
      · intro other member still
        rcases List.mem_cons.mp member with rfl | old
        · exact ⟨file, opened, rfl, [], [], alone, Or.inl ⟨rfl, rfl⟩⟩
        · exact ready.same other (rest other old) still
    · rw [List.countP_cons_of_neg (by simp [unchanged]), List.countP_append, List.countP_append,
        List.countP_cons_of_pos changes]
      omega

/-- However far a rescan is followed, it keeps the table and does not fault, and at its end the
table is consistent. -/
theorem Ready.rescan (ready : Ready surroundings table) {scans : Nat}
    {outcome : Outcome Name Conf Chan}
    (returns : LinkTable.rescan surroundings scans table = some outcome) :
    (∃ last, outcome = .error last ∧ Kept last) ∨
      ∃ last, outcome = .done last ∧ Kept last ∧ Consistent surroundings.files last := by
  induction scans generalizing table with
  | zero => cases returns
  | succ scans ih =>
      rw [LinkTable.rescan] at returns
      cases found : firstChanged surroundings.files table with
      | none =>
          rw [found] at returns
          cases returns
          exact Or.inr ⟨table, rfl, ready.toKept, ready.consistent (firstChanged_none found)⟩
      | some pair =>
          rw [found] at returns
          rcases ready.turn found with ⟨last, failed, keeps⟩ | ⟨later, done, readies, _⟩
          · dsimp only at returns
            rw [failed] at returns
            cases returns
            exact Or.inl ⟨last, rfl, keeps⟩
          · dsimp only at returns
            rw [done] at returns
            exact ih readies returns

/-- The rescan returns after as many scans as definitions have changed, and one more. -/
theorem Ready.returns (ready : Ready surroundings table) {scans : Nat}
    (enough : table.countP (changed surroundings.files) < scans) :
    ∃ outcome, LinkTable.rescan surroundings scans table = some outcome := by
  induction scans generalizing table with
  | zero => exact absurd enough (Nat.not_lt_zero _)
  | succ scans ih =>
      rw [LinkTable.rescan]
      cases found : firstChanged surroundings.files table with
      | none => exact ⟨.done table, rfl⟩
      | some pair =>
          dsimp only
          rcases ready.turn found with ⟨last, failed, _⟩ | ⟨later, done, readies, fewer⟩
          · rw [failed]
            exact ⟨.error last, rfl⟩
          · rw [done]
            exact ih readies (Nat.lt_of_lt_of_le fewer (Nat.le_of_lt_succ enough))

theorem Ready.synchronises (ready : Ready surroundings table) :
    Synchronises surroundings table := by
  obtain ⟨outcome, returns⟩ := ready.returns (Nat.lt_succ_self _)
  refine ⟨_, outcome, returns, ?_, ?_⟩
  · rintro rfl
    rcases ready.rescan returns with ⟨last, other, _⟩ | ⟨last, other, _⟩
    · cases other
    · cases other
  · rintro next rfl
    rcases ready.rescan returns with ⟨last, other, _⟩ | ⟨last, same, _, consistent⟩
    · cases other
    · cases same
      exact consistent

end Loop

section Commands

variable {table next : List (LinkDef Name Conf Chan)} {command : Command Name Conf Chan}

theorem Kept.ready (kept : Kept table) {surroundings : Surroundings Name Conf Chan} {scans : Nat}
    (fine : Fine table (.start none surroundings scans)) : Ready surroundings table where
  toKept := kept
  again := by
    intro linkdef member changes
    have same := fine linkdef member
    rw [if_pos changes] at same
    exact same
  same := by
    intro linkdef member unchanged
    obtain ⟨file, found, modified⟩ := unchanged_file unchanged
    have holds := fine linkdef member
    rw [if_neg (by simp [unchanged])] at holds
    exact ⟨file, found, modified, holds file found⟩

theorem Kept.named (kept : Kept table) (files : Name → Option (ConfFile Name Conf Chan))
    (name : Name) : Kept (hasNamedChanged files name table).1 := by
  apply kept.of_labels
  clear kept
  induction table with
  | nil => rfl
  | cons linkdef table ih =>
      rw [hasNamedChanged]
      by_cases same : linkdef.name = name
      · obtain ⟨sameName, sameFile⟩ := hasConfigChanged_name files linkdef
        rw [if_pos same, List.map_cons, List.map_cons, sameName, sameFile]
      · rw [if_neg same, List.map_cons, List.map_cons, ih]

theorem Kept.syncup (kept : Kept table) {surroundings : Surroundings Name Conf Chan} {card : Name}
    (own : Own surroundings.files card)
    (moved : (deviceSyncup surroundings card card table).table = some next) : Kept next := by
  rcases deviceSyncup_own kept own with ⟨last, failed, keeps⟩ | ⟨file, conf, _, _, done⟩
  · rw [failed] at moved
    cases moved
    exact keeps
  · rw [done] at moved
    cases moved
    exact kept.synced card conf file file.modified

/-- A fine command keeps what is kept of the table. -/
theorem Kept.step (kept : Kept table) (fine : Fine table command)
    (moved : (execCommand table command).bind Outcome.table = some next) : Kept next := by
  cases command with
  | init card surroundings => exact kept.syncup fine moved
  | start cardName surroundings scans =>
      cases cardName with
      | some card =>
          cases table with
          | nil => exact kept.syncup (fine (Or.inl rfl)) moved
          | cons linkdef table =>
              have named := kept.named surroundings.files card
              dsimp only [execCommand, startLink] at moved
              by_cases changes : (hasNamedChanged surroundings.files card (linkdef :: table)).2 ≠ 0
              · rw [if_pos changes] at moved
                exact named.syncup (fine (Or.inr changes)) moved
              · rw [if_neg changes] at moved
                cases moved
                exact named
      | none =>
          cases table with
          | nil =>
              cases moved
              exact kept
          | cons linkdef table =>
              obtain ⟨outcome, returns, left⟩ := Option.bind_eq_some_iff.mp moved
              rcases (kept.ready fine).rescan returns with ⟨last, rfl, keeps⟩ | ⟨last, rfl, keeps, _⟩
              · cases left
                exact keeps
              · cases left
                exact keeps

/-- In every run of commands that are fine, each rescan comes to an error or to its end, and there
the table is consistent. -/
theorem daemon_rescan (commands : List (Command Name Conf Chan))
    (fine : Along (fun table command => (execCommand table command).bind Outcome.table) Fine []
      commands) :
    Along (fun table command => (execCommand table command).bind Outcome.table) Meets []
      commands := by
  have gives : ∀ (table : List (LinkDef Name Conf Chan)) command, Kept table →
      Fine table command → Meets table command := by
    intro table command kept fine
    cases command with
    | init card surroundings => trivial
    | start cardName surroundings scans =>
        cases cardName with
        | some card => trivial
        | none => exact (kept.ready fine).synchronises
  have start : Kept ([] : List (LinkDef Name Conf Chan)) :=
    ⟨List.nodup_nil, fun linkdef member => absurd member List.not_mem_nil⟩
  have steps : ∀ (table : List (LinkDef Name Conf Chan)) command next, Kept table →
      Fine table command → (execCommand table command).bind Outcome.table = some next →
      Kept next := by
    intro table command next kept fine moved
    exact kept.step fine moved
  exact Along.strengthen steps gives start fine

/-- A file with a device of its own, modified at some time. -/
def ownFile (modified name : Nat) : ConfFile Nat Nat Nat where
  modified := modified
  devices := [(name, 10)]
  interfaces := []
  failed := false

def ownFiles (modified : Nat) : Surroundings Nat Nat Nat where
  files name := if name = 1 then some (ownFile modified 1) else none
  freed name := name
  configured _ := true

/-- The only file is read, and read again when it has another time. -/
theorem daemon_rescan_again :
    Along (fun table command => (execCommand table command).bind Outcome.table) Meets []
      [.init 1 (ownFiles 7), .start none (ownFiles 8) 2] := by
  have own : ∀ modified, Own (ownFiles modified).files 1 := by
    rintro modified file ⟨⟩
    exact Or.inl ⟨10, rfl⟩
  apply daemon_rescan
  refine ⟨own 7, ?_⟩
  rintro next ⟨⟩
  refine ⟨?_, fun _ _ => trivial⟩
  intro linkdef member
  have alone : linkdef = synced 1 10 (ownFile 7 1) := List.mem_singleton.mp member
  rw [alone, if_pos (by decide)]
  exact ⟨own 8, rfl⟩

end Commands

section Endless

/-- A file that declares another device behind its own, when both have files. -/
structure Behind (surroundings : Surroundings Name Conf Chan) (name other : Name)
    (file otherFile : ConfFile Name Conf Chan) (first second : Conf) : Prop where
  apart : other ≠ name
  found : surroundings.files name = some file
  devices : file.devices = [(name, first), (other, second)]
  parsed : file.failed = false
  modified : file.modified ≠ 0
  other : surroundings.files other = some otherFile
  freed : surroundings.freed name = name
  configured : ∀ linkdef, surroundings.configured linkdef = true

/-- The definition of the first device, which no one gives the time of its file. -/
def unstamped (name : Name) (first : Conf) : LinkDef Name Conf Chan where
  name := name
  conf := first
  modified := 0
  chan := []
  readFrom := name

/-- The definition of the last device, which gets the time of a file that it was not read from. -/
def stamped (name other : Name) (second : Conf) (file otherFile : ConfFile Name Conf Chan) :
    LinkDef Name Conf Chan where
  name := other
  conf := second
  modified := otherFile.modified
  chan := file.interfaces
  readFrom := name

variable {surroundings : Surroundings Name Conf Chan} {name other : Name}
variable {file otherFile : ConfFile Name Conf Chan} {first second : Conf}

omit [DecidableEq Name] in
theorem Behind.firstChanged (behind : Behind surroundings name other file otherFile first second)
    (table : List (LinkDef Name Conf Chan)) :
    firstChanged surroundings.files
        (stamped name other second file otherFile :: unstamped name first :: table) =
      some (stamped name other second file otherFile ::
        { unstamped name first with modified := file.modified } :: table, name) := by
  simp [LinkTable.firstChanged, hasConfigChanged, stamped, unstamped, behind.found, behind.other,
    behind.modified.symm]

theorem Behind.deviceSyncup (behind : Behind surroundings name other file otherFile first second)
    (table : List (LinkDef Name Conf Chan)) :
    deviceSyncup surroundings name name (stamped name other second file otherFile ::
        { unstamped name first with modified := file.modified } :: table) =
      .done (stamped name other second file otherFile :: unstamped name first ::
        stamped name other second file otherFile :: table) := by
  have frees : freeDeviceLink name (stamped name other second file otherFile ::
      { unstamped name first with modified := file.modified } :: table) =
      stamped name other second file otherFile :: table := by
    simp [freeDeviceLink, stamped, unstamped, behind.apart]
  have parses : parseConfFile surroundings.files name
      (stamped name other second file otherFile :: table) =
      ({ stamped name other second file otherFile with modified := 0 } :: unstamped name first ::
        stamped name other second file otherFile :: table, false) := by
    simp [parseConfFile, behind.found, behind.devices, behind.parsed, buildLinkdefList,
      buildChandefList, stamped, unstamped]
  have stamps : (hasConfigChanged surroundings.files
      { stamped name other second file otherFile with modified := 0 }).1 =
      stamped name other second file otherFile :=
    hasConfigChanged_time behind.other
  simp only [LinkTable.deviceSyncup, frees, parses, stamps, behind.configured, if_pos,
    Bool.false_eq_true, if_false]

/-- Each turn of the loop leaves the table longer, with the same two definitions in front. -/
theorem Behind.endless (behind : Behind surroundings name other file otherFile first second)
    (scans : Nat) (table : List (LinkDef Name Conf Chan)) :
    rescan surroundings scans
      (stamped name other second file otherFile :: unstamped name first :: table) = none := by
  induction scans generalizing table with
  | zero => rfl
  | succ scans ih =>
      rw [rescan, behind.firstChanged]
      dsimp only
      rw [behind.freed, behind.deviceSyncup]
      exact ih _

/-- The file of the first device declares the second as well, which has a file of its own. -/
def twoDevices : Surroundings Nat Nat Nat where
  files name :=
    if name = 1 then
      some { modified := 7, devices := [(1, 10), (2, 20)], interfaces := [], failed := false }
    else if name = 2 then some (ownFile 9 2)
    else none
  freed name := name
  configured _ := true

/-- When that file is read at first, the next rescan reads it for ever. -/
theorem daemon_rescan_endless :
    ¬ Along (fun table command => (execCommand table command).bind Outcome.table) Meets []
      [.init 1 twoDevices, .start none twoDevices 0] := by
  have behind : Behind twoDevices 1 2
      { modified := 7, devices := [(1, 10), (2, 20)], interfaces := [], failed := false }
      (ownFile 9 2) 10 20 := {
    apart := by decide
    found := rfl
    devices := rfl
    parsed := rfl
    modified := by decide
    other := rfl
    freed := rfl
    configured := fun _ => rfl }
  rintro ⟨_, later⟩
  obtain ⟨⟨scans, outcome, returns, _⟩, _⟩ := later _ rfl
  cases (behind.endless scans []).symm.trans returns

end Endless

end Wanpipe.Wanconfig.LinkTable
