import Mathlib.Data.BitVec
import Wanpipe.CString
import Wanpipe.Line.Octets

/-! The configuration reader of `sangoma_mgd`. A line is cut up in the one buffer it was read into; an
access outside of the buffer has no result. -/

namespace Wanpipe.Mgd.NextPair

open Line CString

def tab : Octet := 0x09

def lf : Octet := 0x0A

def cr : Octet := 0x0D

def space : Octet := 0x20

def hash : Octet := 0x23

def equals : Octet := 0x3D

def greater : Octet := 0x3E

def openBracket : Octet := 0x5B

def closeBracket : Octet := 0x5D

def blank (octet : Octet) : Bool := octet = space || octet = tab

def bufSize : Nat := 1024

def categorySize : Nat := 256

/-- What the calls of `fgets` for the buffer get from a file, one after the other; `read` is what the
next one has got so far. -/
def chunksFrom : List Octet → List Octet → List (List Octet)
  | read, [] => if read = [] then [] else [read]
  | read, octet :: file =>
      if octet = lf ∨ read.length + 2 = bufSize then (read ++ [octet]) :: chunksFrom [] file
      else chunksFrom (read ++ [octet]) file

def chunks (file : List Octet) : List (List Octet) := chunksFrom [] file

/-- `struct woomera_config`. `file` is what is left of the file, `invalid` has the numbers of the
lines that were reported. -/
structure WoomeraConfig where
  file : List (List Octet)
  category : List Octet
  buf : List Octet
  lineno : Nat
  invalid : List Nat
  deriving DecidableEq, Repr

/-- What a line gives: nothing, or the places of a key and of a value in the buffer. -/
inductive Parsed
  | nothing
  | invalid
  | pair (var val : Nat)
  deriving DecidableEq, Repr

/-- A write to the buffer. -/
def put (buf : List Octet) (index : Nat) (octet : Octet) : Option (List Octet) :=
  if index < buf.length then some (buf.set index octet) else none

/-- `strncpy(cfg->category, *var, sizeof(cfg->category) - 1)`. -/
def setCategory (category name : List Octet) : List Octet :=
  let count := categorySize - 1
  name.take count ++ List.replicate (count - name.length) 0 ++ category.drop count

/-- The end of the text of a line, which is cut off there. -/
def cutLine (buf : List Octet) : Option (List Octet × Option Nat) :=
  (scan hash buf 0).bind fun comment =>
    match comment with
    | some stop => (put buf stop 0).map fun cut => (cut, some (stop - 1))
    | none =>
        (scan lf buf 0).bind fun newline =>
          match newline with
          | some stop =>
              -- `*end - 1`, not `*(end - 1)`
              let stop := if buf[stop]? = some (cr + 1) then stop - 1 else stop
              (put buf stop 0).map fun cut => (cut, some stop)
          | none => some (buf, none)

/-- The loop over blanks from `start` on: the buffer and where the text starts. -/
def skipFrom (stop : Option Nat) (buf : List Octet) (start : Nat) : Option (List Octet × Nat) :=
  (skip blank stop (buf.drop start) start).map fun out => (buf.take start ++ out.1, out.2)

/-- `>` behind the `=` belongs to it. -/
def skipArrow (buf : List Octet) (val : Nat) : Option (List Octet × Nat) :=
  buf[val]?.bind fun octet =>
    if octet = greater then (put buf val 0).map fun next => (next, val + 1) else some (buf, val)

/-- The key and the value around the `=`. -/
def splitPair (buf : List Octet) (stop : Option Nat) (var equal : Nat) :
    Option (List Octet × Parsed) :=
  match equal with
  | 0 => none -- `*val - 1` is before the buffer
  | last + 1 =>
      (put buf equal 0).bind fun marked =>
        (skipArrow marked (equal + 1)).bind fun arrow =>
          (trim blank var arrow.1 last).bind fun trimmed =>
            (skipFrom stop trimmed arrow.2).map fun out => (out.1, .pair var out.2)

/-- A line that is no section and no comment. -/
def parsePair (buf : List Octet) : Option (List Octet × Parsed) :=
  (cutLine buf).bind fun cut =>
    (skipFrom cut.2 cut.1 0).bind fun text =>
      (scan equals (text.1.drop text.2) text.2).bind fun equal =>
        match equal with
        | none => some (text.1, .invalid)
        | some equal => splitPair text.1 cut.2 text.2 equal

/-- A `[section]`: its name is kept, up to the bracket at `stop`. -/
def parseSection (cfg : WoomeraConfig) (stop : Nat) : Option (WoomeraConfig × Parsed) :=
  (put cfg.buf stop 0).map fun cut =>
    ({ cfg with buf := cut, category := setCategory cfg.category (string (cut.drop 1)) },
      .nothing)

def store (cfg : WoomeraConfig) (out : List Octet × Parsed) : WoomeraConfig × Parsed :=
  match out.2 with
  | .invalid => ({ cfg with buf := out.1, invalid := cfg.invalid ++ [cfg.lineno] }, .invalid)
  | parsed => ({ cfg with buf := out.1 }, parsed)

/-- A line that is no section. -/
def parseText (cfg : WoomeraConfig) (first : Octet) : Option (WoomeraConfig × Parsed) :=
  if first = hash ∨ first = lf ∨ first = cr then some (cfg, .nothing)
  else (parsePair cfg.buf).map (store cfg)

/-- One line, in the buffer. -/
def parseLine (cfg : WoomeraConfig) : Option (WoomeraConfig × Parsed) :=
  cfg.buf[0]?.bind fun first =>
    if first = openBracket then
      (scan closeBracket cfg.buf 0).bind fun bracket =>
        match bracket with
        | some stop => parseSection cfg stop
        | none => parseText cfg first
    else parseText cfg first

/-- `fgets`: a chunk of the file and a zero go into the buffer. -/
def fgets (cfg : WoomeraConfig) (chunk : List Octet) (file : List (List Octet)) :
    WoomeraConfig :=
  { cfg with
    file := file, lineno := cfg.lineno + 1
    buf := chunk ++ 0 :: cfg.buf.drop (chunk.length + 1) }

/-- The loop of `woomera_next_pair` over the chunks that are left. -/
def nextPair : List (List Octet) → WoomeraConfig → Option (WoomeraConfig × Option (Nat × Nat))
  | [], cfg => some ({ cfg with file := [], lineno := cfg.lineno + 1 }, none)
  | chunk :: file, cfg =>
      match parseLine (fgets cfg chunk file) with
      | none => none
      | some (next, .pair var val) => some (next, some (var, val))
      | some (next, _) => nextPair file next

/-- `woomera_next_pair`: the key and the value, or 0. -/
def woomeraNextPair (cfg : WoomeraConfig) : Option (WoomeraConfig × Option (Nat × Nat)) :=
  nextPair cfg.file cfg

/-- A configuration that was opened. -/
def opened (file : List Octet) : WoomeraConfig :=
  { file := chunks file, category := List.replicate categorySize 0
    buf := List.replicate bufSize 0, lineno := 0, invalid := [] }

/-- The strings of a pair in the buffer. -/
def pairAt (cfg : WoomeraConfig) (var val : Nat) : List Octet × List Octet :=
  (string (cfg.buf.drop var), string (cfg.buf.drop val))

/-- The calls of `configure_server` until one returns 0, with the strings that they return. -/
def readPairs : Nat → WoomeraConfig → Option (List (List Octet × List Octet))
  | 0, _ => none
  | calls + 1, cfg =>
      match woomeraNextPair cfg with
      | none => none
      | some (_, none) => some []
      | some (next, some (var, val)) =>
          (readPairs calls next).map fun pairs => pairAt next var val :: pairs

/-- All pairs of a file; a chunk gives at most one. -/
def pairs (file : List Octet) : Option (List (List Octet × List Octet)) :=
  readPairs ((chunks file).length + 1) (opened file)

theorem blank_zero : blank 0 = false := by decide

theorem put_append (front rest : List Octet) (old new : Octet) :
    put (front ++ old :: rest) front.length new = some (front ++ new :: rest) := by
  rw [put, if_pos (by simp), List.set_append_right _ _ (Nat.le_refl _), Nat.sub_self]
  rfl

/-- A buffer with a string in it. -/
structure Ends (buf : List Octet) : Prop where
  sized : buf.length = bufSize
  ends : (0 : Octet) ∈ buf

theorem Ends.put {front rest : List Octet} {old new : Octet}
    (ends : Ends (front ++ old :: rest)) (zero : new = 0 ∨ (0 : Octet) ∈ front ++ rest) :
    Ends (front ++ new :: rest) := by
  refine ⟨?_, ?_⟩
  · have sized := ends.sized
    rw [List.length_append, List.length_cons] at sized ⊢
    exact sized
  · rcases zero with zero | zero
    · rw [zero]
      simp
    · rw [List.mem_append] at zero ⊢
      exact zero.imp_right (List.mem_cons_of_mem new)

theorem cutLine_ends {buf : List Octet} (ends : Ends buf) (noHash : buf.head? ≠ some hash)
    (noLf : buf.head? ≠ some lf) :
    ∃ cut stop, cutLine buf = some (cut, stop) ∧ Ends cut ∧ cut.head? = buf.head? := by
  rw [cutLine]
  obtain ⟨items, rest, passes, found | ⟨live, absent⟩⟩ := scan_split hash ends.ends
  · subst found
    rw [scan_found passes, Nat.zero_add]
    simp only [Option.bind_some, put_append, Option.map_some]
    refine ⟨_, _, rfl, ends.put (Or.inl rfl), ?_⟩
    cases items with
    | nil => exact absurd rfl noHash
    | cons first items => rfl
  · have same : scan hash buf 0 = some none := by
      rw [absent]
      exact scan_absent live passes rest 0
    rw [same, Option.bind_some]
    obtain ⟨items, rest, passes, found | ⟨live, absent⟩⟩ := scan_split lf ends.ends
    · subst found
      have here : (items ++ lf :: rest)[items.length]? ≠ some (cr + 1) := by
        rw [List.getElem?_append_right (Nat.le_refl _), Nat.sub_self, List.getElem?_cons_zero]
        decide
      rw [scan_found passes, Nat.zero_add]
      simp only [Option.bind_some, if_neg here, put_append, Option.map_some]
      refine ⟨_, _, rfl, ends.put (Or.inl rfl), ?_⟩
      cases items with
      | nil => exact absurd rfl noLf
      | cons first items => rfl
    · have same : scan lf buf 0 = some none := by
        rw [absent]
        exact scan_absent live passes rest 0
      rw [same]
      exact ⟨buf, none, rfl, ends, rfl⟩

/-- The loop over blanks leaves zeros and goes on with what is behind them. -/
theorem skipFrom_ends (stop : Option Nat) {buf : List Octet} {start : Nat} (ends : Ends buf)
    (inside : start ≤ buf.length) (later : (0 : Octet) ∈ buf.drop start) :
    ∃ count rest, skipFrom stop buf start =
        some (buf.take start ++ (List.replicate count 0 ++ rest), start + count) ∧
      rest = buf.drop (start + count) ∧ (0 : Octet) ∈ rest ∧
      Ends (buf.take start ++ (List.replicate count 0 ++ rest)) := by
  obtain ⟨count, rest, skipped, lengths, dropped, stays⟩ :=
    skip_ends blank_zero later start
  refine ⟨count, rest, ?_, ?_, stays, ?_, ?_⟩
  · rw [skipFrom, skipped]
    rfl
  · rw [dropped, List.drop_drop]
  · have sized := ends.sized
    rw [List.length_drop] at lengths
    simp only [List.length_append, List.length_take, List.length_replicate]
    omega
  · exact List.mem_append_right _ (List.mem_append_right _ stays)

theorem skipArrow_ends {front more : List Octet} (ends : Ends (front ++ 0 :: more))
    (zero : (0 : Octet) ∈ more) :
    ∃ next val, skipArrow (front ++ 0 :: more) (front.length + 1) = some (next, val) ∧
      Ends next ∧ front.length < val ∧ val ≤ next.length ∧ (0 : Octet) ∈ next.drop val ∧
      ∀ i ≤ front.length, next[i]? = (front ++ 0 :: more)[i]? := by
  cases more with
  | nil => exact absurd zero List.not_mem_nil
  | cons first more =>
      have read : (front ++ 0 :: first :: more)[front.length + 1]? = some first := by
        rw [List.getElem?_append_right (by omega), Nat.add_sub_cancel_left]
        rfl
      have behind : (front ++ 0 :: first :: more).drop (front.length + 1) = first :: more := by
        rw [← List.drop_drop, List.drop_left]
        rfl
      rw [skipArrow, read, Option.bind_some]
      by_cases arrow : first = greater
      · have split : front ++ 0 :: first :: more = (front ++ [0]) ++ first :: more := by simp
        have place : front.length + 1 = (front ++ [0]).length := by simp
        have later : (0 : Octet) ∈ more := by
          rcases List.mem_cons.mp zero with same | later
          · rw [arrow] at same
            exact absurd same (by decide)
          · exact later
        rw [if_pos arrow, split, place, put_append]
        refine ⟨_, _, rfl, ?_, by omega, ?_, ?_, fun i inside => ?_⟩
        · rw [split] at ends
          exact ends.put (Or.inl rfl)
        · simp only [List.length_append, List.length_cons, List.length_nil]
          omega
        · rw [← List.drop_drop, List.drop_left]
          exact later
        · have early : i < (front ++ [0]).length := by
            rw [← place]
            omega
          rw [List.getElem?_append_left early, List.getElem?_append_left early]
      · rw [if_neg arrow]
        refine ⟨_, _, rfl, ends, Nat.lt_succ_self _, by simp, ?_, fun _ _ => rfl⟩
        rw [behind]
        exact zero

theorem drop_congr {left right : List Octet} {last start : Nat} (later : last < start)
    (same : ∀ i, last < i → left[i]? = right[i]?) : left.drop start = right.drop start := by
  apply List.ext_getElem?
  intro i
  rw [List.getElem?_drop, List.getElem?_drop, same _ (by omega)]

/-- The blanks before the `=` end inside of the buffer, as there is a key or a zero for each blank
before it. -/
theorem trim_key {var last val : Nat} {buf : List Octet} (ends : Ends buf)
    (inside : last < buf.length) (later : last < val) (behind : (0 : Octet) ∈ buf.drop val)
    (key : var ≤ last ∨ buf[last]? = some 0) :
    ∃ next, trim blank var buf last = some next ∧ Ends next ∧ (0 : Octet) ∈ next.drop val := by
  rcases key with key | zeroed
  · obtain ⟨next, trimmed, sized, kept⟩ := trim_ends inside key
    have same : next.drop val = buf.drop val := drop_congr later kept
    have stays : (0 : Octet) ∈ next.drop val := by rwa [same]
    exact ⟨next, trimmed, ⟨sized.trans ends.sized, List.mem_of_mem_drop stays⟩, stays⟩
  · exact ⟨buf, trim_stops zeroed (Or.inl blank_zero), ends, behind⟩

theorem splitPair_ends {front more : List Octet} {stop : Option Nat} {var last : Nat}
    (ends : Ends (front ++ equals :: more)) (zero : (0 : Octet) ∈ more)
    (long : front.length = last + 1) (key : var ≤ last ∨ front[last]? = some 0) :
    ∃ next val, splitPair (front ++ equals :: more) stop var (last + 1) =
      some (next, .pair var val) ∧ Ends next := by
  have marked : Ends (front ++ 0 :: more) := ends.put (Or.inl rfl)
  obtain ⟨arrow, val, skipped, arrowEnds, later, inside, behind, same⟩ := skipArrow_ends marked zero
  have read : arrow[last]? = front[last]? := by
    rw [same last (by omega), List.getElem?_append_left (by omega)]
  have short : last < arrow.length := by omega
  have early : last < val := by omega
  have keyed : var ≤ last ∨ arrow[last]? = some 0 := by rwa [read]
  obtain ⟨trimmed, cut, trimmedEnds, stays⟩ := trim_key arrowEnds short early behind keyed
  have sized : val ≤ trimmed.length := by
    rw [trimmedEnds.sized, ← arrowEnds.sized]
    exact inside
  obtain ⟨count, rest, text, -, -, outEnds⟩ := skipFrom_ends stop trimmedEnds sized stays
  refine ⟨_, val + count, ?_, outEnds⟩
  rw [splitPair, show last.succ = front.length from long.symm, put_append, Option.bind_some,
    skipped, Option.bind_some, cut, Option.bind_some, text]
  rfl

/-- A line that starts with the `=`: its key would end before the buffer. -/
theorem parsePair_equals {buf : List Octet} (ends : Ends buf) (head : buf.head? = some equals) :
    parsePair buf = none := by
  have noHash : buf.head? ≠ some hash := by
    rw [head]
    decide
  have noLf : buf.head? ≠ some lf := by
    rw [head]
    decide
  obtain ⟨cut, stop, cutOff, cutEnds, same⟩ := cutLine_ends ends noHash noLf
  rw [head] at same
  cases cut with
  | nil => exact absurd same (by simp)
  | cons first rest =>
      rw [List.head?_cons, Option.some.injEq] at same
      have solid : ¬(blank first = true ∧ some 0 ≠ stop) := by
        rw [same]
        rintro ⟨isBlank, -⟩
        exact absurd isBlank (by decide)
      have text : skipFrom stop (first :: rest) 0 = some (first :: rest, 0) := by
        rw [skipFrom, List.drop_zero, skip, if_neg solid]
        rfl
      rw [parsePair, cutOff, Option.bind_some, text, Option.bind_some, List.drop_zero, same,
        scan_here]
      rfl

/-- Any other line is cut up inside of the buffer. -/
theorem parsePair_ends {buf : List Octet} (ends : Ends buf) (noHash : buf.head? ≠ some hash)
    (noLf : buf.head? ≠ some lf) (noEquals : buf.head? ≠ some equals) :
    ∃ out, parsePair buf = some out ∧ Ends out.1 := by
  obtain ⟨cut, stop, cutOff, cutEnds, head⟩ := cutLine_ends ends noHash noLf
  have all : (0 : Octet) ∈ cut.drop 0 := cutEnds.ends
  obtain ⟨count, rest, text, dropped, stays, textEnds⟩ :=
    skipFrom_ends stop cutEnds (Nat.zero_le _) all
  rw [List.take_zero, List.nil_append, Nat.zero_add] at text
  rw [List.take_zero, List.nil_append] at textEnds
  rw [Nat.zero_add] at dropped
  have behind : (List.replicate count (0 : Octet) ++ rest).drop count = rest :=
    List.drop_left' List.length_replicate
  rw [parsePair, cutOff, Option.bind_some, text, Option.bind_some, behind]
  obtain ⟨items, more, passes, found | ⟨live, absent⟩⟩ := scan_split equals stays
  · rw [found, scan_found passes, Option.bind_some]
    have place : (List.replicate count (0 : Octet) ++ items).length = count + items.length := by
      rw [List.length_append, List.length_replicate]
    have zero : (0 : Octet) ∈ more := by
      rw [found, List.mem_append, List.mem_cons] at stays
      rcases stays with early | same | later
      · exact absurd rfl (passes 0 early).2
      · exact absurd same (by decide)
      · exact later
    rw [found, ← List.append_assoc] at textEnds
    rw [← List.append_assoc, ← place]
    cases long : (List.replicate count (0 : Octet) ++ items).length with
    | zero =>
        rw [place] at long
        have none : items = [] := List.length_eq_zero_iff.mp (by omega)
        rw [show count = 0 by omega, List.drop_zero, found, none] at dropped
        rw [← head, ← dropped] at noEquals
        exact absurd rfl noEquals
    | succ last =>
        have key : count ≤ last ∨ (List.replicate count (0 : Octet) ++ items)[last]? = some 0 := by
          rw [place] at long
          by_cases inKey : count ≤ last
          · exact Or.inl inKey
          · right
            rw [List.getElem?_append_left (by rw [List.length_replicate]; omega),
              List.getElem?_replicate, if_pos (by omega)]
        obtain ⟨next, val, splits, nextEnds⟩ := splitPair_ends textEnds zero long key
        exact ⟨_, splits, nextEnds⟩
  · have same : scan equals rest count = some none := by
      rw [absent]
      exact scan_absent live passes more count
    rw [same]
    exact ⟨_, rfl, textEnds⟩

theorem parseLine_equals {cfg : WoomeraConfig} (ends : Ends cfg.buf)
    (head : cfg.buf.head? = some equals) : parseLine cfg = none := by
  have first : cfg.buf[0]? = some equals := by
    rw [← List.head?_eq_getElem?]
    exact head
  have noSection : ¬equals = openBracket := by decide
  have noComment : ¬(equals = hash ∨ equals = lf ∨ equals = cr) := by decide
  rw [parseLine, first, Option.bind_some, if_neg noSection, parseText, if_neg noComment,
    parsePair_equals ends head]
  rfl

theorem store_buf (cfg : WoomeraConfig) (out : List Octet × Parsed) :
    (store cfg out).1.buf = out.1 := by
  rw [store]
  split
  · rfl
  · rfl

theorem parseText_ends {cfg : WoomeraConfig} {first : Octet} (ends : Ends cfg.buf)
    (head : cfg.buf.head? = some first) (noEquals : first ≠ equals) :
    ∃ out, parseText cfg first = some out ∧ out.1.buf.length = bufSize := by
  rw [parseText]
  by_cases comment : first = hash ∨ first = lf ∨ first = cr
  · rw [if_pos comment]
    exact ⟨_, rfl, ends.sized⟩
  · rw [if_neg comment]
    have other : ∀ octet, first ≠ octet → cfg.buf.head? ≠ some octet := by
      intro octet ne same
      rw [head, Option.some.injEq] at same
      exact ne same
    obtain ⟨out, result, outEnds⟩ := parsePair_ends ends
      (other hash fun same => comment (Or.inl same))
      (other lf fun same => comment (Or.inr (Or.inl same))) (other equals noEquals)
    rw [result]
    refine ⟨_, rfl, ?_⟩
    rw [store_buf]
    exact outEnds.sized

theorem parseLine_ends {cfg : WoomeraConfig} {first : Octet} (ends : Ends cfg.buf)
    (head : cfg.buf.head? = some first) (noEquals : first ≠ equals) :
    ∃ out, parseLine cfg = some out ∧ out.1.buf.length = bufSize := by
  have read : cfg.buf[0]? = some first := by rw [← List.head?_eq_getElem?, head]
  rw [parseLine, read, Option.bind_some]
  by_cases bracket : first = openBracket
  · rw [if_pos bracket]
    obtain ⟨items, rest, passes, found | ⟨live, absent⟩⟩ := scan_split closeBracket ends.ends
    · have inside : scan closeBracket cfg.buf 0 = some (some items.length) := by
        rw [found, scan_found passes, Nat.zero_add]
      rw [inside, Option.bind_some]
      dsimp only
      rw [parseSection, found, put_append]
      refine ⟨_, rfl, ?_⟩
      have sized := ends.sized
      rw [found, List.length_append, List.length_cons] at sized
      rw [List.length_append, List.length_cons]
      exact sized
    · have outside : scan closeBracket cfg.buf 0 = some none := by
        rw [absent]
        exact scan_absent live passes rest 0
      rw [outside, Option.bind_some]
      exact parseText_ends ends head noEquals
  · rw [if_neg bracket]
    exact parseText_ends ends head noEquals

theorem parseText_file {cfg : WoomeraConfig} {first : Octet} {out : WoomeraConfig × Parsed}
    (parsed : parseText cfg first = some out) : out.1.file = cfg.file := by
  rw [parseText] at parsed
  split at parsed
  · rw [← Option.some.inj parsed]
  · obtain ⟨cut, -, stored⟩ := Option.map_eq_some_iff.mp parsed
    rw [← stored, store]
    split
    · rfl
    · rfl

theorem parseLine_file {cfg : WoomeraConfig} {out : WoomeraConfig × Parsed}
    (parsed : parseLine cfg = some out) : out.1.file = cfg.file := by
  obtain ⟨first, -, rest⟩ := Option.bind_eq_some_iff.mp parsed
  split at rest
  · obtain ⟨bracket, -, done⟩ := Option.bind_eq_some_iff.mp rest
    cases bracket with
    | none => exact parseText_file done
    | some stop =>
        obtain ⟨cut, -, stored⟩ := Option.map_eq_some_iff.mp done
        rw [← stored]
  · exact parseText_file rest

theorem readPairs_nil (calls : Nat) {cfg : WoomeraConfig} (empty : cfg.file = []) :
    readPairs (calls + 1) cfg = some [] := by
  rw [readPairs, woomeraNextPair, empty]
  rfl

section ReadPairs

variable {cfg next : WoomeraConfig} {chunk : List Octet} {file : List (List Octet)} (calls : Nat)

theorem readPairs_none (more : cfg.file = chunk :: file)
    (parsed : parseLine (fgets cfg chunk file) = none) : readPairs (calls + 1) cfg = none := by
  rw [readPairs, woomeraNextPair, more, nextPair, parsed]

theorem readPairs_pair {var val : Nat} (more : cfg.file = chunk :: file)
    (parsed : parseLine (fgets cfg chunk file) = some (next, .pair var val)) :
    readPairs (calls + 1) cfg = (readPairs calls next).map (pairAt next var val :: ·) := by
  rw [readPairs, woomeraNextPair, more, nextPair, parsed]

theorem readPairs_skip {parsed : Parsed} (more : cfg.file = chunk :: file)
    (line : parseLine (fgets cfg chunk file) = some (next, parsed))
    (other : ∀ var val, parsed ≠ .pair var val) :
    readPairs (calls + 1) cfg = readPairs (calls + 1) next := by
  have left : next.file = file := parseLine_file line
  have same : nextPair (chunk :: file) cfg = nextPair file next := by
    rw [nextPair, line]
    cases parsed with
    | nothing => rfl
    | invalid => rfl
    | pair var val => exact absurd rfl (other var val)
  rw [readPairs, readPairs, woomeraNextPair, woomeraNextPair, more, same, left]

end ReadPairs

/-- A chunk that fits into the buffer with a zero behind it. -/
def Fits (chunk : List Octet) : Prop := chunk ≠ [] ∧ chunk.length < bufSize

theorem chunksFrom_fits (read file : List Octet) (short : read.length + 1 < bufSize) :
    ∀ chunk ∈ chunksFrom read file, Fits chunk := by
  induction file generalizing read with
  | nil =>
      intro chunk member
      rw [chunksFrom] at member
      split at member
      · exact absurd member List.not_mem_nil
      next some =>
        rw [List.mem_singleton.mp member]
        exact ⟨some, by omega⟩
  | cons octet file ih =>
      intro chunk member
      rw [chunksFrom] at member
      split at member
      · rcases List.mem_cons.mp member with here | later
        · rw [here]
          refine ⟨by simp, ?_⟩
          rw [List.length_append, List.length_singleton]
          omega
        · exact ih [] (by decide) chunk later
      next more =>
        refine ih (read ++ [octet]) ?_ chunk member
        rw [List.length_append, List.length_singleton]
        omega

theorem chunks_fits (file : List Octet) : ∀ chunk ∈ chunks file, Fits chunk :=
  chunksFrom_fits [] file (by decide)

theorem fgets_ends {cfg : WoomeraConfig} {chunk : List Octet} (file : List (List Octet))
    (sized : cfg.buf.length = bufSize) (fits : Fits chunk) : Ends (fgets cfg chunk file).buf := by
  refine ⟨?_, by simp [fgets]⟩
  have short := fits.2
  simp only [fgets, List.length_append, List.length_cons, List.length_drop, sized]
  omega

theorem fgets_head (cfg : WoomeraConfig) {chunk : List Octet} (file : List (List Octet))
    (fits : Fits chunk) : (fgets cfg chunk file).buf.head? = chunk.head? := by
  cases chunk with
  | nil => exact absurd rfl fits.1
  | cons first chunk => rfl

/-- The calls for some chunks stay inside of the buffer if none of them starts with a `=`. -/
theorem readPairs_isSome {calls : Nat} {cfg : WoomeraConfig} (sized : cfg.buf.length = bufSize)
    (fits : ∀ chunk ∈ cfg.file, Fits chunk) (enough : cfg.file.length < calls) :
    (readPairs calls cfg).isSome = true ↔ ∀ chunk ∈ cfg.file, chunk.head? ≠ some equals := by
  generalize left : cfg.file = file at fits enough
  induction file generalizing cfg calls with
  | nil =>
      obtain ⟨fewer, rfl⟩ : ∃ fewer, calls = fewer + 1 := ⟨calls - 1, by omega⟩
      rw [readPairs_nil fewer left]
      simp
  | cons chunk file ih =>
      obtain ⟨fewer, rfl⟩ : ∃ fewer, calls = fewer + 1 := ⟨calls - 1, by omega⟩
      have here := fits chunk List.mem_cons_self
      have ends := fgets_ends file sized here
      have head := fgets_head cfg file here
      rw [List.length_cons] at enough
      rw [List.forall_mem_cons]
      by_cases first : chunk.head? = some equals
      · rw [readPairs_none fewer left (parseLine_equals ends (head.trans first))]
        simp [first]
      · obtain ⟨octet, rest, split⟩ := List.exists_cons_of_ne_nil here.1
        have start : (fgets cfg chunk file).buf.head? = some octet := by rw [head, split]; rfl
        have noEquals : octet ≠ equals := by
          rintro rfl
          exact first (by rw [split]; rfl)
        obtain ⟨⟨next, parsed⟩, line, nextSized⟩ := parseLine_ends ends start noEquals
        have nextFile : next.file = file := parseLine_file line
        have later : ∀ calls, file.length < calls →
            ((readPairs calls next).isSome = true ↔
              ∀ chunk ∈ file, chunk.head? ≠ some equals) := fun calls more =>
          ih nextSized nextFile (fun chunk member => fits chunk (List.mem_cons_of_mem _ member)) more
        cases parsed with
        | nothing =>
            rw [readPairs_skip fewer left line (by simp), later _ (by omega)]
            simp [first]
        | invalid =>
            rw [readPairs_skip fewer left line (by simp), later _ (by omega)]
            simp [first]
        | pair var val =>
            rw [readPairs_pair fewer left line, Option.isSome_map, later _ (by omega)]
            simp [first]

end Wanpipe.Mgd.NextPair
