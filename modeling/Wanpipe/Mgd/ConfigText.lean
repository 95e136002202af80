import Mathlib.Data.List.Basic
import Wanpipe.Mgd.NextPair

/-! The lines of a configuration file of `sangoma_mgd`, and how one of them is parsed. -/

namespace Wanpipe.Mgd.NextPair

open Line CString

/-- A line with a key and a value: `=>` if `arrow`, and the blanks before a comment with its text. -/
structure PairLine where
  lead : List Octet
  key : List Octet
  before : List Octet
  arrow : Bool
  behind : List Octet
  value : List Octet
  comment : Option (List Octet × List Octet)
  deriving DecidableEq, Repr

/-- The lines of a file without their ends. -/
inductive Content
  | heading (name : List Octet)
  | blanks (lead : List Octet)
  | comment (lead text : List Octet)
  | pair (fields : PairLine)
  deriving DecidableEq, Repr

structure FileLine where
  content : Content
  crlf : Bool
  deriving DecidableEq, Repr

def PairLine.body (pair : PairLine) : List Octet :=
  pair.lead ++ pair.key ++ pair.before ++ equals :: ((if pair.arrow then [greater] else []) ++
    pair.behind ++ pair.value)

/-- The comment at the end of a line. -/
def commentText : Option (List Octet × List Octet) → List Octet
  | none => []
  | some (blanks, text) => blanks ++ hash :: text

def Content.text : Content → List Octet
  | .heading name => openBracket :: (name ++ [closeBracket])
  | .blanks lead => lead
  | .comment lead text => lead ++ hash :: text
  | .pair fields => fields.body ++ commentText fields.comment

def lineEnd (crlf : Bool) : List Octet := if crlf then [cr, lf] else [lf]

def FileLine.text (line : FileLine) : List Octet := line.content.text ++ lineEnd line.crlf

def fileText (lines : List FileLine) : List Octet := lines.flatMap FileLine.text

def Blanks (octets : List Octet) : Prop := ∀ octet ∈ octets, blank octet = true

/-- What keys and values are made of. -/
def Plain (octets : List Octet) : Prop :=
  ∀ octet ∈ octets, octet ≠ hash ∧ octet ≠ equals ∧ blank octet = false ∧ octet ≠ cr ∧ octet ≠ lf

/-- The text of a comment or the name of a section goes on to the end of the line. -/
def OneLine (octets : List Octet) : Prop := lf ∉ octets

structure PairLine.Valid (pair : PairLine) : Prop where
  lead : Blanks pair.lead
  key : Plain pair.key
  named : pair.key ≠ []
  before : Blanks pair.before
  behind : Blanks pair.behind
  value : Plain pair.value
  comment : ∀ comment ∈ pair.comment, Blanks comment.1 ∧ OneLine comment.2
  /-- Otherwise this is the line with `=>`. -/
  plain : pair.arrow = false → pair.behind = [] → pair.value.head? ≠ some greater

def Content.Valid : Content → Prop
  | .heading name => OneLine name ∧ closeBracket ∉ name
  | .blanks lead => Blanks lead
  | .comment lead text => Blanks lead ∧ OneLine text
  | .pair fields => fields.Valid

/-- A line of a text file that fits into the buffer. -/
structure FileLine.Valid (line : FileLine) : Prop where
  content : line.content.Valid
  short : line.text.length < bufSize
  live : (0 : Octet) ∉ line.text

/-- The key and the value of a line. -/
def FileLine.pair (line : FileLine) : Option (List Octet × List Octet) :=
  match line.content with
  | .pair fields => some (fields.key, fields.value)
  | _ => none

/-- A line that is read as it is meant: it is no `[...]` for the reader, nothing stands between the
value and the end of the line or the comment. -/
structure PairLine.Clean (pair : PairLine) (crlf : Bool) : Prop where
  bracket : pair.lead = [] → pair.key.head? = some openBracket →
    closeBracket ∉ pair.body ++ commentText pair.comment
  newline : pair.comment = none → crlf = false
  comment : ∀ comment ∈ pair.comment, comment.1 = [] ∧ (pair.value = [] → pair.behind = [])

def FileLine.Clean (line : FileLine) : Prop :=
  match line.content with
  | .pair fields => fields.Clean line.crlf
  | _ => True

theorem chunksFrom_line (read line rest : List Octet) (oneLine : lf ∉ line)
    (short : (read ++ line).length + 1 < bufSize) :
    chunksFrom read (line ++ lf :: rest) = (read ++ line ++ [lf]) :: chunksFrom [] rest := by
  induction line generalizing read with
  | nil =>
      rw [List.nil_append, chunksFrom, if_pos (Or.inl rfl), List.append_nil]
  | cons octet line ih =>
      have other : octet ≠ lf := by
        rintro rfl
        exact oneLine List.mem_cons_self
      have later : lf ∉ line := fun member => oneLine (List.mem_cons_of_mem octet member)
      rw [List.length_append, List.length_cons] at short
      have more : ¬(octet = lf ∨ read.length + 2 = bufSize) := by
        rintro (same | full)
        · exact other same
        · omega
      rw [List.cons_append, chunksFrom, if_neg more, ih (read ++ [octet]) later]
      · simp
      · simp only [List.length_append, List.length_singleton]
        omega

section Cut

variable {body rest : List Octet}

theorem cutLine_hash (passes : Passes hash body) :
    cutLine (body ++ hash :: rest) = some (body ++ 0 :: rest, some (body.length - 1)) := by
  rw [cutLine, scan_found passes, Nat.zero_add, Option.bind_some]
  dsimp only
  rw [put_append]
  rfl

theorem cutLine_lf (passes : Passes hash body) (oneLine : Passes lf body) :
    cutLine (body ++ lf :: 0 :: rest) = some (body ++ 0 :: 0 :: rest, some body.length) := by
  have noHash : scan hash (body ++ lf :: 0 :: rest) 0 = some none := by
    have all : Passes hash (body ++ [lf]) :=
      passes.append ((Passes.nil hash).cons (by decide) (by decide))
    rw [show body ++ lf :: 0 :: rest = (body ++ [lf]) ++ 0 :: rest by simp]
    exact scan_absent (by decide) all rest 0
  have here : (body ++ lf :: 0 :: rest)[body.length]? ≠ some (cr + 1) := by
    rw [List.getElem?_append_right (Nat.le_refl _), Nat.sub_self, List.getElem?_cons_zero]
    decide
  rw [cutLine, noHash, Option.bind_some]
  dsimp only
  rw [scan_found oneLine, Nat.zero_add, Option.bind_some]
  dsimp only
  rw [if_neg here, put_append]
  rfl

end Cut

theorem string_zeros {items : List Octet} (live : (0 : Octet) ∉ items) (count : Nat)
    (rest : List Octet) : string (items ++ (List.replicate count 0 ++ 0 :: rest)) = items := by
  cases count with
  | zero => exact string_of live rest
  | succ count => exact string_of live (List.replicate count 0 ++ 0 :: rest)

theorem skipArrow_text {front more : List Octet} {arrow : Bool}
    (plain : arrow = false → more.head? ≠ some greater) (some_ : more ≠ []) :
    ∃ pad, skipArrow (front ++ 0 :: ((if arrow then [greater] else []) ++ more))
          (front.length + 1) =
        some (front ++ 0 :: (pad ++ more), front.length + 1 + pad.length) ∧
      pad.length = (if arrow then [greater] else []).length := by
  cases arrow with
  | true =>
      have read : (front ++ 0 :: ([greater] ++ more))[front.length + 1]? = some greater := by
        rw [List.getElem?_append_right (by omega), Nat.add_sub_cancel_left]
        rfl
      have split : front ++ 0 :: ([greater] ++ more) = (front ++ [0]) ++ greater :: more := by simp
      have place : front.length + 1 = (front ++ [0]).length := by simp
      refine ⟨[0], ?_, rfl⟩
      rw [if_pos rfl, skipArrow, read, Option.bind_some, if_pos rfl, split]
      rw [place, put_append]
      simp
  | false =>
      refine ⟨[], ?_, rfl⟩
      cases more with
      | nil => exact absurd rfl some_
      | cons first more =>
          have read : (front ++ 0 :: first :: more)[front.length + 1]? = some first := by
            rw [List.getElem?_append_right (by omega), Nat.add_sub_cancel_left]
            rfl
          have other : first ≠ greater := fun same => plain rfl (by rw [same]; rfl)
          change skipArrow (front ++ 0 :: first :: more) (front.length + 1) = _
          rw [skipArrow, read, Option.bind_some, if_neg other]
          rfl

/-- The loop over the blanks behind the `=`. -/
theorem skipFrom_text {stop : Option Nat} {front more out : List Octet} {count : Nat}
    (skipped : skip blank stop more front.length =
      some (List.replicate count 0 ++ out, front.length + count)) :
    skipFrom stop (front ++ more) front.length =
      some (front ++ (List.replicate count 0 ++ out), front.length + count) := by
  rw [skipFrom, List.drop_left, List.take_left, skipped]
  rfl

theorem splitPair_succ (buf : List Octet) (stop : Option Nat) (var last : Nat) :
    splitPair buf stop var (last + 1) =
      (put buf (last + 1) 0).bind fun marked =>
        (skipArrow marked (last + 1 + 1)).bind fun arrow =>
          (trim blank var arrow.1 last).bind fun trimmed =>
            (skipFrom stop trimmed arrow.2).map fun out => (out.1, .pair var out.2) := rfl

/-- The key and the value around the `=`; `total` is where the text of the line ends. -/
theorem splitPair_text {stop : Option Nat} {lead key before text rest out : List Octet}
    {arrow : Bool} {count total : Nat} (named : key ≠ []) (solid : Plain key)
    (live : (0 : Octet) ∉ key) (blanks : Blanks before)
    (plain : arrow = false → (text ++ 0 :: rest).head? ≠ some greater)
    (ends : (lead ++ key ++ before).length + 1 + (if arrow then [greater] else []).length +
      text.length = total)
    (skipped : ∀ start, start + text.length = total →
      skip blank stop (text ++ 0 :: rest) start =
        some (List.replicate count 0 ++ out, start + count)) :
    ∃ next val, splitPair (lead ++ key ++ before ++
          equals :: ((if arrow then [greater] else []) ++ (text ++ 0 :: rest)))
        stop lead.length (lead ++ key ++ before).length = some (next, .pair lead.length val) ∧
      string (next.drop lead.length) = key ∧ string (next.drop val) = string out := by
  have some_ : text ++ 0 :: rest ≠ [] := by simp
  obtain ⟨pad, arrowed, padLength⟩ : ∃ pad, skipArrow
        (lead ++ key ++ before ++ 0 :: ((if arrow then [greater] else []) ++ (text ++ 0 :: rest)))
        ((lead ++ key ++ before).length + 1) =
      some (lead ++ key ++ before ++ 0 :: (pad ++ (text ++ 0 :: rest)),
        (lead ++ key ++ before).length + 1 + pad.length) ∧
      pad.length = (if arrow then [greater] else []).length := skipArrow_text plain some_
  obtain none | ⟨front, last, concat⟩ := List.eq_nil_or_concat' key
  · exact absurd none named
  have lastSolid : blank last = false := (solid last (by simp [concat])).2.2.1
  have place : (lead ++ key ++ before).length = (lead ++ front).length + before.length + 1 := by
    simp only [concat, List.length_append, List.length_singleton]
    omega
  have trimmed : trim blank lead.length
      (lead ++ key ++ before ++ 0 :: (pad ++ (text ++ 0 :: rest)))
      ((lead ++ front).length + before.length) =
      some (lead ++ key ++ (List.replicate before.length 0 ++ 0 :: (pad ++ (text ++ 0 :: rest)))) := by
    have loop : trim blank lead.length
        ((lead ++ front) ++ last :: (before ++ 0 :: (pad ++ (text ++ 0 :: rest))))
        ((lead ++ front).length + before.length) =
        some ((lead ++ front) ++
          last :: (List.replicate before.length 0 ++ 0 :: (pad ++ (text ++ 0 :: rest)))) :=
      trim_blanks blanks (Or.inl lastSolid) (by simp)
    simpa [concat] using loop
  have cut : lead ++ key ++ (List.replicate before.length 0 ++ 0 :: (pad ++ (text ++ 0 :: rest))) =
      (lead ++ key ++ (List.replicate before.length 0 ++ 0 :: pad)) ++ (text ++ 0 :: rest) := by
    simp
  have start : (lead ++ key ++ before).length + 1 + pad.length =
      (lead ++ key ++ (List.replicate before.length 0 ++ 0 :: pad)).length := by
    simp only [List.length_append, List.length_replicate, List.length_cons]
    omega
  have value := skipFrom_text (skipped _ (by rw [← start, padLength]; exact ends))
  refine ⟨lead ++ key ++ (List.replicate before.length 0 ++ 0 :: pad) ++
      (List.replicate count 0 ++ out),
    (lead ++ key ++ (List.replicate before.length 0 ++ 0 :: pad)).length + count, ?_, ?_, ?_⟩
  · rw [place, splitPair_succ, ← place, put_append, Option.bind_some, arrowed, Option.bind_some]
    dsimp only
    rw [trimmed, Option.bind_some, cut, start, value]
    rfl
  · rw [List.append_assoc, List.append_assoc, List.drop_left, List.append_assoc]
    exact string_zeros live _ _
  · rw [← List.drop_drop, List.drop_left, List.drop_left' List.length_replicate]

theorem blank_ne {octet other : Octet} (isBlank : blank octet = true) (solid : blank other = false) :
    octet ≠ other := by
  rintro rfl
  rw [isBlank] at solid
  exact absurd solid (by simp)

theorem Blanks.passes {blanks : List Octet} {octet : Octet} (all : Blanks blanks)
    (solid : blank octet = false) : Passes octet blanks := fun other member =>
  ⟨blank_ne (all other member) solid, blank_ne (all other member) blank_zero⟩

theorem Plain.passes_equals {key : List Octet} (solid : Plain key) (live : (0 : Octet) ∉ key) :
    Passes equals key := by
  intro other member
  refine ⟨(solid other member).2.1, ?_⟩
  rintro rfl
  exact live member

/-- A line with a `=` whose text was cut off at its end. -/
theorem parsePair_text {buf lead key before text rest out : List Octet} {arrow : Bool}
    {count total stop : Nat}
    (cut : cutLine buf = some (lead ++ (key ++ (before ++
      equals :: ((if arrow then [greater] else []) ++ (text ++ 0 :: rest)))), some stop))
    (indent : Blanks lead) (behind : lead.length ≤ stop) (named : key ≠ []) (solid : Plain key)
    (live : (0 : Octet) ∉ key) (blanks : Blanks before)
    (plain : arrow = false → (text ++ 0 :: rest).head? ≠ some greater)
    (ends : lead.length + key.length + before.length + 1 +
      (if arrow then [greater] else []).length + text.length = total)
    (skipped : ∀ start, start + text.length = total →
      skip blank (some stop) (text ++ 0 :: rest) start =
        some (List.replicate count 0 ++ out, start + count)) :
    ∃ next val, parsePair buf = some (next, .pair lead.length val) ∧
      string (next.drop lead.length) = key ∧ string (next.drop val) = string out := by
  obtain ⟨first, others, split⟩ := List.exists_cons_of_ne_nil named
  have firstSolid : blank first = false := (solid first (by simp [split])).2.2.1
  generalize tail : before ++ equals :: ((if arrow then [greater] else []) ++ (text ++ 0 :: rest)) =
    more at cut
  have zeros : (List.replicate lead.length (0 : Octet)).length = lead.length :=
    List.length_replicate
  have skips : skipFrom (some stop) (lead ++ (key ++ more)) 0 =
      some (List.replicate lead.length 0 ++ (key ++ more), lead.length) := by
    have loop : skip blank (some stop) (lead ++ first :: (others ++ more)) 0 =
        some (List.replicate lead.length 0 ++ first :: (others ++ more), 0 + lead.length) := by
      refine skip_blanks indent first (others ++ more) 0 (fun offset inside same => ?_)
        (Or.inl firstSolid)
      rw [Option.some.injEq] at same
      omega
    rw [skipFrom, List.drop_zero, split, List.cons_append, loop, Nat.zero_add]
    rfl
  have found : scan equals (key ++ more) lead.length =
      some (some (List.replicate lead.length (0 : Octet) ++ key ++ before).length) := by
    have passes : Passes equals (key ++ before) :=
      (solid.passes_equals live).append (blanks.passes (by decide))
    rw [← tail, ← List.append_assoc, scan_found passes]
    simp only [List.length_append, zeros]
    congr 2
    omega
  have place : (List.replicate lead.length (0 : Octet) ++ key ++ before).length + 1 +
      (if arrow then [greater] else []).length + text.length = total := by
    simp only [List.length_append, zeros]
    exact ends
  obtain ⟨next, val, splits, keyString, valString⟩ :=
    splitPair_text named solid live blanks plain place skipped
  rw [zeros] at splits keyString
  refine ⟨next, val, ?_, keyString, valString⟩
  rw [parsePair, cut, Option.bind_some, skips, Option.bind_some, List.drop_left' zeros, found,
    Option.bind_some]
  dsimp only
  rw [← tail, ← splits]
  simp only [List.append_assoc]

/-- The blanks behind the `=` go up to the value. -/
theorem skip_value {stop start : Nat} {behind more : List Octet} (blanks : Blanks behind)
    (solid : ∀ first ∈ more.head?, blank first = false) (some_ : more ≠ [])
    (above : behind = [] ∨ start + behind.length ≤ stop) :
    skip blank (some stop) (behind ++ more) start =
      some (List.replicate behind.length 0 ++ more, start + behind.length) := by
  obtain ⟨first, rest, rfl⟩ := List.exists_cons_of_ne_nil some_
  refine skip_blanks blanks first rest start (fun offset inside same => ?_)
    (Or.inl (solid first rfl))
  rw [Option.some.injEq] at same
  rcases above with none | above
  · rw [none] at inside
    exact absurd inside (Nat.not_lt_zero offset)
  · omega

/-- The value of a line as it is read. -/
def PairLine.got (pair : PairLine) (crlf : Bool) : List Octet :=
  match pair.comment with
  | none => pair.value ++ if crlf then [cr] else []
  | some (blanks, _) =>
      if pair.value = [] then (pair.behind ++ blanks).getLast?.toList else pair.value ++ blanks

theorem append_eq_self {left right : List Octet} : left ++ right = left ↔ right = [] := by
  constructor
  · intro same
    exact List.append_cancel_left (same.trans (List.append_nil left).symm)
  · rintro rfl
    exact List.append_nil left

/-- The value is read as it is meant if nothing stands behind it. -/
theorem PairLine.got_iff (pair : PairLine) (crlf : Bool) :
    pair.got crlf = pair.value ↔ (pair.comment = none → crlf = false) ∧
      ∀ comment ∈ pair.comment, comment.1 = [] ∧ (pair.value = [] → pair.behind = []) := by
  rw [PairLine.got]
  cases comment : pair.comment with
  | none =>
      cases crlf with
      | true => simp
      | false => simp
  | some both =>
      obtain ⟨blanks, text⟩ := both
      dsimp only
      by_cases empty : pair.value = []
      · rw [if_pos empty, empty, Option.toList_eq_nil_iff, List.getLast?_eq_none_iff,
          List.append_eq_nil_iff]
        simp [and_comm]
      · rw [if_neg empty, append_eq_self]
        simp [empty]

theorem Plain.head {value more : List Octet} (solid : Plain value)
    (other : ∀ first ∈ more.head?, blank first = false) :
    ∀ first ∈ (value ++ more).head?, blank first = false := by
  cases value with
  | nil => exact other
  | cons octet value =>
      intro first member
      rw [List.cons_append, List.head?_cons, Option.mem_some_iff] at member
      rw [← member]
      exact (solid octet List.mem_cons_self).2.2.1

theorem head_append {value more : List Octet} {octet : Octet} (here : value.head? ≠ some octet)
    (other : more.head? ≠ some octet) : (value ++ more).head? ≠ some octet := by
  cases value with
  | nil => exact other
  | cons first value => exact here

section Body

variable {fields : PairLine} (valid : fields.Valid)

include valid

theorem PairLine.Valid.plain_head {more : List Octet} (other : more.head? ≠ some greater) :
    fields.arrow = false → (fields.behind ++ (fields.value ++ more)).head? ≠ some greater := by
  intro arrow
  cases behind : fields.behind with
  | nil =>
      rw [List.nil_append]
      exact head_append (valid.plain arrow behind) other
  | cons first rest =>
      have isBlank : blank first = true := valid.behind first (by simp [behind])
      rw [List.cons_append, List.head?_cons, ne_eq, Option.some.injEq]
      exact blank_ne isBlank (by decide)

/-- The text of a line before its comment and its end. -/
theorem PairLine.Valid.body_passes {octet : Octet} (solid : blank octet = false)
    (key : Passes octet fields.key) (value : Passes octet fields.value)
    (other : equals ≠ octet ∧ greater ≠ octet) : Passes octet fields.body := by
  have arrow : Passes octet (if fields.arrow then [greater] else []) := by
    cases fields.arrow with
    | true => exact (Passes.nil octet).cons other.2 (by decide)
    | false => exact Passes.nil octet
  have front := ((valid.lead.passes solid).append key).append (valid.before.passes solid)
  exact front.append (((arrow.append (valid.behind.passes solid)).append value).cons other.1
    (by decide))

end Body

theorem body_length (fields : PairLine) : fields.body.length = fields.lead.length +
    fields.key.length + fields.before.length + 1 +
      (if fields.arrow then [greater] else []).length + fields.behind.length +
        fields.value.length := by
  simp only [PairLine.body, List.length_append, List.length_cons]
  omega

theorem body_append (fields : PairLine) (more : List Octet) :
    fields.body ++ more = fields.lead ++ (fields.key ++ (fields.before ++ equals ::
      ((if fields.arrow then [greater] else []) ++ (fields.behind ++ (fields.value ++ more))))) := by
  simp [PairLine.body]

theorem carriage_return (crlf : Bool) :
    lineEnd crlf = (if crlf then [cr] else []) ++ [lf] := by
  cases crlf with
  | true => rfl
  | false => rfl

theorem not_mem_body {fields : PairLine} {octet : Octet} (live : octet ∉ fields.body) :
    octet ∉ fields.key ∧ octet ∉ fields.value := by
  simp only [PairLine.body, List.mem_append, List.mem_cons, not_or] at live
  exact ⟨live.1.1.2, live.2.2.2⟩

theorem Plain.passes {octets : List Octet} {octet : Octet} (live : (0 : Octet) ∉ octets)
    (other : octet ∉ octets) : Passes octet octets := by
  intro another member
  constructor
  · rintro rfl
    exact other member
  · rintro rfl
    exact live member

/-- A line whose value is no blank: what stands behind it is read with it. -/
theorem parsePair_value {fields : PairLine} {buf more rest : List Octet} {stop : Nat}
    (valid : fields.Valid) (live : (0 : Octet) ∉ fields.body)
    (cut : cutLine buf = some (fields.body ++ (more ++ 0 :: rest), some stop))
    (indent : fields.lead.length ≤ stop)
    (solid : ∀ first ∈ (fields.value ++ (more ++ 0 :: rest)).head?, blank first = false)
    (other : (more ++ 0 :: rest).head? ≠ some greater)
    (above : fields.behind = [] ∨ fields.body.length ≤ stop + fields.value.length) :
    ∃ next val, parsePair buf = some (next, .pair fields.lead.length val) ∧
      string (next.drop fields.lead.length) = fields.key ∧
      string (next.drop val) = string (fields.value ++ (more ++ 0 :: rest)) := by
  have whole : fields.behind ++ (fields.value ++ (more ++ 0 :: rest)) =
      (fields.behind ++ fields.value ++ more) ++ 0 :: rest := by simp
  have lengths := body_length fields
  have plain := valid.plain_head other
  have ends : fields.lead.length + fields.key.length + fields.before.length + 1 +
      (if fields.arrow then [greater] else []).length +
        (fields.behind ++ fields.value ++ more).length = fields.body.length + more.length := by
    simp only [List.length_append]
    omega
  rw [body_append, whole] at cut
  rw [whole] at plain
  have skipped : ∀ start, start + (fields.behind ++ fields.value ++ more).length =
        fields.body.length + more.length →
      skip blank (some stop) ((fields.behind ++ fields.value ++ more) ++ 0 :: rest) start =
        some (List.replicate fields.behind.length 0 ++ (fields.value ++ (more ++ 0 :: rest)),
          start + fields.behind.length) := by
    intro start place
    rw [← whole]
    refine skip_value valid.behind solid (by simp) (above.imp_right fun far => ?_)
    simp only [List.length_append] at place
    omega
  exact parsePair_text cut valid.lead indent valid.named valid.key (not_mem_body live).1
    valid.before plain ends skipped

theorem lineEnd_head (crlf : Bool) {octet : Octet} (rest : List Octet) (zero : 0 ≠ octet)
    (carriage : cr ≠ octet) :
    ((if crlf then [cr] else []) ++ 0 :: rest).head? ≠ some octet := by
  cases crlf with
  | true => exact fun same => carriage (Option.some.inj same)
  | false => exact fun same => zero (Option.some.inj same)

theorem lineEnd_passes (crlf : Bool) {octet : Octet} (carriage : cr ≠ octet) :
    Passes octet (if crlf then [cr] else []) := by
  cases crlf with
  | true => exact (Passes.nil octet).cons carriage (by decide)
  | false => exact Passes.nil octet

theorem Passes.live {octet : Octet} {octets : List Octet} (passes : Passes octet octets) :
    (0 : Octet) ∉ octets := fun member => (passes 0 member).2 rfl

/-- A line without a comment. -/
theorem parsePair_plain {fields : PairLine} (valid : fields.Valid) (crlf : Bool)
    (stale : List Octet) (live : (0 : Octet) ∉ fields.body) (plain : fields.comment = none) :
    ∃ next val, parsePair (fields.body ++ (lineEnd crlf ++ 0 :: stale)) =
        some (next, .pair fields.lead.length val) ∧
      string (next.drop fields.lead.length) = fields.key ∧
      string (next.drop val) = fields.got crlf := by
  obtain ⟨liveKey, liveValue⟩ := not_mem_body live
  have hashKey : hash ∉ fields.key := fun member => (valid.key hash member).1 rfl
  have hashValue : hash ∉ fields.value := fun member => (valid.value hash member).1 rfl
  have lfKey : lf ∉ fields.key := fun member => (valid.key lf member).2.2.2.2 rfl
  have lfValue : lf ∉ fields.value := fun member => (valid.value lf member).2.2.2.2 rfl
  have lengths := body_length fields
  rw [carriage_return, PairLine.got, plain]
  dsimp only
  have passesHash : Passes hash (fields.body ++ if crlf then [cr] else []) :=
    (valid.body_passes (by decide) (Plain.passes liveKey hashKey)
      (Plain.passes liveValue hashValue) (by decide)).append (lineEnd_passes crlf (by decide))
  have passesLf : Passes lf (fields.body ++ if crlf then [cr] else []) :=
    (valid.body_passes (by decide) (Plain.passes liveKey lfKey) (Plain.passes liveValue lfValue)
      (by decide)).append (lineEnd_passes crlf (by decide))
  have liveEnd : (0 : Octet) ∉ if crlf then [cr] else [] :=
    Passes.live (lineEnd_passes crlf (show cr ≠ hash by decide))
  have solid : ∀ first ∈ ((if crlf then [cr] else []) ++ 0 :: 0 :: stale).head?,
      blank first = false := by
    cases crlf with
    | true => intro first member; rw [← Option.mem_some_iff.mp member]; decide
    | false => intro first member; rw [← Option.mem_some_iff.mp member]; decide
  have cut : cutLine ((fields.body ++ if crlf then [cr] else []) ++ lf :: 0 :: stale) =
      some ((fields.body ++ if crlf then [cr] else []) ++ 0 :: 0 :: stale,
        some (fields.body ++ if crlf then [cr] else []).length) := cutLine_lf passesHash passesLf
  rw [List.append_assoc fields.body _ (0 :: 0 :: stale)] at cut
  obtain ⟨next, val, parsed, key, value⟩ := parsePair_value valid live cut
    (by rw [List.length_append]; omega) (valid.value.head solid)
    (lineEnd_head crlf _ (by decide) (by decide)) (Or.inr (by rw [List.length_append]; omega))
  refine ⟨next, val, ?_, key, ?_⟩
  · rw [← parsed]
    simp
  · rw [value, ← List.append_assoc, string_of]
    rw [List.mem_append, not_or]
    exact ⟨liveValue, liveEnd⟩

theorem Blanks.head {blanks rest : List Octet} {octet : Octet} (all : Blanks blanks)
    (solid : blank octet = false) (live : 0 ≠ octet) :
    (blanks ++ 0 :: rest).head? ≠ some octet := by
  cases blanks with
  | nil => exact fun same => live (Option.some.inj same)
  | cons first blanks =>
      exact fun same => blank_ne (all first List.mem_cons_self) solid (Option.some.inj same)

/-- A line whose value is empty: the last blank before the comment is read as the value. -/
theorem parsePair_blank {fields : PairLine} {buf blanks front rest : List Octet} {last : Octet}
    (valid : fields.Valid) (live : (0 : Octet) ∉ fields.body) (all : Blanks blanks)
    (cut : cutLine buf =
      some (fields.body ++ (blanks ++ 0 :: rest), some ((fields.body ++ blanks).length - 1)))
    (empty : fields.value = []) (split : fields.behind ++ blanks = front ++ [last]) :
    ∃ next val, parsePair buf = some (next, .pair fields.lead.length val) ∧
      string (next.drop fields.lead.length) = fields.key ∧ string (next.drop val) = [last] := by
  have both : Blanks (front ++ [last]) := by
    rw [← split]
    intro octet member
    exact (List.mem_append.mp member).elim (valid.behind octet) (all octet)
  have lastLive : last ≠ 0 := blank_ne (both last (by simp)) blank_zero
  have whole : fields.behind ++ (fields.value ++ (blanks ++ 0 :: rest)) =
      (front ++ [last]) ++ 0 :: rest := by
    rw [empty, List.nil_append, ← List.append_assoc, split]
  have lengths := body_length fields
  have counts := congrArg List.length split
  have other : (blanks ++ 0 :: rest).head? ≠ some greater := all.head (by decide) (by decide)
  have plain := valid.plain_head other
  rw [whole] at plain
  simp only [List.length_append, List.length_singleton] at counts
  rw [empty, List.length_nil] at lengths
  have ends : fields.lead.length + fields.key.length + fields.before.length + 1 +
      (if fields.arrow then [greater] else []).length + (front ++ [last]).length =
        (fields.body ++ blanks).length := by
    simp only [List.length_append, List.length_singleton]
    omega
  rw [body_append, whole] at cut
  have skipped : ∀ start, start + (front ++ [last]).length = (fields.body ++ blanks).length →
      skip blank (some ((fields.body ++ blanks).length - 1)) ((front ++ [last]) ++ 0 :: rest) start =
        some (List.replicate front.length 0 ++ last :: 0 :: rest, start + front.length) := by
    intro start place
    rw [List.append_assoc, ← place, List.length_append, List.length_singleton]
    refine skip_blanks (fun octet member => both octet (by simp [member])) last (0 :: rest) start
      (fun offset inside same => ?_) (Or.inr ?_)
    · rw [Option.some.injEq] at same
      omega
    · rw [Option.some.injEq]
      omega
  have lone : string ([last] ++ 0 :: rest) = [last] :=
    string_of (by simpa using lastLive.symm) rest
  have indent : fields.lead.length ≤ (fields.body ++ blanks).length - 1 := by
    rw [List.length_append]
    omega
  obtain ⟨next, val, parsed, key, value⟩ := parsePair_text cut valid.lead indent valid.named
    valid.key (not_mem_body live).1 valid.before plain ends skipped
  exact ⟨next, val, parsed, key, value.trans lone⟩

/-- A line with a comment. -/
theorem parsePair_comment {fields : PairLine} (valid : fields.Valid) (crlf : Bool)
    {blanks text : List Octet} (rest : List Octet) (live : (0 : Octet) ∉ fields.body)
    (comment : fields.comment = some (blanks, text)) :
    ∃ next val, parsePair (fields.body ++ (blanks ++ hash :: rest)) =
        some (next, .pair fields.lead.length val) ∧
      string (next.drop fields.lead.length) = fields.key ∧
      string (next.drop val) = fields.got crlf := by
  obtain ⟨liveKey, liveValue⟩ := not_mem_body live
  have all : Blanks blanks := (valid.comment _ comment).1
  have hashKey : hash ∉ fields.key := fun member => (valid.key hash member).1 rfl
  have hashValue : hash ∉ fields.value := fun member => (valid.value hash member).1 rfl
  have lengths := body_length fields
  have passes : Passes hash (fields.body ++ blanks) :=
    (valid.body_passes (by decide) (Plain.passes liveKey hashKey)
      (Plain.passes liveValue hashValue) (by decide)).append (all.passes (by decide))
  have cut : cutLine (fields.body ++ (blanks ++ hash :: rest)) =
      some (fields.body ++ (blanks ++ 0 :: rest), some ((fields.body ++ blanks).length - 1)) := by
    rw [← List.append_assoc, cutLine_hash passes, List.append_assoc]
  have indent : fields.lead.length ≤ (fields.body ++ blanks).length - 1 := by
    rw [List.length_append]
    omega
  have other : (blanks ++ 0 :: rest).head? ≠ some greater := all.head (by decide) (by decide)
  rw [PairLine.got, comment]
  dsimp only
  by_cases empty : fields.value = []
  · rw [if_pos empty]
    rcases List.eq_nil_or_concat' (fields.behind ++ blanks) with none | ⟨front, last, split⟩
    · obtain ⟨noBehind, noBlanks⟩ := List.append_eq_nil_iff.mp none
      rw [none]
      rw [noBlanks] at cut indent other ⊢
      obtain ⟨next, val, parsed, key, value⟩ := parsePair_value valid live cut indent
        (by rw [empty]; intro first member; rw [← Option.mem_some_iff.mp member]; decide)
        other (Or.inl noBehind)
      refine ⟨next, val, parsed, key, value.trans ?_⟩
      rw [empty]
      exact string_of List.not_mem_nil rest
    · rw [split, List.getLast?_concat]
      exact parsePair_blank valid live all cut empty split
  · rw [if_neg empty]
    have long : 0 < fields.value.length := List.length_pos_iff.mpr empty
    have solid : ∀ first ∈ (fields.value ++ (blanks ++ 0 :: rest)).head?, blank first = false := by
      obtain ⟨first, others, split⟩ := List.exists_cons_of_ne_nil empty
      intro octet member
      rw [split, List.cons_append, List.head?_cons, Option.mem_some_iff] at member
      rw [← member]
      exact (valid.value first (by rw [split]; exact List.mem_cons_self)).2.2.1
    obtain ⟨next, val, parsed, key, value⟩ := parsePair_value valid live cut indent solid other
      (Or.inr (by rw [List.length_append]; omega))
    refine ⟨next, val, parsed, key, value.trans ?_⟩
    rw [← List.append_assoc, string_of]
    rw [List.mem_append, not_or]
    exact ⟨liveValue, Passes.live (all.passes (show blank hash = false by decide))⟩

/-- A line without a `=` gives nothing. -/
theorem parsePair_absent {buf body rest : List Octet} {stop : Option Nat}
    (cut : cutLine buf = some (body ++ 0 :: rest, stop)) (passes : Passes equals body) :
    ∃ next, parsePair buf = some (next, .invalid) := by
  obtain ⟨count, inside, skipped⟩ := skip_within blank_zero stop body rest 0
  have absent : scan equals (body.drop count ++ 0 :: rest) count = some none :=
    scan_absent (by decide) (fun other member => passes other (List.mem_of_mem_drop member)) rest
      count
  have behind : (List.replicate count (0 : Octet) ++ (body.drop count ++ 0 :: rest)).drop count =
      body.drop count ++ 0 :: rest := List.drop_left' List.length_replicate
  refine ⟨List.replicate count 0 ++ (body.drop count ++ 0 :: rest), ?_⟩
  rw [parsePair, cut, Option.bind_some]
  dsimp only
  rw [skipFrom, List.drop_zero, skipped, Nat.zero_add]
  simp only [Option.map_some, List.take_zero, List.nil_append, Option.bind_some, behind, absent]

end Wanpipe.Mgd.NextPair
