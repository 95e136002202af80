import Wanpipe.Mgd.ConfigText

/-! What the configuration reader of `sangoma_mgd` makes of the lines of a file. -/

namespace Wanpipe.Mgd.NextPair

open Line CString

/-- What a line gives. -/
def given (next : WoomeraConfig) : Parsed → Option (List Octet × List Octet)
  | .pair var val => some (pairAt next var val)
  | _ => none

/-- A line gives this. -/
def Gives (cfg : WoomeraConfig) (pair : Option (List Octet × List Octet)) : Prop :=
  ∃ next parsed, parseLine cfg = some (next, parsed) ∧ given next parsed = pair

theorem gives_text {cfg : WoomeraConfig} {first : Octet} {pair : Option (List Octet × List Octet)}
    (head : cfg.buf.head? = some first)
    (noSection : first = openBracket → scan closeBracket cfg.buf 0 = some none)
    (text : ∃ out, parseText cfg first = some out ∧ given out.1 out.2 = pair) :
    Gives cfg pair := by
  obtain ⟨⟨next, parsed⟩, done, gives⟩ := text
  refine ⟨next, parsed, ?_, gives⟩
  rw [parseLine, ← List.head?_eq_getElem?, head, Option.bind_some]
  by_cases bracket : first = openBracket
  · rw [if_pos bracket, noSection bracket, Option.bind_some]
    exact done
  · rw [if_neg bracket]
    exact done

theorem text_comment {cfg : WoomeraConfig} {first : Octet}
    (comment : first = hash ∨ first = lf ∨ first = cr) :
    ∃ out, parseText cfg first = some out ∧ given out.1 out.2 = none :=
  ⟨_, if_pos comment, rfl⟩

theorem text_invalid {cfg : WoomeraConfig} {first : Octet}
    (noComment : ¬(first = hash ∨ first = lf ∨ first = cr))
    (invalid : ∃ next, parsePair cfg.buf = some (next, .invalid)) :
    ∃ out, parseText cfg first = some out ∧ given out.1 out.2 = none := by
  obtain ⟨next, parsed⟩ := invalid
  refine ⟨store cfg (next, .invalid), ?_, rfl⟩
  rw [parseText, if_neg noComment, parsed]
  rfl

theorem text_pair {cfg : WoomeraConfig} {first : Octet} {pair : List Octet × List Octet}
    (noComment : ¬(first = hash ∨ first = lf ∨ first = cr))
    (parsed : ∃ next var val, parsePair cfg.buf = some (next, .pair var val) ∧
      string (next.drop var) = pair.1 ∧ string (next.drop val) = pair.2) :
    ∃ out, parseText cfg first = some out ∧ given out.1 out.2 = some pair := by
  obtain ⟨next, var, val, done, key, value⟩ := parsed
  refine ⟨store cfg (next, .pair var val), ?_, ?_⟩
  · rw [parseText, if_neg noComment, done]
    rfl
  · exact congrArg some (Prod.ext key value)

theorem gives_section {cfg : WoomeraConfig} {items rest : List Octet}
    (buf : cfg.buf = items ++ closeBracket :: rest) (passes : Passes closeBracket items)
    (head : cfg.buf.head? = some openBracket) : Gives cfg none := by
  have found : scan closeBracket cfg.buf 0 = some (some items.length) := by
    rw [buf, scan_found passes, Nat.zero_add]
  have named : ∃ next, parseSection cfg items.length = some (next, .nothing) := by
    rw [parseSection, buf, put_append]
    exact ⟨_, rfl⟩
  obtain ⟨next, done⟩ := named
  refine ⟨next, .nothing, ?_, rfl⟩
  rw [parseLine, ← List.head?_eq_getElem?, head, Option.bind_some, if_pos rfl, found,
    Option.bind_some]
  exact done

/-- The pair that the reader gives for a line. -/
def FileLine.read (line : FileLine) : Option (List Octet × List Octet) :=
  match line.content with
  | .pair fields =>
      if fields.lead = [] ∧ fields.key.head? = some openBracket ∧
          (fields.body ++ commentText fields.comment).contains closeBracket then none
      else some (fields.key, fields.got line.crlf)
  | _ => none

theorem lineEnd_live (crlf : Bool) (octet : Octet) (other : octet ≠ cr ∧ octet ≠ lf) :
    octet ∉ lineEnd crlf := by
  cases crlf with
  | true => simp [lineEnd, other]
  | false => simp [lineEnd, other]

section Gives

variable {cfg : WoomeraConfig} {crlf : Bool} {first : Octet} {stale : List Octet}

theorem gives_ignored (head : cfg.buf.head? = some first)
    (comment : first = hash ∨ first = lf ∨ first = cr) : Gives cfg none := by
  refine gives_text head (fun bracket => ?_) (text_comment comment)
  rw [bracket] at comment
  exact absurd comment (by decide)

theorem blank_noComment (isBlank : blank first = true) :
    ¬(first = hash ∨ first = lf ∨ first = cr) := by
  rintro (same | same | same)
  · exact blank_ne isBlank (show blank hash = false by decide) same
  · exact blank_ne isBlank (show blank lf = false by decide) same
  · exact blank_ne isBlank (show blank cr = false by decide) same

theorem blank_noSection (isBlank : blank first = true) : first ≠ openBracket :=
  blank_ne isBlank (by decide)

theorem gives_invalid (head : cfg.buf.head? = some first) (isBlank : blank first = true)
    (invalid : ∃ next, parsePair cfg.buf = some (next, .invalid)) : Gives cfg none :=
  gives_text head (fun bracket => absurd bracket (blank_noSection isBlank))
    (text_invalid (blank_noComment isBlank) invalid)

theorem gives_heading {name : List Octet} (live : (0 : Octet) ∉ name)
    (closed : closeBracket ∉ name) {rest : List Octet}
    (buf : cfg.buf = openBracket :: (name ++ [closeBracket]) ++ rest) : Gives cfg none := by
  have passes : Passes closeBracket (openBracket :: name) :=
    (Plain.passes live closed).cons (by decide) (by decide)
  have cut : cfg.buf = (openBracket :: name) ++ closeBracket :: rest := by
    rw [buf]
    simp
  exact gives_section cut passes (by rw [buf]; rfl)

/-- Blanks and the end of the line. -/
theorem gives_blanks {lead : List Octet} (blanks : Blanks lead)
    (buf : cfg.buf = lead ++ (lineEnd crlf ++ 0 :: stale)) : Gives cfg none := by
  cases lead with
  | nil =>
      have head : ∃ first, cfg.buf.head? = some first ∧ (first = hash ∨ first = lf ∨ first = cr) := by
        rw [buf]
        cases crlf with
        | true => exact ⟨cr, rfl, by decide⟩
        | false => exact ⟨lf, rfl, by decide⟩
      obtain ⟨first, head, ends⟩ := head
      exact gives_ignored head ends
  | cons first lead =>
      have ended : ∀ octet, blank octet = false → cr ≠ octet →
          Passes octet (first :: lead ++ if crlf then [cr] else []) := fun octet solid other =>
        (blanks.passes solid).append (lineEnd_passes crlf other)
      have cut : cutLine cfg.buf = some ((first :: lead ++ if crlf then [cr] else []) ++ 0 :: 0 :: stale,
          some (first :: lead ++ if crlf then [cr] else []).length) := by
        rw [buf, carriage_return, List.append_assoc, ← List.append_assoc]
        exact cutLine_lf (ended hash (by decide) (by decide)) (ended lf (by decide) (by decide))
      exact gives_invalid (by rw [buf]; rfl) (blanks first List.mem_cons_self)
        (parsePair_absent cut (ended equals (by decide) (by decide)))

/-- A comment behind blanks. -/
theorem gives_comment {lead rest : List Octet} (blanks : Blanks lead)
    (buf : cfg.buf = lead ++ hash :: rest) : Gives cfg none := by
  cases lead with
  | nil => exact gives_ignored (by rw [buf]; rfl) (Or.inl rfl)
  | cons first lead =>
      have cut : cutLine cfg.buf = some (first :: lead ++ 0 :: rest,
          some ((first :: lead).length - 1)) := by
        rw [buf]
        exact cutLine_hash (blanks.passes (by decide))
      exact gives_invalid (by rw [buf]; rfl) (blanks first List.mem_cons_self)
        (parsePair_absent cut (blanks.passes (by decide)))

/-- A line starts with a blank, or with its key. -/
theorem PairLine.Valid.head {fields : PairLine} (valid : fields.Valid) (more : List Octet) :
    ∃ first, (fields.body ++ more).head? = some first ∧
      (blank first = true ∨ fields.lead = [] ∧ fields.key.head? = some first ∧
        first ∈ fields.key) := by
  cases lead : fields.lead with
  | nil =>
      obtain ⟨first, others, split⟩ := List.exists_cons_of_ne_nil valid.named
      refine ⟨first, ?_, Or.inr ⟨rfl, by rw [split]; rfl, by simp [split]⟩⟩
      rw [body_append, lead, split]
      rfl
  | cons first others =>
      refine ⟨first, ?_, Or.inl (valid.lead first (by simp [lead]))⟩
      rw [body_append, lead]
      rfl

/-- A line with a key and a value, unless the reader finds a section in it. -/
theorem gives_pair {fields : PairLine} (valid : fields.Valid)
    (live : (0 : Octet) ∉ fields.body ++ commentText fields.comment)
    (buf : cfg.buf = fields.body ++ commentText fields.comment ++ (lineEnd crlf ++ 0 :: stale)) :
    Gives cfg (FileLine.read ⟨.pair fields, crlf⟩) := by
  have liveBody : (0 : Octet) ∉ fields.body := fun member => live (List.mem_append_left _ member)
  have parsed : ∃ next var val, parsePair cfg.buf = some (next, .pair var val) ∧
      string (next.drop var) = fields.key ∧ string (next.drop val) = fields.got crlf := by
    rw [buf]
    cases comment : fields.comment with
    | none =>
        obtain ⟨next, val, done, strings⟩ := parsePair_plain valid crlf stale liveBody comment
        refine ⟨next, _, val, ?_, strings⟩
        rw [commentText, List.append_nil]
        exact done
    | some both =>
        obtain ⟨blanks, text⟩ := both
        obtain ⟨next, val, done, strings⟩ :=
          parsePair_comment valid crlf (text ++ (lineEnd crlf ++ 0 :: stale)) liveBody comment
        refine ⟨next, _, val, ?_, strings⟩
        rw [← done]
        simp [commentText]
  obtain ⟨first, start, solid⟩ := valid.head (commentText fields.comment)
  have head : cfg.buf.head? = some first := by
    rw [buf, List.head?_append, start]
    rfl
  have noComment : ¬(first = hash ∨ first = lf ∨ first = cr) := by
    rcases solid with isBlank | ⟨-, -, member⟩
    · exact blank_noComment isBlank
    · obtain ⟨noHash, -, -, noCr, noLf⟩ := valid.key first member
      rintro (same | same | same)
      · exact noHash same
      · exact noLf same
      · exact noCr same
  rw [FileLine.read]
  dsimp only
  by_cases bracket : fields.lead = [] ∧ fields.key.head? = some openBracket ∧
      (fields.body ++ commentText fields.comment).contains closeBracket
  · rw [if_pos bracket]
    obtain ⟨lead, opens, found⟩ := bracket
    have closes := List.contains_iff_mem.mp found
    obtain ⟨items, rest, split, fresh⟩ := List.eq_append_cons_of_mem closes
    have liveItems : (0 : Octet) ∉ items := by
      intro member
      rw [split] at live
      exact live (List.mem_append_left _ member)
    have cut : cfg.buf = items ++ closeBracket :: (rest ++ (lineEnd crlf ++ 0 :: stale)) := by
      rw [buf, split]
      simp
    have opened : first = openBracket := by
      rcases solid with isBlank | ⟨-, key, -⟩
      · rw [body_append, lead, List.nil_append, List.head?_append, opens] at start
        exact (Option.some.inj start).symm
      · rw [key] at opens
        exact Option.some.inj opens
    rw [opened] at head
    exact gives_section cut (Plain.passes liveItems fresh) head
  · rw [if_neg bracket]
    refine gives_text head (fun opens => ?_) (text_pair noComment parsed)
    have absent : closeBracket ∉ fields.body ++ commentText fields.comment := by
      intro closes
      rcases solid with isBlank | ⟨lead, key, -⟩
      · exact blank_noSection isBlank opens
      · rw [opens] at key
        exact bracket ⟨lead, key, List.contains_iff_mem.mpr closes⟩
    have passes : Passes closeBracket (fields.body ++ commentText fields.comment ++ lineEnd crlf) :=
      (Plain.passes live absent).append
        (Plain.passes (lineEnd_live crlf 0 (by decide)) (lineEnd_live crlf closeBracket (by decide)))
    rw [buf, ← List.append_assoc]
    exact scan_absent (by decide) passes stale 0

end Gives

theorem FileLine.Valid.gives {line : FileLine} (valid : line.Valid) (cfg : WoomeraConfig)
    (file : List (List Octet)) : Gives (fgets cfg line.text file) line.read := by
  obtain ⟨content, crlf⟩ := line
  have live := valid.live
  rw [FileLine.text, List.mem_append, not_or] at live
  have buf : (fgets cfg (FileLine.text ⟨content, crlf⟩) file).buf =
      content.text ++ (lineEnd crlf ++
        0 :: cfg.buf.drop ((FileLine.text ⟨content, crlf⟩).length + 1)) := by
    rw [fgets, FileLine.text, List.append_assoc]
  cases content with
  | heading name =>
      have liveName : (0 : Octet) ∉ name := by
        intro member
        exact live.1 (List.mem_cons_of_mem _ (List.mem_append_left _ member))
      exact gives_heading liveName valid.content.2 buf
  | blanks lead => exact gives_blanks valid.content buf
  | comment lead text =>
      rw [Content.text, List.append_assoc, List.cons_append] at buf
      exact gives_comment valid.content.1 buf
  | pair fields => exact gives_pair valid.content live.1 buf

theorem Blanks.lf {blanks : List Octet} (all : Blanks blanks) : lf ∉ blanks := fun member =>
  blank_ne (all _ member) (show blank NextPair.lf = false by decide) rfl

theorem PairLine.Valid.lf_body {fields : PairLine} (valid : fields.Valid) : lf ∉ fields.body := by
  intro member
  simp only [PairLine.body, List.mem_append, List.mem_cons] at member
  rcases member with ((lead | key) | before) | same | (arrow | behind) | value
  · exact valid.lead.lf lead
  · exact (valid.key lf key).2.2.2.2 rfl
  · exact valid.before.lf before
  · exact absurd same (by decide)
  · cases kind : fields.arrow with
    | true =>
        rw [kind] at arrow
        exact absurd arrow (by decide)
    | false =>
        rw [kind] at arrow
        exact absurd arrow (by decide)
  · exact valid.behind.lf behind
  · exact (valid.value lf value).2.2.2.2 rfl

/-- The line is all that its bytes are: no other line end is in it. -/
theorem FileLine.Valid.oneLine {line : FileLine} (valid : line.Valid) :
    ∃ front, line.text = front ++ [lf] ∧ lf ∉ front := by
  obtain ⟨content, crlf⟩ := line
  refine ⟨content.text ++ if crlf then [cr] else [], ?_, ?_⟩
  · rw [FileLine.text, carriage_return, List.append_assoc]
  · rw [List.mem_append, not_or]
    refine ⟨?_, fun member => (lineEnd_passes crlf (show cr ≠ lf by decide) lf member).1 rfl⟩
    have fine := valid.content
    cases content with
    | heading name =>
        simp only [Content.text, List.mem_cons, List.mem_append, List.not_mem_nil, or_false, not_or]
        exact ⟨by decide, fine.1, by decide⟩
    | blanks lead => exact Blanks.lf fine
    | comment lead text =>
        simp only [Content.text, List.mem_cons, List.mem_append, not_or]
        exact ⟨fine.1.lf, by decide, fine.2⟩
    | pair fields =>
        rw [Content.text, List.mem_append, not_or]
        constructor
        · exact fine.lf_body
        · cases comment : fields.comment with
          | none => exact List.not_mem_nil
          | some both =>
              obtain ⟨blanks, oneLine⟩ := fine.comment both comment
              simp only [commentText, List.mem_append, List.mem_cons, not_or]
              exact ⟨blanks.lf, by decide, oneLine⟩

theorem chunks_lines {lines : List FileLine} (valid : ∀ line ∈ lines, line.Valid) :
    chunks (fileText lines) = lines.map FileLine.text := by
  induction lines with
  | nil => rfl
  | cons line lines ih =>
      have first := valid line List.mem_cons_self
      obtain ⟨front, split, oneLine⟩ := first.oneLine
      have short := first.short
      rw [split, List.length_append, List.length_singleton] at short
      have rest := ih fun other member => valid other (List.mem_cons_of_mem line member)
      rw [fileText, List.flatMap_cons, split, chunks, List.append_assoc, List.singleton_append,
        chunksFrom_line [] front _ oneLine short, List.map_cons, split]
      exact congrArg _ rest

/-- The reader gives for each line what it finds in it. -/
theorem readPairs_lines {lines : List FileLine} {calls : Nat} {cfg : WoomeraConfig}
    (valid : ∀ line ∈ lines, line.Valid) (file : cfg.file = lines.map FileLine.text)
    (enough : lines.length < calls) :
    readPairs calls cfg = some (lines.filterMap FileLine.read) := by
  induction lines generalizing cfg calls with
  | nil =>
      obtain ⟨fewer, rfl⟩ : ∃ fewer, calls = fewer + 1 := ⟨calls - 1, by omega⟩
      exact readPairs_nil fewer file
  | cons line lines ih =>
      obtain ⟨fewer, rfl⟩ : ∃ fewer, calls = fewer + 1 := ⟨calls - 1, by omega⟩
      rw [List.length_cons] at enough
      have rest : ∀ other ∈ lines, other.Valid := fun other member =>
        valid other (List.mem_cons_of_mem line member)
      obtain ⟨next, parsed, done, gives⟩ :=
        (valid line List.mem_cons_self).gives cfg (lines.map FileLine.text)
      have nextFile : next.file = lines.map FileLine.text := parseLine_file done
      rw [List.filterMap_cons, ← gives]
      cases parsed with
      | nothing =>
          rw [readPairs_skip fewer file done (by simp)]
          exact ih rest nextFile (by omega)
      | invalid =>
          rw [readPairs_skip fewer file done (by simp)]
          exact ih rest nextFile (by omega)
      | pair var val =>
          rw [readPairs_pair fewer file done, ih rest nextFile (by omega)]
          rfl

theorem FileLine.read_iff (line : FileLine) : line.read = line.pair ↔ line.Clean := by
  obtain ⟨content, crlf⟩ := line
  cases content with
  | heading name => exact iff_of_true rfl trivial
  | blanks lead => exact iff_of_true rfl trivial
  | comment lead text => exact iff_of_true rfl trivial
  | pair fields =>
      change (if _ then none else some (fields.key, fields.got crlf)) =
        some (fields.key, fields.value) ↔ fields.Clean crlf
      by_cases bracket : fields.lead = [] ∧ fields.key.head? = some openBracket ∧
          (fields.body ++ commentText fields.comment).contains closeBracket
      · rw [if_pos bracket]
        refine iff_of_false (by simp) fun clean => ?_
        exact clean.bracket bracket.1 bracket.2.1 (List.contains_iff_mem.mp bracket.2.2)
      · rw [if_neg bracket, Option.some.injEq, Prod.mk.injEq, fields.got_iff crlf]
        constructor
        · rintro ⟨-, newline, comment⟩
          exact ⟨fun lead opens closes =>
            bracket ⟨lead, opens, List.contains_iff_mem.mpr closes⟩, newline, comment⟩
        · intro clean
          exact ⟨rfl, clean.newline, clean.comment⟩

section Yields

variable {Item Result : Type} {found meant : Item → Option Result}

theorem filterMap_length_le (only : ∀ item, (found item).isSome = true → (meant item).isSome = true)
    (items : List Item) : (items.filterMap found).length ≤ (items.filterMap meant).length := by
  induction items with
  | nil => exact Nat.le_refl _
  | cons item items ih =>
      have here := only item
      rw [List.filterMap_cons, List.filterMap_cons]
      cases one : found item with
      | none =>
          cases meant item with
          | none => exact ih
          | some other => exact Nat.le_succ_of_le ih
      | some result =>
          cases other : meant item with
          | none =>
              rw [one, other] at here
              exact absurd (here rfl) (by simp)
          | some another => exact Nat.succ_le_succ ih

/-- Two readings of some items, one of which finds nothing that is not meant, agree when they agree on
each of the items. -/
theorem filterMap_eq_iff (only : ∀ item, (found item).isSome = true → (meant item).isSome = true)
    (items : List Item) :
    items.filterMap found = items.filterMap meant ↔ ∀ item ∈ items, found item = meant item := by
  induction items with
  | nil => simp
  | cons item items ih =>
      have here := only item
      have fewer := filterMap_length_le only items
      rw [List.filterMap_cons, List.filterMap_cons, List.forall_mem_cons, ← ih]
      cases one : found item with
      | none =>
          cases other : meant item with
          | none => simp
          | some another =>
              refine iff_of_false (fun same => ?_) (by simp)
              have lengths : (items.filterMap found).length =
                  (items.filterMap meant).length + 1 := congrArg List.length same
              omega
      | some result =>
          cases other : meant item with
          | none =>
              rw [one, other] at here
              exact absurd (here rfl) (by simp)
          | some another => simp

end Yields

theorem FileLine.read_only (line : FileLine) :
    line.read.isSome = true → line.pair.isSome = true := by
  obtain ⟨content, crlf⟩ := line
  cases content with
  | heading name => exact id
  | blanks lead => exact id
  | comment lead text => exact id
  | pair fields => exact fun _ => rfl

theorem pairs_isSome (file : List Octet) :
    (pairs file).isSome = true ↔ ∀ chunk ∈ chunks file, chunk.head? ≠ some equals :=
  readPairs_isSome List.length_replicate (chunks_fits file) (Nat.lt_succ_self _)

theorem pairs_lines {lines : List FileLine} (valid : ∀ line ∈ lines, line.Valid) :
    pairs (fileText lines) = some (lines.filterMap FileLine.read) := by
  have file : (opened (fileText lines)).file = lines.map FileLine.text := chunks_lines valid
  have enough : lines.length < (chunks (fileText lines)).length + 1 := by
    rw [chunks_lines valid, List.length_map]
    exact Nat.lt_succ_self _
  exact readPairs_lines valid file enough

/-- The configuration reader stays inside of its buffer for exactly the files of which no piece that
`fgets` gets starts with a `=`, and it returns the pairs of a text file if each of its lines is
clean. -/
theorem woomera_pairs (file : List Octet) (lines : List FileLine)
    (valid : ∀ line ∈ lines, line.Valid) :
    ((pairs file).isSome = true ↔ ∀ chunk ∈ chunks file, chunk.head? ≠ some equals) ∧
      (pairs (fileText lines) = some (lines.filterMap FileLine.pair) ↔
        ∀ line ∈ lines, line.Clean) := by
  refine ⟨pairs_isSome file, ?_⟩
  rw [pairs_lines valid, Option.some.injEq, filterMap_eq_iff FileLine.read_only]
  exact forall₂_congr fun line _ => line.read_iff

instance (octets : List Octet) : Decidable (Blanks octets) :=
  inferInstanceAs (Decidable (∀ octet ∈ octets, blank octet = true))

instance (octets : List Octet) : Decidable (Plain octets) :=
  inferInstanceAs (Decidable (∀ octet ∈ octets,
    octet ≠ hash ∧ octet ≠ equals ∧ blank octet = false ∧ octet ≠ cr ∧ octet ≠ lf))

/-- `a = b`. -/
def plainLine : PairLine :=
  { lead := [], key := [0x61], before := [space], arrow := false, behind := [space]
    value := [0x62], comment := none }

theorem plainLine_valid : plainLine.Valid where
  lead := by decide
  key := by decide
  named := by decide
  before := by decide
  behind := by decide
  value := by decide
  comment := by simp [plainLine]
  plain := by decide

theorem plainLine_lines : ∀ line ∈ [(⟨.pair plainLine, false⟩ : FileLine)], line.Valid := by
  intro line member
  rw [List.mem_singleton.mp member]
  exact ⟨plainLine_valid, by decide, by decide⟩

theorem woomera_pairs_plain :
    ((pairs [lf]).isSome = true ↔ ∀ chunk ∈ chunks [lf], chunk.head? ≠ some equals) ∧
      (pairs (fileText [⟨.pair plainLine, false⟩]) =
          some ([(⟨.pair plainLine, false⟩ : FileLine)].filterMap FileLine.pair) ↔
        ∀ line ∈ [(⟨.pair plainLine, false⟩ : FileLine)], line.Clean) :=
  woomera_pairs [lf] [⟨.pair plainLine, false⟩] plainLine_lines

/-- A line that ends in CRLF, and a file with a line that starts with a `=`. -/
theorem woomera_pairs_crlf :
    (¬∀ lines : List FileLine, (∀ line ∈ lines, line.Valid) →
        pairs (fileText lines) = some (lines.filterMap FileLine.pair)) ∧
      ¬∀ file, (pairs file).isSome = true := by
  constructor
  · intro all
    have valid : ∀ line ∈ [(⟨.pair plainLine, true⟩ : FileLine)], line.Valid := by
      intro line member
      rw [List.mem_singleton.mp member]
      exact ⟨plainLine_valid, by decide, by decide⟩
    have same := all _ valid
    rw [pairs_lines valid] at same
    exact absurd same (by decide)
  · intro all
    have inside := (pairs_isSome [equals, lf]).mp (all [equals, lf])
    exact absurd inside (by decide)

end Wanpipe.Mgd.NextPair
