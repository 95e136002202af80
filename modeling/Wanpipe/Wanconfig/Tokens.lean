import Mathlib.Data.List.DropRight
import Mathlib.Data.List.Forall2
import Wanpipe.Wanconfig.SectionRecords

/-! The tokens of a record: its tag and its arguments, cut apart in place. -/

namespace Wanpipe.Wanconfig.ConfSection

open Line CString

def comma : Octet := 0x2C

def equals : Octet := 0x3D

def maxTokens : Nat := 32

/-- Blanks around the string at `str` are cut off: where it starts then. -/
def strStrip (buf : List Octet) (str : Nat) : Option (List Octet × Nat) :=
  (strlen buf str).bind fun len =>
    let text := (buf.drop str).take len
    let lead := (text.takeWhile blank).length
    let kept := (text.drop lead).rdropWhile blank
    (poke buf (str + lead + kept.length) 0).map fun next => (next, str + lead)

def initTokens : List (Option Nat) := List.replicate maxTokens none

/-- The loop over the arguments, `rounds` times at most. -/
def tokenizeFrom : Nat → List Octet → List (Option Nat) → Nat → Nat →
    Option (List Octet × List (Option Nat) × Nat)
  | 0, buf, tokens, cnt, _ => some (buf, tokens, cnt + 1)
  | rounds + 1, buf, tokens, cnt, str =>
      match tokens[cnt]? with
      | some (some token) =>
          (strStrip buf token).bind fun first =>
            (scan comma (first.1.drop str) str).bind fun tok =>
              match tok with
              | none =>
                  (strStrip first.1 str).map fun last =>
                    (last.1, (tokens.set cnt (some first.2)).set (cnt + 1) (some last.2), cnt + 2)
              | some tok =>
                  (poke first.1 tok 0).bind fun cut =>
                    (strStrip cut str).bind fun arg =>
                      tokenizeFrom rounds arg.1
                        ((tokens.set cnt (some first.2)).set (cnt + 1) (some arg.2)) (cnt + 1)
                        (tok + 1)
      | _ => some (buf, tokens, cnt + 1)

/-- The buffer, the tokens and their number. -/
def tokenize (buf : List Octet) (str : Nat) : Option (List Octet × List (Option Nat) × Nat) :=
  (scan equals (buf.drop str) str).bind fun tok =>
    match tok with
    | none => some (buf, initTokens, 0)
    | some tok =>
        (poke buf tok 0).bind fun cut =>
          tokenizeFrom (maxTokens - 1) cut (initTokens.set 0 (some str)) 0 (tok + 1)

section Meaning

def strip (text : List Octet) : List Octet := (text.dropWhile blank).rdropWhile blank

/-- The tag of a record and its arguments, as many as there is room for. -/
def tokensOf (record : List Octet) : List (List Octet) :=
  if record.contains equals then
    ((record.takeWhile (· ≠ equals) ::
      splitFrom comma [] ((record.dropWhile (· ≠ equals)).drop 1)).map strip).take maxTokens
  else []

/-- What is found behind the pointers of the tokens, with their number. -/
def entries (texts : List (List Octet)) : Nat × List (Option (List Octet)) :=
  (texts.length, texts.map some ++ List.replicate (maxTokens - texts.length) none)

end Meaning

section Strip

/-- A string that ends in this part of the buffer. -/
def Holds (front : List Octet) (place : Nat) (text : List Octet) : Prop :=
  ∃ before after, front = before ++ (text ++ 0 :: after) ∧ place = before.length ∧ (0 : Octet) ∉ text

theorem Holds.append {front text : List Octet} {place : Nat} (holds : Holds front place text)
    (more : List Octet) : Holds (front ++ more) place text := by
  obtain ⟨before, after, rfl, rfl, live⟩ := holds
  exact ⟨before, after ++ more, by simp, rfl, live⟩

theorem Holds.string {front text : List Octet} {place : Nat} (holds : Holds front place text)
    (rest : List Octet) : string ((front ++ rest).drop place) = text := by
  obtain ⟨before, after, rfl, rfl, live⟩ := holds
  rw [List.append_assoc, List.drop_left, List.append_assoc, List.cons_append, string_of live]

theorem strip_sublist (text : List Octet) : (strip text).Sublist text :=
  (List.rdropWhile_prefix blank _).sublist.trans (List.dropWhile_suffix blank).sublist

theorem strip_live {text : List Octet} (live : (0 : Octet) ∉ text) : (0 : Octet) ∉ strip text :=
  fun member => live ((strip_sublist text).subset member)

theorem strip_lead (text : List Octet) : (strip text).takeWhile blank = [] := by
  have whole : strip text <+: text.dropWhile blank := List.rdropWhile_prefix blank _
  obtain ⟨rest, joined⟩ := whole
  have first := List.head?_dropWhile_not blank text
  cases kept : strip text with
  | nil => rfl
  | cons octet more =>
      rw [← joined, kept] at first
      exact List.takeWhile_cons_of_neg (by simpa using first)

theorem strip_end (text : List Octet) : (strip text).rdropWhile blank = strip text :=
  List.rdropWhile_idempotent _ _

theorem drop_blanks (text : List Octet) :
    text.drop (text.takeWhile blank).length = text.dropWhile blank := by
  calc
    text.drop (text.takeWhile blank).length =
        (text.takeWhile blank ++ text.dropWhile blank).drop (text.takeWhile blank).length := by
      rw [List.takeWhile_append_dropWhile]
    _ = text.dropWhile blank := List.drop_left

theorem strStrip_eq (front : List Octet) {text : List Octet} (live : (0 : Octet) ∉ text)
    (rest : List Octet) :
    strStrip (front ++ (text ++ 0 :: rest)) front.length =
      (poke (front ++ (text ++ 0 :: rest))
        (front.length + (text.takeWhile blank).length + (strip text).length) 0).map fun next =>
          (next, front.length + (text.takeWhile blank).length) := by
  rw [strStrip, strlen_here front live]
  change (poke _ _ 0).map _ = _
  rw [List.drop_left, List.take_left, drop_blanks]
  rfl

/-- What is stripped stays in its place, with nothing changed behind it. -/
theorem strStrip_here (front : List Octet) {text : List Octet} (live : (0 : Octet) ∉ text)
    (rest : List Octet) :
    ∃ place changed, changed.length = text.length + 1 ∧
      strStrip (front ++ (text ++ 0 :: rest)) front.length =
        some (front ++ (changed ++ rest), place) ∧ Holds (front ++ changed) place (strip text) := by
  obtain ⟨tail, cut⟩ : ∃ tail, text.dropWhile blank = strip text ++ tail :=
    ⟨_, (List.rdropWhile_append_rtakeWhile (p := blank) (l := text.dropWhile blank)).symm⟩
  have whole : text = text.takeWhile blank ++ (strip text ++ tail) := by
    rw [← cut, List.takeWhile_append_dropWhile]
  obtain ⟨octet, behind, ends⟩ : ∃ octet behind, tail ++ [0] = octet :: behind :=
    List.exists_cons_of_ne_nil (by simp)
  have layoutIs : front ++ (text ++ 0 :: rest) =
      front ++ text.takeWhile blank ++ strip text ++ octet :: (behind ++ rest) := by
    calc
      front ++ (text ++ 0 :: rest) =
          front ++ (text.takeWhile blank ++ (strip text ++ tail) ++ 0 :: rest) := by
        rw [← whole]
      _ = front ++ text.takeWhile blank ++ strip text ++ ((tail ++ [0]) ++ rest) := by simp
      _ = _ := by
        rw [ends]
        rfl
  have sized := congrArg List.length ends
  have total := congrArg List.length whole
  simp only [List.length_append, List.length_cons, List.length_nil] at sized total
  have poked := poke_here (front ++ text.takeWhile blank ++ strip text) octet 0 (behind ++ rest)
  refine ⟨front.length + (text.takeWhile blank).length,
    text.takeWhile blank ++ (strip text ++ 0 :: behind), ?_, ?_, ?_⟩
  · simp only [List.length_append, List.length_cons]
    omega
  · rw [strStrip_eq front live, layoutIs]
    rw [List.length_append, List.length_append] at poked
    rw [poked]
    simp
  · exact ⟨front ++ text.takeWhile blank, behind, by simp, by simp, strip_live live⟩

theorem strip_again (text : List Octet) : strip (strip text) = strip text := by
  have kept : (strip text).dropWhile blank = strip text := by
    calc
      (strip text).dropWhile blank =
          (strip text).takeWhile blank ++ (strip text).dropWhile blank := by
        rw [strip_lead]
        rfl
      _ = strip text := List.takeWhile_append_dropWhile
  calc
    strip (strip text) = ((strip text).dropWhile blank).rdropWhile blank := rfl
    _ = strip text := by rw [kept, strip_end]

/-- A second time nothing is stripped. -/
theorem strStrip_again {front text : List Octet} {place : Nat}
    (holds : Holds front place (strip text)) (rest : List Octet) :
    strStrip (front ++ rest) place = some (front ++ rest, place) := by
  obtain ⟨before, after, rfl, rfl, live⟩ := holds
  have poked := poke_here (before ++ strip text) 0 0 (after ++ rest)
  have whole : before ++ (strip text ++ 0 :: after) ++ rest =
      before ++ (strip text ++ 0 :: (after ++ rest)) := by simp
  rw [whole, strStrip_eq before live, strip_lead, strip_again, ← List.append_assoc]
  rw [List.length_append] at poked
  change (poke _ (before.length + (strip text).length) 0).map _ = _
  rw [poked]
  rfl

end Strip

section Loop

/-- The tokens so far, in an array of the size of `initTokens`. -/
def pointers (places : List Nat) : List (Option Nat) :=
  places.map some ++ List.replicate (maxTokens - places.length) none

theorem pointers_last (places : List Nat) (place : Nat) :
    (pointers (places ++ [place]))[places.length]? = some (some place) := by
  rw [pointers, List.getElem?_append_left (by simp)]
  simp

theorem pointers_set (places : List Nat) (place other : Nat) :
    (pointers (places ++ [place])).set places.length (some other) =
      pointers (places ++ [other]) := by
  rw [pointers, pointers, List.set_append_left _ _ (by simp), List.map_append, List.map_append,
    List.set_append_right _ _ (by simp), List.length_map, Nat.sub_self, List.length_append,
    List.length_append]
  rfl

theorem pointers_next {places : List Nat} (room : places.length < maxTokens) (place : Nat) :
    (pointers places).set places.length (some place) = pointers (places ++ [place]) := by
  obtain ⟨more, left⟩ : ∃ more, maxTokens - places.length = more + 1 :=
    ⟨maxTokens - places.length - 1, by omega⟩
  have after : maxTokens - (places ++ [place]).length = more := by
    rw [List.length_append, List.length_singleton]
    omega
  rw [pointers, pointers, left, after, List.set_append_right _ _ (by simp), List.length_map,
    Nat.sub_self, List.replicate_succ, List.set_cons_zero, List.map_append, List.append_assoc]
  rfl

/-- The strings that the pointers lead to. -/
def Lead (front : List Octet) (places : List Nat) (texts : List (List Octet)) : Prop :=
  List.Forall₂ (Holds front) places texts

theorem Lead.append {front : List Octet} {places : List Nat} {texts : List (List Octet)}
    (lead : Lead front places texts) (more : List Octet) : Lead (front ++ more) places texts :=
  List.Forall₂.imp (fun _ _ holds => holds.append more) lead

theorem Lead.concat {front text : List Octet} {places : List Nat} {place : Nat}
    {texts : List (List Octet)} (lead : Lead front places texts) (holds : Holds front place text) :
    Lead front (places ++ [place]) (texts ++ [text]) :=
  List.rel_append lead (List.Forall₂.cons holds List.Forall₂.nil)

/-- Stripping the token where the loop stands, ahead of the loop, makes no difference. -/
theorem tokenizeFrom_stripped (rounds : Nat) {buf next : List Octet} (places : List Nat)
    {place other : Nat} (str : Nat) (stripped : strStrip buf place = some (next, other))
    (again : strStrip next other = some (next, other)) :
    tokenizeFrom (rounds + 1) buf (pointers (places ++ [place])) places.length str =
      tokenizeFrom (rounds + 1) next (pointers (places ++ [other])) places.length str := by
  rw [tokenizeFrom, tokenizeFrom, pointers_last, pointers_last]
  change (strStrip buf place).bind _ = (strStrip next other).bind _
  rw [stripped, again, Option.bind_some, Option.bind_some, pointers_set, pointers_set]

/-- The loop makes the arguments of the text into tokens, while there is room. -/
theorem tokenizeFrom_arguments (rounds : Nat) {front text : List Octet} {places : List Nat}
    {place : Nat} {texts : List (List Octet)} {last : List Octet}
    (room : places.length + 1 + rounds = maxTokens) (live : (0 : Octet) ∉ text)
    (lead : Lead front (places ++ [place]) texts) (held : Holds front place (strip last))
    (rest : List Octet) :
    ∃ changed all, changed.length = text.length + 1 ∧
      tokenizeFrom rounds (front ++ (text ++ 0 :: rest)) (pointers (places ++ [place]))
          places.length front.length =
        some (front ++ (changed ++ rest), pointers all, all.length) ∧
      Lead (front ++ changed) all (texts ++ ((splitFrom comma [] text).map strip).take rounds) := by
  induction rounds generalizing front text places place texts last with
  | zero =>
      refine ⟨text ++ [0], places ++ [place], by simp, ?_, ?_⟩
      · rw [tokenizeFrom, List.length_append, List.append_assoc]
        rfl
      · rw [List.take_zero, List.append_nil]
        exact lead.append _
  | succ rounds ih =>
      have size : (places ++ [place]).length = places.length + 1 := by simp
      have less : (places ++ [place]).length < maxTokens := by omega
      rw [tokenizeFrom, pointers_last]
      change ∃ changed all, _ ∧ (strStrip (front ++ (text ++ 0 :: rest)) place).bind _ = _ ∧ _
      rw [strStrip_again held, Option.bind_some, pointers_set, List.drop_left]
      by_cases more : comma ∈ text
      · obtain ⟨arg, behind, rfl, absent⟩ := List.eq_append_cons_of_mem more
        have argLive : (0 : Octet) ∉ arg := fun member => live (List.mem_append_left _ member)
        have behindLive : (0 : Octet) ∉ behind := fun member =>
          live (List.mem_append_right _ (List.mem_cons_of_mem _ member))
        have whole : arg ++ comma :: behind ++ 0 :: rest =
            arg ++ comma :: (behind ++ 0 :: rest) := by simp
        have cut := poke_here (front ++ arg) comma 0 (behind ++ 0 :: rest)
        rw [List.length_append, List.append_assoc, List.append_assoc] at cut
        obtain ⟨next, changed, sized, stripped, holds⟩ :=
          strStrip_here front argLive (behind ++ 0 :: rest)
        have following : front.length + arg.length + 1 = (front ++ changed).length := by
          rw [List.length_append, sized]
          omega
        obtain ⟨changed', all, sized', looped, leads⟩ := ih (by omega) behindLive
          ((lead.append changed).concat holds) holds
        refine ⟨changed ++ changed', all, ?_, ?_, ?_⟩
        · rw [List.length_append, List.length_append, List.length_cons, sized, sized']
          omega
        · rw [whole, scan_found (Passes.absent absent argLive)]
          change ((poke (front ++ (arg ++ comma :: (behind ++ 0 :: rest)))
            (front.length + arg.length) 0).bind _) = _
          rw [cut, Option.bind_some, stripped]
          change tokenizeFrom rounds (front ++ (changed ++ (behind ++ 0 :: rest)))
            ((pointers (places ++ [place])).set (places.length + 1) (some next))
              (places.length + 1) (front.length + arg.length + 1) = _
          rw [← size, pointers_next less, ← List.append_assoc front, following, looped]
          simp
        · rw [splitFrom_found absent, List.map_cons, List.take_succ_cons, ← List.append_assoc]
          rw [List.append_assoc texts] at leads
          exact leads
      · obtain ⟨next, changed, sized, stripped, holds⟩ := strStrip_here front live rest
        refine ⟨changed, places ++ [place] ++ [next], sized, ?_, ?_⟩
        · rw [scan_absent (by decide) (Passes.absent more live)]
          change (strStrip (front ++ (text ++ 0 :: rest)) front.length).map _ = _
          rw [stripped]
          change some (_, (pointers (places ++ [place])).set (places.length + 1) (some next),
            places.length + 2) = _
          rw [← size, pointers_next less]
          simp
        · rw [splitFrom_absent more, List.nil_append, List.map_singleton,
            List.take_of_length_le (by simp)]
          exact (lead.append changed).concat holds

end Loop

section Tokens

theorem pointers_none : pointers [] = initTokens := rfl

theorem lead_texts {front : List Octet} {places : List Nat} {texts : List (List Octet)}
    (lead : Lead front places texts) (rest : List Octet) :
    (places.map some).map (fun token => token.map fun place => string ((front ++ rest).drop place)) =
      texts.map some := by
  induction lead with
  | nil => rfl
  | cons holds lead ih =>
      rw [List.map_cons, List.map_cons, List.map_cons, ih, Option.map_some, holds.string]

/-- What a caller reads after `tokenize`: the number of tokens, and what they point to. -/
def tokenized (buf : List Octet) (str : Nat) :
    Option (List Octet × (Nat × List (Option (List Octet)))) :=
  (tokenize buf str).map fun out =>
    (out.1, (out.2.2, out.2.1.map fun token => token.map fun place => string (out.1.drop place)))

theorem tokenized_entries {front buf rest : List Octet} {str : Nat} {places : List Nat}
    {texts : List (List Octet)} (lead : Lead front places texts)
    (out : tokenize buf str = some (front ++ rest, pointers places, places.length)) :
    tokenized buf str = some (front ++ rest, entries texts) := by
  have same : places.length = texts.length := lead.length_eq
  have nothing : (List.replicate (maxTokens - places.length) (none : Option Nat)).map
      (fun token => token.map fun place => string ((front ++ rest).drop place)) =
        List.replicate (maxTokens - texts.length) none := by
    rw [List.map_replicate, same]
    rfl
  rw [tokenized, out, Option.map_some, pointers, List.map_append, lead_texts lead, nothing, same]
  rfl

theorem tokensOf_tagged {tag : List Octet} (absent : equals ∉ tag) (text : List Octet) :
    tokensOf (tag ++ equals :: text) =
      [strip tag] ++ ((splitFrom comma [] text).map strip).take (maxTokens - 1) := by
  have others : ∀ octet ∈ tag, decide (octet ≠ equals) = true := by
    intro octet member
    rw [decide_eq_true_eq]
    rintro rfl
    exact absent member
  rw [tokensOf, if_pos (by simp), List.takeWhile_append_of_pos others,
    List.takeWhile_cons_of_neg (by simp), List.append_nil,
    List.dropWhile_append_of_pos others, List.dropWhile_cons_of_neg (by simp)]
  rfl

theorem tokensOf_few (record : List Octet) : (tokensOf record).length ≤ maxTokens := by
  unfold tokensOf
  split
  · exact List.length_take_le _ _
  · exact Nat.zero_le _

theorem entries_count (texts : List (List Octet)) :
    (entries texts).1 = (entries texts).2.countP Option.isSome := by
  rw [entries, List.countP_append, List.countP_replicate, List.countP_map]
  simp [Function.comp_def]

/-- The tokens of a record are its tag and its arguments; nothing behind the record is changed. -/
theorem tokenized_confined : Confined tokenized fun record => entries (tokensOf record) := by
  intro front record rest live
  by_cases tagged : equals ∈ record
  · obtain ⟨tag, text, rfl, absent⟩ := List.eq_append_cons_of_mem tagged
    have tagLive : (0 : Octet) ∉ tag := fun member => live (List.mem_append_left _ member)
    have textLive : (0 : Octet) ∉ text := fun member =>
      live (List.mem_append_right _ (List.mem_cons_of_mem _ member))
    have whole : tag ++ equals :: text ++ 0 :: rest = tag ++ equals :: (text ++ 0 :: rest) := by
      simp
    have cut := poke_here (front ++ tag) equals 0 (text ++ 0 :: rest)
    rw [List.length_append, List.append_assoc, List.append_assoc] at cut
    obtain ⟨place, changed, sized, stripped, holds⟩ :=
      strStrip_here front tagLive (text ++ 0 :: rest)
    have lead : Lead (front ++ changed) ([] ++ [place]) [strip tag] :=
      List.Forall₂.cons holds List.Forall₂.nil
    obtain ⟨changed', all, sized', looped, leads⟩ :=
      tokenizeFrom_arguments (maxTokens - 1) (by decide) textLive lead holds rest
    have again : strStrip (front ++ (changed ++ (text ++ 0 :: rest))) place =
        some (front ++ (changed ++ (text ++ 0 :: rest)), place) := by
      rw [← List.append_assoc]
      exact strStrip_again holds _
    have following : front.length + tag.length + 1 = (front ++ changed).length := by
      rw [List.length_append, sized]
      omega
    have out : tokenize (front ++ (tag ++ equals :: text ++ 0 :: rest)) front.length =
        some (front ++ changed ++ changed' ++ rest, pointers all, all.length) := by
      rw [tokenize, List.drop_left, whole, scan_found (Passes.absent absent tagLive)]
      change ((poke (front ++ (tag ++ equals :: (text ++ 0 :: rest)))
        (front.length + tag.length) 0).bind _) = _
      rw [cut, Option.bind_some]
      have first := tokenizeFrom_stripped (maxTokens - 2) []
        (front.length + tag.length + 1) stripped again
      refine first.trans ?_
      rw [following, ← List.append_assoc front]
      refine looped.trans ?_
      rw [List.append_assoc (front ++ changed)]
    refine ⟨changed ++ changed', ?_, ?_⟩
    · rw [List.length_append, List.length_append, List.length_cons, sized, sized']
      omega
    · change _ = some (_, entries (tokensOf (tag ++ equals :: text)))
      have joinedIs : front ++ changed ++ changed' ++ rest =
          front ++ (changed ++ changed' ++ rest) := by simp
      rw [tokenized_entries leads out, tokensOf_tagged absent, joinedIs]
  · refine ⟨record ++ [0], by simp, ?_⟩
    have out : tokenize (front ++ (record ++ 0 :: rest)) front.length =
        some ([] ++ (front ++ (record ++ 0 :: rest)), pointers [], ([] : List Nat).length) := by
      rw [tokenize, List.drop_left, scan_absent (by decide) (Passes.absent tagged live)]
      rfl
    have none : tokensOf record = [] := if_neg (mt List.contains_iff_mem.mp tagged)
    change _ = some (_, entries (tokensOf record))
    rw [tokenized_entries List.Forall₂.nil out, none]
    simp

end Tokens

section Callers

/-- A caller reads the record. -/
def reads (buf : List Octet) (key : Nat) : Option (List Octet × List Octet) :=
  some (buf, string (buf.drop key))

theorem reads_confined : Confined reads id := by
  intro front record rest live
  refine ⟨record ++ [0], by simp, ?_⟩
  rw [reads, List.drop_left, string_of live]
  simp

/-- What `readConfSection` is for, with what `stops` a record: no buffer where the section has no
record, else a buffer that gives all of them, and the tokens of all of them. -/
def Delivers (stops : Octet → Bool) (fresh : Nat → Octet) (file name : List Octet) : Prop :=
  ∃ out, readConfSection fresh file name = some out ∧
    (out = none ↔ sectionOf name (records stops (lines file)) = []) ∧
    ∀ buf, out = some buf →
      walk reads buf.length buf 0 = some (sectionOf name (records stops (lines file))) ∧
      walk tokenized buf.length buf 0 =
        some ((sectionOf name (records stops (lines file))).map fun record =>
          entries (tokensOf record))

theorem lines_live {file : List Octet} (live : (0 : Octet) ∉ file) :
    ∀ line ∈ lines file, (0 : Octet) ∉ line :=
  fun line member zero => live (splitFrom_members line member 0 zero)

theorem section_full {file : List Octet} (live : (0 : Octet) ∉ file) (name : List Octet) :
    ∀ record ∈ sectionOf name (records ends (lines file)),
      record ≠ [] ∧ (0 : Octet) ∉ record := by
  intro record member
  have inside : record ∈ records ends (lines file) :=
    (((List.takeWhile_prefix _).sublist.trans (List.drop_sublist 1 _)).trans
      (List.dropWhile_suffix _).sublist).subset member
  obtain ⟨made, some⟩ := List.mem_filter.mp inside
  obtain ⟨line, ofFile, rfl⟩ := List.mem_map.mp made
  refine ⟨by simpa using some, fun zero => lines_live live line ofFile ?_⟩
  exact ((List.takeWhile_prefix _).sublist.trans (List.dropWhile_suffix _).sublist).subset zero

theorem bufOf_none {all : List (List Octet)} : bufOf all = none ↔ all = [] := by
  unfold bufOf
  split <;> simp_all

theorem bufOf_held (all : List (List Octet)) (some : all ≠ []) :
    bufOf all = Option.some (layout all) := if_neg some

theorem bufOf_walk {Out : Type} {visit : List Octet → Nat → Option (List Octet × Out)}
    {result : List Octet → Out} (confined : Confined visit result) {all : List (List Octet)}
    (full : ∀ record ∈ all, record ≠ [] ∧ (0 : Octet) ∉ record) {buf : List Octet}
    (held : bufOf all = some buf) : walk visit buf.length buf 0 = some (all.map result) := by
  unfold bufOf at held
  split at held
  · exact absurd held (by simp)
  · cases held
    exact walk_layout confined full [] (Nat.le_refl _)

/-- A section is read whole, record by record, each without its leading blanks and up to a comment or
a carriage return. -/
theorem conf_section (fresh : Nat → Octet) (file name : List Octet) (live : (0 : Octet) ∉ file)
    (fit : ∀ line ∈ lines file, line.length < maxCfgline) :
    Delivers ends fresh file name ∧
      Confined tokenized (fun record => entries (tokensOf record)) ∧
      ∀ record, (tokensOf record).length ≤ maxTokens ∧
        (entries (tokensOf record)).1 = (entries (tokensOf record)).2.countP Option.isSome := by
  refine ⟨⟨_, readConfSection_records fresh name live fit, bufOf_none, fun buf held => ⟨?_, ?_⟩⟩,
    tokenized_confined, fun record => ⟨tokensOf_few record, entries_count _⟩⟩
  · rw [bufOf_walk reads_confined (section_full live name) held, List.map_id]
  · exact bufOf_walk tokenized_confined (section_full live name) held

/-- A file with carriage returns at its line ends, a comment and an empty argument. -/
theorem conf_section_small :
    Delivers ends (fun _ => 0xFF)
        [0x5B, 0x73, 0x5D, 0x0D, 0x0A, 0x20, 0x61, 0x3D, 0x31, 0x2C, 0x20, 0x23, 0x78, 0x0A] [0x73] ∧
      Confined tokenized (fun record => entries (tokensOf record)) ∧
      ∀ record, (tokensOf record).length ≤ maxTokens ∧
        (entries (tokensOf record)).1 = (entries (tokensOf record)).2.countP Option.isSome :=
  conf_section _ _ _ (by decide) (by decide)

/-- A section `s` with one line, with a carriage return in its middle. -/
def returned : List Octet := [0x5B, 0x73, 0x5D, 0x0A, 0x61, 0x3D, 0x31, 0x0D, 0x62, 0x0A]

/-- What is behind a carriage return in a line is no part of its record. -/
theorem conf_section_return : ¬Delivers comment (fun _ => 0) returned [0x73] := by
  have live : (0 : Octet) ∉ returned := by decide
  have held := bufOf_held (sectionOf [0x73] (records ends (lines returned))) (by decide)
  rintro ⟨out, given, -, walked⟩
  rw [readConfSection_records _ _ live (by decide)] at given
  cases given
  obtain ⟨told, -⟩ := walked _ held
  rw [bufOf_walk reads_confined (section_full live _) held] at told
  exact absurd told (by decide)

end Callers

end Wanpipe.Wanconfig.ConfSection
