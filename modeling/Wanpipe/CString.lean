import Mathlib.Data.List.Induction
import Mathlib.Data.List.TakeWhile
import Mathlib.Tactic.Common

/-! Strings that end at a zero, in a buffer: how they are searched and how blanks around them are
overwritten. A search or a loop that runs off the buffer has no result. -/

namespace Wanpipe.CString

variable {Item : Type} [Zero Item]

/-- None of these ends a search for the item. -/
def Passes (item : Item) (items : List Item) : Prop := ∀ other ∈ items, other ≠ item ∧ other ≠ 0

theorem Passes.nil (item : Item) : Passes item [] := fun _ member => absurd member List.not_mem_nil

theorem Passes.cons {item first : Item} {rest : List Item} (other : first ≠ item)
    (live : first ≠ 0) (passes : Passes item rest) : Passes item (first :: rest) := by
  intro another member
  rcases List.mem_cons.mp member with same | later
  · rw [same]
    exact ⟨other, live⟩
  · exact passes another later

theorem Passes.append {item : Item} {left right : List Item} (first : Passes item left)
    (second : Passes item right) : Passes item (left ++ right) := by
  intro other member
  rcases List.mem_append.mp member with before | behind
  · exact first other before
  · exact second other behind

theorem Passes.absent {item : Item} {items : List Item} (absent : item ∉ items)
    (live : (0 : Item) ∉ items) : Passes item items := by
  intro other member
  refine ⟨?_, ?_⟩
  · rintro rfl
    exact absent member
  · rintro rfl
    exact live member

section Search

variable [DecidableEq Item]

/-- The string at the start of a buffer. -/
def string (buf : List Item) : List Item := buf.takeWhile fun item => item ≠ 0

/-- `strchr`, from where `index` says: the index of the item, if it comes before the end of the
string. -/
def scan (item : Item) : List Item → Nat → Option (Option Nat)
  | [], _ => none
  | first :: rest, index =>
      if first = item then some (some index)
      else if first = 0 then some none
      else scan item rest (index + 1)

theorem scan_passes {item : Item} {items : List Item} (passes : Passes item items)
    (rest : List Item) (index : Nat) :
    scan item (items ++ rest) index = scan item rest (index + items.length) := by
  induction items generalizing index with
  | nil => rfl
  | cons first items ih =>
      obtain ⟨other, live⟩ := passes first List.mem_cons_self
      rw [List.cons_append, scan, if_neg other, if_neg live,
        ih fun another member => passes another (List.mem_cons_of_mem first member),
        List.length_cons]
      congr 1
      omega

theorem scan_here (item : Item) (rest : List Item) (index : Nat) :
    scan item (item :: rest) index = some (some index) := if_pos rfl

theorem scan_found {item : Item} {items : List Item} (passes : Passes item items)
    (rest : List Item) (index : Nat) :
    scan item (items ++ item :: rest) index = some (some (index + items.length)) := by
  rw [scan_passes passes, scan_here]

theorem scan_absent {item : Item} (live : item ≠ 0) {items : List Item}
    (passes : Passes item items) (rest : List Item) (index : Nat) :
    scan item (items ++ 0 :: rest) index = some none := by
  rw [scan_passes passes, scan, if_neg live.symm, if_pos rfl]

/-- A buffer with a string is cut where a search ends: at the item, or at the end of the string. -/
theorem scan_split (item : Item) {buf : List Item} (ends : (0 : Item) ∈ buf) :
    ∃ items rest, Passes item items ∧
      (buf = items ++ item :: rest ∨ item ≠ 0 ∧ buf = items ++ 0 :: rest) := by
  induction buf with
  | nil => exact absurd ends List.not_mem_nil
  | cons first buf ih =>
      by_cases here : first = item
      · exact ⟨[], buf, Passes.nil item, Or.inl (by rw [here]; rfl)⟩
      · by_cases stop : first = 0
        · exact ⟨[], buf, Passes.nil item,
            Or.inr ⟨fun zero => here (stop.trans zero.symm), by rw [stop]; rfl⟩⟩
        · have later : (0 : Item) ∈ buf := by
            rcases List.mem_cons.mp ends with same | later
            · exact absurd same.symm stop
            · exact later
          obtain ⟨items, rest, passes, cut⟩ := ih later
          refine ⟨first :: items, rest, passes.cons here stop, ?_⟩
          rcases cut with found | ⟨live, absent⟩
          · exact Or.inl (by rw [found]; rfl)
          · exact Or.inr ⟨live, by rw [absent]; rfl⟩

theorem string_live {items : List Item} (live : (0 : Item) ∉ items) : string items = items := by
  rw [string, List.takeWhile_eq_self_iff]
  intro item member
  rw [decide_eq_true_eq]
  rintro rfl
  exact live member

theorem string_of {items : List Item} (live : (0 : Item) ∉ items) (rest : List Item) :
    string (items ++ 0 :: rest) = items := by
  have all : ∀ item ∈ items, (decide (item ≠ 0)) = true := by
    intro item member
    rw [decide_eq_true_eq]
    rintro rfl
    exact live member
  rw [string, List.takeWhile_append_of_pos all, List.takeWhile_cons_of_neg (by simp),
    List.append_nil]

end Search

section Blanks

variable (blank : Item → Bool)

/-- Blanks from an index on are overwritten by zeros, but not the one where the loop is to stop. -/
def skip (stop : Option Nat) : List Item → Nat → Option (List Item × Nat)
  | [], _ => none
  | first :: rest, index =>
      if blank first = true ∧ some index ≠ stop then
        (skip stop rest (index + 1)).map fun out => (0 :: out.1, out.2)
      else some (first :: rest, index)

/-- Blanks from an index down are overwritten by zeros, down to where the loop is to stop. -/
def trim (stop : Nat) (buf : List Item) : Nat → Option (List Item)
  | 0 =>
      buf[0]?.bind fun item => if blank item = true ∧ 0 ≠ stop then none else some buf
  | index + 1 =>
      buf[index + 1]?.bind fun item =>
        if blank item = true ∧ index + 1 ≠ stop then trim stop (buf.set (index + 1) 0) index
        else some buf

variable {blank}

theorem skip_blanks {stop : Option Nat} {blanks : List Item}
    (all : ∀ item ∈ blanks, blank item = true) (first : Item) (rest : List Item) (index : Nat)
    (inside : ∀ offset < blanks.length, some (index + offset) ≠ stop)
    (ends : blank first = false ∨ stop = some (index + blanks.length)) :
    skip blank stop (blanks ++ first :: rest) index =
      some (List.replicate blanks.length 0 ++ first :: rest, index + blanks.length) := by
  induction blanks generalizing index with
  | nil =>
      apply if_neg
      rintro ⟨isBlank, other⟩
      rcases ends with solid | here
      · rw [solid] at isBlank
        exact absurd isBlank (by simp)
      · exact other here.symm
  | cons next blanks ih =>
      have move : index + 1 + blanks.length = index + (next :: blanks).length := by
        rw [List.length_cons]
        omega
      have later := ih (fun item member => all item (List.mem_cons_of_mem _ member)) (index + 1)
        (fun offset less => by
          have far := inside (offset + 1) (by rw [List.length_cons]; omega)
          rwa [show index + (offset + 1) = index + 1 + offset by omega] at far)
        (by rwa [move])
      rw [List.cons_append, skip, if_pos ⟨all _ List.mem_cons_self, inside 0 (by simp)⟩, later, move]
      rfl

/-- The loop over blanks ends where the string ends, if not before. -/
theorem skip_within (zero : blank 0 = false) (stop : Option Nat) (items rest : List Item)
    (index : Nat) :
    ∃ count ≤ items.length, skip blank stop (items ++ 0 :: rest) index =
      some (List.replicate count 0 ++ (items.drop count ++ 0 :: rest), index + count) := by
  induction items generalizing index with
  | nil =>
      refine ⟨0, Nat.le_refl 0, if_neg ?_⟩
      rintro ⟨isBlank, -⟩
      rw [zero] at isBlank
      exact absurd isBlank (by simp)
  | cons first items ih =>
      by_cases more : blank first = true ∧ some index ≠ stop
      · obtain ⟨count, inside, skipped⟩ := ih (index + 1)
        refine ⟨count + 1, Nat.succ_le_succ inside, ?_⟩
        rw [List.cons_append, skip, if_pos more, skipped, List.replicate_succ,
          show index + (count + 1) = index + 1 + count by omega]
        rfl
      · exact ⟨0, Nat.zero_le _, if_neg more⟩

/-- The loop over blanks ends in a buffer with a string. -/
theorem skip_ends (zero : blank 0 = false) {stop : Option Nat} {buf : List Item}
    (ends : (0 : Item) ∈ buf) (index : Nat) :
    ∃ count rest, skip blank stop buf index =
        some (List.replicate count 0 ++ rest, index + count) ∧
      count + rest.length = buf.length ∧ rest = buf.drop count ∧ (0 : Item) ∈ rest := by
  obtain ⟨items, rest, rfl⟩ := List.append_of_mem ends
  obtain ⟨count, inside, skipped⟩ := skip_within zero stop items rest index
  refine ⟨count, items.drop count ++ 0 :: rest, skipped, ?_, ?_, by simp⟩
  · rw [List.length_append, List.length_drop, List.length_append]
    omega
  · rw [List.drop_append_of_le_length inside]

theorem trim_stops {stop index : Nat} {buf : List Item} {item : Item}
    (here : buf[index]? = some item) (ends : blank item = false ∨ index = stop) :
    trim blank stop buf index = some buf := by
  have no : ¬(blank item = true ∧ index ≠ stop) := by
    rintro ⟨isBlank, other⟩
    rcases ends with solid | same
    · rw [solid] at isBlank
      exact absurd isBlank (by simp)
    · exact other same
  cases index with
  | zero =>
      rw [trim, here]
      exact if_neg no
  | succ index =>
      rw [trim, here]
      exact if_neg no

theorem trim_blanks {stop : Nat} {front blanks rest : List Item} {last : Item}
    (all : ∀ item ∈ blanks, blank item = true)
    (ends : blank last = false ∨ front.length = stop) (above : stop ≤ front.length) :
    trim blank stop (front ++ last :: (blanks ++ rest)) (front.length + blanks.length) =
      some (front ++ last :: (List.replicate blanks.length 0 ++ rest)) := by
  induction blanks using List.reverseRecOn generalizing rest with
  | nil => exact trim_stops (by simp) ends
  | append_singleton blanks final ih =>
      have here : (front ++ last :: (blanks ++ [final] ++ rest))[front.length + blanks.length + 1]? =
          some final := by
        rw [List.getElem?_append_right (by omega),
          show front.length + blanks.length + 1 - front.length = blanks.length + 1 by omega]
        simp
      have zeroed : (front ++ last :: (blanks ++ [final] ++ rest)).set
          (front.length + blanks.length + 1) 0 = front ++ last :: (blanks ++ 0 :: rest) := by
        rw [List.set_append_right _ _ (by omega),
          show front.length + blanks.length + 1 - front.length = blanks.length + 1 by omega,
          List.set_cons_succ, List.append_assoc, List.set_append_right _ _ (by omega), Nat.sub_self]
        rfl
      rw [List.length_append, List.length_singleton, ← Nat.add_assoc, trim, here]
      change (if _ then _ else _) = _
      rw [if_pos ⟨all final (by simp), by omega⟩, zeroed,
        ih fun item member => all item (List.mem_append_left _ member), List.replicate_succ',
        List.append_assoc]
      rfl

/-- The loop over blanks from behind ends, as it stops inside of the buffer. -/
theorem trim_ends {stop index : Nat} {buf : List Item} (inside : index < buf.length)
    (above : stop ≤ index) :
    ∃ next, trim blank stop buf index = some next ∧ next.length = buf.length ∧
      ∀ i, index < i → next[i]? = buf[i]? := by
  induction index generalizing buf with
  | zero => exact ⟨buf, trim_stops (List.getElem?_eq_getElem inside) (Or.inr (by omega)), rfl,
      fun _ _ => rfl⟩
  | succ index ih =>
      by_cases more : blank buf[index + 1] = true ∧ index + 1 ≠ stop
      · have less : index < (buf.set (index + 1) 0).length := by
          rw [List.length_set]
          omega
        obtain ⟨next, trimmed, sized, kept⟩ := ih less (by omega)
        refine ⟨next, ?_, ?_, fun i later => ?_⟩
        · rw [trim, List.getElem?_eq_getElem inside]
          exact (if_pos more).trans trimmed
        · rw [sized, List.length_set]
        · rw [kept i (by omega), List.getElem?_set_ne (by omega)]
      · refine ⟨buf, ?_, rfl, fun _ _ => rfl⟩
        rw [trim, List.getElem?_eq_getElem inside]
        exact if_neg more

end Blanks

section Pieces

variable {Entry : Type} [DecidableEq Entry]

/-- The pieces of a list between the places of an item; `piece` is what has been read of the first. -/
def splitFrom (item : Entry) (piece : List Entry) : List Entry → List (List Entry)
  | [] => [piece]
  | first :: rest =>
      if first = item then piece :: splitFrom item [] rest
      else splitFrom item (piece ++ [first]) rest

theorem splitFrom_passes {item : Entry} {items : List Entry} (absent : item ∉ items)
    (piece rest : List Entry) :
    splitFrom item piece (items ++ rest) = splitFrom item (piece ++ items) rest := by
  induction items generalizing piece with
  | nil => rw [List.nil_append, List.append_nil]
  | cons first items ih =>
      rw [List.mem_cons, not_or] at absent
      obtain ⟨other, absent⟩ := absent
      rw [List.cons_append, splitFrom, if_neg (Ne.symm other), ih absent, List.append_assoc]
      rfl

theorem splitFrom_found {item : Entry} {items : List Entry} (absent : item ∉ items)
    (piece rest : List Entry) :
    splitFrom item piece (items ++ item :: rest) = (piece ++ items) :: splitFrom item [] rest := by
  rw [splitFrom_passes absent, splitFrom, if_pos rfl]

theorem splitFrom_absent {item : Entry} {items : List Entry} (absent : item ∉ items)
    (piece : List Entry) : splitFrom item piece items = [piece ++ items] := by
  have passed := splitFrom_passes absent piece []
  rwa [List.append_nil] at passed

theorem splitFrom_head (item : Entry) (piece items : List Entry) :
    ∃ line rest, splitFrom item piece items = (piece ++ line) :: rest := by
  induction items generalizing piece with
  | nil => exact ⟨[], [], by rw [splitFrom, List.append_nil]⟩
  | cons first items ih =>
      rw [splitFrom]
      split
      · exact ⟨[], _, by rw [List.append_nil]⟩
      · obtain ⟨line, rest, split⟩ := ih (piece ++ [first])
        exact ⟨first :: line, rest, by rw [split, List.append_assoc]; rfl⟩

theorem splitFrom_members {item : Entry} {piece items : List Entry} :
    ∀ line ∈ splitFrom item piece items, ∀ entry ∈ line, entry ∈ piece ++ items := by
  induction items generalizing piece with
  | nil =>
      intro line member entry inside
      rw [splitFrom, List.mem_singleton] at member
      rw [member] at inside
      exact List.mem_append_left _ inside
  | cons first items ih =>
      intro line member entry inside
      rw [splitFrom] at member
      split at member
      · rcases List.mem_cons.mp member with rfl | later
        · exact List.mem_append_left _ inside
        · exact List.mem_append_right _ (List.mem_cons_of_mem _ (ih line later entry inside))
      · have found := ih line member entry inside
        rwa [List.append_assoc] at found

theorem splitFrom_concat (item : Entry) (piece items : List Entry) {done : List (List Entry)}
    {last : List Entry} (split : splitFrom item piece items = done ++ [last]) (next : Entry) :
    splitFrom item piece (items ++ [next]) =
      if next = item then done ++ [last] ++ [[]] else done ++ [last ++ [next]] := by
  induction items generalizing piece done with
  | nil =>
      rw [splitFrom, ← List.nil_append [piece]] at split
      obtain ⟨rfl, same⟩ := List.append_inj' split rfl
      cases same
      rfl
  | cons first items ih =>
      rw [splitFrom] at split
      rw [List.cons_append, splitFrom]
      by_cases here : first = item
      · rw [if_pos here] at split ⊢
        obtain ⟨line, rest, later⟩ := splitFrom_head item [] items
        cases done with
        | nil =>
            rw [later] at split
            exact absurd (congrArg List.length split) (by simp)
        | cons head done =>
            rw [List.cons_append] at split
            obtain ⟨rfl, same⟩ := List.cons.inj split
            rw [ih [] same]
            split <;> rfl
      · rw [if_neg here] at split ⊢
        exact ih _ split

theorem splitFrom_lengths {item : Entry} {piece items : List Entry} :
    ∀ line ∈ splitFrom item piece items, line.length ≤ piece.length + items.length := by
  induction items generalizing piece with
  | nil =>
      intro line member
      rw [splitFrom, List.mem_singleton] at member
      rw [member]
      exact Nat.le_add_right _ _
  | cons first items ih =>
      intro line member
      rw [splitFrom] at member
      split at member
      · rcases List.mem_cons.mp member with rfl | later
        · exact Nat.le_add_right _ _
        · have short := ih line later
          rw [List.length_nil] at short
          rw [List.length_cons]
          omega
      · have short := ih line member
        rw [List.length_append, List.length_singleton] at short
        rw [List.length_cons]
        omega

end Pieces

section Find

variable {Entry : Type} [DecidableEq Entry]

/-- `strchr`: what is in front of the first such entry of a string, and what is behind it. -/
def strchr (entry : Entry) : List Entry → Option (List Entry × List Entry)
  | [] => none
  | first :: rest =>
      if first = entry then some ([], rest)
      else (strchr entry rest).map fun parts => (first :: parts.1, parts.2)

theorem strchr_absent {entry : Entry} {text : List Entry} (absent : entry ∉ text) :
    strchr entry text = none := by
  induction text with
  | nil => rfl
  | cons first text ih =>
      have other : first ≠ entry := fun same => absent (by rw [same]; exact List.mem_cons_self)
      rw [strchr, if_neg other, ih fun member => absent (List.mem_cons_of_mem first member)]
      rfl

theorem strchr_found {entry : Entry} {front : List Entry} (absent : entry ∉ front)
    (rest : List Entry) : strchr entry (front ++ entry :: rest) = some (front, rest) := by
  induction front with
  | nil => exact if_pos rfl
  | cons first front ih =>
      have other : first ≠ entry := fun same => absent (by rw [same]; exact List.mem_cons_self)
      rw [List.cons_append, strchr, if_neg other,
        ih fun member => absent (List.mem_cons_of_mem first member)]
      rfl

/-- `strstr`: where a string starts in another for the first time. -/
def strstr (needle : List Entry) : List Entry → Option Nat
  | [] => if needle = [] then some 0 else none
  | first :: rest =>
      if (first :: rest).take needle.length = needle then some 0
      else (strstr needle rest).map (· + 1)

variable {needle : List Entry}

theorem strstr_here (needle rest : List Entry) : strstr needle (needle ++ rest) = some 0 := by
  cases same : needle ++ rest with
  | nil => exact if_pos (List.append_eq_nil_iff.mp same).1
  | cons first behind =>
      rw [strstr, if_pos]
      rw [← same]
      exact List.take_left

theorem strstr_inside {text : List Entry} {place : Nat} (found : strstr needle text = some place) :
    place + needle.length ≤ text.length := by
  induction text generalizing place with
  | nil =>
      rw [strstr] at found
      split at found
      · next none =>
          cases found
          rw [none]
          exact Nat.le_refl 0
      · cases found
  | cons first rest ih =>
      rw [strstr] at found
      split at found
      · next here =>
          cases found
          calc
            0 + needle.length = ((first :: rest).take needle.length).length := by
              rw [here, Nat.zero_add]
            _ ≤ (first :: rest).length := List.length_take_le' _ _
      · obtain ⟨later, behind, rfl⟩ := Option.map_eq_some_iff.mp found
        have inside := ih behind
        rw [List.length_cons]
        omega

/-- What comes behind does not move the first occurrence. -/
theorem strstr_append {left : List Entry} {place : Nat} (found : strstr needle left = some place)
    (right : List Entry) : strstr needle (left ++ right) = some place := by
  induction left generalizing place with
  | nil =>
      rw [strstr] at found
      split at found
      · next none =>
          cases found
          rw [none]
          exact strstr_here [] right
      · cases found
  | cons first rest ih =>
      have inside := strstr_inside found
      have same : (first :: (rest ++ right)).take needle.length =
          (first :: rest).take needle.length := by
        rw [← List.cons_append]
        exact List.take_append_of_le_length (by omega)
      rw [strstr] at found
      rw [List.cons_append, strstr, same]
      split at found
      · next here => rw [if_pos here, found]
      · next other =>
          obtain ⟨later, behind, rfl⟩ := Option.map_eq_some_iff.mp found
          rw [if_neg other, ih behind]
          rfl

/-- No occurrence starts where its first entry is missing. -/
theorem strstr_other {first : Entry} {front : List Entry} (absent : first ∉ front)
    (rest : List Entry) :
    strstr (first :: needle) (front ++ rest) =
      (strstr (first :: needle) rest).map (· + front.length) := by
  induction front with
  | nil => exact Option.map_id'.symm
  | cons other front ih =>
      have apart : (other :: (front ++ rest)).take (first :: needle).length ≠ first :: needle := by
        intro same
        rw [List.length_cons, List.take_succ_cons] at same
        exact absent (by rw [(List.cons.inj same).1]; exact List.mem_cons_self)
      rw [List.cons_append, strstr, if_neg apart,
        ih fun member => absent (List.mem_cons_of_mem other member), Option.map_map]
      rfl

end Find

section Memory

variable {Entry : Type}

/-- A write to one place of a buffer. -/
def poke (buf : List Entry) (place : Nat) (item : Entry) : Option (List Entry) :=
  if place < buf.length then some (buf.set place item) else none

theorem poke_here (front : List Entry) (old item : Entry) (rest : List Entry) :
    poke (front ++ old :: rest) front.length item = some (front ++ item :: rest) := by
  rw [poke, if_pos (by simp), List.set_append_right _ _ (Nat.le_refl _), Nat.sub_self]
  rfl

variable [DecidableEq Item]

/-- The length of the string at a place, if it ends in the buffer. -/
def strlen (buf : List Item) (place : Nat) : Option Nat :=
  if (0 : Item) ∈ buf.drop place then some (string (buf.drop place)).length else none

theorem strlen_here (front : List Item) {text : List Item} (live : (0 : Item) ∉ text)
    (rest : List Item) : strlen (front ++ (text ++ 0 :: rest)) front.length = some text.length := by
  rw [strlen, List.drop_left, if_pos (by simp), string_of live]

end Memory

section Records

variable [DecidableEq Item] {Out : Type}

/-- Strings one after the other, with an empty one behind them. -/
def layout : List (List Item) → List Item
  | [] => [0]
  | record :: records => record ++ 0 :: layout records

/-- A loop over strings that stand one after the other, up to an empty one; at each of them something
is done in the buffer. -/
def walk (visit : List Item → Nat → Option (List Item × Out)) (size : Nat) (buf : List Item)
    (key : Nat) : Option (List Out) :=
  if key < size then
    buf[key]?.bind fun first =>
      if first = 0 then some []
      else
        (strlen buf key).bind fun len =>
          (visit buf key).bind fun out =>
            (walk visit size out.1 (key + (len + 1))).map fun outs => out.2 :: outs
  else none
termination_by size - key

/-- What is done at a string stays within the string and its end. -/
def Confined (visit : List Item → Nat → Option (List Item × Out)) (result : List Item → Out) :
    Prop :=
  ∀ front record rest : List Item, (0 : Item) ∉ record →
    ∃ changed, changed.length = record.length + 1 ∧
      visit (front ++ (record ++ 0 :: rest)) front.length =
        some (front ++ (changed ++ rest), result record)

variable {visit : List Item → Nat → Option (List Item × Out)} {result : List Item → Out}

theorem walk_layout (confined : Confined visit result) {records : List (List Item)}
    (full : ∀ record ∈ records, record ≠ [] ∧ (0 : Item) ∉ record) (front : List Item)
    {size : Nat} (fits : (front ++ layout records).length ≤ size) :
    walk visit size (front ++ layout records) front.length = some (records.map result) := by
  induction records generalizing front with
  | nil =>
      rw [walk, if_pos (by rw [List.length_append] at fits; simp [layout] at fits; omega),
        layout, List.getElem?_append_right (Nat.le_refl _), Nat.sub_self]
      exact if_pos rfl
  | cons record records ih =>
      obtain ⟨some, live⟩ := full record List.mem_cons_self
      obtain ⟨first, record, rfl⟩ := List.exists_cons_of_ne_nil some
      obtain ⟨changed, sized, visited⟩ := confined front (first :: record) (layout records) live
      have alive : first ≠ 0 := fun zero => live (by rw [zero]; exact List.mem_cons_self)
      have lengths : (front ++ changed).length = front.length + ((first :: record).length + 1) := by
        rw [List.length_append, sized]
      have room : (front ++ changed ++ layout records).length ≤ size := by
        rw [layout] at fits
        simp at fits lengths ⊢
        omega
      have later := ih (fun other member => full other (List.mem_cons_of_mem _ member))
        (front ++ changed) room
      rw [lengths, List.append_assoc] at later
      rw [walk, if_pos (by rw [layout] at fits; simp at fits; omega), layout,
        List.getElem?_append_right (Nat.le_refl _), Nat.sub_self]
      change (if _ then _ else _) = _
      rw [if_neg alive, strlen_here _ live, visited]
      change (walk visit size (front ++ (changed ++ layout records))
        (front.length + ((first :: record).length + 1))).map _ = _
      rw [later]
      rfl

end Records

end Wanpipe.CString
