import Wanpipe.Wanconfig.ActiveChannels

/-! When `parseActiveChannel` gives the union of the well-formed items. -/

namespace Wanpipe.Wanconfig.ActiveChannels

open Line

section Bits

theorem bit_spec {place : Int} {mask : BitVec 32} (shifted : bit place = some mask) :
    0 ≤ place ∧ place < 32 ∧ ∀ i : Nat, mask.getLsbD i = true ↔ (i : Int) = place := by
  unfold bit at shifted
  split at shifted
  · rename_i inside
    obtain ⟨low, high⟩ := inside
    refine ⟨low, high, fun i => ?_⟩
    cases shifted
    rw [BitVec.getLsbD_shiftLeft]
    change (decide (i < 32) && !decide (i < place.toNat) &&
      (1#32).getLsbD (i - place.toNat)) = true ↔ _
    rw [BitVec.getLsbD_one]
    simp
    omega
  · exact absurd shifted (by simp)

theorem bit_inside {place : Int} (low : 0 ≤ place) (high : place < 32) :
    ∃ mask, bit place = some mask := ⟨_, if_pos ⟨low, high⟩⟩

theorem rangeFrom_spec {count : Nat} {i : Int} {tmp word : BitVec 32}
    (ranged : rangeFrom count i tmp = some word) :
    (count = 0 ∨ 1 ≤ i ∧ i + count ≤ 33) ∧
      ∀ place : Nat, word.getLsbD place = true ↔
        tmp.getLsbD place = true ∨ i ≤ (place : Int) + 1 ∧ (place : Int) + 1 < i + count := by
  induction count generalizing i tmp with
  | zero =>
      cases ranged
      refine ⟨Or.inl rfl, fun place => ?_⟩
      constructor
      · exact Or.inl
      · rintro (set | outside)
        · exact set
        · omega
  | succ count ih =>
      obtain ⟨mask, shifted, later⟩ := Option.bind_eq_some_iff.mp ranged
      obtain ⟨low, high, bits⟩ := bit_spec shifted
      obtain ⟨room, rest⟩ := ih later
      refine ⟨Or.inr ⟨by omega, by omega⟩, fun place => ?_⟩
      rw [rest, BitVec.getLsbD_or, Bool.or_eq_true, bits]
      constructor
      · rintro ((set | here) | behind)
        · exact Or.inl set
        · exact Or.inr (by omega)
        · exact Or.inr (by omega)
      · rintro (set | inside)
        · exact Or.inl (Or.inl set)
        · by_cases here : (place : Int) = i - 1
          · exact Or.inl (Or.inr here)
          · exact Or.inr (by omega)

theorem rangeFrom_inside {count : Nat} {i : Int} (tmp : BitVec 32)
    (inside : count = 0 ∨ 1 ≤ i ∧ i + count ≤ 33) : ∃ word, rangeFrom count i tmp = some word := by
  induction count generalizing i tmp with
  | zero => exact ⟨tmp, rfl⟩
  | succ count ih =>
      obtain ⟨mask, shifted⟩ : ∃ mask, bit (i - 1) = some mask :=
        bit_inside (by omega) (by omega)
      obtain ⟨word, ranged⟩ := ih (i := i + 1) (tmp ||| mask) (by omega)
      refine ⟨word, ?_⟩
      rw [rangeFrom, shifted]
      exact ranged

end Bits

section Numbers

theorem lastNumber_skip (text : List Octet) {octet : Octet} (other : isdigit octet = false) :
    lastNumber (text ++ [octet]) = lastNumber text := by
  rw [lastNumber, List.rdropWhile_concat_pos _ _ _ (by simp [other])]
  rfl

/-- A text that does not end in a number. -/
def Cut (text : List Octet) : Prop := ∀ octet ∈ text.getLast?, isdigit octet = false

theorem cut_nil : Cut [] := fun _ member => absurd member (by simp)

theorem cut_concat (text : List Octet) {octet : Octet} (other : isdigit octet = false) :
    Cut (text ++ [octet]) := by
  intro last member
  rw [List.getLast?_concat, Option.mem_some_iff] at member
  rwa [← member]

theorem rtakeWhile_digits {text digits : List Octet} (cut : Cut text)
    (spelled : ∀ digit ∈ digits, isdigit digit = true) :
    (text ++ digits).rtakeWhile isdigit = digits := by
  induction digits using List.reverseRecOn with
  | nil =>
      rw [List.append_nil, List.rtakeWhile_eq_nil_iff]
      intro some last
      rw [cut _ (List.getLast_mem_getLast? some)] at last
      exact absurd last (by simp)
  | append_singleton digits digit ih =>
      rw [← List.append_assoc, List.rtakeWhile_concat_pos _ _ _ (spelled digit (by simp)),
        ih fun other member => spelled other (List.mem_append_left _ member)]

theorem Digits.ends {digits : List Octet} (spelled : Digits digits) :
    ∃ front digit, digits = front ++ [digit] ∧ isdigit digit = true := by
  obtain ⟨some, every⟩ := spelled
  obtain ⟨front, digit, rfl⟩ := (List.eq_nil_or_concat' digits).resolve_left some
  exact ⟨front, digit, rfl, every digit (by simp)⟩

theorem Digits.noDash {digits : List Octet} (spelled : Digits digits) : dash ∉ digits := by
  intro member
  exact absurd (spelled.2 dash member) (by decide)

theorem upToDash_digits (text : List Octet) {digits : List Octet} (spelled : Digits digits) :
    (text ++ digits).rdropWhile (fun octet => octet != dash) =
      text.rdropWhile fun octet => octet != dash := by
  rw [List.rdropWhile, List.reverse_append, List.dropWhile_append_of_pos, List.rdropWhile]
  intro octet member
  rw [bne_iff_ne]
  rintro rfl
  exact spelled.noDash (List.mem_reverse.mp member)

theorem lastNumber_digits {text digits : List Octet} (cut : Cut text) (spelled : Digits digits) :
    lastNumber (text ++ digits) = number digits := by
  obtain ⟨front, digit, rfl, isDigit⟩ := spelled.ends
  rw [lastNumber, ← List.append_assoc, List.rdropWhile_concat_neg _ _ _ (by simp [isDigit]),
    List.append_assoc, rtakeWhile_digits cut spelled.2]

theorem number_small {digits : List Octet} (small : decimal digits ≤ 32) :
    number digits = decimal digits := by
  have value : (BitVec.ofNat 32 (decimal digits)).toNat = decimal digits := by
    rw [BitVec.toNat_ofNat, Nat.mod_eq_of_lt (by omega)]
  unfold number
  rw [Nat.min_eq_left (by unfold ulongMax; omega), BitVec.toInt_eq_toNat_of_lt (by omega), value]

end Numbers

section Pieces

/-- Where an item can stand: behind a separator or at the start. -/
def Opens (before : List Octet) : Prop :=
  before = [] ∨ ∃ front octet, before = front ++ [octet] ∧ separates octet = true

theorem separates_spec {octet : Octet} (apart : separates octet = true) :
    isdigit octet = false ∧ octet ≠ dash := by
  unfold separates at apart
  simpa using apart

theorem joins_spec {octet : Octet} (joined : separates octet = false) :
    isdigit octet = true ∨ octet = dash := by
  unfold separates at joined
  by_cases digit : isdigit octet = true
  · exact Or.inl digit
  · simp only [Bool.not_eq_true] at digit
    simpa [digit] using joined

theorem opens_cut {before : List Octet} (opens : Opens before) : Cut before := by
  rcases opens with rfl | ⟨front, octet, rfl, apart⟩
  · exact cut_nil
  · exact cut_concat front (separates_spec apart).1

theorem itemsFrom_digits (before item digits rest : List Octet)
    (spelled : ∀ digit ∈ digits, isdigit digit = true) :
    itemsFrom before item (digits ++ rest) = itemsFrom before (item ++ digits) rest := by
  induction digits generalizing item with
  | nil => rw [List.nil_append, List.append_nil]
  | cons digit digits ih =>
      have joined : separates digit = false := by
        rw [separates, spelled digit List.mem_cons_self]
        rfl
      rw [List.cons_append, itemsFrom, joined, if_neg (by simp),
        ih _ fun other member => spelled other (List.mem_cons_of_mem _ member),
        List.append_assoc]
      rfl

/-- An item has no separators and stands behind one, or at the start. -/
theorem itemsFrom_stand {before item text : List Octet} (opens : Opens before)
    (whole : ∀ octet ∈ item, separates octet = false) :
    ∀ entry ∈ itemsFrom before item text,
      Opens entry.1 ∧ ∀ octet ∈ entry.2, separates octet = false := by
  induction text generalizing before item with
  | nil =>
      intro entry member
      rw [List.mem_singleton.mp member]
      exact ⟨opens, whole⟩
  | cons octet text ih =>
      intro entry member
      unfold itemsFrom at member
      split at member
      · rename_i apart
        rcases List.mem_cons.mp member with rfl | later
        · exact ⟨opens, whole⟩
        · exact ih (Or.inr ⟨_, octet, rfl, apart⟩)
            (fun _ none => absurd none List.not_mem_nil) entry later
      · rename_i joined
        refine ih opens (fun other inside => ?_) entry member
        rcases List.mem_append.mp inside with early | last
        · exact whole other early
        · rw [List.mem_singleton.mp last]
          exact Bool.not_eq_true _ ▸ joined

theorem items_stand {text : List Octet} :
    ∀ entry ∈ items text, Opens entry.1 ∧ ∀ octet ∈ entry.2, separates octet = false :=
  itemsFrom_stand (Or.inl rfl) fun _ none => absurd none List.not_mem_nil

end Pieces

section Contributions

/-- The flags behind an item. -/
def flagOf (item : List Octet) : Nat :=
  (if item.any isdigit then singleChannel else 0) |||
    if item.contains dash then rangeChannel else 0

/-- What is taken from an item. -/
def contribution (entry : List Octet × List Octet) : Option (BitVec 32) :=
  getActiveChannels (flagOf entry.2) (firstTaken entry) (lastTaken entry)

/-- A channel is taken from an item. -/
def Takes (entry : List Octet × List Octet) (channel : Int) : Prop :=
  entry.2 ≠ [] ∧ 1 ≤ lastTaken entry ∧ firstTaken entry ≤ channel ∧ channel ≤ lastTaken entry

/-- No shift for this item is outside of the word. -/
def Fits (entry : List Octet × List Octet) : Prop :=
  entry.2 = [] ∨ lastTaken entry < 1 ∨ lastTaken entry < firstTaken entry ∨
    1 ≤ firstTaken entry ∧ lastTaken entry ≤ 32

theorem flagOf_dash {item : List Octet} : flagOf item &&& rangeChannel ≠ 0 ↔ dash ∈ item := by
  unfold flagOf
  by_cases digit : item.any isdigit <;> by_cases range : dash ∈ item <;>
    simp [digit, range, singleChannel, rangeChannel]

theorem flagOf_none {item : List Octet} (whole : ∀ octet ∈ item, separates octet = false) :
    flagOf item &&& (singleChannel ||| rangeChannel) = 0 ↔ item = [] := by
  constructor
  · intro none
    cases item with
    | nil => rfl
    | cons octet item =>
        rcases joins_spec (whole octet List.mem_cons_self) with digit | rfl
        · have some : (octet :: item).any isdigit = true :=
            List.any_eq_true.mpr ⟨octet, List.mem_cons_self, digit⟩
          unfold flagOf at none
          rw [if_pos some] at none
          by_cases range : dash ∈ octet :: item <;>
            simp [range, singleChannel, rangeChannel] at none
        · have range : flagOf (dash :: item) &&& rangeChannel ≠ 0 :=
            flagOf_dash.mpr List.mem_cons_self
          refine absurd ?_ range
          rw [Nat.and_or_distrib_left] at none
          exact (Nat.or_eq_zero_iff.mp none).2
  · rintro rfl
    simp [flagOf]

theorem firstTaken_single {entry : List Octet × List Octet} (single : dash ∉ entry.2) :
    firstTaken entry = lastTaken entry := if_neg (mt List.contains_iff_mem.mp single)

theorem firstTaken_range {entry : List Octet × List Octet} (range : dash ∈ entry.2) :
    firstTaken entry =
      lastNumber ((entry.1 ++ entry.2).rdropWhile fun octet => octet != dash) :=
  if_pos (List.contains_iff_mem.mpr range)

theorem contribution_fits {entry : List Octet × List Octet}
    (whole : ∀ octet ∈ entry.2, separates octet = false) (fits : Fits entry) :
    ∃ word, contribution entry = some word := by
  unfold contribution getActiveChannels
  split
  · exact ⟨0, rfl⟩
  · rename_i last
    split
    · exact ⟨0, rfl⟩
    · rename_i flags
      rw [flagOf_none whole] at flags
      split
      · refine rangeFrom_inside 0 ?_
        rcases fits with none | none | none | inside
        · exact absurd none flags
        · exact absurd none last
        · omega
        · omega
      · rename_i single
        have same := firstTaken_single (mt flagOf_dash.mpr single)
        have high : lastTaken entry - 1 < 32 := by
          rcases fits with none | none | none | inside
          · exact absurd none flags
          · exact absurd none last
          · omega
          · omega
        obtain ⟨mask, shifted⟩ : ∃ mask, bit (lastTaken entry - 1) = some mask :=
          bit_inside (by omega) high
        rw [shifted]
        exact ⟨0 ||| mask, rfl⟩

theorem contribution_spec {entry : List Octet × List Octet}
    (whole : ∀ octet ∈ entry.2, separates octet = false) {word : BitVec 32}
    (taken : contribution entry = some word) :
    Fits entry ∧ ∀ i : Nat, word.getLsbD i = true ↔ Takes entry (i + 1) := by
  unfold contribution getActiveChannels at taken
  split at taken
  · rename_i last
    cases taken
    exact ⟨Or.inr (Or.inl last), fun i => by simp [Takes]; omega⟩
  · rename_i last
    split at taken
    · rename_i flags
      rw [flagOf_none whole] at flags
      cases taken
      exact ⟨Or.inl flags, fun i => by simp [Takes, flags]⟩
    · rename_i flags
      rw [flagOf_none whole] at flags
      split at taken
      · obtain ⟨room, bits⟩ := rangeFrom_spec taken
        refine ⟨Or.inr (Or.inr (by omega)), fun i => ?_⟩
        rw [bits]
        simp [Takes, flags]
        omega
      · rename_i single
        have same := firstTaken_single (mt flagOf_dash.mpr single)
        obtain ⟨mask, shifted, rfl⟩ := Option.map_eq_some_iff.mp taken
        obtain ⟨low, high, bits⟩ := bit_spec shifted
        refine ⟨Or.inr (Or.inr (Or.inr ⟨by omega, by omega⟩)), fun i => ?_⟩
        have alone : 0 ||| mask = mask := BitVec.zero_or
        rw [alone, bits]
        simp [Takes, flags]
        omega

/-- What all the items give together. -/
def total : List (List Octet × List Octet) → BitVec 32 → Option (BitVec 32)
  | [], tmp => some tmp
  | entry :: entries, tmp =>
      (contribution entry).bind fun word => total entries (tmp ||| word)

variable {entries : List (List Octet × List Octet)}

theorem total_fits (whole : ∀ entry ∈ entries, ∀ octet ∈ entry.2, separates octet = false)
    (fits : ∀ entry ∈ entries, Fits entry) (tmp : BitVec 32) :
    ∃ word, total entries tmp = some word := by
  induction entries generalizing tmp with
  | nil => exact ⟨tmp, rfl⟩
  | cons entry entries ih =>
      obtain ⟨taken, given⟩ := contribution_fits (whole entry List.mem_cons_self)
        (fits entry List.mem_cons_self)
      obtain ⟨word, rest⟩ := ih (fun other member => whole other (List.mem_cons_of_mem _ member))
        (fun other member => fits other (List.mem_cons_of_mem _ member)) (tmp ||| taken)
      refine ⟨word, ?_⟩
      rw [total, given]
      exact rest

theorem total_spec (whole : ∀ entry ∈ entries, ∀ octet ∈ entry.2, separates octet = false)
    {tmp word : BitVec 32} (given : total entries tmp = some word) :
    (∀ entry ∈ entries, Fits entry) ∧ ∀ i : Nat, word.getLsbD i = true ↔
      tmp.getLsbD i = true ∨ ∃ entry ∈ entries, Takes entry (i + 1) := by
  induction entries generalizing tmp with
  | nil =>
      cases given
      exact ⟨fun _ none => absurd none List.not_mem_nil, fun i => by simp⟩
  | cons entry entries ih =>
      obtain ⟨taken, here, later⟩ := Option.bind_eq_some_iff.mp given
      obtain ⟨fits, bits⟩ := contribution_spec (whole entry List.mem_cons_self) here
      obtain ⟨rest, others⟩ :=
        ih (fun other member => whole other (List.mem_cons_of_mem _ member)) later
      refine ⟨fun other member => ?_, fun i => ?_⟩
      · rcases List.mem_cons.mp member with rfl | behind
        · exact fits
        · exact rest other behind
      · rw [others, BitVec.getLsbD_or, Bool.or_eq_true, bits, List.exists_mem_cons_iff, or_assoc]

end Contributions

section Scanning

variable {before item : List Octet} {scan : Scan}

/-- What the variables of the loop hold where it has read an item so far. -/
structure Reached (before item : List Octet) (scan : Scan) : Prop where
  channel : scan.channel = lastTaken (before, item)
  flag : scan.channelFlag = flagOf item
  start : dash ∈ item → scan.startChannel = firstTaken (before, item)

theorem getActiveChannels_single {channelFlag : Nat} (single : channelFlag &&& rangeChannel = 0)
    (first other stop : Int) :
    getActiveChannels channelFlag first stop = getActiveChannels channelFlag other stop := by
  unfold getActiveChannels
  have no : ¬channelFlag &&& rangeChannel ≠ 0 := fun range => range single
  rw [if_neg no, if_neg no]

theorem getActiveChannels_none (first stop : Int) : getActiveChannels 0 first stop = some 0 := by
  unfold getActiveChannels
  split
  · rfl
  · exact if_pos (Nat.zero_and _)

theorem Reached.found (reached : Reached before item scan) :
    found scan = contribution (before, item) := by
  unfold ActiveChannels.found contribution
  rw [reached.channel, reached.flag]
  by_cases range : dash ∈ item
  · rw [reached.start range]
  · exact getActiveChannels_single (not_not.mp (mt flagOf_dash.mp range)) _ _ _

theorem Reached.readNumber (reached : Reached before item scan) (cut : Cut (before ++ item))
    {digits : List Octet} (spelled : Digits digits) :
    Reached before (item ++ digits) (readNumber scan digits) := by
  have noDash := spelled.noDash
  refine ⟨?_, ?_, fun range => ?_⟩
  · change number digits = lastNumber (before ++ (item ++ digits))
    rw [← List.append_assoc, lastNumber_digits cut spelled]
  · change scan.channelFlag ||| singleChannel = _
    obtain ⟨digit, member⟩ := List.exists_mem_of_ne_nil digits spelled.1
    have some : (item ++ digits).any isdigit = true :=
      List.any_eq_true.mpr ⟨digit, List.mem_append_right _ member, spelled.2 digit member⟩
    rw [reached.flag, flagOf, flagOf, if_pos some]
    by_cases one : item.any isdigit <;> by_cases range : dash ∈ item <;>
      simp [one, range, noDash, singleChannel, rangeChannel]
  · have early : dash ∈ item := (List.mem_append.mp range).resolve_right noDash
    have held := reached.start early
    rw [firstTaken_range early] at held
    rw [firstTaken_range range, ← List.append_assoc, upToDash_digits _ spelled, ← held]
    rfl

theorem Reached.readDash (reached : Reached before item scan) :
    Reached before (item ++ [dash]) (readDash scan) := by
  have last : lastNumber (before ++ (item ++ [dash])) = lastNumber (before ++ item) := by
    rw [← List.append_assoc, lastNumber_skip _ (by decide)]
  refine ⟨reached.channel.trans last.symm, ?_, fun range => ?_⟩
  · change scan.channelFlag ||| rangeChannel = _
    have here : dash ∈ item ++ [dash] := by simp
    have digits : (item ++ [dash]).any isdigit = item.any isdigit := by
      have no : isdigit dash = false := by decide
      rw [List.any_append, List.any_cons, no]
      simp
    rw [reached.flag, flagOf, flagOf, if_pos (List.contains_iff_mem.mpr here)]
    simp only [digits]
    by_cases one : item.any isdigit <;> by_cases early : dash ∈ item <;>
      simp [one, early, singleChannel, rangeChannel]
  · rw [firstTaken_range range, ← List.append_assoc,
      List.rdropWhile_concat_neg _ _ _ (by simp), List.append_assoc, last]
    exact reached.channel

theorem Reached.readSeparator (reached : Reached before item scan) {octet : Octet}
    (apart : separates octet = true) (tmp : BitVec 32) :
    Reached (before ++ item ++ [octet]) [] { scan with tmp := tmp, channelFlag := 0 } := by
  refine ⟨?_, rfl, fun none => absurd none List.not_mem_nil⟩
  change scan.channel = lastNumber (before ++ item ++ [octet] ++ [])
  rw [List.append_nil, lastNumber_skip _ (separates_spec apart).1]
  exact reached.channel

theorem Reached.finish (reached : Reached before item scan) :
    finish scan = total [(before, item)] scan.tmp := by
  unfold ActiveChannels.finish
  rw [reached.found]
  split
  · rw [total, Option.map_eq_bind]
    rfl
  · rename_i none
    have nothing : contribution (before, item) = some 0 := by
      rw [contribution, ← reached.flag, not_not.mp none, getActiveChannels_none]
    have same : scan.tmp ||| 0 = scan.tmp := BitVec.or_zero
    rw [total, nothing]
    change _ = some (scan.tmp ||| 0)
    rw [same]

/-- The loop, from where it has read an item so far, makes out the rest item by item. -/
theorem scanFrom_items {text : List Octet} (reached : Reached before item scan)
    (cut : Cut (before ++ item) ∨ ∀ octet ∈ text.head?, isdigit octet = false) :
    (scanFrom text scan).bind finish = total (itemsFrom before item text) scan.tmp := by
  fun_induction scanFrom text scan generalizing before item with
  | case1 scan => exact reached.finish
  | case2 first rest scan digit ih =>
      have spelled : Digits (first :: rest.takeWhile isdigit) := by
        refine ⟨by simp, fun other member => ?_⟩
        rcases List.mem_cons.mp member with rfl | later
        · exact digit
        · exact List.mem_takeWhile_imp later
      have before : Cut (before ++ item) := by
        rcases cut with cut | other
        · exact cut
        · exact absurd digit (by rw [other first rfl]; simp)
      have behind : ∀ octet ∈ (rest.dropWhile isdigit).head?, isdigit octet = false := by
        intro octet member
        have stops := List.head?_dropWhile_not isdigit rest
        rw [Option.mem_def.mp member] at stops
        exact stops
      have whole : first :: rest =
          (first :: rest.takeWhile isdigit) ++ rest.dropWhile isdigit := by
        rw [List.cons_append, List.takeWhile_append_dropWhile]
      rw [ih (reached.readNumber before spelled) (Or.inr behind), whole,
        itemsFrom_digits _ _ _ _ spelled.2]
      rfl
  | case3 rest scan digit ih =>
      have joined : separates dash = false := by decide
      rw [ih reached.readDash (Or.inl (by
        rw [← List.append_assoc]
        exact cut_concat _ (by decide))), itemsFrom, joined, if_neg (by simp)]
      rfl
  | case4 first rest scan digit other ih =>
      have apart : separates first = true := by simp [separates, digit, other]
      rw [itemsFrom, if_pos apart, total, ← reached.found, readSeparator]
      cases found scan with
      | none => rfl
      | some word =>
          exact ih _ (reached.readSeparator apart _) (Or.inl (by
            rw [List.append_nil]
            exact cut_concat _ (separates_spec apart).1))

end Scanning

section Selected

variable {val : List Octet}

/-- A well-formed item is taken for the channels it has. -/
theorem spelled_taken {entry : List Octet × List Octet} (opens : Opens entry.1) {first last : Nat}
    (spells : Spells entry.2 first last) :
    firstTaken entry = first ∧ lastTaken entry = last := by
  obtain ⟨before, item⟩ := entry
  have cut := opens_cut opens
  cases spells with
  | channel spelled low high =>
      have taken : lastTaken (before, item) = decimal item := by
        rw [← number_small high]
        exact lastNumber_digits cut spelled
      exact ⟨(firstTaken_single spelled.noDash).trans taken, taken⟩
  | range spelled behind low rises high =>
      rename_i left right
      have dashed : Cut (before ++ left ++ [dash]) := cut_concat _ (by decide)
      have whole : before ++ (left ++ dash :: right) = before ++ left ++ [dash] ++ right := by simp
      have stopped : (before ++ left ++ [dash] ++ right).rdropWhile (fun octet => octet != dash) =
          before ++ left ++ [dash] := by
        rw [upToDash_digits _ behind, List.rdropWhile_concat_neg _ _ _ (by simp)]
      refine ⟨?_, ?_⟩
      · rw [firstTaken, if_pos (by simp)]
        change lastNumber ((before ++ (left ++ dash :: right)).rdropWhile _) = _
        rw [whole, stopped, lastNumber_skip _ (by decide), lastNumber_digits cut spelled,
          number_small (by omega)]
      · change lastNumber (before ++ (left ++ dash :: right)) = _
        rw [whole, lastNumber_digits dashed behind, number_small high]

theorem Spells.some {item : List Octet} {first last : Nat} (spells : Spells item first last) :
    item ≠ [] := by
  cases spells with
  | channel spelled => exact spelled.1
  | range => simp

theorem Spells.ends {item : List Octet} {first last : Nat} (spells : Spells item first last) :
    ∃ front digit, item = front ++ [digit] ∧ isdigit digit = true := by
  cases spells with
  | channel spelled => exact spelled.ends
  | range before behind =>
      rename_i left right _ _ _
      obtain ⟨front, digit, rfl, isDigit⟩ := behind.ends
      exact ⟨left ++ dash :: front, digit, by simp, isDigit⟩

theorem Spells.bounds {item : List Octet} {first last : Nat} (spells : Spells item first last) :
    1 ≤ first ∧ first ≤ last ∧ last ≤ 32 := by
  cases spells with
  | channel spelled low high => exact ⟨low, Nat.le_refl _, high⟩
  | range spelled behind low rises high => exact ⟨low, rises, high⟩

theorem spelled_takes {entry : List Octet × List Octet} (opens : Opens entry.1) {first last : Nat}
    (spells : Spells entry.2 first last) (channel : Nat) :
    Takes entry channel ↔ first ≤ channel ∧ channel ≤ last := by
  obtain ⟨firstIs, lastIs⟩ := spelled_taken opens spells
  have bounds := spells.bounds
  unfold Takes
  rw [firstIs, lastIs]
  constructor
  · rintro ⟨-, -, low, high⟩
    omega
  · intro inside
    exact ⟨spells.some, by omega, by omega, by omega⟩

theorem Harmless.fits {entry : List Octet × List Octet} (harmless : Harmless val entry) :
    Fits entry := by
  rcases harmless with none | low | falls | ⟨low, high, -⟩
  · exact Or.inl none
  · exact Or.inr (Or.inl low)
  · exact Or.inr (Or.inr (Or.inl falls))
  · exact Or.inr (Or.inr (Or.inr ⟨low, high⟩))

theorem parse_total (other : val ≠ all) : parseActiveChannel val = total (items val) 0 := by
  have reached : Reached [] [] start := ⟨by decide, by decide, fun none => absurd none (by simp)⟩
  have scanned : (scanFrom val start).bind finish = total (items val) 0 :=
    scanFrom_items reached (Or.inl cut_nil)
  rw [parseActiveChannel, if_neg other]
  split
  · rename_i same
    rw [same]
    decide
  · exact scanned

/-- What is taken from a text with no harmful item is the union of its well-formed items. -/
theorem taken_names (harmless : ∀ entry ∈ items val, WellFormed entry.2 ∨ Harmless val entry)
    (channel : Nat) : (∃ entry ∈ items val, Takes entry channel) ↔ Names val channel := by
  constructor
  · rintro ⟨entry, member, takes⟩
    rcases harmless entry member with ⟨first, last, spells⟩ | harmless
    · exact ⟨entry, member, first, last, spells,
        (spelled_takes (items_stand entry member).1 spells channel).mp takes⟩
    · obtain ⟨some, least, low, high⟩ := takes
      rcases harmless with none | none | none | ⟨-, -, named⟩
      · exact absurd none some
      · omega
      · omega
      · exact named channel low high
  · rintro ⟨entry, member, first, last, spells, inside⟩
    exact ⟨entry, member,
      (spelled_takes (items_stand entry member).1 spells channel).mpr inside⟩

theorem taken_harmless {word : BitVec 32} (given : total (items val) 0 = some word)
    (selects : Selects word val ∨ word = 0) {entry : List Octet × List Octet}
    (member : entry ∈ items val) : Harmless val entry := by
  obtain ⟨fits, bits⟩ := total_spec (fun other inside => (items_stand other inside).2) given
  by_cases none : entry.2 = []
  · exact Or.inl none
  rcases fits entry member with empty | low | falls | ⟨low, high⟩
  · exact absurd empty none
  · exact Or.inr (Or.inl low)
  · exact Or.inr (Or.inr (Or.inl falls))
  · refine Or.inr (Or.inr (Or.inr ⟨low, high, fun channel least most => ?_⟩))
    obtain ⟨i, rfl⟩ : ∃ i, channel = i + 1 := ⟨channel - 1, by omega⟩
    have takes : Takes entry ((i : Int) + 1) := ⟨none, by omega, by omega, by omega⟩
    have set : word.getLsbD i = true := (bits i).mpr (Or.inr ⟨entry, member, takes⟩)
    rcases selects with union | zero
    · exact (union i).mp set
    · rw [zero] at set
      exact absurd set (by simp)

/-- The word of a text is the union of its well-formed items, or 0, exactly when each malformed item
is harmless. -/
theorem active_channels (val : List Octet) :
    Faithful val ↔ ∀ entry ∈ items val, WellFormed entry.2 ∨ Harmless val entry := by
  constructor
  · rintro ⟨word, parsed, -, -, -, selected⟩ entry member
    by_cases same : val = all
    · refine Or.inr (Or.inl ?_)
      have empty : ∀ entry ∈ items all, entry.2 = [] := by decide
      exact empty entry (same ▸ member)
    · rw [parse_total same] at parsed
      exact Or.inr (taken_harmless parsed (selected same).1 member)
  · intro harmless
    by_cases same : val = all
    · refine ⟨enableAllChannels, if_pos same, fun _ => by decide, fun isZero => ?_,
        fun other => absurd same other, fun other => absurd same other⟩
      rw [same] at isZero
      exact absurd isZero (by decide)
    · have fits : ∀ entry ∈ items val, Fits entry := by
        intro entry member
        rcases harmless entry member with ⟨first, last, spells⟩ | harmless
        · obtain ⟨firstIs, lastIs⟩ := spelled_taken (items_stand entry member).1 spells
          have bounds := spells.bounds
          exact Or.inr (Or.inr (Or.inr ⟨by omega, by omega⟩))
        · exact harmless.fits
      obtain ⟨word, given⟩ :=
        total_fits (fun other inside => (items_stand other inside).2) fits 0
      obtain ⟨-, bits⟩ := total_spec (fun other inside => (items_stand other inside).2) given
      have selects : Selects word val := by
        intro i
        rw [bits, ← taken_names harmless]
        simp
      refine ⟨word, (parse_total same).trans given, fun isAll => absurd isAll same,
        fun isZero => ?_, fun _ _ => selects,
        fun _ => ⟨Or.inl selects, fun i set => (selects i).mp set⟩⟩
      rw [isZero] at given
      have nothing : total (items zero) 0 = some 0 := by decide
      exact (Option.some.inj (nothing.symm.trans given)).symm

/-- `5-` is taken for channel 5. -/
theorem active_channels_open : ¬Faithful [0x35, 0x2D] := by
  rintro ⟨word, parsed, -, -, -, selected⟩
  obtain ⟨-, named⟩ := selected (by decide)
  rw [parse_total (by decide)] at parsed
  have given : total (items [0x35, 0x2D]) 0 = some 0x10 := by decide
  cases given.symm.trans parsed
  obtain ⟨entry, member, first, last, spells, -⟩ := named 4 (by decide)
  have only : ∀ entry ∈ items [0x35, 0x2D], entry.2.getLast? = some dash := by decide
  obtain ⟨front, digit, ends, isDigit⟩ := spells.ends
  have last := only entry member
  rw [ends, List.getLast?_concat] at last
  cases last
  exact absurd isDigit (by decide)

end Selected

end Wanpipe.Wanconfig.ActiveChannels
