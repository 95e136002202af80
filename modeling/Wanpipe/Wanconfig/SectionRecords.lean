import Wanpipe.Wanconfig.ConfSection

/-! What `readConfSection` leaves in the buffer: the records of the section, and all of them. -/

namespace Wanpipe.Wanconfig.ConfSection

open Line CString

section Chunks

/-- The records of what `fgets` gets. -/
def readAll (chunks : List (List Octet)) : List (List Octet) := (chunks.map textOf).filter (· ≠ [])

theorem recordOf_stops {stops : Octet → Bool} {octet : Octet} (stop : stops octet = true)
    (solid : blank octet = false) (line rest : List Octet) :
    recordOf stops (line ++ octet :: rest) = recordOf stops line := by
  have ended : ∀ tail : List Octet,
      (octet :: tail).takeWhile (fun other => !stops other) = [] := fun tail => by simp [stop]
  unfold recordOf
  rw [List.dropWhile_append]
  split
  · rename_i blanks
    rw [List.isEmpty_iff] at blanks
    rw [List.dropWhile_cons_of_neg (by simp [solid]), blanks, ended]
    rfl
  · rw [List.takeWhile_append]
    split
    · rw [ended, List.append_nil]
      rename_i whole
      exact (List.takeWhile_prefix _).eq_of_length whole |>.symm
    · rfl

/-- The parts of a file that `fgets` gets in one call have no zero and are no longer than allowed. -/
theorem chunksFrom_small {read file : List Octet} (short : read.length + 2 ≤ maxCfgline)
    (live : (0 : Octet) ∉ read) (alive : (0 : Octet) ∉ file) :
    ∀ chunk ∈ chunksFrom read file, chunk.length < maxCfgline ∧ (0 : Octet) ∉ chunk := by
  induction file generalizing read with
  | nil =>
      intro chunk member
      unfold chunksFrom at member
      split at member
      · exact absurd member List.not_mem_nil
      · rw [List.mem_singleton.mp member]
        exact ⟨by omega, live⟩
  | cons octet file ih =>
      have next : (0 : Octet) ∉ read ++ [octet] := by
        intro member
        rcases List.mem_append.mp member with early | here
        · exact live early
        · exact alive (List.mem_singleton.mp here ▸ List.mem_cons_self)
      have rest : (0 : Octet) ∉ file := fun member => alive (List.mem_cons_of_mem _ member)
      intro chunk member
      unfold chunksFrom at member
      split at member
      · rcases List.mem_cons.mp member with rfl | later
        · exact ⟨by simp; omega, next⟩
        · exact ih (by decide) List.not_mem_nil rest chunk later
      · rename_i more
        rw [not_or] at more
        exact ih (by simp; omega) next rest chunk member

theorem textOf_live {chunk : List Octet} (live : (0 : Octet) ∉ chunk) :
    textOf chunk = recordOf ends chunk := by
  rw [textOf, string_live live]
  rfl

theorem readAll_cons {chunk : List Octet} (live : (0 : Octet) ∉ chunk)
    (chunks : List (List Octet)) :
    readAll (chunk :: chunks) = records ends [chunk] ++ readAll chunks := by
  rw [records, List.map_singleton, ← textOf_live live, readAll, List.map_cons, ← List.singleton_append,
    List.filter_append]
  rfl

theorem records_cons (stops : Octet → Bool) (line : List Octet) (rest : List (List Octet)) :
    records stops (line :: rest) = records stops [line] ++ records stops rest := by
  rw [records, List.map_cons, ← List.singleton_append, List.filter_append]
  rfl

/-- The end of a line is no part of its record. -/
theorem records_newline (line : List Octet) : records ends [line ++ [lf]] = records ends [line] := by
  rw [records, List.map_singleton, recordOf_stops (by decide) (by decide)]
  rfl

/-- Lines that are not too long give the same records as what `fgets` gets. -/
theorem readAll_lines {read file : List Octet} (short : read.length + 2 ≤ maxCfgline)
    (live : (0 : Octet) ∉ read) (alive : (0 : Octet) ∉ file)
    (fit : ∀ line ∈ splitFrom lf read file, line.length < maxCfgline) :
    readAll (chunksFrom read file) = records ends (splitFrom lf read file) := by
  induction size : file.length using Nat.strong_induction_on generalizing read file with
  | _ size ih =>
      cases file with
      | nil =>
          rw [chunksFrom, splitFrom]
          split
          · rename_i none
            rw [none]
            rfl
          · rw [readAll_cons live]
            exact List.append_nil _
      | cons octet file =>
          have next : (0 : Octet) ∉ read ++ [octet] := by
            intro member
            rcases List.mem_append.mp member with early | here
            · exact live early
            · exact alive (List.mem_singleton.mp here ▸ List.mem_cons_self)
          have rest : (0 : Octet) ∉ file := fun member => alive (List.mem_cons_of_mem _ member)
          rw [List.length_cons] at size
          rw [chunksFrom]
          rw [splitFrom] at fit ⊢
          by_cases newline : octet = lf
          · rw [if_pos newline] at fit ⊢
            rw [if_pos (Or.inl newline), readAll_cons next, newline, records_newline,
              records_cons ends read (splitFrom lf [] file), ih file.length (by omega) (by decide) List.not_mem_nil rest
                (fun line member => fit line (List.mem_cons_of_mem _ member)) rfl]
          · rw [if_neg newline] at fit ⊢
            by_cases full : read.length + 2 = maxCfgline
            · rw [if_pos (Or.inr full), readAll_cons next]
              -- the line is full: its end is all that is left of it
              cases file with
              | nil => rw [chunksFrom, if_pos rfl, splitFrom]; exact List.append_nil _
              | cons following file =>
                  have ended : following = lf := by
                    by_contra other
                    rw [splitFrom, if_neg other] at fit
                    obtain ⟨line, more, split⟩ :=
                      splitFrom_head lf (read ++ [octet] ++ [following]) file
                    have long := fit _ (by rw [split]; exact List.mem_cons_self)
                    simp at long
                    omega
                  have empty : records ends [[lf]] = [] := by decide
                  rw [ended] at fit rest ⊢
                  rw [splitFrom, if_pos rfl] at fit ⊢
                  rw [List.length_cons] at size
                  rw [chunksFrom, if_pos (Or.inl rfl), List.nil_append,
                    readAll_cons (by decide), empty,
                    records_cons ends (read ++ [octet]) (splitFrom lf [] file),
                    ih file.length (by omega) (by decide) List.not_mem_nil
                      (fun member => rest (List.mem_cons_of_mem _ member))
                      (fun line member => fit line (List.mem_cons_of_mem _ member)) rfl]
                  rfl
            · rw [if_neg (by rintro (same | same) <;> contradiction)]
              exact ih file.length (by omega) (by simp; omega) next rest fit rfl

end Chunks

section Buffer

/-- The records of the buffer: without the empty one at the end. -/
def joined (all : List (List Octet)) : List Octet := all.flatMap fun record => record ++ [0]

theorem layout_joined (all : List (List Octet)) : layout all = joined all ++ [0] := by
  induction all with
  | nil => rfl
  | cons record all ih =>
      rw [layout, ih]
      simp [joined]

theorem joined_concat (all : List (List Octet)) (record : List Octet) :
    joined (all ++ [record]) = joined all ++ (record ++ [0]) := by
  simp [joined]

/-- What the buffer is when these records have been read. -/
def bufOf (all : List (List Octet)) : Option (List Octet) :=
  if all = [] then none else some (layout all)

/-- The section is being read, and these are its records so far. -/
def midway (all : List (List Octet)) : Reading := ⟨true, bufOf all, (joined all).length⟩

theorem realloc_sized (fresh : Nat → Octet) (buf : List Octet) {size : Nat}
    (grows : buf.length ≤ size) :
    ∃ more, realloc fresh buf size = buf ++ more ∧ more.length = size - buf.length :=
  ⟨_, by rw [realloc, List.take_of_length_le grows], by simp⟩

theorem strlcpy_end (front text : List Octet) {rest : List Octet}
    (room : text.length + 1 ≤ rest.length) :
    strlcpy (front ++ rest) front.length text (text.length + 1) =
      some (front ++ (text ++ 0 :: rest.drop (text.length + 1))) := by
  rw [strlcpy, if_neg (by omega), Nat.add_sub_cancel, List.take_length]
  rw [if_pos (by simp; omega), List.take_left, List.length_append, List.length_singleton,
    List.drop_append, List.drop_of_length_le (by omega), Nat.add_sub_cancel_left,
    List.nil_append, List.append_assoc]
  rfl

theorem maxLen_midway (all : List (List Octet)) (len : Nat) :
    maxLen (midway all) len = len + (joined all).length := by
  unfold maxLen midway bufOf
  split
  · rename_i none
    rw [if_neg (by simp), none]
    rfl
  · rfl

theorem bufOf_joined (all : List (List Octet)) :
    ∃ last, (bufOf all).getD [] = joined all ++ last ∧ last.length ≤ 1 := by
  unfold bufOf
  split
  · rename_i none
    exact ⟨[], by rw [none]; rfl, Nat.zero_le 1⟩
  · exact ⟨[0], layout_joined all, Nat.le_refl 1⟩

/-- A record is put behind the others, all of it. -/
theorem append_midway (fresh : Nat → Octet) (all : List (List Octet)) (key : List Octet) :
    append fresh (midway all) (key.length + 1) key = some (midway (all ++ [key])) := by
  obtain ⟨last, held, few⟩ := bufOf_joined all
  have fits : (joined all ++ last).length ≤ key.length + 1 + (joined all).length + 1 := by
    rw [List.length_append]
    omega
  obtain ⟨more, grown, sized⟩ := realloc_sized fresh (joined all ++ last) fits
  rw [List.length_append] at sized
  obtain ⟨final, rest⟩ : ∃ final, (last ++ more).drop (key.length + 1) = [final] := by
    rw [← List.length_eq_one_iff, List.length_drop, List.length_append]
    omega
  have room : key.length + 1 ≤ (last ++ more).length := by
    rw [List.length_append]
    omega
  have copied := strlcpy_end (joined all) key room
  have marked := poke_here (joined all ++ (key ++ [0])) final 0 []
  have place : (joined all ++ (key ++ [0])).length = (joined all).length + (key.length + 1) := by
    simp
  have whole : joined all ++ (key ++ [0]) ++ [final] = joined all ++ (key ++ 0 :: [final]) := by
    simp
  rw [place, whole] at marked
  have next : midway (all ++ [key]) =
      ⟨true, some (joined all ++ (key ++ [0]) ++ [0]), (joined all).length + (key.length + 1)⟩ := by
    rw [midway, joined_concat, place, bufOf, if_neg (by simp), layout_joined, joined_concat]
  rw [append, maxLen_midway]
  change ((strlcpy (realloc fresh ((bufOf all).getD []) _) (joined all).length key
    (key.length + 1 + (joined all).length - (joined all).length)).bind fun _ =>
      (poke _ ((joined all).length + (key.length + 1)) 0).map _) = _
  rw [Nat.add_sub_cancel, held, grown, List.append_assoc, copied, rest, next]
  change (poke (joined all ++ (key ++ 0 :: [final])) _ 0).map _ = _
  rw [marked]
  rfl

/-- The record that is read next, and what is left. -/
theorem readConfRecord_next {chunks : List (List Octet)}
    (small : ∀ chunk ∈ chunks, chunk.length < maxCfgline) :
    readConfRecord maxCfgline chunks = none ∧ readAll chunks = [] ∨
      ∃ key rest, readConfRecord maxCfgline chunks = some (key.length + 1, key, rest) ∧
        readAll chunks = key :: readAll rest ∧ ∀ chunk ∈ rest, chunk.length < maxCfgline := by
  induction chunks with
  | nil => exact Or.inl ⟨rfl, rfl⟩
  | cons chunk chunks ih =>
      have later : ∀ other ∈ chunks, other.length < maxCfgline :=
        fun other member => small other (List.mem_cons_of_mem _ member)
      by_cases none : textOf chunk = []
      · have skipped : readAll (chunk :: chunks) = readAll chunks := by
          rw [readAll, List.map_cons, List.filter_cons_of_neg (by simp [none])]
          rfl
        rw [readConfRecord, if_neg (by simp [none]), skipped]
        exact ih later
      · have fits : (textOf chunk).length ≤ maxCfgline - 1 := by
          have size := small chunk List.mem_cons_self
          have cut : (textOf chunk).length ≤ chunk.length :=
            (List.takeWhile_prefix _).length_le.trans
              ((List.dropWhile_suffix _).length_le.trans (List.takeWhile_prefix _).length_le)
          omega
        refine Or.inr ⟨textOf chunk, chunks, ?_, ?_, later⟩
        · rw [readConfRecord, if_pos (by simp [none]), List.take_of_length_le fits]
        · rw [readAll, List.map_cons, List.filter_cons_of_pos (by simp [none])]
          rfl

/-- In the section, the records up to the next bracket are added. -/
theorem sectionFrom_inside (fresh : Nat → Octet) (name : List Octet) {chunks : List (List Octet)}
    (small : ∀ chunk ∈ chunks, chunk.length < maxCfgline) (all : List (List Octet)) :
    sectionFrom fresh name chunks (midway all) =
      some (midway (all ++ (readAll chunks).takeWhile fun record => !bracketed record)) := by
  induction size : chunks.length using Nat.strong_induction_on generalizing chunks all with
  | _ size ih =>
      rcases readConfRecord_next small with ⟨none, empty⟩ | ⟨key, rest, next, cut, later⟩
      · rw [sectionFrom, none, empty, List.takeWhile_nil, List.append_nil]
      · have less := readConfRecord_shorter next
        rw [sectionFrom, next, cut]
        change (if bracketed key = true then some (midway all) else
          (append fresh (midway all) (key.length + 1) key).bind (sectionFrom fresh name rest)) = _
        by_cases bracket : bracketed key = true
        · rw [if_pos bracket, List.takeWhile_cons_of_neg (by simp [bracket]), List.append_nil]
        · rw [if_neg bracket, append_midway, List.takeWhile_cons_of_pos (by simp [bracket])]
          refine (ih rest.length (by omega) later (all ++ [key]) rfl).trans ?_
          rw [List.append_assoc]
          rfl

theorem sectionFrom_outside (fresh : Nat → Octet) (name : List Octet) {chunks : List (List Octet)}
    (small : ∀ chunk ∈ chunks, chunk.length < maxCfgline) :
    (sectionFrom fresh name chunks ⟨false, none, 0⟩).map Reading.buf =
      some (bufOf (sectionOf name (readAll chunks))) := by
  induction size : chunks.length using Nat.strong_induction_on generalizing chunks with
  | _ size ih =>
      rcases readConfRecord_next small with ⟨none, empty⟩ | ⟨key, rest, next, cut, later⟩
      · rw [sectionFrom, none, empty]
        rfl
      · have less := readConfRecord_shorter next
        rw [sectionFrom, next, cut]
        change (sectionFrom fresh name rest ⟨heads name key, none, 0⟩).map Reading.buf = _
        by_cases head : heads name key = true
        · have started : (⟨heads name key, none, 0⟩ : Reading) = midway [] := by
            rw [head]
            rfl
          rw [started, sectionFrom_inside fresh name later, sectionOf,
            List.dropWhile_cons_of_neg (by simp [head])]
          rfl
        · have away : (⟨heads name key, none, 0⟩ : Reading) = ⟨false, none, 0⟩ := by
            rw [Bool.eq_false_iff.mpr head]
          rw [away, ih rest.length (by omega) later rfl, sectionOf, sectionOf,
            List.dropWhile_cons_of_pos (by simp [head])]

/-- The buffer of a section holds its records. -/
theorem readConfSection_records (fresh : Nat → Octet) {file : List Octet} (name : List Octet)
    (live : (0 : Octet) ∉ file) (fit : ∀ line ∈ lines file, line.length < maxCfgline) :
    readConfSection fresh file name =
      some (bufOf (sectionOf name (records ends (lines file)))) := by
  have whole : readAll (chunksFrom [] file) = records ends (lines file) :=
    readAll_lines (by decide) List.not_mem_nil live fit
  have small : ∀ chunk ∈ chunksFrom [] file, chunk.length < maxCfgline := fun chunk member =>
    (chunksFrom_small (by decide) List.not_mem_nil live chunk member).1
  rw [readConfSection, sectionFrom_outside fresh name small, whole]

end Buffer

end Wanpipe.Wanconfig.ConfSection
