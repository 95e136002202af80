import Wanpipe.Mgd.Message

/-! The messages that a client sends to `sangoma_mgd`, and what is read from the lines of a head. -/

namespace Wanpipe.Mgd.Message

open Line CString Store
open NextPair (cr lf space)

structure Header where
  name : List Octet
  value : List Octet

/-- A command with up to two arguments, headers and a body. -/
structure ClientMessage where
  command : List Octet
  arguments : Option (List Octet × Option (List Octet))
  headers : List Header
  body : List Octet

namespace ClientMessage

variable (msg : ClientMessage)

def callid : List Octet :=
  match msg.arguments with
  | some (callid, _) => callid
  | none => []

def args : List Octet :=
  match msg.arguments with
  | some (_, some args) => args
  | _ => []

def firstLine : List Octet :=
  match msg.arguments with
  | none => msg.command
  | some (callid, none) => msg.command ++ space :: callid
  | some (callid, some args) => msg.command ++ space :: (callid ++ space :: args)

end ClientMessage

def Header.text (header : Header) : List Octet := header.name ++ colon :: space :: header.value

def linesText (lines : List (List Octet)) : List Octet :=
  lines.flatMap fun line => line ++ woomeraLineSeperator

def ClientMessage.lines (msg : ClientMessage) : List (List Octet) :=
  msg.firstLine :: msg.headers.map Header.text

def ClientMessage.head (msg : ClientMessage) : List Octet :=
  linesText msg.lines ++ woomeraLineSeperator

def ClientMessage.text (msg : ClientMessage) : List Octet := msg.head ++ msg.body

/-- Octets that can stand in a line. -/
def Written (text : List Octet) : Prop := ∀ octet ∈ text, octet ≠ 0 ∧ octet ≠ cr ∧ octet ≠ lf

instance (text : List Octet) : Decidable (Written text) :=
  inferInstanceAs (Decidable (∀ octet ∈ text, octet ≠ 0 ∧ octet ≠ cr ∧ octet ≠ lf))

/-- The decimal digits of a number. -/
def Decimal (text : List Octet) (number : Nat) : Prop :=
  text ≠ [] ∧ (∀ octet ∈ text, (digit octet).isSome = true) ∧ digitsValue 0 text = number

structure Header.Valid (header : Header) : Prop where
  name : Written header.name
  value : Written header.value
  noColon : colon ∉ header.name
  short : header.name.length < woomeraStrlen ∧ header.value.length < woomeraStrlen

/-- A message is well formed, and a `Content-Length` says how long its body is. -/
structure ClientMessage.Valid (msg : ClientMessage) : Prop where
  begins : msg.command ≠ []
  command : Written msg.command
  noSpace : space ∉ msg.command ∧ space ∉ msg.callid
  arguments : Written msg.callid ∧ Written msg.args
  headers : ∀ header ∈ msg.headers, header.Valid
  head : msg.head.length < bufSize
  body : msg.body.length ≤ woomeraBodylen
  length : ∀ header ∈ msg.headers, sameCase header.name contentLength = true →
    Decimal header.value msg.body.length
  noLength : (∀ header ∈ msg.headers, sameCase header.name contentLength = false) → msg.body = []

/-- A header from which a length is taken. -/
def Header.counts (header : Header) : Bool :=
  sameCase header.name contentType || sameCase header.name contentLength

/-- The length that is taken from the headers, in place of one from before. -/
def bytesOf (before : Int) (headers : List Header) : Int :=
  headers.foldl (fun bytes header => if header.counts then atoi header.value else bytes) before

/-- What a call hands on of a message: its command and arguments, for each name the value of the first
header of that name, and its body. -/
structure Yields (msg : ClientMessage) (wmsg : WoomeraMessage) : Prop where
  command : wmsg.command = msg.command
  callid : wmsg.callid = msg.callid
  commandArgs : wmsg.commandArgs = msg.args
  header : ∀ key, woomeraMessageHeader wmsg key =
    (msg.headers.find? fun header => sameCase header.name key).map Header.value
  body : load wmsg.rows bodyPlace msg.body.length = msg.body

/-- The message structure has room for each part, no value begins with a blank, and the last header
that a length is taken from says that of the body. -/
structure Fits (msg : ClientMessage) : Prop where
  command : msg.command.length < woomeraStrlen
  callid : msg.callid.length < woomeraStrlen
  args : msg.args.length < woomeraStrlen
  few : msg.headers.length ≤ 251
  short : ∀ header ∈ msg.headers.dropLast,
    header.name.length < woomeraArrayLen ∧ header.value.length < woomeraArrayLen
  solid : ∀ header ∈ msg.headers, header.value.head? ≠ some space
  bytes : bytesOf 0 msg.headers = msg.body.length

section Lines

theorem Written.append {left right : List Octet} (first : Written left) (second : Written right) :
    Written (left ++ right) := by
  intro octet member
  rcases List.mem_append.mp member with before | behind
  · exact first octet before
  · exact second octet behind

theorem Written.cons {octet : Octet} {text : List Octet}
    (first : octet ≠ 0 ∧ octet ≠ cr ∧ octet ≠ lf) (written : Written text) :
    Written (octet :: text) :=
  List.forall_mem_cons.mpr ⟨first, written⟩

theorem Written.noCr {text : List Octet} (written : Written text) : cr ∉ text :=
  fun member => (written cr member).2.1 rfl

theorem Written.live {text : List Octet} (written : Written text) : (0 : Octet) ∉ text :=
  fun member => (written 0 member).1 rfl

theorem space_written : space ≠ 0 ∧ space ≠ cr ∧ space ≠ lf := by decide

theorem colon_written : colon ≠ 0 ∧ colon ≠ cr ∧ colon ≠ lf := by decide

/-- A line of a head is not empty. -/
def Lined (line : List Octet) : Prop := line ≠ [] ∧ Written line

theorem Header.Valid.lined {header : Header} (valid : header.Valid) : Lined header.text := by
  refine ⟨by simp [Header.text], ?_⟩
  exact valid.name.append ((valid.value.cons space_written).cons colon_written)

theorem ClientMessage.Valid.firstLine {msg : ClientMessage} (valid : msg.Valid) :
    Lined msg.firstLine := by
  have begins := valid.begins
  have command := valid.command
  have callid := valid.arguments.1
  have args := valid.arguments.2
  unfold ClientMessage.firstLine
  unfold ClientMessage.callid at callid
  unfold ClientMessage.args at args
  cases given : msg.arguments with
  | none => exact ⟨begins, command⟩
  | some pair =>
      obtain ⟨id, more⟩ := pair
      rw [given] at callid args
      cases more with
      | none => exact ⟨by simp, command.append (callid.cons space_written)⟩
      | some more =>
          refine ⟨by simp, command.append (Written.cons space_written ?_)⟩
          exact callid.append (args.cons space_written)

theorem ClientMessage.Valid.lined {msg : ClientMessage} (valid : msg.Valid) :
    ∀ line ∈ msg.lines, Lined line := by
  intro line member
  rcases List.mem_cons.mp member with rfl | later
  · exact valid.firstLine
  · obtain ⟨header, listed, rfl⟩ := List.mem_map.mp later
    exact (valid.headers header listed).lined

theorem linesText_cons (line : List Octet) (lines : List (List Octet)) :
    linesText (line :: lines) = line ++ (woomeraLineSeperator ++ linesText lines) := by
  rw [linesText, List.flatMap_cons, List.append_assoc]
  rfl

/-- The first line ends where it does. -/
theorem line_found {line : List Octet} (lined : Lined line) (rest : List Octet) :
    strstr woomeraLineSeperator (line ++ (woomeraLineSeperator ++ rest)) = some line.length := by
  calc
    strstr woomeraLineSeperator (line ++ (woomeraLineSeperator ++ rest)) =
        (strstr woomeraLineSeperator (woomeraLineSeperator ++ rest)).map (· + line.length) :=
      strstr_other lined.2.noCr _
    _ = some line.length := by
      rw [strstr_here, Option.map_some, Nat.zero_add]

/-- What follows a line is not the end of a head twice. -/
theorem rest_ne {lines : List (List Octet)} (lined : ∀ line ∈ lines, Lined line) :
    linesText lines ++ woomeraLineSeperator ≠ woomeraRecordSeperator := by
  cases lines with
  | nil => decide
  | cons line lines =>
      obtain ⟨some, written⟩ := lined line List.mem_cons_self
      obtain ⟨first, rest, rfl⟩ := List.exists_cons_of_ne_nil some
      intro same
      rw [linesText_cons, woomeraRecordSeperator, List.cons_append, List.cons_append] at same
      exact (written first List.mem_cons_self).2.1 (List.cons.inj same).1

/-- The loop takes the lines of a head one after the other. -/
theorem readLines_lines {lines : List (List Octet)} (lined : ∀ line ∈ lines, Lined line)
    {rounds : Nat} (enough : lines.length < rounds) (reading : Reading) :
    readLines rounds (linesText lines ++ woomeraLineSeperator) reading =
      lines.foldlM (fun reading line => readLine line reading) reading := by
  induction lines generalizing rounds reading with
  | nil =>
      obtain ⟨rounds, rfl⟩ := Nat.exists_eq_succ_of_ne_zero (Nat.ne_of_gt enough)
      rfl
  | cons line lines ih =>
      obtain ⟨rounds, rfl⟩ := Nat.exists_eq_succ_of_ne_zero (Nat.ne_of_gt (Nat.zero_lt_of_lt enough))
      have here := lined line List.mem_cons_self
      have later : ∀ other ∈ lines, Lined other := fun other member =>
        lined other (List.mem_cons_of_mem line member)
      have next : (line ++ (woomeraLineSeperator ++ (linesText lines ++ woomeraLineSeperator))).drop
          (line.length + 2) = linesText lines ++ woomeraLineSeperator := by
        rw [← List.append_assoc]
        exact List.drop_left' (List.length_append)
      rw [linesText_cons, List.append_assoc, List.append_assoc, readLines, line_found here]
      dsimp only
      rw [next, if_neg (rest_ne later), List.take_left, if_neg here.1, List.foldlM_cons]
      have rounded : lines.length < rounds := Nat.lt_of_succ_lt_succ enough
      exact congrArg _ (funext fun reading => ih later rounded reading)

end Lines

section Rows

variable {rows next : Nat → Octet} {place : Nat} {text : List Octet}

/-- A string with its end at a place of the rows. -/
def Stored (rows : Nat → Octet) (place : Nat) (text : List Octet) : Prop :=
  load rows place (text.length + 1) = text ++ [0]

theorem textAt_stored (stored : Stored rows place text) (live : (0 : Octet) ∉ text)
    (inside : place + text.length < rowsSize) : textAt rows place = text := by
  have size : rowsSize - place = text.length + 1 + (rowsSize - place - (text.length + 1)) := by
    omega
  rw [textAt, size, load_append, stored, List.append_assoc]
  exact string_of live _

theorem padded_length (text : List Octet) :
    ((text ++ List.replicate woomeraStrlen 0).take woomeraStrlen).length = woomeraStrlen := by
  rw [List.length_take, List.length_append, List.length_replicate]
  exact Nat.min_eq_left (Nat.le_add_left _ _)

theorem padded_short (short : text.length < woomeraStrlen) :
    ∃ pad, (text ++ List.replicate woomeraStrlen 0).take woomeraStrlen = text ++ [0] ++ pad := by
  obtain ⟨more, room⟩ := Nat.exists_eq_add_of_lt short
  refine ⟨List.replicate more 0, ?_⟩
  rw [List.take_append, List.take_of_length_le (Nat.le_of_lt short), List.take_replicate,
    List.append_assoc]
  congr 1
  have count : min (woomeraStrlen - text.length) woomeraStrlen = more + 1 := by omega
  rw [count]
  rfl

theorem Stored.congr (stored : Stored rows place text)
    (same : ∀ i, place ≤ i → i < place + (text.length + 1) → next i = rows i) :
    Stored next place text :=
  (load_congr same).trans stored

/-- A string is copied to its row, and what is behind the following rows stays. -/
theorem strncpyRow_stored (rows : Nat → Octet) (inside : place + woomeraStrlen ≤ rowsSize)
    (short : text.length < woomeraStrlen) :
    ∃ next, strncpyRow rows place text = some next ∧ Stored next place text ∧
      ∀ i, i < place ∨ place + woomeraStrlen ≤ i → next i = rows i := by
  have size := padded_length text
  obtain ⟨pad, cut⟩ := padded_short short
  let padded := (text ++ List.replicate woomeraStrlen 0).take woomeraStrlen
  refine ⟨store rows place padded, if_pos inside, ?_, ?_⟩
  · have length : padded.length = text.length + 1 + pad.length := by
      calc
        padded.length = (text ++ [0] ++ pad).length := congrArg List.length cut
        _ = text.length + 1 + pad.length := by rw [List.length_append, List.length_append]; rfl
    have whole : load (store rows place padded) place (text.length + 1 + pad.length) =
        text ++ [0] ++ pad := by
      rw [← length, load_store]
      exact cut
    rw [load_append] at whole
    exact (List.append_inj whole (by rw [load_length, List.length_append]; rfl)).1
  · intro i apart
    exact store_outside (size ▸ apart)

end Rows

end Wanpipe.Mgd.Message
