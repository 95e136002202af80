import Wanpipe.Mgd.MessageText

/-! A head that has arrived, with its body, fills the message structure. -/

namespace Wanpipe.Mgd.Message

open Line CString Store
open NextPair (cr lf space)

section Command

theorem strncpy_short {text : List Octet} (short : text.length < woomeraStrlen) :
    strncpy text = text :=
  List.take_of_length_le (Nat.le_sub_one_of_lt short)

/-- The command and its arguments are taken apart at the first two spaces. -/
theorem commandLine_first {msg : ClientMessage} (valid : msg.Valid) (fits : Fits msg) :
    commandLine msg.firstLine emptyMessage =
      { emptyMessage with
        present := true, command := msg.command, callid := msg.callid, commandArgs := msg.args } := by
  have command := strncpy_short fits.command
  have callid := strncpy_short fits.callid
  have args := strncpy_short fits.args
  have noSpace := valid.noSpace
  unfold ClientMessage.callid ClientMessage.args ClientMessage.firstLine at *
  cases given : msg.arguments with
  | none =>
      rw [given] at callid args
      simp only [commandLine, strchr_absent noSpace.1, command, emptyMessage]
  | some pair =>
      obtain ⟨id, more⟩ := pair
      rw [given] at callid args noSpace
      cases more with
      | none =>
          simp only [commandLine, strchr_found noSpace.1, strchr_absent noSpace.2, command, callid,
            emptyMessage]
      | some more =>
          simp only [commandLine, strchr_found noSpace.1, strchr_found noSpace.2, command, callid,
            args, emptyMessage]

end Command

section Headers

variable {header : Header} {reading : Reading}

/-- What a header leaves of the length that was taken before. -/
theorem contentHeader_counts (header : Header) (reading : Reading) :
    contentHeader contentLength header.name header.value
        (contentHeader contentType header.name header.value reading) =
      { wmsg := { reading.wmsg with content := reading.wmsg.content || header.counts }
        bytes := if header.counts then atoi header.value else reading.bytes } := by
  unfold contentHeader Header.counts
  cases sameCase header.name contentType with
  | true =>
      cases sameCase header.name contentLength with
      | true => simp
      | false => simp
  | false =>
      cases sameCase header.name contentLength with
      | true => simp
      | false => simp

/-- A header is cut at its colon, and the blanks behind that are left out. -/
theorem headerLine_header (valid : header.Valid) (solid : header.value.head? ≠ some space)
    (reading : Reading) :
    headerLine header.text reading =
      (strncpyRow reading.wmsg.rows (valuePlace (reading.wmsg.last - 1)) header.value).bind
        fun rows =>
          (strncpyRow rows (namePlace (reading.wmsg.last - 1)) header.name).map fun rows =>
            { wmsg :=
                { reading.wmsg with
                  rows := rows, content := reading.wmsg.content || header.counts }
              bytes := if header.counts then atoi header.value else reading.bytes } := by
  have behind : (space :: header.value).dropWhile (fun octet => decide (octet = space)) =
      header.value := by
    rw [List.dropWhile_cons_of_pos (by simp)]
    cases value : header.value with
    | nil => rfl
    | cons first rest =>
        apply List.dropWhile_cons_of_neg
        rw [value] at solid
        simpa using solid
  rw [headerLine, Header.text]
  simp only [strchr_found valid.noColon, behind, contentHeader_counts]

end Headers

section RowsOf

variable {rows : Nat → Octet} {done : List Header} {header : Header}

/-- The names and the values of these headers stand in their rows. -/
def RowsOf (rows : Nat → Octet) (headers : List Header) : Prop :=
  ∀ index header, headers[index]? = some header →
    Stored rows (namePlace index) header.name ∧ Stored rows (valuePlace index) header.value

/-- A header is copied behind the others. The copy runs on over the rows that follow, but hides none
of the others as long as these are shorter than theirs. -/
theorem RowsOf.more (held : RowsOf rows done) (valid : header.Valid)
    (short : ∀ other ∈ done,
      other.name.length < woomeraArrayLen ∧ other.value.length < woomeraArrayLen)
    (few : done.length ≤ 250) :
    ∃ valued named, strncpyRow rows (valuePlace done.length) header.value = some valued ∧
      strncpyRow valued (namePlace done.length) header.name = some named ∧
      RowsOf named (done ++ [header]) := by
  have valueInside : valuePlace done.length + woomeraStrlen ≤ rowsSize := by
    unfold valuePlace rowsSize bodyPlace woomeraStrlen woomeraArrayLen woomeraBodylen
    omega
  have nameInside : namePlace done.length + woomeraStrlen ≤ rowsSize := by
    unfold namePlace rowsSize bodyPlace woomeraStrlen woomeraArrayLen woomeraBodylen
    omega
  have nameBefore : namePlace done.length + woomeraStrlen ≤ valuePlace 0 := by
    unfold namePlace valuePlace woomeraStrlen woomeraArrayLen
    omega
  have behindNames : ∀ index i, valuePlace index ≤ i → namePlace done.length + woomeraStrlen ≤ i := by
    unfold valuePlace at *
    omega
  obtain ⟨valued, valuedRow, value, valueApart⟩ :=
    strncpyRow_stored rows valueInside valid.short.2
  obtain ⟨named, namedRow, name, nameApart⟩ :=
    strncpyRow_stored valued nameInside valid.short.1
  refine ⟨valued, named, valuedRow, namedRow, ?_⟩
  intro index other found
  by_cases earlier : index < done.length
  · rw [List.getElem?_append_left earlier] at found
    obtain ⟨nameShort, valueShort⟩ := short other (List.mem_of_getElem? found)
    obtain ⟨nameStored, valueStored⟩ := held index other found
    constructor
    · apply nameStored.congr
      intro i _ inside
      have before : i < namePlace done.length := by
        unfold namePlace woomeraArrayLen at *
        omega
      have beforeValues : i < valuePlace done.length := by
        unfold namePlace valuePlace at *
        omega
      rw [nameApart i (Or.inl before), valueApart i (Or.inl beforeValues)]
    · apply valueStored.congr
      intro i above inside
      have before : i < valuePlace done.length := by
        unfold valuePlace woomeraArrayLen at *
        omega
      rw [nameApart i (Or.inr (behindNames index i above)), valueApart i (Or.inl before)]
  · obtain ⟨same, rfl⟩ : index = done.length ∧ header = other := by
      rw [List.getElem?_append_right (Nat.le_of_not_lt earlier)] at found
      obtain ⟨inside, here⟩ := List.getElem?_eq_some_iff.mp found
      rw [List.length_singleton] at inside
      exact ⟨by omega, by simpa using here⟩
    rw [same]
    refine ⟨name, value.congr ?_⟩
    intro i above _
    exact nameApart i (Or.inr (behindNames done.length i above))

end RowsOf

theorem bytesOf_concat (before : Int) (done : List Header) (header : Header) :
    bytesOf before (done ++ [header]) =
      if header.counts then atoi header.value else bytesOf before done := by
  rw [bytesOf, List.foldl_append]
  rfl

section Gathered

/-- The message structure after the command and these headers. -/
structure Gathered (msg : ClientMessage) (done : List Header) (reading : Reading) : Prop where
  last : reading.wmsg.last = done.length + 1
  command : reading.wmsg.command = msg.command
  callid : reading.wmsg.callid = msg.callid
  commandArgs : reading.wmsg.commandArgs = msg.args
  present : reading.wmsg.present = true
  content : reading.wmsg.content = done.any Header.counts
  bytes : reading.bytes = bytesOf msg.head.length done
  rows : RowsOf reading.wmsg.rows done

variable {msg : ClientMessage} {done : List Header} {header : Header} {reading : Reading}

theorem gathered_first (valid : msg.Valid) (fits : Fits msg) :
    ∃ next, readLine msg.firstLine ⟨emptyMessage, msg.head.length⟩ = some next ∧
      Gathered msg [] next := by
  refine ⟨_, if_pos rfl, ?_⟩
  rw [commandLine_first valid fits]
  exact {
    last := rfl
    command := rfl
    callid := rfl
    commandArgs := rfl
    present := rfl
    content := rfl
    bytes := rfl
    rows := fun index header found => by cases found }

theorem Gathered.more (gathered : Gathered msg done reading) (valid : header.Valid)
    (solid : header.value.head? ≠ some space)
    (short : ∀ other ∈ done,
      other.name.length < woomeraArrayLen ∧ other.value.length < woomeraArrayLen)
    (few : done.length ≤ 250) :
    ∃ next, readLine header.text reading = some next ∧ Gathered msg (done ++ [header]) next := by
  have index : reading.wmsg.last - 1 = done.length := by rw [gathered.last, Nat.add_sub_cancel]
  have started : reading.wmsg.last ≠ 0 := by rw [gathered.last]; exact Nat.succ_ne_zero _
  obtain ⟨valued, named, value, name, rows⟩ := gathered.rows.more valid short few
  have line := headerLine_header valid solid reading
  rw [index, value, Option.bind_some, name, Option.map_some] at line
  refine ⟨_, by rw [readLine, if_neg started, line]; rfl, ?_⟩
  exact {
    last := by
      rw [List.length_append]
      exact congrArg (· + 1) gathered.last
    command := gathered.command
    callid := gathered.callid
    commandArgs := gathered.commandArgs
    present := gathered.present
    content := by
      rw [List.any_append, ← gathered.content]
      simp [counted]
    bytes := by
      rw [bytesOf_concat, ← gathered.bytes]
      rfl
    rows := rows }

/-- The loop over the headers. -/
theorem Gathered.headers {later : List Header} (gathered : Gathered msg done reading)
    (valid : ∀ header ∈ later, header.Valid)
    (solid : ∀ header ∈ later, header.value.head? ≠ some space)
    (short : ∀ header ∈ (done ++ later).dropLast,
      header.name.length < woomeraArrayLen ∧ header.value.length < woomeraArrayLen)
    (few : (done ++ later).length ≤ 251) :
    ∃ next, later.foldlM (fun reading header => readLine header.text reading) reading = some next ∧
      Gathered msg (done ++ later) next := by
  induction later generalizing done reading with
  | nil =>
      rw [List.append_nil]
      exact ⟨reading, rfl, gathered⟩
  | cons header later ih =>
      have earlier : ∀ other ∈ done,
          other.name.length < woomeraArrayLen ∧ other.value.length < woomeraArrayLen := by
        intro other member
        apply short other
        rw [List.dropLast_append_of_ne_nil (List.cons_ne_nil header later)]
        exact List.mem_append_left _ member
      have room : done.length ≤ 250 := by
        rw [List.length_append, List.length_cons] at few
        omega
      obtain ⟨middle, line, more⟩ := gathered.more (valid header List.mem_cons_self)
        (solid header List.mem_cons_self) earlier room
      have same : done ++ header :: later = done ++ [header] ++ later := by simp
      rw [same] at short few ⊢
      obtain ⟨next, lines, all⟩ :=
        ih more (fun other member => valid other (List.mem_cons_of_mem header member))
          (fun other member => solid other (List.mem_cons_of_mem header member)) short few
      refine ⟨next, ?_, all⟩
      rw [List.foldlM_cons, line]
      exact lines

/-- The whole head is read. -/
theorem readLines_head (valid : msg.Valid) (fits : Fits msg) :
    ∃ next, readLines bufSize msg.head ⟨emptyMessage, msg.head.length⟩ = some next ∧
      Gathered msg msg.headers next := by
  obtain ⟨first, line, gathered⟩ := gathered_first valid fits
  obtain ⟨next, lines, all⟩ :=
    gathered.headers valid.headers fits.solid (by rw [List.nil_append]; exact fits.short)
      (by rw [List.nil_append]; exact fits.few)
  have enough : msg.lines.length < bufSize := by
    have few := fits.few
    rw [ClientMessage.lines, List.length_cons, List.length_map]
    unfold bufSize
    omega
  refine ⟨next, ?_, by rwa [List.nil_append] at all⟩
  rw [ClientMessage.head, readLines_lines valid.lined enough, ← ClientMessage.head,
    ClientMessage.lines, List.foldlM_cons, line]
  exact (List.foldlM_map ..).trans lines

end Gathered

section Lookup

variable {rows : Nat → Octet} {headers : List Header}

/-- The strings of the rows are those of the headers. -/
def Shown (rows : Nat → Octet) (headers : List Header) : Prop :=
  ∀ index header, headers[index]? = some header →
    textAt rows (namePlace index) = header.name ∧ textAt rows (valuePlace index) = header.value

theorem RowsOf.shown (held : RowsOf rows headers) (valid : ∀ header ∈ headers, header.Valid)
    (few : headers.length ≤ 251) : Shown rows headers := by
  intro index header found
  obtain ⟨name, value⟩ := held index header found
  obtain ⟨inside, -⟩ := List.getElem?_eq_some_iff.mp found
  have header := valid header (List.mem_of_getElem? found)
  obtain ⟨nameShort, valueShort⟩ := header.short
  constructor
  · apply textAt_stored name header.name.live
    unfold namePlace rowsSize bodyPlace woomeraStrlen woomeraArrayLen woomeraBodylen at *
    omega
  · apply textAt_stored value header.value.live
    unfold valuePlace rowsSize bodyPlace woomeraStrlen woomeraArrayLen woomeraBodylen at *
    omega

/-- What is put in the place of the body leaves the headers alone. -/
theorem RowsOf.body (held : RowsOf rows headers) (valid : ∀ header ∈ headers, header.Valid)
    (few : headers.length ≤ 251) (octets : List Octet) :
    RowsOf (store rows bodyPlace octets) headers := by
  intro index header found
  obtain ⟨name, value⟩ := held index header found
  obtain ⟨inside, -⟩ := List.getElem?_eq_some_iff.mp found
  obtain ⟨nameShort, valueShort⟩ := (valid header (List.mem_of_getElem? found)).short
  constructor
  · apply name.congr
    intro i _ within
    apply store_outside
    unfold namePlace bodyPlace woomeraStrlen woomeraArrayLen at *
    omega
  · apply value.congr
    intro i _ within
    apply store_outside
    unfold valuePlace bodyPlace woomeraStrlen woomeraArrayLen at *
    omega

theorem woomeraMessageHeaderFrom_find (shown : Shown rows headers) (key : List Octet)
    {count x : Nat} (all : x + count = headers.length) :
    woomeraMessageHeaderFrom rows key count x =
      ((headers.drop x).find? fun header => sameCase header.name key).map Header.value := by
  induction count generalizing x with
  | zero =>
      have none : headers.drop x = [] := List.drop_eq_nil_of_le (Nat.le_of_eq all.symm)
      rw [none]
      rfl
  | succ count ih =>
      have inside : x < headers.length := by omega
      obtain ⟨name, value⟩ := shown x headers[x] (List.getElem?_eq_getElem inside)
      rw [List.drop_eq_getElem_cons inside, woomeraMessageHeaderFrom, name, value,
        ih (by omega), List.find?_cons]
      cases sameCase headers[x].name key with
      | true => rfl
      | false => rfl

end Lookup

section Body

theorem bytesOf_none {headers : List Header} (none : headers.any Header.counts = false)
    (before : Int) : bytesOf before headers = before := by
  induction headers generalizing before with
  | nil => rfl
  | cons header headers ih =>
      obtain ⟨first, rest⟩ := Bool.or_eq_false_iff.mp none
      calc
        bytesOf before (header :: headers) = bytesOf before headers := by
          rw [bytesOf, List.foldl_cons, first]
          rfl
        _ = before := ih rest before

theorem bytesOf_some {headers : List Header} (some : headers.any Header.counts = true)
    (before other : Int) : bytesOf before headers = bytesOf other headers := by
  induction headers generalizing before other with
  | nil => cases some
  | cons header headers ih =>
      rw [bytesOf, bytesOf, List.foldl_cons, List.foldl_cons, ← bytesOf, ← bytesOf]
      cases counts : header.counts with
      | true => rfl
      | false =>
          rw [List.any_cons, counts, Bool.false_or] at some
          exact ih some before other

/-- The stream of a client, read and unread. -/
def Socket.stream (socket : Socket) : List Octet := socket.arrived ++ socket.coming

variable {socket : Socket}

theorem arrive_stream (socket : Socket) (count : Nat) :
    (socket.arrive count).stream = socket.stream := by
  rw [Socket.stream, Socket.arrive, List.append_assoc, List.take_append_drop]
  rfl

theorem arrive_length (socket : Socket) (count : Nat) :
    (socket.arrive count).arrived.length =
      min (socket.arrived.length + count) socket.stream.length := by
  rw [Socket.arrive, Socket.stream, List.length_append, List.length_append, List.length_take]
  omega

/-- A read takes the octets in front that have arrived. -/
theorem read_stream {front rest : List Octet} (stream : socket.stream = front ++ rest)
    (arrived : front.length ≤ socket.arrived.length) :
    (socket.read front.length).1 = front ∧ (socket.read front.length).2.stream = rest := by
  have split : socket.arrived = front ++ socket.arrived.drop front.length := by
    have taken : socket.arrived.take front.length = front := by
      calc
        socket.arrived.take front.length = socket.stream.take front.length :=
          (List.take_append_of_le_length arrived).symm
        _ = (front ++ rest).take front.length := by rw [stream]
        _ = front := List.take_left
    calc
      socket.arrived = socket.arrived.take front.length ++ socket.arrived.drop front.length :=
        (List.take_append_drop ..).symm
      _ = _ := by rw [taken]
  constructor
  · rw [Socket.read, split]
    exact List.take_left
  · rw [Socket.stream, split, List.append_assoc] at stream
    exact List.append_cancel_left stream

variable {msg : ClientMessage} {reading : Reading}

theorem Gathered.yields (gathered : Gathered msg msg.headers reading) (valid : msg.Valid)
    (fits : Fits msg) {rows : Nat → Octet} (held : RowsOf rows msg.headers)
    (body : load rows bodyPlace msg.body.length = msg.body) :
    Yields msg { reading.wmsg with rows := rows, last := reading.wmsg.last - 1 } where
  command := gathered.command
  callid := gathered.callid
  commandArgs := gathered.commandArgs
  header key := by
    have shown := held.shown valid.headers fits.few
    have found := woomeraMessageHeaderFrom_find shown key (x := 0) (Nat.zero_add _)
    rw [List.drop_zero] at found
    rw [← found, woomeraMessageHeader, gathered.last, Nat.add_sub_cancel]
  body := body

/-- The length that was taken is that of the body, or none was and there is no body. -/
theorem Gathered.length (gathered : Gathered msg msg.headers reading) (fits : Fits msg) :
    reading.bytes = msg.body.length ∧ reading.wmsg.content = true ∨
      reading.wmsg.content = false ∧ msg.body = [] := by
  have bytes := gathered.bytes
  have length := fits.bytes
  cases counts : msg.headers.any Header.counts with
  | true =>
      rw [bytesOf_some counts _ 0, length] at bytes
      exact Or.inl ⟨bytes, gathered.content.trans counts⟩
  | false =>
      rw [bytesOf_none counts] at length
      exact Or.inr ⟨gathered.content.trans counts, List.length_eq_zero_iff.mp (by omega)⟩

/-- The body is read, if it has arrived. -/
theorem Gathered.readBody (gathered : Gathered msg msg.headers reading) (valid : msg.Valid)
    (fits : Fits msg) {rest : List Octet} (stream : socket.stream = msg.body ++ rest)
    {arrives : Nat} (enough : msg.body.length ≤ socket.arrived.length + arrives) :
    Yields msg (Message.readBody socket reading arrives).2 ∧
      (Message.readBody socket reading arrives).1.stream = rest ∧
      (Message.readBody socket reading arrives).2.present = true := by
  by_cases asked : (!decide (reading.bytes = 0) && reading.wmsg.content) = true
  · have bytes : reading.bytes = msg.body.length := by
      rcases gathered.length fits with ⟨bytes, -⟩ | ⟨none, -⟩
      · exact bytes
      · rw [none, Bool.and_false] at asked
        cases asked
    have count : bodyCount reading.bytes = msg.body.length := by
      have limit := valid.body
      rw [bytes, bodyCount, if_neg (by omega), Int.toNat_natCast]
    have whole : msg.body.length ≤ (socket.arrive arrives).arrived.length := by
      rw [arrive_length, stream, List.length_append]
      omega
    obtain ⟨read, left⟩ := read_stream ((arrive_stream socket arrives).trans stream) whole
    have held := gathered.rows.body valid.headers fits.few msg.body
    rw [Message.readBody, if_pos asked]
    dsimp only
    rw [count, read]
    exact ⟨gathered.yields valid fits held (load_store _ _ _), left, gathered.present⟩
  · have nothing : msg.body = [] := by
      rcases gathered.length fits with ⟨bytes, content⟩ | ⟨-, nothing⟩
      · apply List.length_eq_zero_iff.mp
        by_contra some
        have positive : reading.bytes ≠ 0 := by omega
        exact asked (by rw [content, decide_eq_false positive]; rfl)
      · exact nothing
    have body : load reading.wmsg.rows bodyPlace msg.body.length = msg.body := by rw [nothing]; rfl
    rw [Message.readBody, if_neg asked]
    refine ⟨gathered.yields valid fits gathered.rows body, ?_, gathered.present⟩
    rw [stream, nothing, List.nil_append]

end Body

end Wanpipe.Mgd.Message
