import Wanpipe.Mgd.MessageLoop
import Wanpipe.Runs

/-! The calls of `woomera_message_parse` on the stream of a client, one after the other. -/

namespace Wanpipe.Mgd.Message

open Line CString Store Runs
open NextPair (cr lf space)

/-- The stream of a client, and the messages on it that were not handed on. -/
structure Session where
  socket : Socket
  left : List ClientMessage

/-- Nothing of the messages has arrived yet. -/
def opened (msgs : List ClientMessage) : Session :=
  ⟨⟨[], msgs.flatMap ClientMessage.text⟩, msgs⟩

/-- A call, if it returns. A positive result hands a message on. -/
def step (session : Session) (call : Call) : Option Session :=
  match woomeraMessageParse session.socket woomeraHardTimeout call with
  | .returns socket res _ => some ⟨socket, if 0 < res then session.left.tail else session.left⟩
  | .waits => none
  | .faults => none

/-- The session ends, or the call has taken too many turns. -/
def GivenUp (call : Call) : Prop :=
  call.socketOpen = false ∨ call.mediaEnd = true ∨ call.hangup = true ∨
    (∃ round ∈ call.rounds, round.stops = true) ∨ 1001 < call.rounds.length ∨
    151 < call.rounds.countP Round.readable

/-- How many octets have arrived after so many turns of a call. -/
def arrivedBy (socket : Socket) (call : Call) (count : Nat) : Nat :=
  socket.arrived.length + arrivals (call.rounds.take count)

/-- A call that returns something hands on the next message and takes exactly its octets from the
stream, unless it has been given up. Otherwise nothing is taken, and a call goes on only while it has
not seen the whole head. -/
def Meets (session : Session) (call : Call) : Prop :=
  match woomeraMessageParse session.socket woomeraHardTimeout call with
  | .returns socket res wmsg =>
      if 0 < res then
        ∃ msg rest, session.left = msg :: rest ∧ Yields msg wmsg ∧
          session.socket.stream = msg.text ++ socket.stream
      else
        socket.stream = session.socket.stream ∧
          (res = 0 ∧ (∃ round ∈ call.rounds, round.event = true) ∨ res < 0 ∧ GivenUp call)
  | .waits =>
      ∀ msg ∈ session.left.head?, lastReadable false call.rounds = true →
        arrivedBy session.socket call call.rounds.length < msg.head.length
  | .faults => False

/-- The body is there when the head has been read, whichever turn has seen that. -/
def InTime (socket : Socket) (call : Call) (msg : ClientMessage) : Prop :=
  ∀ count, lastReadable false (call.rounds.take count) = true →
    msg.head.length ≤ arrivedBy socket call count →
      msg.text.length ≤ arrivedBy socket call count + call.bodyArrives

/-- The next message has room in the message structure, and its body is in time. -/
def Fine (session : Session) (call : Call) : Prop :=
  ∀ msg ∈ session.left.head?, Fits msg ∧ InTime session.socket call msg

section Calls

variable {msg : ClientMessage} {socket : Socket} {rest : List Octet}

/-- A head that has arrived is read, and its body with it. -/
theorem readMessage_yields (valid : msg.Valid) (fits : Fits msg)
    (stream : socket.stream = msg.text ++ rest) (arrived : msg.head.length ≤ socket.arrived.length)
    {arrives : Nat} (enough : msg.text.length ≤ socket.arrived.length + arrives) {eor : Nat}
    (ends : eor + 4 = msg.head.length) :
    ∃ next wmsg, readMessage socket eor arrives = .returns next 1 wmsg ∧ Yields msg wmsg ∧
      next.stream = rest := by
  rw [ClientMessage.text, List.append_assoc] at stream
  obtain ⟨head, left⟩ := read_stream stream arrived
  have room := valid.head
  have text : string (filled msg.head) = msg.head := string_filled valid.live room
  have bytes : (eor : Int) + 4 = msg.head.length := by omega
  obtain ⟨reading, lines, gathered⟩ := readLines_head valid fits
  have length : (socket.read msg.head.length).2.arrived.length =
      socket.arrived.length - msg.head.length := List.length_drop
  have body : msg.body.length ≤ (socket.read msg.head.length).2.arrived.length + arrives := by
    rw [ClientMessage.text, List.length_append] at enough
    omega
  obtain ⟨yields, behind, present⟩ := gathered.readBody valid fits left body
  refine ⟨_, _, ?_, yields, behind⟩
  rw [readMessage, ends, head, text]
  dsimp only
  rw [if_neg (Nat.ne_of_lt room), bytes, lines]
  dsimp only
  rw [present, if_pos rfl]

/-- What is unread of the stream are the messages that were not handed on. -/
structure Kept (session : Session) : Prop where
  stream : session.socket.stream = session.left.flatMap ClientMessage.text
  valid : ∀ msg ∈ session.left, msg.Valid

variable {session : Session} {call : Call}

theorem opened_kept {msgs : List ClientMessage} (valid : ∀ msg ∈ msgs, msg.Valid) :
    Kept (opened msgs) :=
  ⟨rfl, valid⟩

theorem Kept.next (kept : Kept session) {left : List ClientMessage}
    (first : session.left = msg :: left) :
    msg.Valid ∧ session.socket.stream = msg.text ++ left.flatMap ClientMessage.text := by
  refine ⟨kept.valid msg (first ▸ List.mem_cons_self), ?_⟩
  rw [kept.stream, first, List.flatMap_cons]

theorem awaitHead_start {reach : Nat} (headed : Headed socket.stream reach) (rounds : List Round) :
    Comes socket.stream reach rounds socket 0 0 false
      (awaitHead (-1) false rounds socket ⟨filled [], 0, 0, 0⟩) := by
  let start : Peeking := ⟨filled [], 0, 0, 0⟩
  have level : Level socket.stream socket start.buf :=
    ⟨rfl, [], rfl, List.nil_prefix, Nat.zero_le _⟩
  have unlimited : (-1 : Int) ≤ 0 := by decide
  have missed : findRecord start.buf = some none := by
    have least := headed.least
    have found := headed.found [] List.nil_prefix (Nat.zero_le _)
    rwa [if_neg (by rw [List.length_nil]; omega)] at found
  exact awaitHead_comes headed unlimited level (fun impossible => by cases impossible) fun _ => missed

/-- A call that is not given up at once. -/
theorem parse_loop (stays : (!call.socketOpen || call.mediaEnd || call.hangup) = false) :
    woomeraMessageParse socket woomeraHardTimeout call =
      match awaitHead (-1) false call.rounds socket ⟨filled [], 0, 0, 0⟩ with
      | .found socket eor => readMessage socket eor call.bodyArrives
      | .returns socket res => .returns socket res emptyMessage
      | .waits => .waits
      | .faults => .faults := by
  rw [woomeraMessageParse, stays]
  rfl

theorem parse_closed (ends : (!call.socketOpen || call.mediaEnd || call.hangup) = true) :
    woomeraMessageParse socket woomeraHardTimeout call = .returns socket (-1) emptyMessage := by
  rw [woomeraMessageParse, if_pos ends]

theorem givenUp_closed (ends : (!call.socketOpen || call.mediaEnd || call.hangup) = true) :
    GivenUp call := by
  simp only [Bool.or_eq_true, Bool.not_eq_true'] at ends
  rcases ends with (closed | mediaEnd) | hangup
  · exact Or.inl closed
  · exact Or.inr (Or.inl mediaEnd)
  · exact Or.inr (Or.inr (Or.inl hangup))

/-- A call meets what is asked of it if a head that it finds makes it hand on the next message. -/
theorem Comes.meets {reach : Nat} (headed : Headed session.socket.stream reach)
    (found : ∀ count eor, eor + 4 = reach → lastReadable false (call.rounds.take count) = true →
      reach ≤ (session.socket.arrive (arrivals (call.rounds.take count))).arrived.length →
        ∃ next wmsg msg rest,
          readMessage (session.socket.arrive (arrivals (call.rounds.take count))) eor
            call.bodyArrives = .returns next 1 wmsg ∧
          session.left = msg :: rest ∧ Yields msg wmsg ∧
          session.socket.stream = msg.text ++ next.stream)
    (heads : ∀ msg ∈ session.left.head?,
      reach = msg.head.length ∧ reach ≤ session.socket.stream.length) : Meets session call := by
  cases stays : (!call.socketOpen || call.mediaEnd || call.hangup) with
  | true =>
      rw [Meets, parse_closed stays]
      exact ⟨rfl, Or.inr ⟨by decide, givenUp_closed stays⟩⟩
  | false =>
      have comes := awaitHead_start headed call.rounds
      rw [Meets, parse_loop stays]
      generalize awaitHead (-1) false call.rounds session.socket ⟨filled [], 0, 0, 0⟩ = awaited
        at comes ⊢
      cases comes with
      | found count eor ends seen unread arrived =>
          obtain ⟨next, wmsg, msg, rest, read, left, yields, stream⟩ :=
            found count eor ends seen arrived
          dsimp only
          rw [read]
          exact ⟨msg, rest, left, yields, stream⟩
      | event next unread told => exact ⟨unread, Or.inl ⟨rfl, told⟩⟩
      | givesUp next unread why =>
          rw [Nat.zero_add, Nat.zero_add] at why
          exact ⟨unread, Or.inr ⟨by decide, Or.inr (Or.inr (Or.inr why))⟩⟩
      | waits unseen =>
          intro msg first readable
          obtain ⟨same, inside⟩ := heads msg first
          have short := unseen readable
          rw [arrive_length] at short
          rw [arrivedBy, List.take_length, ← same]
          omega

/-- A fine call meets what is asked of it. -/
theorem Kept.meets (kept : Kept session) (fine : Fine session call) : Meets session call := by
  cases left : session.left with
  | nil =>
      have stream : session.socket.stream = [] := by
        rw [kept.stream, left]
        rfl
      apply Comes.meets (stream.symm ▸ headed_nil)
      · intro count eor _ _ arrived
        rw [arrive_length, stream] at arrived
        exact absurd (Nat.le_trans arrived (Nat.min_le_right _ _)) (by decide)
      · intro msg first
        rw [left] at first
        cases first
  | cons msg rest =>
      obtain ⟨valid, stream⟩ := kept.next left
      obtain ⟨fits, inTime⟩ := fine msg (by rw [left]; rfl)
      have length : session.socket.stream.length =
          msg.text.length + (rest.flatMap ClientMessage.text).length := by
        rw [stream, List.length_append]
      have inside : msg.head.length ≤ msg.text.length := by
        rw [ClientMessage.text, List.length_append]
        exact Nat.le_add_right _ _
      apply Comes.meets (stream.symm ▸ valid.headed _)
      · intro count eor ends seen arrived
        have whole := (arrive_stream session.socket (arrivals (call.rounds.take count))).trans stream
        have come := arrived
        rw [arrive_length] at come
        have enough := inTime count seen (Nat.le_trans come (Nat.min_le_left _ _))
        have bodied : msg.text.length ≤
            (session.socket.arrive (arrivals (call.rounds.take count))).arrived.length +
              call.bodyArrives := by
          rw [arrivedBy] at enough
          rw [arrive_length]
          omega
        obtain ⟨next, wmsg, read, yields, behind⟩ :=
          readMessage_yields valid fits whole arrived bodied ends
        exact ⟨next, wmsg, msg, rest, read, left, yields, by rw [stream, behind]⟩
      · intro other first
        rw [left] at first
        cases first
        exact ⟨rfl, by omega⟩

/-- A call that meets it leaves the stream at a message. -/
theorem Kept.step {next : Session} (kept : Kept session) (meets : Meets session call)
    (moved : step session call = some next) : Kept next := by
  rw [Message.step] at moved
  rw [Meets] at meets
  cases result : woomeraMessageParse session.socket woomeraHardTimeout call with
  | waits =>
      rw [result] at moved
      cases moved
  | faults =>
      rw [result] at moved
      cases moved
  | returns socket res wmsg =>
      rw [result] at moved meets
      cases moved
      dsimp only at meets
      split at meets
      · next positive =>
          obtain ⟨msg, rest, left, -, stream⟩ := meets
          obtain ⟨-, before⟩ := kept.next left
          rw [if_pos positive, left]
          refine ⟨List.append_cancel_left (stream.symm.trans before), ?_⟩
          intro other member
          exact kept.valid other (left ▸ List.mem_cons_of_mem msg member)
      · next other =>
          rw [if_neg other]
          exact ⟨meets.1.trans kept.stream, kept.valid⟩

/-- `A` with a `Content-Length` of 2 and a body of two octets. -/
def twoOctets : ClientMessage where
  command := [0x41]
  arguments := none
  headers := [⟨[0x43, 0x6F, 0x6E, 0x74, 0x65, 0x6E, 0x74, 0x2D, 0x4C, 0x65, 0x6E, 0x67, 0x74, 0x68],
    [0x32]⟩]
  body := [0x01, 0x02]

theorem twoOctets_valid : ∀ msg ∈ [twoOctets], msg.Valid := by
  intro msg member
  rw [List.mem_singleton.mp member]
  exact {
    begins := by decide
    command := by decide
    noSpace := by decide
    arguments := by decide
    headers := by
      intro header listed
      rw [List.mem_singleton.mp listed]
      exact {
        name := by decide
        value := by decide
        noColon := by decide
        short := by decide }
    head := by decide
    body := by decide
    length := by
      intro header listed _
      rw [List.mem_singleton.mp listed]
      exact ⟨by decide, by decide, rfl⟩
    noLength := by
      intro none
      exact absurd (none _ (List.mem_singleton_self _)) (by decide) }

/-- A call in which so many octets come at once, and more before the read of a body. -/
def oneTurn (arrives bodyArrives : Nat) : Call where
  socketOpen := true
  mediaEnd := false
  hangup := false
  rounds := [⟨arrives, .readable, 0, true, true, false, false, false⟩]
  bodyArrives := bodyArrives

/-- The result of a call, and how much of the stream it leaves. -/
def leaves (socket : Socket) (call : Call) : Option (Int × Nat) :=
  match woomeraMessageParse socket woomeraHardTimeout call with
  | .returns socket res _ => some (res, socket.stream.length)
  | .waits => none
  | .faults => none

/-- A call that hands a message on leaves the rest of the stream. -/
theorem leaves_rest {res : Int} {count : Nat} {calls : List Call}
    (along : Along step Meets session (call :: calls)) (positive : 0 < res)
    (left : leaves session.socket call = some (res, count)) :
    ∃ msg rest, session.left = msg :: rest ∧
      session.socket.stream.length = msg.text.length + count := by
  obtain ⟨meets, -⟩ := along
  rw [Meets] at meets
  rw [leaves] at left
  cases result : woomeraMessageParse session.socket woomeraHardTimeout call with
  | waits =>
      rw [result] at left
      cases left
  | faults =>
      rw [result] at left
      cases left
  | returns socket res wmsg =>
      rw [result] at left meets
      cases left
      dsimp only at meets
      rw [if_pos positive] at meets
      obtain ⟨msg, rest, first, -, stream⟩ := meets
      exact ⟨msg, rest, first, by rw [stream, List.length_append]⟩

/-- The last octet of a body comes after the rest. -/
theorem woomera_messages_cut :
    (∀ msg ∈ [twoOctets], msg.Valid) ∧
      ¬ Along step Meets (opened [twoOctets]) [oneTurn 25 0] := by
  refine ⟨twoOctets_valid, ?_⟩
  intro along
  have short : leaves (opened [twoOctets]).socket (oneTurn 25 0) = some (1, 1) := by decide +kernel
  obtain ⟨msg, rest, first, length⟩ := leaves_rest along (by decide) short
  cases first
  exact absurd length (by decide)

end Calls

end Wanpipe.Mgd.Message
