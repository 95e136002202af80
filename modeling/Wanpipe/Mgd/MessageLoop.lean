import Wanpipe.Mgd.MessageHead

/-! The loop of `woomera_message_parse` that waits for a head. -/

namespace Wanpipe.Mgd.Message

open Line CString Store
open NextPair (cr lf space)

section Head

theorem linesText_live {lines : List (List Octet)} (lined : ∀ line ∈ lines, Lined line) :
    (0 : Octet) ∉ linesText lines := by
  intro member
  obtain ⟨line, listed, inside⟩ := List.mem_flatMap.mp member
  rcases List.mem_append.mp inside with written | separator
  · exact (lined line listed).2.live written
  · exact absurd separator (by decide)

theorem ClientMessage.Valid.live {msg : ClientMessage} (valid : msg.Valid) :
    (0 : Octet) ∉ msg.head := by
  intro member
  rcases List.mem_append.mp member with lines | separator
  · exact linesText_live valid.lined lines
  · exact absurd separator (by decide)

theorem strstr_line {first : Octet} (other : first ≠ cr) (rest : List Octet) :
    strstr woomeraRecordSeperator (cr :: lf :: first :: rest) =
      (strstr woomeraRecordSeperator (first :: rest)).map (· + 2) := by
  have third : (cr :: lf :: first :: rest).take woomeraRecordSeperator.length ≠
      woomeraRecordSeperator := by
    intro same
    exact other (List.cons.inj (List.cons.inj (List.cons.inj same).2).2).1
  have second : (lf :: first :: rest).take woomeraRecordSeperator.length ≠
      woomeraRecordSeperator := by
    intro same
    exact absurd (List.cons.inj same).1 (by decide)
  rw [strstr, if_neg third, strstr, if_neg second, Option.map_map]
  rfl

/-- A head ends where the first empty line does. -/
theorem record_found {lines : List (List Octet)} (lined : ∀ line ∈ lines, Lined line)
    (some : lines ≠ []) :
    ∃ place, strstr woomeraRecordSeperator (linesText lines ++ woomeraLineSeperator) = .some place ∧
      place + 4 = (linesText lines ++ woomeraLineSeperator).length := by
  induction lines with
  | nil => exact absurd rfl some
  | cons line lines ih =>
      have here := lined line List.mem_cons_self
      have behind (rest : List Octet) : strstr woomeraRecordSeperator (line ++ rest) =
          (strstr woomeraRecordSeperator rest).map (· + line.length) :=
        strstr_other here.2.noCr rest
      cases lines with
      | nil =>
          refine ⟨line.length, ?_, ?_⟩
          · rw [linesText_cons, List.append_assoc, behind]
            simp [linesText, woomeraLineSeperator, woomeraRecordSeperator, strstr]
          · simp [linesText, woomeraLineSeperator]
      | cons second lines =>
          have later : ∀ other ∈ second :: lines, Lined other := fun other member =>
            lined other (List.mem_cons_of_mem line member)
          obtain ⟨place, found, ends⟩ := ih later (List.cons_ne_nil second lines)
          obtain ⟨begins, written⟩ := later second List.mem_cons_self
          obtain ⟨first, rest, rfl⟩ := List.exists_cons_of_ne_nil begins
          have solid := (written first List.mem_cons_self).2.1
          refine ⟨place + 2 + line.length, ?_, ?_⟩
          · rw [linesText_cons, List.append_assoc, List.append_assoc, behind]
            rw [linesText_cons, List.cons_append, List.cons_append] at found ⊢
            rw [woomeraLineSeperator, List.cons_append, List.cons_append, List.nil_append,
              strstr_line solid]
            rw [woomeraLineSeperator] at found
            rw [found]
            rfl
          · rw [linesText_cons, List.append_assoc, List.append_assoc, List.length_append,
              List.length_append, ← ends]
            simp only [woomeraLineSeperator, List.length_cons, List.length_nil]
            omega

end Head

section Headed

theorem string_filled {text : List Octet} (live : (0 : Octet) ∉ text) (short : text.length < bufSize) :
    string (filled text) = text := by
  obtain ⟨more, size⟩ := Nat.exists_eq_add_of_lt short
  have pad : bufSize - text.length = more + 1 := by omega
  rw [filled, pad]
  exact string_of live _

/-- How the front of a stream looks in the buffer: the end of the head, of `reach` octets, is found
as soon as it is there, and there is no empty line in front. -/
structure Headed (stream : List Octet) (reach : Nat) : Prop where
  found : ∀ front, front <+: stream → front.length ≤ bufSize →
    findRecord (filled front) = some (if reach ≤ front.length then some (reach - 4) else none)
  solid : ∀ front, front <+: stream → front.length ≤ bufSize →
    (filled front).take 2 ≠ woomeraLineSeperator
  least : 4 ≤ reach
  most : reach ≤ bufSize

theorem filled_nil : filled [] = 0 :: List.replicate (bufSize - 1) 0 := rfl

theorem solid_nil : (filled []).take 2 ≠ woomeraLineSeperator := by
  rw [filled_nil]
  intro same
  exact absurd (List.cons.inj same).1 (by decide)

theorem headed_nil : Headed [] 4 where
  found front part _ := by
    have text : string (filled []) = [] := by
      rw [filled_nil, string, List.takeWhile_cons_of_neg (by simp)]
    have size : (filled []).length = bufSize := by
      rw [filled_nil, List.length_cons, List.length_replicate]
      rfl
    rw [List.prefix_nil.mp part, findRecord, text, size]
    rfl
  solid front part _ := by
    rw [List.prefix_nil.mp part]
    exact solid_nil
  least := Nat.le_refl 4
  most := by decide

variable {msg : ClientMessage}

theorem ClientMessage.Valid.found (valid : msg.Valid) :
    strstr woomeraRecordSeperator msg.head = some (msg.head.length - 4) := by
  obtain ⟨place, found, ends⟩ := record_found valid.lined (List.cons_ne_nil _ _)
  rw [ClientMessage.head, found, ← ends, Nat.add_sub_cancel]

theorem ClientMessage.Valid.four (valid : msg.Valid) : 4 ≤ msg.head.length := by
  obtain ⟨place, -, ends⟩ := record_found valid.lined (List.cons_ne_nil _ _)
  rw [ClientMessage.head, ← ends]
  exact Nat.le_add_left 4 place

/-- A head begins with the first octet of its command. -/
theorem ClientMessage.Valid.first (valid : msg.Valid) :
    ∃ octet rest, msg.head = octet :: rest ∧ octet ≠ cr := by
  obtain ⟨begins, written⟩ := valid.firstLine
  obtain ⟨octet, rest, line⟩ := List.exists_cons_of_ne_nil begins
  have solid := written octet (by rw [line]; exact List.mem_cons_self)
  rw [ClientMessage.head, ClientMessage.lines, linesText_cons, line]
  exact ⟨octet, _, rfl, solid.2.1⟩

/-- Of a head that is not there as a whole the end is not found. -/
theorem ClientMessage.Valid.unfound (valid : msg.Valid) {front behind : List Octet}
    (head : msg.head = front ++ behind) (short : front.length < msg.head.length) :
    strstr woomeraRecordSeperator front = none := by
  cases found : strstr woomeraRecordSeperator front with
  | none => rfl
  | some place =>
      have inside := strstr_inside found
      have whole := strstr_append found behind
      rw [← head, valid.found, Option.some.injEq] at whole
      have four := valid.four
      have length : woomeraRecordSeperator.length = 4 := rfl
      omega

theorem ClientMessage.Valid.headed (valid : msg.Valid) (rest : List Octet) :
    Headed (msg.text ++ rest) msg.head.length where
  found front part few := by
    rw [ClientMessage.text, List.append_assoc] at part
    by_cases whole : msg.head.length ≤ front.length
    · have inside : msg.head <+: front :=
        List.prefix_of_prefix_length_le (List.prefix_append _ _) part whole
      obtain ⟨behind, rfl⟩ := inside
      have text : ∃ more, string (filled (msg.head ++ behind)) = msg.head ++ more := by
        refine ⟨string (behind ++ List.replicate (bufSize - (msg.head ++ behind).length) 0), ?_⟩
        have live : ∀ octet ∈ msg.head, decide (octet ≠ 0) = true := by
          intro octet member
          exact decide_eq_true fun zero => valid.live (zero ▸ member)
        rw [filled, List.append_assoc]
        exact List.takeWhile_append_of_pos live
      obtain ⟨more, text⟩ := text
      rw [findRecord, text, strstr_append valid.found more, if_pos whole]
    · have short : front.length < msg.head.length := Nat.lt_of_not_le whole
      obtain ⟨behind, head⟩ : front <+: msg.head :=
        List.prefix_of_prefix_length_le part (List.prefix_append _ _) (Nat.le_of_lt short)
      have live : (0 : Octet) ∉ front := fun member =>
        valid.live (head ▸ List.mem_append_left behind member)
      have room := valid.head
      have text : string (filled front) = front := string_filled live (Nat.lt_trans short room)
      have size : (filled front).length = bufSize := by
        rw [filled, List.length_append, List.length_replicate]
        omega
      rw [findRecord, text, valid.unfound head.symm short, if_neg whole]
      exact if_neg (by omega)
  solid front part _ := by
    cases front with
    | nil => exact solid_nil
    | cons first front =>
        obtain ⟨octet, behind, head, solid⟩ := valid.first
        rw [ClientMessage.text, head] at part
        have same := (List.cons_prefix_cons.mp part).1
        intro empty
        exact solid (same ▸ (List.cons.inj empty).1)
  least := valid.four
  most := Nat.le_of_lt valid.head

end Headed

/-- A turn in which the call may give up. -/
def Round.stops (round : Round) : Bool :=
  decide (round.poll = .failed) || !round.masterRunning || !round.running || round.mediaEnd ||
    round.hangup

def Round.readable (round : Round) : Bool := decide (round.poll = .readable)

/-- How many octets come in these turns. -/
def arrivals : List Round → Nat
  | [] => 0
  | round :: rounds => round.arrives + arrivals rounds

/-- The last turn finds the socket readable. -/
def lastReadable : Bool → List Round → Bool
  | before, [] => before
  | _, round :: rounds => lastReadable round.readable rounds

section Loop

variable {stream : List Octet} {reach : Nat} {timeout : Int} {failto : Bool} {round : Round}
  {socket : Socket} {peeking : Peeking}

theorem arrive_zero (socket : Socket) : socket.arrive 0 = socket := by
  rw [Socket.arrive, List.take_zero, List.append_nil, List.drop_zero]

theorem arrive_arrive (socket : Socket) (first second : Nat) :
    (socket.arrive first).arrive second = socket.arrive (first + second) := by
  simp only [Socket.arrive, List.append_assoc, List.drop_drop, List.take_add]

/-- The buffer holds a front of what has arrived. -/
structure Level (stream : List Octet) (socket : Socket) (buf : List Octet) : Prop where
  stream : socket.stream = stream
  buf : ∃ front, buf = filled front ∧ front <+: socket.arrived ∧ front.length ≤ bufSize

theorem Level.arrive {buf : List Octet} (level : Level stream socket buf) (count : Nat) :
    Level stream (socket.arrive count) buf where
  stream := (arrive_stream socket count).trans level.stream
  buf := by
    obtain ⟨front, same, part, few⟩ := level.buf
    exact ⟨front, same, part.trans (List.prefix_append _ _), few⟩

theorem Level.solid {buf : List Octet} (headed : Headed stream reach)
    (level : Level stream socket buf) : buf.take 2 ≠ woomeraLineSeperator := by
  obtain ⟨front, rfl, part, few⟩ := level.buf
  apply headed.solid front _ few
  rw [← level.stream]
  exact part.trans (List.prefix_append _ _)

theorem peek_filled {front arrived : List Octet} (part : front <+: arrived)
    (few : front.length ≤ bufSize) :
    peek (filled front) arrived = filled (arrived.take bufSize) := by
  have longer : front.length ≤ (arrived.take bufSize).length := by
    rw [List.length_take]
    exact Nat.le_min.mpr ⟨few, part.length_le⟩
  have rest : (filled front).drop (arrived.take bufSize).length =
      List.replicate (bufSize - (arrived.take bufSize).length) 0 := by
    rw [filled, List.drop_append, List.drop_eq_nil_of_le longer, List.drop_replicate,
      List.nil_append]
    congr 1
    omega
  rw [peek, rest]
  rfl

theorem Level.peek {buf : List Octet} (level : Level stream socket buf) :
    Message.peek buf socket.arrived = filled (socket.arrived.take bufSize) ∧
      Level stream socket (filled (socket.arrived.take bufSize)) := by
  obtain ⟨front, rfl, part, few⟩ := level.buf
  refine ⟨peek_filled part few, level.stream, _, rfl, List.take_prefix _ _, ?_⟩
  exact List.length_take_le _ _

/-- What a turn can do. -/
inductive Turned (stream : List Octet) (round : Round) (socket : Socket) (peeking : Peeking) :
    Turn → Prop
  | goes (after : Peeking) (level : Level stream (socket.arrive round.arrives) after.buf)
      (sanity : after.sanity ≤ peeking.sanity + 1)
      (loops : after.loops ≤ peeking.loops + if round.readable then 1 else 0)
      (seen : round.readable = true →
        after.buf = filled ((socket.arrive round.arrives).arrived.take bufSize))
      (unseen : round.readable = false → after.buf = peeking.buf) :
      Turned stream round socket peeking (.goes (socket.arrive round.arrives) after)
  | event (next : Socket) (unread : next.stream = stream) (told : round.event = true) :
      Turned stream round socket peeking (.returns next 0)
  | givesUp (next : Socket) (unread : next.stream = stream)
      (why : round.stops = true ∨ 1000 < peeking.sanity ∨
        round.readable = true ∧ 150 < peeking.loops) :
      Turned stream round socket peeking (.returns next (-1))

theorem idle_turned (level : Level stream (socket.arrive round.arrives) peeking.buf) {seen : Peeking}
    (more : Level stream (socket.arrive round.arrives) seen.buf)
    (sanity : seen.sanity = peeking.sanity) (loops : seen.loops = peeking.loops)
    (whole : round.readable = true →
      seen.buf = filled ((socket.arrive round.arrives).arrived.take bufSize))
    (same : round.readable = false → seen.buf = peeking.buf) :
    Turned stream round socket peeking (idle round (socket.arrive round.arrives) seen) := by
  unfold idle
  split
  · next stops =>
      refine .givesUp _ level.stream (Or.inl ?_)
      simp only [Bool.or_eq_true] at stops
      simp only [Round.stops, Bool.or_eq_true]
      tauto
  · refine .goes _ more (by rw [sanity]) ?_ whole same
    rw [loops]
    exact Nat.le_add_right _ _

theorem ready_turned (unlimited : timeout ≤ 0) (readable : round.readable = true) {seen : Peeking}
    (level : Level stream (socket.arrive round.arrives) seen.buf)
    (sanity : seen.sanity = peeking.sanity) (loops : seen.loops = peeking.loops)
    (whole : seen.buf = filled ((socket.arrive round.arrives).arrived.take bufSize)) :
    Turned stream round socket peeking
      (ready timeout failto round (socket.arrive round.arrives) seen) := by
  unfold ready
  split
  · next late => exact .givesUp _ level.stream (Or.inr (Or.inr ⟨readable, loops ▸ late.2⟩))
  · split
    · next timedOut => exact absurd timedOut.1 (Int.not_lt.mpr unlimited)
    · split
      · next told => exact .event _ level.stream told
      · split
        · next stops =>
            refine .givesUp _ level.stream (Or.inl ?_)
            simp only [Bool.or_eq_true] at stops
            simp only [Round.stops, Bool.or_eq_true]
            tauto
        · refine .goes _ level (Nat.le_succ_of_le (Nat.le_of_eq sanity)) ?_ (fun _ => whole)
            (fun unread => absurd readable (by rw [unread]; decide))
          rw [readable, if_pos rfl]
          exact Nat.le_of_eq (congrArg (· + 1) loops)

theorem turn_turned (headed : Headed stream reach) (level : Level stream socket peeking.buf)
    (unlimited : timeout ≤ 0) :
    Turned stream round socket peeking (turn timeout failto round socket peeking) := by
  have arrived := level.arrive round.arrives
  obtain ⟨peeked, seen⟩ := arrived.peek
  unfold turn
  dsimp only
  split
  · next insane => exact .givesUp _ level.stream (Or.inr (Or.inl insane))
  · split
    · next quiet =>
        have unread : round.readable = false := by simp [Round.readable, quiet]
        exact idle_turned arrived arrived rfl rfl (by simp [unread]) (fun _ => rfl)
    · next failed =>
        rw [if_neg (arrived.solid headed)]
        exact .givesUp _ arrived.stream (Or.inl (by simp [Round.stops, failed]))
    · next readable =>
        have open' : round.readable = true := by simp [Round.readable, readable]
        rw [peeked, if_neg (seen.solid headed)]
        split
        · exact idle_turned arrived seen rfl rfl (fun _ => rfl) (by simp [open'])
        · exact ready_turned unlimited open' seen rfl rfl rfl

/-- What can come of the loop. The head is found where it ends, after a turn that sees it arrived, and
the loop gives up for a reason, or goes on only while the head is not seen. -/
inductive Comes (stream : List Octet) (reach : Nat) (rounds : List Round) (socket : Socket)
    (sanity loops : Nat) (whole : Bool) : Awaited → Prop
  | found (count eor : Nat) (ends : eor + 4 = reach)
      (seen : lastReadable whole (rounds.take count) = true)
      (unread : (socket.arrive (arrivals (rounds.take count))).stream = stream)
      (arrived : reach ≤ (socket.arrive (arrivals (rounds.take count))).arrived.length) :
      Comes stream reach rounds socket sanity loops whole
        (.found (socket.arrive (arrivals (rounds.take count))) eor)
  | event (next : Socket) (unread : next.stream = stream)
      (told : ∃ round ∈ rounds, round.event = true) :
      Comes stream reach rounds socket sanity loops whole (.returns next 0)
  | givesUp (next : Socket) (unread : next.stream = stream)
      (why : (∃ round ∈ rounds, round.stops = true) ∨ 1001 < sanity + rounds.length ∨
        151 < loops + rounds.countP Round.readable) :
      Comes stream reach rounds socket sanity loops whole (.returns next (-1))
  | waits (unseen : lastReadable whole rounds = true →
        (socket.arrive (arrivals rounds)).arrived.length < reach) :
      Comes stream reach rounds socket sanity loops whole .waits

variable {rounds : List Round} {whole : Bool}

/-- At the start of a turn the end of the head is found exactly if the head is in the buffer. -/
theorem findRecord_level (headed : Headed stream reach) (level : Level stream socket peeking.buf)
    (full : whole = true → peeking.buf = filled (socket.arrived.take bufSize)) :
    (findRecord peeking.buf = some (some (reach - 4)) ∧ reach ≤ socket.arrived.length) ∨
      (findRecord peeking.buf = some none ∧
        (whole = true → socket.arrived.length < reach)) := by
  obtain ⟨front, same, part, few⟩ := level.buf
  have inside : front <+: stream := by
    rw [← level.stream]
    exact part.trans (List.prefix_append _ _)
  have found := headed.found front inside few
  rw [← same] at found
  by_cases there : reach ≤ front.length
  · rw [if_pos there] at found
    exact Or.inl ⟨found, Nat.le_trans there part.length_le⟩
  · rw [if_neg there] at found
    refine Or.inr ⟨found, ?_⟩
    intro seen
    have most := headed.most
    have taken : socket.arrived.take bufSize <+: stream := by
      rw [← level.stream]
      exact (List.take_prefix _ _).trans (List.prefix_append _ _)
    have again := headed.found _ taken (List.length_take_le _ _)
    rw [← full seen, found] at again
    by_contra long
    rw [if_pos] at again
    · cases again
    · rw [List.length_take]
      omega

theorem Comes.here {sanity loops : Nat} (least : 4 ≤ reach) (seen : whole = true)
    (unread : socket.stream = stream) (arrived : reach ≤ socket.arrived.length) :
    Comes stream reach rounds socket sanity loops whole (.found socket (reach - 4)) := by
  have none : socket.arrive (arrivals (rounds.take 0)) = socket := arrive_zero socket
  have comes : Comes stream reach rounds socket sanity loops whole
      (.found (socket.arrive (arrivals (rounds.take 0))) (reach - 4)) := by
    apply Comes.found 0 (reach - 4) (Nat.sub_add_cancel least) seen
    · rw [none, unread]
    · rw [none]
      exact arrived
  rwa [none] at comes

/-- What comes of the turns that follow comes of them all. -/
theorem Comes.later {awaited : Awaited} {sanity loops sanity' loops' : Nat} {before : Bool}
    (comes : Comes stream reach rounds (socket.arrive round.arrives) sanity' loops' round.readable
      awaited)
    (sane : sanity' ≤ sanity + 1) (looped : loops' ≤ loops + if round.readable then 1 else 0) :
    Comes stream reach (round :: rounds) socket sanity loops before awaited := by
  have all (rest : List Round) : (socket.arrive round.arrives).arrive (arrivals rest) =
      socket.arrive (arrivals (round :: rest)) :=
    arrive_arrive socket round.arrives (arrivals rest)
  cases comes with
  | found count eor ends seen unread arrived =>
      rw [all] at unread arrived ⊢
      exact .found (count + 1) eor ends seen unread arrived
  | event next unread told =>
      obtain ⟨other, member, event⟩ := told
      exact .event next unread ⟨other, List.mem_cons_of_mem round member, event⟩
  | givesUp next unread why =>
      refine .givesUp next unread ?_
      rcases why with ⟨other, member, stops⟩ | many | busy
      · exact Or.inl ⟨other, List.mem_cons_of_mem round member, stops⟩
      · right
        left
        rw [List.length_cons]
        omega
      · right
        right
        rw [List.countP_cons]
        omega
  | waits unseen =>
      refine .waits fun readable => ?_
      rw [← all]
      exact unseen readable

/-- A head that was not found before is found because a turn has seen it. -/
theorem seen_found {buf : List Octet} {eor : Nat}
    (missed : whole = false → findRecord buf = some none)
    (found : findRecord buf = some (some eor)) : whole = true := by
  cases whole with
  | true => rfl
  | false =>
      rw [missed rfl] at found
      cases found

theorem awaitHead_comes (headed : Headed stream reach) (unlimited : timeout ≤ 0)
    (level : Level stream socket peeking.buf)
    (full : whole = true → peeking.buf = filled (socket.arrived.take bufSize))
    (missed : whole = false → findRecord peeking.buf = some none) :
    Comes stream reach rounds socket peeking.sanity peeking.loops whole
      (awaitHead timeout failto rounds socket peeking) := by
  induction rounds generalizing socket peeking whole with
  | nil =>
      rw [awaitHead]
      rcases findRecord_level headed level full with ⟨found, arrived⟩ | ⟨unfound, unseen⟩
      · rw [found]
        exact Comes.here headed.least (seen_found missed found) level.stream arrived
      · rw [unfound]
        refine .waits ?_
        rw [arrivals, arrive_zero]
        exact unseen
  | cons round rounds ih =>
      rw [awaitHead]
      rcases findRecord_level headed level full with ⟨found, arrived⟩ | ⟨unfound, unseen⟩
      · rw [found]
        exact Comes.here headed.least (seen_found missed found) level.stream arrived
      · have turned : Turned stream round socket peeking (turn timeout failto round socket peeking) :=
          turn_turned headed level unlimited
        rw [unfound]
        dsimp only
        generalize turn timeout failto round socket peeking = moved at turned ⊢
        cases turned with
        | goes after next sanity loops seen same =>
            have missed : round.readable = false → findRecord after.buf = some none := by
              intro unread
              rw [same unread, unfound]
            exact (ih next seen missed).later sanity loops
        | event next unread told => exact .event next unread ⟨round, List.mem_cons_self, told⟩
        | givesUp next unread why =>
            refine .givesUp next unread ?_
            rcases why with stops | insane | ⟨readable, late⟩
            · exact Or.inl ⟨round, List.mem_cons_self, stops⟩
            · right
              left
              rw [List.length_cons]
              omega
            · right
              right
              rw [List.countP_cons, if_pos readable]
              omega

end Loop

end Wanpipe.Mgd.Message
