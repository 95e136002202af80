import Wanpipe.Runs
import Wanpipe.Syncppp.Frames

/-! A synchronous PPP link whose own frames come back. -/

namespace Wanpipe.Syncppp

open Line Runs

/-- A frame on the line, with the number of the request that it is or that it answers. -/
structure Frame where
  number : Nat
  packet : Packet

/-- A link and what is on its line, the oldest frame first. `count` is how many numbers of requests
have been used. -/
structure Loop where
  sp : Sppp
  count : Nat
  line : List Frame

def Packet.isReq (packet : Packet) : Bool :=
  decide (packet.proto = pppLcp) && decide (packet.kind = confReq)

/-- A frame goes onto the line: an answer has the number of what it answers. -/
def Loop.put (number : Nat) (loop : Loop) (packet : Packet) : Loop :=
  if packet.isReq then
    { loop with count := loop.count + 1, line := loop.line ++ [⟨loop.count + 1, packet⟩] }
  else { loop with line := loop.line ++ [⟨number, packet⟩] }

/-- The frames of a call go onto the line. -/
def Loop.after (loop : Loop) (number : Nat) (sp : Sppp) : Loop :=
  sp.out.foldl (Loop.put number) { loop with sp := sp }

/-- What happens: the oldest frame comes back, a frame is lost, or the link is called. -/
inductive Event
  | comes (around : Around)
  | lost (place : Nat)
  | timeout (around : Around)
  | keepalive (around : Around)
  | open (around : Around)
  | close (around : Around)
  | reopen (around : Around)

/-- With the physical link what is on the line is lost. -/
def loopStep (config : Config) (loop : Loop) : Event → Option Loop
  | .comes around =>
      match loop.line with
      | [] => some loop
      | frame :: rest =>
          (call config around loop.sp (.input frame.packet.octets)).map
            (Loop.after { loop with line := rest } frame.number)
  | .lost place => some { loop with line := loop.line.eraseIdx place }
  | .timeout around => (call config around loop.sp .timeout).map (loop.after loop.count)
  | .keepalive around => (call config around loop.sp .keepalive).map (loop.after loop.count)
  | .open around => (call config around loop.sp .open).map (loop.after loop.count)
  | .close around => (call config around loop.sp .close).map (loop.after loop.count)
  | .reopen around =>
      (call config around loop.sp .reopen).map
        (Loop.after ⟨loop.sp, loop.count + 1, []⟩ loop.count)

/-- A link that has just been opened on a line with nothing on it. -/
def openLoop (config : Config) (around : Around) (before : Sppp) : Loop :=
  Loop.after ⟨before, 0, []⟩ 0 (wpSpppOpen config around { before with out := [] })

/-- No frame is on the line while 256 numbers are used. -/
def Loop.Young (loop : Loop) : Prop := ∀ frame ∈ loop.line, loop.count < frame.number + 256

instance (loop : Loop) : Decidable loop.Young :=
  inferInstanceAs (Decidable (∀ frame ∈ loop.line, loop.count < frame.number + 256))

/-- Where a link stays that hears itself. -/
structure Idle (sp : Sppp) : Prop where
  lcp : sp.lcp.state = .closed ∨ sp.lcp.state = .ackSent
  ipcp : sp.ipcp.state = .closed

/-- The number of a request as it stands in its frame. -/
def identOf (base number : Nat) : Octet := BitVec.ofNat 8 (base + number)

/-- The frames that can be on the line: a request, its acknowledgement when the magic number has
changed since, and its negative acknowledgement. -/
inductive Fair (base count : Nat) (magic : BitVec 32) : Frame → Prop
  | request (number : Nat) (told : BitVec 32) (known : number ≤ count)
      (own : number = count → told = magic) :
      Fair base count magic ⟨number, pppLcp, confReq, identOf base number, magicOption told⟩
  | ack (number : Nat) (told : BitVec 32) (old : number < count) :
      Fair base count magic ⟨number, pppLcp, confAck, identOf base number, magicOption told⟩
  | nak (number : Nat) (told : BitVec 32) (known : number ≤ count) :
      Fair base count magic ⟨number, pppLcp, confNak, identOf base number, magicOption told⟩

/-- How many frames on the line have the number of the latest request. -/
def Loop.current (loop : Loop) : Nat := loop.line.countP fun frame => frame.number == loop.count

/-- What holds of a link that hears itself, between two events. -/
structure Hears (base : Nat) (loop : Loop) : Prop where
  idle : Idle loop.sp
  seq : loop.sp.seq = BitVec.ofNat 32 (base + loop.count)
  request : loop.line ≠ [] → loop.sp.lcp.confid = identOf base loop.count
  fair : ∀ frame ∈ loop.line, Fair base loop.count loop.sp.lcp.magic frame
  single : loop.current ≤ 1

section Frames

variable {base count number : Nat} {magic : BitVec 32} {frame : Frame}

theorem identOf_inj (known : number ≤ count) (young : count < number + 256)
    (same : identOf base number = identOf base count) : number = count := by
  have numbers : (base + number) % 256 = (base + count) % 256 := by
    have octets := congrArg BitVec.toNat same
    rwa [identOf, identOf, BitVec.toNat_ofNat, BitVec.toNat_ofNat] at octets
  omega

theorem Fair.known (fair : Fair base count magic frame) : frame.number ≤ count := by
  cases fair with
  | request number told known own => exact known
  | ack number told old => exact Nat.le_of_lt old
  | nak number told known => exact known

/-- The frames of earlier requests bear any magic number. -/
theorem Fair.older {other : BitVec 32} (fair : Fair base count magic frame)
    (differ : frame.number ≠ count) : Fair base count other frame := by
  cases fair with
  | request number told known own => exact .request number told known fun same => absurd same differ
  | ack number told old => exact .ack number told old
  | nak number told known => exact .nak number told known

theorem Fair.next {other : BitVec 32} (fair : Fair base count magic frame) :
    Fair base (count + 1) other frame := by
  have differ : frame.number ≠ count + 1 := by
    have known := fair.known
    omega
  cases fair with
  | request number told known own =>
      exact .request number told (Nat.le_succ_of_le known) fun same => absurd same differ
  | ack number told old => exact .ack number told (Nat.lt_succ_of_lt old)
  | nak number told known => exact .nak number told (Nat.le_succ_of_le known)

end Frames

section Steps

variable {config : Config} {around : Around} {base number : Nat} {loop : Loop} {next : Sppp}

theorem current_none (none : loop.current = 0) : ∀ frame ∈ loop.line, frame.number ≠ loop.count := by
  intro frame member same
  have wrong := List.countP_eq_zero.mp none frame member
  rw [beq_iff_eq] at wrong
  exact wrong same

theorem after_silent (out : next.out = []) : loop.after number next = { loop with sp := next } := by
  rw [Loop.after, out]
  rfl

/-- A call that sends nothing and leaves the numbers alone. -/
theorem Hears.silent (hears : Hears base loop) (idle : Idle next) (out : next.out = [])
    (seq : next.seq = loop.sp.seq) (confid : next.lcp.confid = loop.sp.lcp.confid)
    (magic : next.lcp.magic = loop.sp.lcp.magic ∨ loop.current = 0) :
    Hears base (loop.after number next) := by
  rw [after_silent out]
  refine ⟨idle, seq.trans hears.seq, fun some => confid.trans (hears.request some), ?_, hears.single⟩
  intro frame member
  have fair := hears.fair frame member
  rcases magic with magic | none
  · rw [magic]
    exact fair
  · exact fair.older (current_none none frame member)

theorem ident_seq {sp : Sppp} {value : Nat} (seq : sp.seq = BitVec.ofNat 32 value) :
    ident sp = BitVec.ofNat 8 value := by
  rw [ident, seq]
  apply BitVec.eq_of_toNat_eq
  rw [BitVec.toNat_setWidth, BitVec.toNat_ofNat, BitVec.toNat_ofNat]
  omega

theorem put_request (packet : Packet) (isReq : packet.isReq = true) :
    loop.put number packet =
      { loop with count := loop.count + 1, line := loop.line ++ [⟨loop.count + 1, packet⟩] } := by
  rw [Loop.put, if_pos isReq]

/-- A call that sends a request. -/
theorem Hears.asks (hears : Hears base loop) (idle : Idle next)
    (seq : next.seq = loop.sp.seq + 1#32) (confid : next.lcp.confid = ident next)
    (out : next.out = [⟨pppLcp, confReq, next.lcp.confid, magicOption next.lcp.magic⟩]) :
    Hears base (loop.after number next) := by
  have counted : next.seq = BitVec.ofNat 32 (base + (loop.count + 1)) := by
    rw [seq, hears.seq, ← Nat.add_assoc]
    exact (BitVec.ofNat_add _ _).symm
  have request : next.lcp.confid = identOf base (loop.count + 1) := confid.trans (ident_seq counted)
  have after : loop.after number next =
      ⟨next, loop.count + 1, loop.line ++
        [⟨loop.count + 1, pppLcp, confReq, identOf base (loop.count + 1),
          magicOption next.lcp.magic⟩]⟩ := by
    rw [Loop.after, out, request, List.foldl_cons, List.foldl_nil]
    exact put_request _ rfl
  rw [after]
  refine ⟨idle, counted, fun _ => request, ?_, ?_⟩
  · intro frame member
    rcases List.mem_append.mp member with old | new
    · exact (hears.fair frame old).next
    · rw [List.mem_singleton.mp new]
      exact .request _ _ (Nat.le_refl _) fun _ => rfl
  · have others : loop.line.countP (fun frame => frame.number == loop.count + 1) = 0 := by
      apply List.countP_eq_zero.mpr
      intro frame member
      have known := (hears.fair frame member).known
      rw [beq_iff_eq]
      omega
    rw [Loop.current, List.countP_append, others, Nat.zero_add]
    exact List.countP_le_length

/-- The oldest frame has been taken from the line. -/
theorem Hears.taken {frame : Frame} {rest : List Frame} (hears : Hears base loop)
    (line : loop.line = frame :: rest) : Hears base { loop with line := rest } where
  idle := hears.idle
  seq := hears.seq
  request _ := hears.request (by rw [line]; exact List.cons_ne_nil _ _)
  fair other member := hears.fair other (by rw [line]; exact List.mem_cons_of_mem _ member)
  single := by
    have single := hears.single
    rw [Loop.current, line] at single
    exact (List.countP_mono_left (fun _ _ => id)).trans
      ((List.sublist_cons_self frame rest).countP_le.trans single)

theorem Hears.lost (hears : Hears base loop) (place : Nat) :
    Hears base { loop with line := loop.line.eraseIdx place } where
  idle := hears.idle
  seq := hears.seq
  request some := hears.request fun none => some (by rw [none]; rfl)
  fair frame member := hears.fair frame (List.mem_of_mem_eraseIdx member)
  single := (List.eraseIdx_sublist loop.line place).countP_le.trans hears.single

theorem lcpOpen_asks (hears : Hears base loop) {before : Sppp} (idle : Idle before)
    (seq : before.seq = loop.sp.seq) (out : before.out = []) :
    Hears base (loop.after number (lcpOpen config around before)) := by
  have sent : (lcpOpen config around before).out =
      [⟨pppLcp, confReq, (lcpOpen config around before).lcp.confid,
        magicOption (lcpOpen config around before).lcp.magic⟩] := by
    unfold lcpOpen
    split
    · exact congrArg (· ++ _) out
    · exact congrArg (· ++ _) out
  have still : Idle (lcpOpen config around before) := by
    unfold lcpOpen
    split <;> exact ⟨idle.lcp, idle.ipcp⟩
  have counts : (lcpOpen config around before).seq = loop.sp.seq + 1#32 := by
    rw [← seq]
    unfold lcpOpen
    split <;> rfl
  have confid : (lcpOpen config around before).lcp.confid = ident (lcpOpen config around before) := by
    unfold lcpOpen
    split <;> rfl
  exact hears.asks still counts confid sent

theorem ifDown_lcpOpen (sp : Sppp) :
    ifDown (lcpOpen config around sp) = lcpOpen config around (ifDown sp) := by
  unfold lcpOpen
  split <;> rfl

/-- The timer sends the request again. -/
theorem timeout_hears (hears : Hears base loop) (called : call config around loop.sp .timeout = some next) :
    Hears base (loop.after number next) := by
  cases called
  have idle : Idle (clearTimeout { loop.sp with out := [] }) := ⟨hears.idle.lcp, hears.idle.ipcp⟩
  split
  · unfold cpTimeout
    dsimp only
    split
    · exact hears.silent idle rfl rfl rfl (Or.inl rfl)
    · rcases hears.idle.lcp with state | state
      · have same : (clearTimeout { loop.sp with out := [] }).lcp.state = .closed := state
        rw [same]
        exact lcpOpen_asks hears idle rfl rfl
      · have same : (clearTimeout { loop.sp with out := [] }).lcp.state = .ackSent := state
        rw [same]
        exact lcpOpen_asks hears idle rfl rfl
  · exact hears.silent ⟨hears.idle.lcp, hears.idle.ipcp⟩ rfl rfl rfl (Or.inl rfl)

/-- No echo is sent by a link that is not up. -/
theorem keepalive_hears (hears : Hears base loop)
    (called : call config around loop.sp .keepalive = some next) :
    Hears base (loop.after number next) := by
  cases called
  have down : { loop.sp with out := [] }.lcp.state ≠ .opened := by
    intro wrong
    rcases hears.idle.lcp with state | state <;> cases state.symm.trans wrong
  have same : spppKeepalive config around { loop.sp with out := [] } = { loop.sp with out := [] } := by
    rw [spppKeepalive, if_pos down, ite_self]
  rw [same]
  exact hears.silent ⟨hears.idle.lcp, hears.idle.ipcp⟩ rfl rfl rfl (Or.inl rfl)

theorem open_hears (hears : Hears base loop) (called : call config around loop.sp .open = some next) :
    Hears base (loop.after number next) := by
  cases called
  have idle : Idle (ifDown (wpSpppClose { loop.sp with out := [] })) := ⟨Or.inl rfl, rfl⟩
  rw [wpSpppOpen, ifDown_lcpOpen]
  exact lcpOpen_asks hears idle rfl rfl

theorem close_hears (hears : Hears base loop)
    (called : call config around loop.sp .close = some next) :
    Hears base (loop.after number next) := by
  cases called
  exact hears.silent ⟨Or.inl rfl, rfl⟩ rfl rfl rfl (Or.inl rfl)

/-- A number is used for nothing, and nothing is on the line. -/
theorem reopen_hears (hears : Hears base loop)
    (called : call config around loop.sp .reopen = some next) :
    Hears base (Loop.after ⟨loop.sp, loop.count + 1, []⟩ number next) := by
  cases called
  rw [after_silent rfl]
  have counted : loop.sp.seq + 1#32 = BitVec.ofNat 32 (base + (loop.count + 1)) := by
    rw [hears.seq, ← Nat.add_assoc]
    exact (BitVec.ofNat_add _ _).symm
  refine ⟨⟨Or.inl rfl, rfl⟩, counted, fun some => absurd rfl some, ?_, Nat.zero_le 1⟩
  intro frame member
  cases member

end Steps

section Comes

variable {config : Config} {around : Around} {base number : Nat} {loop : Loop} {magic : BitVec 32}

/-- An answer goes onto the line. -/
theorem Hears.answers {next : Sppp} {frame : Frame} (hears : Hears base loop) (idle : Idle next)
    (seq : next.seq = loop.sp.seq) (confid : next.lcp.confid = identOf base loop.count)
    (magic : next.lcp.magic = loop.sp.lcp.magic) (out : next.out = [frame.packet])
    (answer : frame.packet.isReq = false) (fair : Fair base loop.count loop.sp.lcp.magic frame)
    (single : frame.number = loop.count → loop.current = 0) :
    Hears base (loop.after frame.number next) := by
  have after : loop.after frame.number next = ⟨next, loop.count, loop.line ++ [frame]⟩ := by
    rw [Loop.after, out, List.foldl_cons, List.foldl_nil, Loop.put, answer]
    rfl
  rw [after]
  refine ⟨idle, seq.trans hears.seq, fun _ => confid, ?_, ?_⟩
  · intro other member
    rw [magic]
    rcases List.mem_append.mp member with old | new
    · exact hears.fair other old
    · rw [List.mem_singleton.mp new]
      exact fair
  · rw [Loop.current, List.countP_append]
    by_cases same : frame.number = loop.count
    · have none : loop.line.countP (fun frame => frame.number == loop.count) = 0 := single same
      rw [none, Nat.zero_add]
      exact List.countP_le_length
    · have other : ¬ (frame.number == loop.count) = true := by
        rw [beq_iff_eq]
        exact same
      rw [List.countP_singleton, if_neg other]
      exact hears.single

theorem badReq_idle (config : Config) (around : Around) {sp : Sppp} (idle : Idle sp) :
    badReq config around sp = sp ∨ badReq config around sp = closed sp := by
  unfold badReq
  rcases idle.lcp with state | state
  · rw [state]
    exact Or.inl rfl
  · rw [state]
    exact Or.inr rfl

theorem sameMagic_same (config : Config) (around : Around) (ident : Octet) (sp : Sppp) :
    (sameMagic config around ident sp).lcp = sp.lcp ∧
      (sameMagic config around ident sp).ipcp = sp.ipcp ∧
      (sameMagic config around ident sp).seq = sp.seq ∧
      (sameMagic config around ident sp).out =
        sp.out ++ [⟨pppLcp, confNak, ident, magicOption (~~~sp.lcp.magic)⟩] := by
  unfold sameMagic
  split <;> exact ⟨rfl, rfl, rfl, rfl⟩

theorem ackReq_idle {sp : Sppp} (idle : Idle sp) (ident : Octet) (data : List Octet) :
    ackReq config around ident data sp =
      lcpState .ackSent (cpSend pppLcp confAck ident data sp) := by
  unfold ackReq
  rcases idle.lcp with state | state
  · rw [state]
  · have same : lcpState .ackSent sp = sp := by rw [lcpState, ← state]
    calc
      _ = cpSend pppLcp confAck ident data sp := by rw [state]
      _ = cpSend pppLcp confAck ident data (lcpState .ackSent sp) := by rw [same]
      _ = _ := rfl

theorem parse_cut (mem : List Octet) (len : Nat) (cut : ¬ around.room = true) :
    lcpConfParseOptions config around len mem = some ⟨false, 0#32, false, []⟩ := by
  rw [lcpConfParseOptions, if_neg cut]

/-- The magic number is the link's own. -/
theorem negative_hears (hears : Hears base loop) {sp : Sppp} (idle : Idle sp) (out : sp.out = [])
    (seq : sp.seq = loop.sp.seq) (same : sp.lcp = loop.sp.lcp)
    (confid : loop.sp.lcp.confid = identOf base loop.count) (known : number ≤ loop.count)
    (single : number = loop.count → loop.current = 0) :
    Hears base (loop.after number
      (badReq config around (sameMagic config around (identOf base number) sp))) := by
  obtain ⟨lcp, ipcp, kept, sent⟩ := sameMagic_same config around (identOf base number) sp
  rw [out, List.nil_append] at sent
  have still : Idle (sameMagic config around (identOf base number) sp) :=
    ⟨by rw [lcp]; exact idle.lcp, by rw [ipcp]; exact idle.ipcp⟩
  generalize sameMagic config around (identOf base number) sp = told at lcp ipcp kept sent still ⊢
  have fair : Fair base loop.count loop.sp.lcp.magic
      ⟨number, pppLcp, confNak, identOf base number, magicOption (~~~sp.lcp.magic)⟩ :=
    .nak number _ known
  have numbers : told.lcp.confid = identOf base loop.count := by rw [lcp, same, confid]
  have magic : told.lcp.magic = loop.sp.lcp.magic := by rw [lcp, same]
  rcases badReq_idle config around still with stays | ends
  · rw [stays]
    exact hears.answers still (kept.trans seq) numbers magic sent rfl fair single
  · have shut : Idle (closed told) := ⟨Or.inl rfl, rfl⟩
    rw [ends]
    refine hears.answers shut (kept.trans seq) numbers magic ?_ rfl fair single
    exact sent

/-- The magic number has changed since the request was sent. -/
theorem positive_hears (hears : Hears base loop) {sp : Sppp} (idle : Idle sp) (out : sp.out = [])
    (seq : sp.seq = loop.sp.seq) (same : sp.lcp = loop.sp.lcp)
    (confid : loop.sp.lcp.confid = identOf base loop.count) (old : number < loop.count)
    (told : BitVec 32) :
    Hears base (loop.after number
      (ackReq config around (identOf base number) (magicOption told) sp)) := by
  rw [ackReq_idle idle]
  have fair : Fair base loop.count loop.sp.lcp.magic
      ⟨number, pppLcp, confAck, identOf base number, magicOption told⟩ := .ack number told old
  have numbers : sp.lcp.confid = identOf base loop.count := by rw [same, confid]
  have magic : sp.lcp.magic = loop.sp.lcp.magic := by rw [same]
  have sent : (cpSend pppLcp confAck (identOf base number) (magicOption told) sp).out =
      [⟨pppLcp, confAck, identOf base number, magicOption told⟩] := by
    rw [cpSend, out, List.nil_append]
  have waits : Idle (lcpState .ackSent
      (cpSend pppLcp confAck (identOf base number) (magicOption told) sp)) :=
    ⟨Or.inr rfl, idle.ipcp⟩
  refine hears.answers waits seq numbers magic ?_ rfl fair fun latest => ?_
  · exact sent
  · exact absurd latest (Nat.ne_of_lt old)

/-- The link's own request comes back. -/
theorem request_hears (hears : Hears base loop) {told : BitVec 32}
    (confid : loop.sp.lcp.confid = identOf base loop.count) (known : number ≤ loop.count)
    (own : number = loop.count → told = loop.sp.lcp.magic ∧ loop.current = 0) :
    ∃ next, call config around loop.sp
        (.input (Packet.octets ⟨pppLcp, confReq, identOf base number, magicOption told⟩)) = some next ∧
      Hears base (loop.after number next) := by
  have idle := hears.idle
  have fresh : Idle { loop.sp with out := [], needAuth := loop.sp.needAuth || false } :=
    ⟨idle.lcp, idle.ipcp⟩
  have nothing : ([] : List Octet).isEmpty = true := rfl
  rw [call_request, lcpConfReq, if_neg (by decide)]
  by_cases room : around.room = true
  · rw [parse_magic config told around.behind room]
    refine ⟨_, rfl, ?_⟩
    have fine : ¬ (4 < 10 ∧ true = false) := by decide
    dsimp only
    rw [if_neg fine, if_pos nothing]
    by_cases same : told = loop.sp.lcp.magic
    · rw [if_pos same]
      exact negative_hears hears ⟨idle.lcp, idle.ipcp⟩ rfl rfl rfl confid known fun latest =>
        (own latest).2
    · rw [if_neg same]
      have old : number < loop.count :=
        Nat.lt_of_le_of_ne known fun latest => same (own latest).1
      have whole : (magicOption told ++ around.behind).take (10 - 4) = magicOption told := rfl
      rw [whole]
      apply positive_hears hears
      · exact ⟨idle.lcp, idle.ipcp⟩
      · rfl
      · rfl
      · rfl
      · exact confid
      · exact old
  · rw [parse_cut _ _ room]
    refine ⟨_, rfl, ?_⟩
    have cut : 4 < 10 ∧ false = false := by decide
    dsimp only
    rw [if_pos cut, if_pos nothing]
    rcases badReq_idle config around fresh with kept | ends
    · rw [kept]
      exact hears.silent fresh rfl rfl rfl (Or.inl rfl)
    · rw [ends]
      exact hears.silent ⟨Or.inl rfl, rfl⟩ rfl rfl rfl (Or.inl rfl)

theorem call_lcp (packet : Packet) (sp : Sppp) (lcp : packet.proto = pppLcp) :
    call config around sp (.input packet.octets) =
      lcpInput config around packet.body { sp with out := [] } := by
  rw [call, input_octets, if_pos lcp]

/-- An acknowledgement of an earlier request comes back. -/
theorem ack_hears (hears : Hears base loop) {told : BitVec 32}
    (confid : loop.sp.lcp.confid = identOf base loop.count) (old : number < loop.count)
    (young : loop.count < number + 256) :
    ∃ next, call config around loop.sp
        (.input (Packet.octets ⟨pppLcp, confAck, identOf base number, magicOption told⟩)) = some next ∧
      Hears base (loop.after number next) := by
  have size : (magicOption told).length < 65532 := by
    have six : (magicOption told).length = 6 := rfl
    omega
  have other : identOf base number ≠ loop.sp.lcp.confid := by
    intro same
    rw [confid] at same
    exact absurd (identOf_inj (Nat.le_of_lt old) young same) (Nat.ne_of_lt old)
  rw [call_lcp _ _ rfl, lcpInput_ack _ _ size, lcpConfAck, if_pos other]
  exact ⟨_, rfl, hears.silent ⟨hears.idle.lcp, hears.idle.ipcp⟩ rfl rfl rfl (Or.inl rfl)⟩

/-- A negative acknowledgement comes back: it changes the magic number when it is that of the latest
request, which is not on the line any more. -/
theorem nak_hears (hears : Hears base loop) {told : BitVec 32}
    (confid : loop.sp.lcp.confid = identOf base loop.count) (known : number ≤ loop.count)
    (young : loop.count < number + 256) (single : number = loop.count → loop.current = 0) :
    ∃ next, call config around loop.sp
        (.input (Packet.octets ⟨pppLcp, confNak, identOf base number, magicOption told⟩)) = some next ∧
      Hears base (loop.after number next) := by
  have size : (magicOption told).length < 65532 := by
    have six : (magicOption told).length = 6 := rfl
    omega
  rw [call_lcp _ _ rfl, lcpInput_nak _ _ size]
  refine ⟨_, rfl, ?_⟩
  rw [lcpConfNak]
  split
  · exact hears.silent ⟨hears.idle.lcp, hears.idle.ipcp⟩ rfl rfl rfl (Or.inl rfl)
  · next same =>
      have latest : number = loop.count :=
        identOf_inj known young ((not_not.mp same).trans confid)
      have none := single latest
      dsimp only
      unfold refused
      split
      · exact hears.silent ⟨hears.idle.lcp, hears.idle.ipcp⟩ rfl rfl rfl (Or.inr none)
      · exact hears.silent ⟨Or.inl rfl, rfl⟩ rfl rfl rfl (Or.inr none)

/-- Whatever comes back keeps what holds. -/
theorem comes_hears (config : Config) (around : Around) (hears : Hears base loop) (young : loop.Young) {frame : Frame}
    {rest : List Frame} (line : loop.line = frame :: rest) :
    ∃ next, call config around loop.sp (.input frame.packet.octets) = some next ∧
      Hears base (Loop.after { loop with line := rest } frame.number next) := by
  have member : frame ∈ loop.line := by
    rw [line]
    exact List.mem_cons_self
  have taken := hears.taken line
  have confid := hears.request (List.ne_nil_of_mem member)
  have soon := young frame member
  have fair := hears.fair frame member
  have single : frame.number = loop.count → Loop.current { loop with line := rest } = 0 := by
    intro latest
    have most := hears.single
    have same : (frame.number == loop.count) = true := beq_iff_eq.mpr latest
    rw [Loop.current, line, List.countP_cons, if_pos same] at most
    exact Nat.le_zero.mp (Nat.le_of_succ_le_succ most)
  cases fair with
  | request number told known own =>
      exact request_hears taken confid known fun latest => ⟨own latest, single latest⟩
  | ack number told old => exact ack_hears taken confid old soon
  | nak number told known => exact nak_hears taken confid known soon single

end Comes

section Runs

variable {config : Config} {base : Nat}

theorem loopStep_hears {loop : Loop} (hears : Hears base loop) (young : loop.Young) (event : Event) :
    ∃ next, loopStep config loop event = some next ∧ Hears base next := by
  cases event with
  | comes around =>
      unfold loopStep
      dsimp only
      split
      · exact ⟨loop, rfl, hears⟩
      · next frame rest line =>
          obtain ⟨next, called, keeps⟩ := comes_hears config around hears young line
          rw [called]
          exact ⟨_, rfl, keeps⟩
  | lost place => exact ⟨_, rfl, hears.lost place⟩
  | timeout around =>
      have called : call config around loop.sp .timeout = some _ := rfl
      exact ⟨_, rfl, timeout_hears hears called⟩
  | keepalive around =>
      have called : call config around loop.sp .keepalive = some _ := rfl
      exact ⟨_, rfl, keepalive_hears hears called⟩
  | «open» around =>
      have called : call config around loop.sp .open = some _ := rfl
      exact ⟨_, rfl, open_hears hears called⟩
  | close around =>
      have called : call config around loop.sp .close = some _ := rfl
      exact ⟨_, rfl, close_hears hears called⟩
  | reopen around =>
      have called : call config around loop.sp .reopen = some _ := rfl
      exact ⟨_, rfl, reopen_hears hears called⟩

theorem openLoop_hears (config : Config) (around : Around) (before : Sppp) :
    ∃ base, Hears base (openLoop config around before) := by
  have idle : Idle (ifDown (wpSpppClose { before with out := [] })) := ⟨Or.inl rfl, rfl⟩
  have counted : before.seq = BitVec.ofNat 32 (before.seq.toNat + 0) := by
    rw [Nat.add_zero, BitVec.ofNat_toNat, BitVec.setWidth_eq]
  have start : Hears before.seq.toNat ⟨ifDown (wpSpppClose { before with out := [] }), 0, []⟩ := by
    refine ⟨idle, counted, fun some => absurd rfl some, ?_, Nat.zero_le 1⟩
    intro frame member
    cases member
  refine ⟨before.seq.toNat, ?_⟩
  unfold openLoop
  rw [wpSpppOpen, ifDown_lcpOpen]
  exact lcpOpen_asks start idle rfl rfl

end Runs

end Wanpipe.Syncppp
