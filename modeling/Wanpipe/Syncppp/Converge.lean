import Wanpipe.Confluence
import Wanpipe.Syncppp.Frames

/-! Two synchronous PPP links that are opened at the two ends of a line. -/

namespace Wanpipe.Syncppp

open Line Runs Confluence

/-- An end of the line: how many frames have come, and the link. -/
structure Party where
  sp : Sppp
  count : Nat

/-- `arounds` is what the calls find around them, one after the other. -/
def answer (config : Config) (arounds : Nat → Around) (party : Party) (packet : Packet) :
    Option (Party × List Packet) :=
  (call config (arounds party.count) party.sp (.input packet.octets)).map fun sp =>
    (⟨sp, party.count + 1⟩, sp.out)

section Stages

/-- How far the negotiation is: the states, and the numbers of the requests. -/
structure Stage (link ip : CpState) (request address : Octet) (sp : Sppp) : Prop where
  lcp : sp.lcp.state = link
  ipcp : sp.ipcp.state = ip
  request : sp.lcp.confid = request
  address : sp.ipcp.confid = address
  needAuth : sp.needAuth = false
  up : link = .opened → sp.linkUp = true

variable {config : Config} {around : Around} {sp : Sppp} {request address : Octet}

theorem ipcpInput_request (number : Octet) :
    ipcpInput config around (Packet.body ⟨pppIpcp, confReq, number, []⟩) sp =
      some (ipcpConfReq config around number 4 around.behind sp) := by
  rfl

theorem ipcpInput_ack (number : Octet) :
    ipcpInput config around (Packet.body ⟨pppIpcp, confAck, number, []⟩) sp =
      some (ipcpConfAck number sp) := by
  rfl

theorem notLcp : ¬ pppIpcp = pppLcp := by decide

/-- The peer's request is acknowledged. -/
theorem request_answer (stage : Stage .closed .closed request address sp) (room : around.room = true)
    {magic : BitVec 32} (differ : magic ≠ sp.lcp.magic) (number : Octet) :
    ∃ next, call config around sp
        (.input (Packet.octets ⟨pppLcp, confReq, number, magicOption magic⟩)) = some next ∧
      Stage .ackSent .closed request address next ∧
      next.out = [⟨pppLcp, confAck, number, magicOption magic⟩] := by
  have parsed := parse_magic config magic around.behind room
  have whole : (magicOption magic ++ around.behind).take 6 = magicOption magic := rfl
  rw [call_request, lcpConfReq, if_neg (by decide), parsed]
  refine ⟨_, rfl, ?_⟩
  have fine : ¬ (4 < 10 ∧ true = false) := by decide
  have nothing : ([] : List Octet).isEmpty = true := rfl
  dsimp only
  rw [if_neg fine, if_pos nothing, if_neg differ, whole]
  unfold ackReq
  dsimp only
  rw [stage.lcp]
  have needAuth : (sp.needAuth || false) = false := by rw [stage.needAuth, Bool.or_false]
  exact ⟨⟨rfl, stage.ipcp, stage.request, stage.address, needAuth, fun wrong => by cases wrong⟩, rfl⟩

theorem lcpUp_plain (number : Octet) (sp : Sppp) (plain : sp.needAuth = false) :
    lcpUp config around number sp = ipcpOpen config (lcpState .opened sp) := by
  unfold lcpUp lcpState
  dsimp only
  rw [plain]
  rfl

/-- The peer acknowledges, and the addresses are next. -/
theorem ack_answer (stage : Stage .ackSent .closed request address sp) (up : around.up = true)
    (static : config.dynamicIp = false) (magic : BitVec 32) :
    ∃ next address, call config around sp
        (.input (Packet.octets ⟨pppLcp, confAck, request, magicOption magic⟩)) = some next ∧
      Stage .opened .closed request address next ∧
      next.out = [⟨pppIpcp, confReq, address, []⟩] := by
  have size : (magicOption magic).length = 6 := rfl
  have input : call config around sp
      (.input (Packet.octets ⟨pppLcp, confAck, request, magicOption magic⟩)) =
      some (lcpConfAck config around request { sp with out := [] }) := by
    rw [call, input_octets, if_pos rfl, lcpInput_ack _ _ (size ▸ by decide)]
  have same : ¬ request ≠ sp.lcp.confid := not_not.mpr stage.request.symm
  refine ⟨_, ident (nextSeq sp), input, ?_⟩
  unfold lcpConfAck
  dsimp only [clearTimeout]
  rw [if_neg same, stage.lcp]
  dsimp only
  rw [lcpUp_plain request _ (by exact stage.needAuth)]
  unfold ipcpOpen
  dsimp only
  rw [static, up]
  exact ⟨⟨rfl, stage.ipcp, stage.request, rfl, stage.needAuth, fun _ => Bool.or_true _⟩, rfl⟩

theorem ipRequest_answer (stage : Stage .opened .closed request address sp) (number : Octet) :
    ∃ next, call config around sp
        (.input (Packet.octets ⟨pppIpcp, confReq, number, []⟩)) = some next ∧
      Stage .opened .ackSent request address next ∧
      next.out = [⟨pppIpcp, confAck, number, []⟩] := by
  have input : call config around sp (.input (Packet.octets ⟨pppIpcp, confReq, number, []⟩)) =
      some (ipcpConfReq config around number 4 around.behind { sp with out := [] }) := by
    rw [call, input_octets, if_neg notLcp, if_pos rfl, if_pos stage.lcp, ipcpInput_request]
  have state : ¬ sp.ipcp.state = .ackRcvd := by
    rw [stage.ipcp]
    decide
  refine ⟨_, input, ?_⟩
  unfold ipcpConfReq
  dsimp only
  rw [if_neg (by decide), if_pos rfl, if_neg state]
  exact ⟨⟨stage.lcp, rfl, stage.request, stage.address, stage.needAuth, stage.up⟩, rfl⟩

theorem ipAck_answer (stage : Stage .opened .ackSent request address sp) :
    ∃ next, call config around sp
        (.input (Packet.octets ⟨pppIpcp, confAck, address, []⟩)) = some next ∧
      Stage .opened .opened request address next ∧ next.timo = false ∧ next.out = [] := by
  have input : call config around sp (.input (Packet.octets ⟨pppIpcp, confAck, address, []⟩)) =
      some (ipcpConfAck address { sp with out := [] }) := by
    rw [call, input_octets, if_neg notLcp, if_pos rfl, if_pos stage.lcp, ipcpInput_ack]
  have same : ¬ address ≠ sp.ipcp.confid := not_not.mpr stage.address.symm
  refine ⟨_, input, ?_⟩
  unfold ipcpConfAck
  dsimp only [clearTimeout]
  rw [if_neg same, stage.ipcp]
  exact ⟨⟨stage.lcp, rfl, stage.request, stage.address, stage.needAuth, stage.up⟩, rfl, rfl⟩

end Stages

section Links

/-- What the calls at an end of the line find: addresses that are set, a device that is up, memory. -/
structure Plain (config : Config) (arounds : Nat → Around) : Prop where
  static : config.dynamicIp = false
  up : ∀ count, (arounds count).up = true
  room : ∀ count, (arounds count).room = true

/-- The link after `wp_sppp_open`. -/
def openParty (config : Config) (before : Sppp) (opening : Around) : Party :=
  ⟨wpSpppOpen config opening { before with out := [] }, 0⟩

/-- Both ends have been opened, and their first frames are under way. -/
def openLinks (left right : Party) : Network Party Party Packet :=
  ⟨left, right, right.sp.out, left.sp.out⟩

/-- Both protocols are up, and no timer is set. -/
structure Established (sp : Sppp) : Prop where
  lcp : sp.lcp.state = .opened
  ipcp : sp.ipcp.state = .opened
  up : sp.linkUp = true
  timo : sp.timo = false

variable {config : Config} {arounds : Nat → Around} {party : Party} {request address : Octet}

theorem answer_of_call {packet : Packet} {next : Sppp} {out : List Packet}
    (called : call config (arounds party.count) party.sp (.input packet.octets) = some next)
    (sent : next.out = out) :
    answer config arounds party packet = some (⟨next, party.count + 1⟩, out) := by
  rw [answer, called, ← sent]
  rfl

theorem party_request (plain : Plain config arounds)
    (stage : Stage .closed .closed request address party.sp) {magic : BitVec 32}
    (differ : magic ≠ party.sp.lcp.magic) (number : Octet) :
    ∃ next, answer config arounds party ⟨pppLcp, confReq, number, magicOption magic⟩ =
        some (next, [⟨pppLcp, confAck, number, magicOption magic⟩]) ∧
      Stage .ackSent .closed request address next.sp := by
  obtain ⟨next, called, after, sent⟩ := request_answer stage (plain.room party.count) differ number
  exact ⟨_, answer_of_call called sent, after⟩

theorem party_ack (plain : Plain config arounds)
    (stage : Stage .ackSent .closed request address party.sp) (magic : BitVec 32) :
    ∃ next address, answer config arounds party ⟨pppLcp, confAck, request, magicOption magic⟩ =
        some (next, [⟨pppIpcp, confReq, address, []⟩]) ∧
      Stage .opened .closed request address next.sp := by
  obtain ⟨next, address, called, after, sent⟩ :=
    ack_answer stage (plain.up party.count) plain.static magic
  exact ⟨_, address, answer_of_call called sent, after⟩

theorem party_ipRequest (config : Config) (arounds : Nat → Around)
    (stage : Stage .opened .closed request address party.sp) (number : Octet) :
    ∃ next, answer config arounds party ⟨pppIpcp, confReq, number, []⟩ =
        some (next, [⟨pppIpcp, confAck, number, []⟩]) ∧
      Stage .opened .ackSent request address next.sp := by
  obtain ⟨next, called, after, sent⟩ := ipRequest_answer stage number
  exact ⟨_, answer_of_call called sent, after⟩

theorem party_ipAck (config : Config) (arounds : Nat → Around)
    (stage : Stage .opened .ackSent request address party.sp) :
    ∃ next, answer config arounds party ⟨pppIpcp, confAck, address, []⟩ = some (next, []) ∧
      Established next.sp := by
  obtain ⟨next, called, after, timo, sent⟩ := ipAck_answer stage
  exact ⟨_, answer_of_call called sent, after.lcp, after.ipcp, after.up rfl, timo⟩

theorem openParty_stage {before : Sppp} (plain : Plain config arounds)
    (needAuth : before.needAuth = false) (opening : Around) :
    Stage .closed .closed (openParty config before opening).sp.lcp.confid
        (openParty config before opening).sp.ipcp.confid (openParty config before opening).sp ∧
      (openParty config before opening).sp.out =
        [⟨pppLcp, confReq, (openParty config before opening).sp.lcp.confid,
          magicOption (openParty config before opening).sp.lcp.magic⟩] := by
  unfold openParty wpSpppOpen lcpOpen
  dsimp only
  rw [plain.static]
  exact ⟨⟨rfl, rfl, rfl, rfl, needAuth, fun wrong => by cases wrong⟩, rfl⟩

/-- Each end takes the frame that is under way to it. -/
theorem round {Left Right Message : Type}
    {answerLeft : Left → Message → Option (Left × List Message)}
    {answerRight : Right → Message → Option (Right × List Message)}
    {left left' : Left} {right right' : Right} {mine theirs : Message} {out back : List Message}
    (answers : answerLeft left mine = some (left', out))
    (replies : answerRight right theirs = some (right', back)) (rest : List Side) :
    run (deliver answerLeft answerRight) ⟨left, right, [mine], [theirs]⟩ (.left :: .right :: rest) =
      run (deliver answerLeft answerRight) ⟨left', right', back, out⟩ rest := by
  have first : deliver answerLeft answerRight ⟨left, right, [mine], [theirs]⟩ .left =
      some ⟨left', right, [], theirs :: out⟩ :=
    deliver_left_iff.mpr ⟨mine, [], left', out, rfl, answers, rfl⟩
  have second : deliver answerLeft answerRight ⟨left', right, [], theirs :: out⟩ .right =
      some ⟨left', right', back, out⟩ :=
    deliver_right_iff.mpr ⟨theirs, out, right', back, rfl, replies, rfl⟩
  rw [run, first, Option.bind_some, run, second, Option.bind_some]

end Links

section Order

variable {configLeft configRight : Config} {beforeLeft beforeRight : Sppp}
  {aroundLeft aroundRight : Around} {left right : Nat → Around}

/-- One end after the other, four times over. -/
def turns : List Side := [.left, .right, .left, .right, .left, .right, .left, .right]

theorem turns_establish (plainLeft : Plain configLeft left) (plainRight : Plain configRight right)
    (authLeft : beforeLeft.needAuth = false) (authRight : beforeRight.needAuth = false)
    (differ : (openParty configLeft beforeLeft aroundLeft).sp.lcp.magic ≠
      (openParty configRight beforeRight aroundRight).sp.lcp.magic) :
    ∃ one other,
      run (deliver (answer configLeft left) (answer configRight right))
          (openLinks (openParty configLeft beforeLeft aroundLeft)
            (openParty configRight beforeRight aroundRight)) turns = some ⟨one, other, [], []⟩ ∧
        Established one.sp ∧ Established other.sp := by
  obtain ⟨asked, asks⟩ := openParty_stage plainLeft authLeft aroundLeft
  obtain ⟨called, calls⟩ := openParty_stage plainRight authRight aroundRight
  unfold openLinks turns
  rw [asks, calls]
  generalize openParty configLeft beforeLeft aroundLeft = one at asked differ ⊢
  generalize openParty configRight beforeRight aroundRight = other at called differ ⊢
  obtain ⟨one₁, first, asked⟩ := party_request plainLeft asked differ.symm other.sp.lcp.confid
  obtain ⟨other₁, second, called⟩ := party_request plainRight called differ one.sp.lcp.confid
  rw [round first second]
  obtain ⟨one₂, mine, first, asked⟩ := party_ack plainLeft asked one.sp.lcp.magic
  obtain ⟨other₂, theirs, second, called⟩ := party_ack plainRight called other.sp.lcp.magic
  rw [round first second]
  obtain ⟨one₃, first, asked⟩ := party_ipRequest configLeft left asked theirs
  obtain ⟨other₃, second, called⟩ := party_ipRequest configRight right called mine
  rw [round first second]
  obtain ⟨one₄, first, up⟩ := party_ipAck configLeft left asked
  obtain ⟨other₄, second, works⟩ := party_ipAck configRight right called
  rw [round first second]
  exact ⟨one₄, other₄, rfl, up, works⟩

/-- However the deliveries are ordered, and whatever the clocks say, two links that are opened with
different magic numbers are established at both ends when nothing is under way any more, after eight
deliveries. -/
theorem links_establish (plainLeft : Plain configLeft left) (plainRight : Plain configRight right)
    (authLeft : beforeLeft.needAuth = false) (authRight : beforeRight.needAuth = false)
    (differ : (openParty configLeft beforeLeft aroundLeft).sp.lcp.magic ≠
      (openParty configRight beforeRight aroundRight).sp.lcp.magic)
    (sides : List Side) (reached : Network Party Party Packet)
    (ran : run (deliver (answer configLeft left) (answer configRight right))
      (openLinks (openParty configLeft beforeLeft aroundLeft)
        (openParty configRight beforeRight aroundRight)) sides = some reached) :
    sides.length ≤ 8 ∧
      (Finished (deliver (answer configLeft left) (answer configRight right)) reached ↔
        sides.length = 8) ∧
      (sides.length = 8 → reached.toLeft = [] ∧ reached.toRight = [] ∧
        Established reached.left.sp ∧ Established reached.right.sp) := by
  obtain ⟨one, other, turned, up, works⟩ :=
    turns_establish plainLeft plainRight authLeft authRight differ
  have ends : Finished (deliver (answer configLeft left) (answer configRight right))
      ⟨one, other, [], []⟩ := deliver_finished rfl rfl
  obtain ⟨rest, completes, count⟩ := deliver_commutes.complete turned ends ran
  have eight : sides.length + rest.length = 8 := count
  have last : sides.length = 8 → reached = ⟨one, other, [], []⟩ := by
    intro all
    have none : rest = [] := List.length_eq_zero_iff.mp (by omega)
    rw [none, run, Option.some.injEq] at completes
    exact completes
  refine ⟨by omega, ⟨?_, ?_⟩, ?_⟩
  · intro stuck
    exact (deliver_commutes.unique turned ends ran stuck).2
  · intro all
    rw [last all]
    exact ends
  · intro all
    rw [last all]
    exact ⟨rfl, rfl, up, works⟩

theorem links_establish_turns :
    ∃ reached,
      run (deliver (answer plainConfig fun _ => plainAround 9#32)
          (answer plainConfig fun _ => plainAround 9#32))
          (openLinks (openParty plainConfig attached (plainAround 7#32))
            (openParty plainConfig attached (plainAround 8#32))) turns = some reached ∧
        Established reached.left.sp ∧ Established reached.right.sp := by
  have plain : Plain plainConfig fun _ => plainAround 9#32 := ⟨rfl, fun _ => rfl, fun _ => rfl⟩
  have differ : (openParty plainConfig attached (plainAround 7#32)).sp.lcp.magic ≠
      (openParty plainConfig attached (plainAround 8#32)).sp.lcp.magic := by decide
  obtain ⟨one, other, turned, -⟩ := turns_establish plain plain rfl rfl differ
  have all := links_establish plain plain rfl rfl differ turns _ turned
  exact ⟨_, turned, (all.2.2 rfl).2.2⟩

end Order

end Wanpipe.Syncppp
