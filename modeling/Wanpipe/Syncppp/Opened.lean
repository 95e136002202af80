import Wanpipe.Runs
import Wanpipe.Syncppp.Input

/-! What has been agreed on when LCP of a synchronous PPP link is opened. -/

namespace Wanpipe.Syncppp

open Line Runs

/-- What the frames so far come to: the number of the latest configure request that was sent, whether
it has been acknowledged and whether the peer has accepted an authentication since, the latest
configure request that has come, and whether it has been acknowledged with all its options. -/
structure Standing where
  request : Option Octet
  acked : Bool
  accepted : Bool
  theirs : Option (Octet × List Octet)
  answered : Bool
  deriving DecidableEq, Repr

def Standing.sent (standing : Standing) (packet : Packet) : Standing :=
  if packet.proto = pppLcp ∧ packet.kind = confReq then
    { standing with request := some packet.ident, acked := false, accepted := false }
  else if packet.proto = pppLcp ∧ packet.kind = confAck then
    { standing with answered := decide (standing.theirs = some (packet.ident, packet.data)) }
  else standing

def Standing.heardLcp (standing : Standing) (body : List Octet) : Standing :=
  let h := header body
  if h.kind = confReq ∧ 4 ≤ h.len then
    { standing with
      theirs := some (h.ident, (body.drop 4).take (h.len - 4)), answered := false }
  else if h.kind = confAck ∧ standing.request = some h.ident then { standing with acked := true }
  else standing

/-- A frame has come. -/
def Standing.heard (standing : Standing) (octets : List Octet) : Standing :=
  let proto : BitVec 16 := octets.getD 2 0#8 ++ octets.getD 3 0#8
  let body := octets.drop 4
  if octets.getD 0 0#8 ≠ pppAllstations ∨ octets.getD 1 0#8 ≠ pppUi then standing
  else if proto = pppLcp ∧ 4 ≤ body.length then standing.heardLcp body
  else if proto = pppPap ∧ body.head? = some papAck then { standing with accepted := true }
  else if proto = pppChap ∧ 4 ≤ body.length ∧ (header body).kind = chapSuccess then
    { standing with accepted := true }
  else standing

/-- The standing after all that has been given to the device in a call. -/
def Standing.after (standing : Standing) (sp : Sppp) : Standing :=
  sp.out.foldl Standing.sent standing

def Standing.comes (standing : Standing) : Call → Standing
  | .input octets => standing.heard octets
  | _ => standing

structure History where
  sp : Sppp
  standing : Standing

def step (config : Config) (history : History) (op : Around × Call) : Option History :=
  (call config op.1 history.sp op.2).map fun sp =>
    ⟨sp, (history.standing.comes op.2).after sp⟩

/-- A link that has just been opened. -/
def opened (config : Config) (around : Around) : History :=
  let sp := wpSpppOpen config around attached
  ⟨sp, (Standing.mk none false false none false).after sp⟩

/-- Both requests have been acknowledged, or the peer has accepted an authentication. -/
def Standing.agreed (standing : Standing) : Bool :=
  standing.accepted || (standing.acked && standing.answered)

/-- What holds of a link while a request of the peer is not answered. -/
structure Asked (standing : Standing) (sp : Sppp) : Prop where
  request : (standing.after sp).request = some sp.lcp.confid
  ackRcvd : sp.lcp.state = .ackRcvd → (standing.after sp).acked = true

/-- What holds of a link between two calls. -/
structure Stands (standing : Standing) (sp : Sppp) : Prop extends Asked standing sp where
  ackSent : sp.lcp.state = .ackSent → (standing.after sp).answered = true
  opened : sp.lcp.state = .opened → (standing.after sp).agreed = true

/-- A frame that says nothing about LCP requests. -/
def Packet.aside (packet : Packet) : Bool :=
  decide (packet.proto ≠ pppLcp) || decide (packet.kind ≠ confReq ∧ packet.kind ≠ confAck)

section Aside

variable {standing : Standing} {packet : Packet} {before middle after : Sppp}

theorem sent_aside (aside : packet.aside = true) : standing.sent packet = standing := by
  rw [Packet.aside, Bool.or_eq_true, decide_eq_true_eq, decide_eq_true_eq] at aside
  rw [Standing.sent, if_neg, if_neg]
  · rintro ⟨proto, kind⟩
    rcases aside with other | other
    · exact other proto
    · exact other.2 kind
  · rintro ⟨proto, kind⟩
    rcases aside with other | other
    · exact other proto
    · exact other.1 kind

theorem after_send (proto : BitVec 16) (kind ident : Octet) (data : List Octet) (sp : Sppp) :
    standing.after (cpSend proto kind ident data sp) =
      (standing.after sp).sent ⟨proto, kind, ident, data⟩ := by
  rw [Standing.after, cpSend, List.foldl_append]
  rfl

/-- What leaves LCP alone. -/
structure Quiet (before after : Sppp) : Prop where
  state : after.lcp.state = before.lcp.state
  confid : after.lcp.confid = before.lcp.confid
  standing : ∀ standing : Standing, standing.after after = standing.after before

theorem Quiet.of_out (state : after.lcp.state = before.lcp.state)
    (confid : after.lcp.confid = before.lcp.confid) (out : after.out = before.out) :
    Quiet before after :=
  ⟨state, confid, fun standing => by rw [Standing.after, Standing.after, out]⟩

theorem cpSend_quiet {proto : BitVec 16} {kind ident : Octet} {data : List Octet}
    (aside : Packet.aside ⟨proto, kind, ident, data⟩ = true) (sp : Sppp) :
    Quiet sp (cpSend proto kind ident data sp) := by
  refine ⟨rfl, rfl, fun standing => ?_⟩
  rw [after_send]
  exact sent_aside aside

theorem clearTimeout_quiet (sp : Sppp) : Quiet sp (clearTimeout sp) := Quiet.of_out rfl rfl rfl

theorem setTimeout_quiet (sp : Sppp) : Quiet sp (setTimeout sp) := Quiet.of_out rfl rfl rfl

theorem nextSeq_quiet (sp : Sppp) : Quiet sp (nextSeq sp) := Quiet.of_out rfl rfl rfl

theorem ipcpState_quiet (state : CpState) (sp : Sppp) : Quiet sp (ipcpState state sp) :=
  Quiet.of_out rfl rfl rfl

theorem Quiet.refl (sp : Sppp) : Quiet sp sp := ⟨rfl, rfl, fun _ => rfl⟩

theorem Quiet.trans (first : Quiet before middle) (second : Quiet middle after) :
    Quiet before after where
  state := second.state.trans first.state
  confid := second.confid.trans first.confid
  standing standing := (second.standing standing).trans (first.standing standing)

theorem Asked.quiet (asked : Asked standing before) (quiet : Quiet before after) :
    Asked standing after := by
  obtain ⟨state, confid, same⟩ := quiet
  constructor
  · rw [same, confid]
    exact asked.request
  · rw [same, state]
    exact asked.ackRcvd

theorem Stands.quiet (stands : Stands standing before) (quiet : Quiet before after) :
    Stands standing after := by
  refine ⟨stands.toAsked.quiet quiet, ?_, ?_⟩
  · rw [quiet.standing, quiet.state]
    exact stands.ackSent
  · rw [quiet.standing, quiet.state]
    exact stands.opened

end Aside

section Ipcp

variable (config : Config) (around : Around)

theorem ipcpOpen_quiet (sp : Sppp) : Quiet sp (ipcpOpen config sp) := by
  have counts : Quiet sp { nextSeq sp with ipcp := { sp.ipcp with confid := ident (nextSeq sp) } } :=
    Quiet.of_out rfl rfl rfl
  exact (counts.trans (cpSend_quiet rfl _)).trans (setTimeout_quiet _)

theorem ipcpRefuse_quiet (ident : Octet) (data : List Octet) (sp : Sppp) :
    Quiet sp (ipcpRefuse config ident data sp) := by
  unfold ipcpRefuse
  dsimp only
  split
  · have resets : Quiet sp { sp with dynamicFailures := 0 } := Quiet.of_out rfl rfl rfl
    have sends : Quiet sp (cpSend pppIpcp termReq ident [] { sp with dynamicFailures := 0 }) :=
      resets.trans (cpSend_quiet rfl _)
    exact (sends.trans (ipcpState_quiet .closed _)).trans (setTimeout_quiet _)
  · have counts : Quiet sp { sp with dynamicFailures := sp.dynamicFailures + 1 } :=
      Quiet.of_out rfl rfl rfl
    have sends : Quiet sp (cpSend pppIpcp confRej ident data
        { sp with dynamicFailures := sp.dynamicFailures + 1 }) :=
      counts.trans (cpSend_quiet rfl _)
    split
    · exact (sends.trans (ipcpOpen_quiet config _)).trans (ipcpState_quiet .closed _)
    · exact sends.trans (ipcpState_quiet .closed _)
    · exact sends
    · exact sends

theorem ipcpConfReq_quiet (ident : Octet) (len : Nat) (mem : List Octet) (sp : Sppp) :
    Quiet sp (ipcpConfReq config around ident len mem sp) := by
  unfold ipcpConfReq
  dsimp only
  split
  · exact Quiet.refl sp
  split
  · exact (cpSend_quiet rfl sp).trans (ipcpState_quiet _ _)
  split
  · have notes : Quiet sp { sp with remoteIp := longOf (mem.drop 2) } := Quiet.of_out rfl rfl rfl
    exact (notes.trans (cpSend_quiet rfl _)).trans (clearTimeout_quiet _)
  split
  · exact (cpSend_quiet rfl sp).trans (clearTimeout_quiet _)
  · have notes : Quiet sp
        { sp with
          localIp := around.localAddr.setWidth 64
          remoteIp := around.pointopoint.setWidth 64 } := Quiet.of_out rfl rfl rfl
    exact notes.trans (ipcpRefuse_quiet config ident _ _)

theorem ipcpConfAck_quiet (ident : Octet) (sp : Sppp) : Quiet sp (ipcpConfAck ident sp) := by
  unfold ipcpConfAck
  dsimp only
  split
  · exact Quiet.refl sp
  have clears := clearTimeout_quiet sp
  split
  · exact (clears.trans (ipcpState_quiet .ackRcvd _)).trans (setTimeout_quiet _)
  · exact clears.trans (ipcpState_quiet .opened _)
  · exact clears
  · exact clears

theorem ipcpConfRej_quiet (ident : Octet) (sp : Sppp) : Quiet sp (ipcpConfRej config ident sp) := by
  unfold ipcpConfRej
  dsimp only
  split
  · exact Quiet.refl sp
  have opens := (clearTimeout_quiet sp).trans (ipcpOpen_quiet config _)
  split
  · exact opens
  · exact opens.trans (ipcpState_quiet .closed _)

theorem ipcpConfNak_quiet {ident : Octet} {len : Nat} {mem : List Octet} {sp after : Sppp}
    (moved : ipcpConfNak config around ident len mem sp = some after) : Quiet sp after := by
  unfold ipcpConfNak at moved
  dsimp only at moved
  split at moved
  · cases moved
    exact Quiet.refl sp
  split at moved
  · cases moved
    exact ipcpConfRej_quiet config ident sp
  split at moved
  · cases moved
  split at moved
  · cases moved
    have notes : Quiet sp { sp with localIp := longOf (mem.drop 2) } := Quiet.of_out rfl rfl rfl
    exact (notes.trans (cpSend_quiet rfl _)).trans (ipcpState_quiet _ _)
  split at moved
  · cases moved
    exact (cpSend_quiet rfl sp).trans (ipcpState_quiet _ _)
  · cases moved
    exact (cpSend_quiet rfl sp).trans (ipcpConfRej_quiet config ident _)

theorem ipcpTermReq_quiet (ident : Octet) (sp : Sppp) : Quiet sp (ipcpTermReq config ident sp) :=
  ((cpSend_quiet rfl sp).trans (ipcpState_quiet .closed _)).trans (ipcpOpen_quiet config _)

theorem ipcpInput_quiet {body : List Octet} {sp after : Sppp}
    (moved : ipcpInput config around body sp = some after) : Quiet sp after := by
  unfold ipcpInput at moved
  dsimp only at moved
  split at moved
  · cases moved
    exact Quiet.refl sp
  split at moved
  · cases moved
    exact ipcpConfReq_quiet config around _ _ _ sp
  split at moved
  · cases moved
    exact ipcpConfAck_quiet _ sp
  split at moved
  · exact ipcpConfNak_quiet config around moved
  split at moved
  · cases moved
    exact ipcpConfRej_quiet config _ sp
  split at moved
  · cases moved
    exact ipcpTermReq_quiet config _ sp
  split at moved
  · cases moved
    exact Quiet.refl sp
  · cases moved
    exact (nextSeq_quiet sp).trans (cpSend_quiet rfl _)

theorem authSend_quiet {proto : BitVec 16} (other : proto ≠ pppLcp) (kind ident : Octet)
    (pieces : List (List Octet)) (sp : Sppp) :
    Quiet sp (authSend around proto kind ident pieces sp) := by
  unfold authSend
  dsimp only
  split
  · apply cpSend_quiet
    rw [Packet.aside, decide_eq_true other, Bool.true_or]
  · exact Quiet.refl sp

end Ipcp

section Lcp

variable {config : Config} {around : Around} {standing : Standing} {sp : Sppp}

theorem closed_lcpOpen (sp : Sppp) :
    closed (lcpOpen config around sp) = lcpOpen config around (closed sp) := by
  unfold lcpOpen
  split <;> rfl

theorem lcpOpen_lcp (config : Config) (around : Around) (sp : Sppp) :
    (lcpOpen config around sp).lcp.state = sp.lcp.state ∧
      (lcpOpen config around sp).out =
        sp.out ++ [⟨pppLcp, confReq, (lcpOpen config around sp).lcp.confid,
          magicOption (lcpOpen config around sp).lcp.magic⟩] := by
  unfold lcpOpen
  split <;> exact ⟨rfl, rfl⟩

/-- A request starts the negotiation asked. -/
theorem lcpOpen_stands (calm : sp.lcp.state = .closed ∨
      sp.lcp.state = .ackSent ∧ (standing.after sp).answered = true) :
    Stands standing (lcpOpen config around sp) := by
  obtain ⟨state, out⟩ := lcpOpen_lcp config around sp
  have after : standing.after (lcpOpen config around sp) =
      { standing.after sp with
        request := some (lcpOpen config around sp).lcp.confid, acked := false, accepted := false } := by
    rw [Standing.after, out, List.foldl_append]
    rfl
  refine ⟨⟨by rw [after], ?_⟩, ?_, ?_⟩
  · intro wrong
    rw [state] at wrong
    rcases calm with calm | ⟨calm, -⟩ <;> cases calm.symm.trans wrong
  · intro sent
    rw [state] at sent
    rcases calm with calm | ⟨-, answered⟩
    · cases calm.symm.trans sent
    · rw [after]
      exact answered
  · intro wrong
    rw [state] at wrong
    rcases calm with calm | ⟨calm, -⟩ <;> cases calm.symm.trans wrong

theorem lcpOpen_closed_stands (sp : Sppp) : Stands standing (lcpOpen config around (closed sp)) :=
  lcpOpen_stands (Or.inl rfl)

theorem Asked.closed (asked : Asked standing sp) : Stands standing (closed sp) where
  request := asked.request
  ackRcvd wrong := by cases wrong
  ackSent wrong := by cases wrong
  opened wrong := by cases wrong

theorem lcpUp_stands (ident : Octet) (request : (standing.after sp).request = some sp.lcp.confid)
    (agreed : (standing.after sp).agreed = true) :
    Stands standing (lcpUp config around ident sp) := by
  have up : Stands standing (lcpState .opened sp) := {
    request := request
    ackRcvd := fun wrong => by cases wrong
    ackSent := fun wrong => by cases wrong
    opened := fun _ => agreed }
  unfold lcpUp
  dsimp only
  split
  · have notes : Quiet (lcpState .opened sp) { lcpState .opened sp with papConfid := ident } :=
      Quiet.of_out rfl rfl rfl
    exact up.quiet (notes.trans (authSend_quiet around (by decide) _ _ _ _))
  · exact up.quiet (ipcpOpen_quiet config _)

theorem badReq_stands (asked : Asked standing sp) : Stands standing (badReq config around sp) := by
  unfold badReq
  split
  · rw [closed_lcpOpen]
    exact lcpOpen_closed_stands sp
  · exact asked.closed
  · next state =>
      refine ⟨asked, fun wrong => ?_, fun wrong => ?_⟩ <;> cases state.symm.trans wrong
  · next state =>
      refine ⟨asked, fun wrong => ?_, fun wrong => ?_⟩ <;> cases state.symm.trans wrong

/-- What an acknowledgement of the peer's request does to the standing. -/
theorem after_confAck {ident : Octet} {data : List Octet}
    (theirs : (standing.after sp).theirs = some (ident, data)) :
    standing.after (cpSend pppLcp confAck ident data sp) =
      { standing.after sp with answered := true } := by
  have different : ¬ (pppLcp = pppLcp ∧ confAck = confReq) := by decide
  rw [after_send, Standing.sent, if_neg different, if_pos ⟨rfl, rfl⟩]
  dsimp only
  rw [decide_eq_true theirs]

theorem ackReq_stands {ident : Octet} {data : List Octet} (asked : Asked standing sp)
    (theirs : (standing.after sp).theirs = some (ident, data)) :
    Stands standing (ackReq config around ident data sp) := by
  have acks := after_confAck theirs
  unfold ackReq
  split
  · refine ⟨⟨?_, fun wrong => by cases wrong⟩, fun _ => ?_, fun wrong => by cases wrong⟩
    · exact (congrArg Standing.request acks).trans asked.request
    · exact congrArg Standing.answered acks
  · next state =>
      apply lcpUp_stands
      · rw [acks]
        exact asked.request
      · rw [acks, Standing.agreed]
        dsimp only
        rw [asked.ackRcvd state, Bool.and_self, Bool.or_true]
  · next state =>
      refine ⟨⟨?_, fun wrong => ?_⟩, fun _ => ?_, fun wrong => ?_⟩
      · rw [acks]
        exact asked.request
      · cases state.symm.trans wrong
      · rw [acks]
      · cases state.symm.trans wrong
  · have opens : Stands standing (lcpOpen config around (closed sp)) :=
      lcpOpen_closed_stands sp
    have kept : (standing.after (lcpOpen config around (closed sp))).theirs =
        some (ident, data) := by
      rw [Standing.after, (lcpOpen_lcp config around (closed sp)).2, List.foldl_append]
      exact theirs
    have acks := after_confAck kept
    refine ⟨⟨?_, fun wrong => by cases wrong⟩, fun _ => ?_, fun wrong => by cases wrong⟩
    · exact (congrArg Standing.request acks).trans opens.request
    · exact congrArg Standing.answered acks

theorem sameMagic_quiet (ident : Octet) (sp : Sppp) :
    Quiet sp (sameMagic config around ident sp) := by
  unfold sameMagic
  dsimp only
  split
  · have counts : Quiet sp
        { sp with loopcnt := 0#16 + 1#16, linkUp := sp.linkUp && !around.up } :=
      Quiet.of_out rfl rfl rfl
    exact counts.trans (cpSend_quiet rfl _)
  · have counts : Quiet sp { sp with loopcnt := sp.loopcnt + 1#16 } := Quiet.of_out rfl rfl rfl
    exact counts.trans (cpSend_quiet rfl _)

theorem lcpConfReq_stands {ident : Octet} {len : Nat} {mem : List Octet} {after : Sppp}
    (whole : 4 ≤ len) (asked : Asked standing sp)
    (theirs : (standing.after sp).theirs = some (ident, mem.take (len - 4)))
    (moved : lcpConfReq config around ident len mem sp = some after) : Stands standing after := by
  rw [lcpConfReq, if_neg (Nat.not_lt.mpr whole)] at moved
  obtain ⟨options, -, rfl⟩ := Option.map_eq_some_iff.mp moved
  dsimp only
  have notes : Quiet sp { sp with needAuth := sp.needAuth || options.needAuth } :=
    Quiet.of_out rfl rfl rfl
  generalize { sp with needAuth := sp.needAuth || options.needAuth } = fresh at notes ⊢
  have rejects : Quiet sp
      (if options.rejected.isEmpty then fresh
        else cpSend pppLcp confRej ident options.rejected fresh) := by
    split
    · exact notes
    · exact notes.trans (cpSend_quiet rfl fresh)
  generalize (if options.rejected.isEmpty then fresh
        else cpSend pppLcp confRej ident options.rejected fresh) = told at rejects ⊢
  have still := asked.quiet rejects
  split
  · exact badReq_stands still
  · split
    · exact badReq_stands (still.quiet (sameMagic_quiet ident told))
    · have resets : Quiet told { told with loopcnt := 0#16 } := Quiet.of_out rfl rfl rfl
      apply ackReq_stands (still.quiet resets)
      rw [resets.standing, rejects.standing]
      exact theirs

theorem lcpConfAck_stands (ident : Octet) (stands : Stands standing sp)
    (acked : ident = sp.lcp.confid → (standing.after sp).acked = true) :
    Stands standing (lcpConfAck config around ident sp) := by
  unfold lcpConfAck
  split
  · exact stands
  · next same =>
      have acked := acked (not_not.mp same)
      have clears : Quiet sp { clearTimeout sp with linkUp := sp.linkUp || around.up } :=
        Quiet.of_out rfl rfl rfl
      have still := stands.quiet clears
      have kept := clears.standing standing
      dsimp only [clearTimeout] at still kept ⊢
      split
      · refine ⟨⟨still.request, fun _ => ?_⟩, ?_, ?_⟩
        · exact (congrArg Standing.acked kept).trans acked
        · exact fun wrong => by cases wrong
        · exact fun wrong => by cases wrong
      · next state =>
          apply lcpUp_stands ident still.request
          rw [kept, Standing.agreed, acked, stands.ackSent state, Bool.and_self, Bool.or_true]
      · exact still
      · exact still

theorem refused_stands (stands : Stands standing sp) : Stands standing (refused sp) := by
  unfold refused
  split
  · exact stands
  · exact stands.toAsked.closed

theorem lcpConfNak_stands (ident : Octet) (len : Nat) (mem : List Octet)
    (stands : Stands standing sp) : Stands standing (lcpConfNak around ident len mem sp) := by
  unfold lcpConfNak
  dsimp only
  split
  · exact stands
  · have learns : Quiet sp
        { sp with lcp := { sp.lcp with magic := nakMagic around len mem sp.lcp.magic } } :=
      Quiet.of_out rfl rfl rfl
    have still := refused_stands (stands.quiet learns)
    exact (still.quiet (clearTimeout_quiet _)).quiet (setTimeout_quiet _)

theorem lcpConfRej_stands (ident : Octet) (stands : Stands standing sp) :
    Stands standing (lcpConfRej config around ident sp) := by
  unfold lcpConfRej
  split
  · exact stands
  · obtain ⟨state, -⟩ := lcpOpen_lcp config around (clearTimeout sp)
    have still := stands.quiet (clearTimeout_quiet sp)
    unfold refused
    split
    · next sent =>
        have before : (clearTimeout sp).lcp.state = .ackSent := state.symm.trans sent
        exact lcpOpen_stands (Or.inr ⟨before, still.ackSent before⟩)
    · rw [closed_lcpOpen]
      exact lcpOpen_closed_stands _

theorem lcpTermReq_stands (ident : Octet) (sp : Sppp) :
    Stands standing (lcpTermReq config around ident sp) :=
  lcpOpen_stands (Or.inl rfl)

theorem lcpEchoReq_stands (ident : Octet) (len : Nat) (mem : List Octet)
    (stands : Stands standing sp) :
    Stands standing (lcpEchoReq config around ident len mem sp) := by
  unfold lcpEchoReq
  split
  · exact stands
  split
  · exact stands
  split
  · exact lcpOpen_stands (Or.inl rfl)
  · exact stands.quiet (cpSend_quiet rfl sp)

theorem lcpEchoReply_stands (ident : Octet) (len : Nat) (mem : List Octet)
    (stands : Stands standing sp) : Stands standing (lcpEchoReply ident len mem sp) := by
  unfold lcpEchoReply
  split
  · exact stands
  split
  · exact stands
  split
  · exact stands.quiet (Quiet.of_out rfl rfl rfl)
  · exact stands

end Lcp

section Calls

variable {config : Config} {around : Around} {standing : Standing} {sp after : Sppp}

/-- A frame is heard before anything is sent. -/
theorem Stands.hears {heard : Standing} (stands : Stands standing sp) (fresh : sp.out = [])
    (request : heard.request = standing.request) (acked : standing.acked = true → heard.acked = true)
    (answered : heard.answered = standing.answered)
    (accepted : standing.accepted = true → heard.accepted = true) : Stands heard sp := by
  have now : ∀ some : Standing, some.after sp = some := fun some => by rw [Standing.after, fresh]; rfl
  obtain ⟨⟨first, ackRcvd⟩, ackSent, opened⟩ := stands
  rw [now] at first ackRcvd ackSent opened
  refine ⟨⟨?_, fun state => ?_⟩, fun state => ?_, fun state => ?_⟩
  · rw [now, request, first]
  · rw [now]
    exact acked (ackRcvd state)
  · rw [now, answered]
    exact ackSent state
  · rw [now]
    have agreed := opened state
    simp only [Standing.agreed, Bool.or_eq_true, Bool.and_eq_true] at agreed ⊢
    rw [answered]
    tauto

theorem lcpInput_stands {body : List Octet} (stands : Stands standing sp) (fresh : sp.out = [])
    (whole : 4 ≤ body.length) (moved : lcpInput config around body sp = some after) :
    Stands (standing.heardLcp body) after := by
  have now : ∀ some : Standing, some.after sp = some := fun some => by rw [Standing.after, fresh]; rfl
  have request : standing.request = some sp.lcp.confid := (now standing) ▸ stands.request
  rw [lcpInput, if_neg (Nat.not_lt.mpr whole)] at moved
  dsimp only at moved
  unfold Standing.heardLcp
  dsimp only
  generalize header body = h at moved ⊢
  split at moved
  · next isReq =>
      by_cases long : 4 ≤ h.len
      · rw [if_pos ⟨isReq, long⟩]
        refine lcpConfReq_stands ?_ ⟨?_, fun state => ?_⟩ ?_ moved
        · split
          · exact long
          · exact whole
        · rw [now]
          exact request
        · rw [now]
          exact (congrArg Standing.acked (now standing)) ▸ stands.ackRcvd state
        · rw [now]
          dsimp only
          congr 2
          have short : (if h.len < body.length then h.len else body.length) - 4 ≤
              (body.drop 4).length := by
            rw [List.length_drop]
            split <;> omega
          rw [List.take_append_of_le_length short]
          split
          · rfl
          · next longer =>
              rw [List.take_of_length_le, List.take_of_length_le]
              · rw [List.length_drop]
              · rw [List.length_drop]
                omega
      · have other : ¬ (h.kind = confAck ∧ standing.request = some h.ident) := by
          rintro ⟨isAck, -⟩
          exact absurd (isReq.symm.trans isAck) (by decide)
        rw [if_neg (fun both => long both.2), if_neg other]
        have short : (if h.len < body.length then h.len else body.length) < 4 := by
          split <;> omega
        rw [lcpConfReq, if_pos short] at moved
        cases moved
        exact stands
  next notReq =>
  rw [if_neg (fun both => notReq both.1)]
  split at moved
  · next isAck =>
      cases moved
      split
      · next both =>
          have heard : Stands { standing with acked := true } sp :=
            stands.hears fresh rfl (fun _ => rfl) rfl id
          exact lcpConfAck_stands h.ident heard fun _ => by rw [now]
      · next neither =>
          apply lcpConfAck_stands h.ident stands
          intro same
          rw [same] at neither
          exact absurd ⟨isAck, request⟩ neither
  next notAck =>
  rw [if_neg (fun both => notAck both.1)]
  split at moved
  · cases moved
    exact lcpConfNak_stands h.ident _ _ stands
  split at moved
  · cases moved
    exact lcpConfRej_stands h.ident stands
  split at moved
  · cases moved
    exact lcpTermReq_stands h.ident sp
  split at moved
  · cases moved
    exact stands
  split at moved
  · cases moved
    exact lcpEchoReq_stands h.ident _ _ stands
  split at moved
  · cases moved
    exact lcpEchoReply_stands h.ident _ _ stands
  · cases moved
    exact stands.quiet ((nextSeq_quiet sp).trans (cpSend_quiet rfl _))

theorem authenticated_stands (request : (standing.after sp).request = some sp.lcp.confid)
    (accepted : (standing.after sp).accepted = true) :
    Stands standing (authenticated config sp) := by
  have up : Stands standing (lcpState .opened sp) := {
    request := request
    ackRcvd := fun wrong => by cases wrong
    ackSent := fun wrong => by cases wrong
    opened := fun _ => by
      rw [Standing.agreed]
      exact (congrArg (· || _) accepted).trans (Bool.true_or _) }
  exact up.quiet (ipcpOpen_quiet config _)

theorem not_proto {proto own other : BitVec 16} {told : Prop} (is : proto = own)
    (differ : own ≠ other) : ¬ (proto = other ∧ told) := by
  rintro ⟨wrong, -⟩
  exact differ (is.symm.trans wrong)

theorem chapInput_stands {body : List Octet} (stands : Stands standing sp) (fresh : sp.out = []) :
    Stands
      (if 4 ≤ body.length ∧ (header body).kind = chapSuccess then
        { standing with accepted := true } else standing)
      (chapInput config around body sp) := by
  unfold chapInput
  by_cases short : body.length < 4
  · rw [if_pos short, if_neg (fun both => Nat.not_lt.mpr both.1 short)]
    exact stands
  rw [if_neg short]
  dsimp only
  by_cases challenge : (header body).kind = chapChallenge
  · have notSuccess : ¬ (4 ≤ body.length ∧ (header body).kind = chapSuccess) := by
      rintro ⟨-, success⟩
      exact absurd (challenge.symm.trans success) (by decide)
    rw [if_pos challenge, if_neg notSuccess]
    generalize (if (header body).len < body.length then (header body).len else body.length) = len
    split
    · exact stands
    · exact stands.quiet (authSend_quiet around (by decide) _ _ _ sp)
  rw [if_neg challenge]
  by_cases success : (header body).kind = chapSuccess
  · rw [if_pos success, if_pos ⟨Nat.not_lt.mp short, success⟩]
    have heard : Stands { standing with accepted := true } sp :=
      stands.hears fresh rfl id rfl (fun _ => rfl)
    have still : Stands { standing with accepted := true } { sp with needAuth := false } :=
      heard.quiet (Quiet.of_out rfl rfl rfl)
    apply authenticated_stands still.request
    have out : ({ sp with needAuth := false } : Sppp).out = [] := fresh
    rw [Standing.after, out]
    rfl
  · rw [if_neg success, if_neg (fun both => success both.2)]
    exact stands

theorem papInput_stands {body : List Octet} (stands : Stands standing sp) (fresh : sp.out = []) :
    Stands
      (if body.head? = some papAck then { standing with accepted := true } else standing)
      (papInput config body sp) := by
  have same : body.getD 0 0#8 = papAck ↔ body.head? = some papAck := by
    cases body with
    | nil => decide
    | cons first rest => simp
  unfold papInput
  by_cases accepts : body.head? = some papAck
  · rw [if_pos accepts, if_pos (same.mpr accepts)]
    have heard : Stands { standing with accepted := true } sp :=
      stands.hears fresh rfl id rfl (fun _ => rfl)
    apply authenticated_stands heard.request
    rw [Standing.after, fresh]
    rfl
  · rw [if_neg accepts, if_neg (fun ack => accepts (same.mp ack))]
    exact stands

theorem wpSpppInput_stands {octets : List Octet} (stands : Stands standing sp)
    (fresh : sp.out = []) (moved : wpSpppInput config around octets sp = some after) :
    Stands (standing.heard octets) after := by
  unfold wpSpppInput at moved
  unfold Standing.heard
  dsimp only at moved ⊢
  have none : octets.length ≤ 4 → octets.drop 4 = [] := List.drop_eq_nil_of_le
  generalize (octets.getD 2 0#8 ++ octets.getD 3 0#8 : BitVec 16) = proto at moved ⊢
  generalize octets.drop 4 = rest at moved none ⊢
  split at moved
  · next short =>
      cases moved
      rw [none short]
      split
      · exact stands
      · rw [if_neg (by simp), if_neg (by simp), if_neg (by simp)]
        exact stands
  next long =>
  split at moved
  · next other =>
      cases moved
      rw [if_pos other]
      exact stands
  next addressed =>
  rw [if_neg addressed]
  split at moved
  · next lcp =>
      split
      · next whole => exact lcpInput_stands stands fresh whole.2 moved
      · next cut =>
          rw [not_and] at cut
          rw [lcpInput, if_pos (Nat.lt_of_not_le (cut lcp))] at moved
          cases moved
          rw [if_neg (not_proto lcp (by decide)), if_neg (not_proto lcp (by decide))]
          exact stands
  next notLcp =>
  rw [if_neg (fun both => notLcp both.1)]
  split at moved
  · next ipcp =>
      rw [if_neg (not_proto ipcp (by decide)), if_neg (not_proto ipcp (by decide))]
      split at moved
      · exact stands.quiet (ipcpInput_quiet config around moved)
      · cases moved
        exact stands
  split at moved
  · next ip =>
      cases moved
      rw [if_neg (not_proto ip (by decide)), if_neg (not_proto ip (by decide))]
      exact stands
  split at moved
  · next pap =>
      cases moved
      have notChap : ¬ (proto = pppChap ∧ 4 ≤ rest.length ∧ (header rest).kind = chapSuccess) :=
        not_proto pap (by decide)
      rw [if_neg notChap]
      simp only [pap, true_and]
      exact papInput_stands stands fresh
  next notPap =>
  rw [if_neg (fun both => notPap both.1)]
  split at moved
  · next chap =>
      cases moved
      simp only [chap, true_and]
      exact chapInput_stands stands fresh
  · next notChap =>
      cases moved
      rw [if_neg (fun both => notChap both.1)]
      unfold unknownProtocol
      dsimp only
      split
      · exact stands.quiet ((nextSeq_quiet sp).trans (cpSend_quiet rfl _))
      · exact stands

theorem ifDown_quiet (sp : Sppp) : Quiet sp (ifDown sp) := Quiet.of_out rfl rfl rfl

theorem lcpState_lcpOpen (sp : Sppp) :
    lcpState .closed (lcpOpen config around sp) = lcpOpen config around (lcpState .closed sp) := by
  unfold lcpOpen
  split <;> rfl

theorem cpTimeout_stands (stands : Stands standing sp) :
    Stands standing (cpTimeout config around sp) := by
  have still := stands.quiet (clearTimeout_quiet sp)
  unfold cpTimeout
  dsimp only
  generalize clearTimeout sp = cleared at still ⊢
  split
  · exact still
  split
  · next state => exact lcpOpen_stands (Or.inl state)
  · rw [lcpState_lcpOpen]
    exact lcpOpen_stands (Or.inl rfl)
  · next state => exact lcpOpen_stands (Or.inr ⟨state, still.ackSent state⟩)
  · have opens := ipcpOpen_quiet config cleared
    split
    · exact still.quiet opens
    · exact still.quiet (opens.trans (ipcpState_quiet .closed _))
    · exact still.quiet opens
    · exact still

theorem spppDown_stands (config : Config) (around : Around) (stands : Stands standing sp) :
    Stands standing (spppDown config around sp) := by
  unfold spppDown
  split
  · exact lcpOpen_stands (Or.inl rfl)
  · exact stands

theorem echo_quiet (sp : Sppp) : Quiet sp (echo sp) := by
  have counts : Quiet sp
      { nextSeq sp with lcp := { sp.lcp with echoid := ident (nextSeq sp) } } :=
    Quiet.of_out rfl rfl rfl
  exact counts.trans (cpSend_quiet rfl _)

theorem spppKeepalive_stands (stands : Stands standing sp) :
    Stands standing (spppKeepalive config around sp) := by
  unfold spppKeepalive
  split
  · exact stands
  split
  · exact stands
  dsimp only
  have still := spppDown_stands config around stands
  generalize spppDown config around sp = down at still ⊢
  have counted : Stands standing
      (if down.alivecnt.toNat ≤ config.maxKeepaliveCount.toNat then
        { down with alivecnt := down.alivecnt + 1#16 } else down) := by
    split
    · exact still.quiet (Quiet.of_out rfl rfl rfl)
    · exact still
  generalize (if down.alivecnt.toNat ≤ config.maxKeepaliveCount.toNat then
        { down with alivecnt := down.alivecnt + 1#16 } else down) = counts at counted ⊢
  split
  · exact counted.quiet (echo_quiet counts)
  · exact counted

theorem wpSpppClose_stands (stands : Stands standing sp) : Stands standing (wpSpppClose sp) :=
  (stands.toAsked.quiet (ifDown_quiet sp)).closed.quiet (clearTimeout_quiet _)

theorem wpSpppOpen_stands (sp : Sppp) : Stands standing (wpSpppOpen config around sp) := by
  have opens : Stands standing (lcpOpen config around (wpSpppClose sp)) :=
    lcpOpen_stands (Or.inl rfl)
  exact opens.quiet (ifDown_quiet _)

theorem wpSpppReopen_stands (stands : Stands standing sp) :
    Stands standing (wpSpppReopen around sp) := by
  have renews : Quiet (wpSpppClose sp)
      (nextSeq { wpSpppClose sp with
        lcp := { (wpSpppClose sp).lcp with magic := around.jiffies } }) :=
    Quiet.of_out rfl rfl rfl
  have still := ((wpSpppClose_stands stands).quiet renews).toAsked.closed
  exact (still.quiet (setTimeout_quiet _)).quiet (ifDown_quiet _)

theorem call_stands {op : Call} (stands : Stands standing { sp with out := [] })
    (moved : call config around sp op = some after) : Stands (standing.comes op) after := by
  cases op with
  | input octets => exact wpSpppInput_stands stands rfl moved
  | timeout =>
      cases moved
      dsimp only
      split
      · exact cpTimeout_stands stands
      · exact stands
  | keepalive =>
      cases moved
      exact spppKeepalive_stands stands
  | «open» =>
      cases moved
      exact wpSpppOpen_stands _
  | close =>
      cases moved
      exact wpSpppClose_stands stands
  | reopen =>
      cases moved
      exact wpSpppReopen_stands stands

/-- What the device has been given is counted before the next call. -/
theorem Stands.counted (stands : Stands standing sp) :
    Stands (standing.after sp) { sp with out := [] } :=
  ⟨⟨stands.request, stands.ackRcvd⟩, stands.ackSent, stands.opened⟩

end Calls

/-- What holds of a link with its history between two calls. -/
def Kept (history : History) : Prop := Stands history.standing { history.sp with out := [] }

theorem opened_kept (config : Config) (around : Around) : Kept (opened config around) :=
  (wpSpppOpen_stands attached).counted

theorem step_kept {config : Config} {history next : History} {op : Around × Call}
    (kept : Kept history) (moved : step config history op = some next) : Kept next := by
  obtain ⟨sp, called, rfl⟩ := Option.map_eq_some_iff.mp moved
  exact (call_stands kept called).counted

/-- LCP is never opened before the latest request of each side has been acknowledged, or the peer has
accepted an authentication since the latest request was sent. -/
theorem lcp_opened (config : Config) (around : Around) (ops : List (Around × Call)) (last : History)
    (ran : run (step config) (opened config around) ops = some last)
    (up : last.sp.lcp.state = .opened) : last.standing.agreed = true := by
  have along : Along (step config) (fun _ _ => True) (opened config around) ops :=
    Along.of_forall _ _ fun _ _ => trivial
  have kept : Kept last :=
    along.kept (fun _ _ _ kept _ moved => step_kept kept moved) (opened_kept config around) ran
  exact kept.opened up

/-- The peer asks with the number 9 and the magic number 5, and acknowledges. -/
def peerFrames : List (Around × Call) :=
  [(plainAround 7#32, .input [0xFF#8, 3#8, 0xC0#8, 0x21#8, 1#8, 9#8, 0#8, 10#8, 5#8, 6#8, 0#8, 0#8, 0#8, 5#8]),
    (plainAround 7#32, .input [0xFF#8, 3#8, 0xC0#8, 0x21#8, 2#8, 1#8, 0#8, 4#8])]

theorem lcp_opened_agreed :
    ∃ last, run (step plainConfig) (opened plainConfig (plainAround 7#32)) peerFrames = some last ∧
      last.sp.lcp.state = .opened ∧ last.standing.agreed = true := by
  refine ⟨_, rfl, by decide, lcp_opened plainConfig (plainAround 7#32) peerFrames _ rfl (by decide)⟩

end Wanpipe.Syncppp
