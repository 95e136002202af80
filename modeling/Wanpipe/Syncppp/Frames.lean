import Wanpipe.Syncppp.Input

/-! The control frames of a PPP link as they stand on the line. -/

namespace Wanpipe.Syncppp

open Line Words

/-- A number of 16 bits as it stands on the line. -/
def shortOctets (value : BitVec 16) : List Octet := (wordOctets 2 value.toNat).reverse

/-- What stands behind the head of a frame. -/
def Packet.body (packet : Packet) : List Octet :=
  packet.kind :: packet.ident ::
    shortOctets (BitVec.ofNat 16 (4 + packet.data.length)) ++ packet.data

/-- What `sppp_cp_send` puts into a frame. -/
def Packet.octets (packet : Packet) : List Octet :=
  pppAllstations :: pppUi :: shortOctets packet.proto ++ packet.body

section Frames

variable {config : Config} {around : Around} {sp : Sppp}

theorem longAt_longOctets (value : BitVec 32) (rest : List Octet) :
    longAt (longOctets value ++ rest) = value := by
  have full : ((longOctets value ++ rest).take 4).reverse = wordOctets 4 value.toNat := by
    rw [List.take_left' (by rw [longOctets, List.length_reverse, wordOctets_length]), longOctets,
      List.reverse_reverse]
  have small : value.toNat < limit 4 := value.isLt
  rw [longAt, full, wordValue_wordOctets small, BitVec.ofNat_toNat, BitVec.setWidth_eq]

theorem shortOctets_eq (value : BitVec 16) :
    shortOctets value = [BitVec.ofNat 8 (value.toNat / 256), BitVec.ofNat 8 value.toNat] := rfl

theorem short_append (value : BitVec 16) :
    (BitVec.ofNat 8 (value.toNat / 256) ++ BitVec.ofNat 8 value.toNat : BitVec 16) = value := by
  have small : value.toNat < 65536 := value.isLt
  apply BitVec.eq_of_toNat_eq
  rw [BitVec.toNat_append, BitVec.toNat_ofNat, BitVec.toNat_ofNat, ← Nat.shiftLeft_add_eq_or_of_lt,
    Nat.shiftLeft_eq]
  · omega
  · omega

theorem header_body {packet : Packet} (short : packet.data.length < 65532) :
    header packet.body = ⟨packet.kind, packet.ident, 4 + packet.data.length⟩ := by
  have small : (BitVec.ofNat 16 (4 + packet.data.length)).toNat = 4 + packet.data.length := by
    rw [BitVec.toNat_ofNat]
    omega
  unfold header Packet.body
  rw [shortOctets_eq, small]
  have whole : 256 * (BitVec.ofNat 8 ((4 + packet.data.length) / 256)).toNat +
      (BitVec.ofNat 8 (4 + packet.data.length)).toNat = 4 + packet.data.length := by
    rw [BitVec.toNat_ofNat, BitVec.toNat_ofNat]
    omega
  congr 1

/-- A frame that was sent is read as what it is. -/
theorem input_octets (packet : Packet) (sp : Sppp) :
    wpSpppInput config around packet.octets sp =
      if packet.proto = pppLcp then lcpInput config around packet.body sp
      else if packet.proto = pppIpcp then
        if sp.lcp.state = .opened then ipcpInput config around packet.body sp else some sp
      else if packet.proto = pppIp then some sp
      else if packet.proto = pppPap then some (papInput config packet.body sp)
      else if packet.proto = pppChap then some (chapInput config around packet.body sp)
      else some (unknownProtocol packet.octets sp) := by
  have proto : (packet.octets.getD 2 0#8 ++ packet.octets.getD 3 0#8 : BitVec 16) = packet.proto :=
    short_append packet.proto
  have long : ¬ packet.octets.length ≤ 4 := by
    unfold Packet.octets Packet.body
    rw [shortOctets_eq, shortOctets_eq]
    simp
  have addressed : ¬ (packet.octets.getD 0 0#8 ≠ pppAllstations ∨
      packet.octets.getD 1 0#8 ≠ pppUi) := by
    rintro (wrong | wrong) <;> exact wrong rfl
  have body : packet.octets.drop 4 = packet.body := rfl
  unfold wpSpppInput
  dsimp only
  rw [if_neg long, if_neg addressed, proto, body]

theorem parse_magic (config : Config) (magic : BitVec 32) (behind : List Octet) (room : around.room = true) :
    lcpConfParseOptions config around 6 (magicOption magic ++ behind) =
      some ⟨true, magic, false, []⟩ := by
  have verdict : optionVerdict config 6 (magicOption magic ++ behind) 0#32 = .agreed magic := by
    have body : (magicOption magic ++ behind).drop 2 = longOctets magic ++ behind := rfl
    unfold optionVerdict
    dsimp only
    rw [body, longAt_longOctets]
    rfl
  have size : ((magicOption magic ++ behind).getD 1 0#8).toNat = 6 := rfl
  rw [lcpConfParseOptions, if_pos room, parseOptions]
  dsimp only
  rw [size, verdict, if_neg (by decide)]
  rfl

theorem body_length (packet : Packet) : packet.body.length = 4 + packet.data.length := by
  unfold Packet.body
  rw [shortOctets_eq]
  simp only [List.length_append, List.length_cons, List.length_nil]

theorem body_drop (packet : Packet) : packet.body.drop 4 = packet.data := rfl

theorem lcpInput_request (number : Octet) (data : List Octet) (short : data.length < 65532) :
    lcpInput config around (Packet.body ⟨pppLcp, confReq, number, data⟩) sp =
      lcpConfReq config around number (4 + data.length) (data ++ around.behind) sp := by
  have whole : (Packet.body ⟨pppLcp, confReq, number, data⟩).length = 4 + data.length :=
    body_length _
  unfold lcpInput
  dsimp only
  rw [header_body short, whole, if_neg (by omega), if_neg (lt_irrefl _), if_pos rfl, body_drop]

theorem call_request (sp : Sppp) (number : Octet) (told : BitVec 32) :
    call config around sp (.input (Packet.octets ⟨pppLcp, confReq, number, magicOption told⟩)) =
      lcpConfReq config around number 10 (magicOption told ++ around.behind) { sp with out := [] } := by
  have size : (magicOption told).length = 6 := rfl
  rw [call, input_octets, if_pos rfl, lcpInput_request _ _ (size ▸ by decide), size]

theorem lcpInput_ack (number : Octet) (data : List Octet) (short : data.length < 65532) :
    lcpInput config around (Packet.body ⟨pppLcp, confAck, number, data⟩) sp =
      some (lcpConfAck config around number sp) := by
  have whole : (Packet.body ⟨pppLcp, confAck, number, data⟩).length = 4 + data.length :=
    body_length _
  have other : confAck ≠ confReq := by decide
  unfold lcpInput
  dsimp only
  rw [header_body short, whole, if_neg (by omega)]
  dsimp only
  rw [if_neg other, if_pos rfl]

theorem lcpInput_nak (number : Octet) (data : List Octet) (short : data.length < 65532) :
    lcpInput config around (Packet.body ⟨pppLcp, confNak, number, data⟩) sp =
      some (lcpConfNak around number (4 + data.length) (data ++ around.behind) sp) := by
  have whole : (Packet.body ⟨pppLcp, confNak, number, data⟩).length = 4 + data.length :=
    body_length _
  have notReq : confNak ≠ confReq := by decide
  have notAck : confNak ≠ confAck := by decide
  unfold lcpInput
  dsimp only
  rw [header_body short, whole, if_neg (by omega), body_drop]
  dsimp only
  rw [if_neg notReq, if_neg notAck, if_pos rfl, if_neg (lt_irrefl _)]

end Frames

end Wanpipe.Syncppp
