import Mathlib.Data.List.Basic
import Mathlib.Tactic.Common
import Wanpipe.Utils.UdpReply

/-! When the reply to a management request is a datagram with checksums that verify. -/

namespace Wanpipe.Utils.UdpReply

open Line Store Words OnesComplement

section Access

variable {data : Nat → Octet} {place left right count i p len : Nat} {word : BitVec 16}

theorem put_outside (apart : i < place ∨ place + 2 ≤ i) : put data place word i = data i :=
  store_outside (by rw [wordOctets_length]; exact apart)

theorem load_put_apart (apart : p + len ≤ place ∨ place + 2 ≤ p) :
    load (put data place word) p len = load data p len :=
  load_store_apart (by rw [wordOctets_length]; exact apart)

theorem load_put : load (put data place word) place 2 = wordOctets 2 word.toNat := by
  have back := load_store data place (wordOctets 2 word.toNat)
  rwa [wordOctets_length] at back

theorem exchange_outside
    (apart : i < left ∨ left + count ≤ i ∧ i < right ∨ right + count ≤ i) (before : left ≤ right) :
    exchange data left right count i = data i := by
  unfold exchange
  rw [store_outside (by rw [load_length]; omega), store_outside (by rw [load_length]; omega)]

theorem load_exchange_apart (before : left + count ≤ right)
    (apart : p + len ≤ left ∨ left + count ≤ p ∧ p + len ≤ right ∨ right + count ≤ p) :
    load (exchange data left right count) p len = load data p len :=
  load_congr fun _ _ _ => exchange_outside (by omega) (by omega)

theorem load_exchange_left (before : left + count ≤ right) :
    load (exchange data left right count) left count = load data right count := by
  have back := load_store data left (load data right count)
  rw [load_length] at back
  unfold exchange
  rw [load_store_apart (Or.inl before), back]

theorem load_exchange_right (data : Nat → Octet) (left right count : Nat) :
    load (exchange data left right count) right count = load data left count := by
  have back := load_store (store data left (load data right count)) right (load data left count)
  rw [load_length] at back
  exact back

theorem swap_toNat (word : BitVec 16) :
    (swap word).toNat = word.toNat % 256 * 256 + word.toNat / 256 := by
  have small := word.isLt
  have high : word.toNat / 256 < 2 ^ 8 := by omega
  have first : word.toNat <<< 8 % 2 ^ 16 = (word.toNat % 256) <<< 8 := by
    rw [Nat.shiftLeft_eq, Nat.shiftLeft_eq]
    omega
  rw [swap, BitVec.toNat_or, BitVec.toNat_shiftLeft, BitVec.toNat_ushiftRight, first,
    Nat.shiftRight_eq_div_pow, ← Nat.shiftLeft_add_eq_or_of_lt high, Nat.shiftLeft_eq]

theorem ofNat_mod (number : Nat) : BitVec.ofNat 8 (number % 256) = BitVec.ofNat 8 number := by
  apply BitVec.eq_of_toNat_eq
  rw [BitVec.toNat_ofNat, BitVec.toNat_ofNat]
  omega

/-- A swapped word stands as a number on the network. -/
theorem wordOctets_swap (word : BitVec 16) :
    wordOctets 2 (swap word).toNat = netOctets word.toNat := by
  have small := word.isLt
  have low : (swap word).toNat % 256 = word.toNat / 256 := by
    rw [swap_toNat]
    omega
  have high : (swap word).toNat / 256 = word.toNat % 256 := by
    rw [swap_toNat]
    omega
  change [BitVec.ofNat 8 (swap word).toNat, BitVec.ofNat 8 ((swap word).toNat / 256)] = _
  rw [← ofNat_mod (swap word).toNat, low, high]
  rfl

theorem hostSum_word (word : BitVec 16) : hostSum (wordOctets 2 word.toNat) = word.toNat := by
  have small := word.isLt
  change (BitVec.ofNat 8 word.toNat).toNat + 256 * (BitVec.ofNat 8 (word.toNat / 256)).toNat + 0 = _
  rw [BitVec.toNat_ofNat, BitVec.toNat_ofNat]
  omega

end Access

section Lengths

variable (configId : Nat) {mboxLen : Nat}

/-- `sizeof(wan_trace_info_t)` where it is counted in. -/
def counted : Nat := if traced configId then traceSize else 0

theorem rawLength_toNat (fits : mboxLen ≤ wanMaxDataSize) :
    (rawLength configId mboxLen).toNat = 40 + mboxLen + counted configId := by
  unfold wanMaxDataSize at fits
  unfold rawLength counted udpSize mgmtSize cmdSize traceSize
  split
  · rw [BitVec.toNat_add, BitVec.toNat_ofNat, BitVec.toNat_ofNat]
    omega
  · have none : (0 : BitVec 16).toNat = 0 := rfl
    rw [BitVec.toNat_add, BitVec.toNat_ofNat, none]
    omega

theorem evenBound_eq (fits : mboxLen ≤ wanMaxDataSize) :
    evenBound configId mboxLen = (40 + mboxLen + counted configId) % 2 := by
  have value := rawLength_toNat configId fits
  have odd : (rawLength configId mboxLen &&& 1).toNat = (rawLength configId mboxLen).toNat % 2 := by
    rw [BitVec.toNat_and]
    exact Nat.and_one_is_mod _
  unfold evenBound
  split
  · rename_i even
    rw [even, value] at odd
    exact odd
  · rename_i one
    rw [value] at odd
    have some : (rawLength configId mboxLen &&& 1).toNat ≠ 0 :=
      fun zero => one (BitVec.eq_of_toNat_eq zero)
    omega

theorem udpLength_toNat (fits : mboxLen ≤ wanMaxDataSize) :
    (udpLength configId mboxLen).toNat =
      40 + mboxLen + counted configId + evenBound configId mboxLen := by
  have value := rawLength_toNat configId fits
  have even := evenBound_eq configId fits
  have few : counted configId ≤ 2 := by
    unfold counted traceSize
    split <;> omega
  unfold wanMaxDataSize at fits
  rw [udpLength, BitVec.toNat_add, BitVec.toNat_ofNat, value]
  omega

theorem replyLength_toNat (fits : mboxLen ≤ wanMaxDataSize) :
    (replyLength configId mboxLen).toNat = ipSize + (udpLength configId mboxLen).toNat := by
  have value := rawLength_toNat configId fits
  have even := evenBound_eq configId fits
  have few : counted configId ≤ 2 := by
    unfold counted traceSize
    split <;> omega
  rw [udpLength_toNat configId fits]
  unfold wanMaxDataSize at fits
  unfold ipSize
  rw [replyLength, BitVec.toNat_add, BitVec.toNat_add, BitVec.toNat_ofNat, BitVec.toNat_ofNat, value]
  unfold ipSize
  omega

theorem udpLength_even (fits : mboxLen ≤ wanMaxDataSize) :
    (udpLength configId mboxLen).toNat % 2 = 0 := by
  rw [udpLength_toNat configId fits, evenBound_eq configId fits]
  omega

/-- Where the trace information is not counted in, the pseudo header stands behind its place. -/
theorem pseudoPlace_eq (fits : mboxLen ≤ wanMaxDataSize) :
    pseudoPlace configId mboxLen + counted configId =
      ipSize + (udpLength configId mboxLen).toNat + traceSize := by
  rw [udpLength_toNat configId fits]
  unfold pseudoPlace dataPlace ipSize traceSize
  omega

end Lengths

section Checksum

variable {data : Nat → Octet} {place : Nat}

theorem get_toNat : (get data place).toNat = hostSum (load data place 2) := by
  have low := (data (place + 0)).isLt
  have high := (data (place + 1)).isLt
  change wordValue [data (place + 0), data (place + 1)] % 65536 =
    (data (place + 0)).toNat + 256 * (data (place + 1)).toNat + 0
  rw [wordValue, wordValue, wordValue]
  omega

theorem addWords_eq {words sum : Nat} (small : sum + 65535 * words < 0x100000000) :
    addWords data place words sum = sum + hostSum (load data place (2 * words)) := by
  induction words generalizing place sum with
  | zero => rfl
  | succ words ih =>
      have word := (get data place).isLt
      have whole : load data place (2 * (words + 1)) =
          load data place 2 ++ load data (place + 2) (2 * words) := by
        rw [Nat.mul_succ, Nat.add_comm, load_append]
      have even : (load data place 2).length % 2 = 0 := by rw [load_length]
      have next : (sum + (get data place).toNat) % 0x100000000 = sum + (get data place).toNat :=
        Nat.mod_eq_of_lt (by omega)
      rw [addWords, next, ih (by omega), whole, hostSum_append even, get_toNat, Nat.add_assoc]

/-- With the checksum a sum is a multiple of all ones. -/
theorem wanCalcChecksum_spec (data : Nat → Octet) (place : Nat) {len : Nat} (even : len % 2 = 0) (small : len ≤ 3 * wanMaxDataSize) :
    65535 ∣ hostSum (load data place len) + (wanCalcChecksum data place len).toNat := by
  unfold wanMaxDataSize at small
  have words : (len + 1) / 2 = len / 2 := by omega
  have whole : 2 * (len / 2) = len := by omega
  have sum : addWords data place ((len + 1) / 2) 0 = hostSum (load data place len) := by
    rw [words, addWords_eq (by omega), whole, Nat.zero_add]
  have below := fold_small (hostSum (load data place len))
  have same := fold_mod (hostSum (load data place len))
  have value : (~~~BitVec.ofNat 16 (fold (hostSum (load data place len)))).toNat =
      65535 - fold (hostSum (load data place len)) := by
    rw [BitVec.toNat_not, BitVec.toNat_ofNat, Nat.mod_eq_of_lt below]
  unfold wanCalcChecksum
  rw [sum]
  split
  · rename_i zero
    rw [zero] at value
    change 0 = _ at value
    change 65535 ∣ _ + 65535
    omega
  · rw [value]
    omega

theorem wanCalcChecksum_pos (data : Nat → Octet) (place len : Nat) :
    0 < (wanCalcChecksum data place len).toNat := by
  unfold wanCalcChecksum
  split
  · exact Nat.succ_pos _
  · rename_i some
    exact Nat.pos_of_ne_zero fun zero => some (BitVec.eq_of_toNat_eq zero)

end Checksum

section Filled

variable (configId mboxLen : Nat) (data : Nat → Octet)

theorem pseudoPlace_le : dataPlace + mboxLen ≤ pseudoPlace configId mboxLen :=
  Nat.le_add_right _ _

/-- The fields that are filled in leave the rest alone. -/
theorem load_filled {p len : Nat}
    (apart : p + len ≤ udpSportPlace ∨ signaturePlace ≤ p ∧ p + len ≤ requestReplyPlace ∨
      requestReplyPlace < p ∧ p + len ≤ pseudoPlace configId mboxLen) :
    load (filled configId mboxLen data) p len = load data p len := by
  have behind := pseudoPlace_le configId mboxLen
  unfold dataPlace at behind
  unfold udpSportPlace signaturePlace requestReplyPlace at apart
  unfold filled udpSportPlace udpDportPlace udpLenPlace udpSumPlace requestReplyPlace
  rw [load_put_apart (by omega), load_put_apart (by omega), load_put_apart (by omega),
    load_exchange_apart (by omega) (by omega), load_put_apart (by omega),
    load_store_apart (by rw [List.length_singleton]; omega)]

theorem filled_ports :
    load (filled configId mboxLen data) udpSportPlace 2 = load data udpDportPlace 2 ∧
      load (filled configId mboxLen data) udpDportPlace 2 = load data udpSportPlace 2 := by
  have behind := pseudoPlace_le configId mboxLen
  unfold dataPlace at behind
  unfold filled udpSportPlace udpDportPlace udpLenPlace udpSumPlace requestReplyPlace
  constructor
  · rw [load_put_apart (by omega), load_put_apart (by omega), load_put_apart (by omega),
      load_exchange_left (by omega), load_put_apart (by omega),
      load_store_apart (by omega)]
  · rw [load_put_apart (by omega), load_put_apart (by omega), load_put_apart (by omega),
      load_exchange_right, load_put_apart (by omega), load_store_apart (by omega)]

theorem filled_len : load (filled configId mboxLen data) udpLenPlace 2 =
    netOctets (udpLength configId mboxLen).toNat := by
  have behind := pseudoPlace_le configId mboxLen
  unfold dataPlace at behind
  unfold filled udpSportPlace udpDportPlace udpLenPlace udpSumPlace requestReplyPlace
  rw [load_put_apart (by omega), load_put_apart (by omega), load_put_apart (by omega),
    load_exchange_apart (by omega) (by omega), load_put, wordOctets_swap]

theorem filled_sum : load (filled configId mboxLen data) udpSumPlace 2 = [0, 0] := load_put

theorem filled_pseudo :
    load (filled configId mboxLen data) (pseudoPlace configId mboxLen) 4 =
      [0, 0x11] ++ netOctets (udpLength configId mboxLen).toNat := by
  have behind := pseudoPlace_le configId mboxLen
  unfold dataPlace at behind
  change load _ _ (2 + 2) = _
  unfold filled udpSumPlace
  rw [load_put_apart (by omega), load_append, load_put_apart (by omega), load_put, load_put,
    wordOctets_swap]
  rfl

end Filled

section Reply

variable (configId mboxLen : Nat) (data : Nat → Octet)

/-- What comes behind the UDP checksum leaves the rest alone. -/
theorem load_reply {p len : Nat}
    (apart : p + len ≤ ipLenPlace ∨ 4 ≤ p ∧ p + len ≤ ipSumPlace ∨
      udpSportPlace ≤ p ∧ p + len ≤ udpSumPlace ∨ signaturePlace ≤ p) :
    load (wanReplyUdp configId mboxLen data).1 p len =
      load (filled configId mboxLen data) p len := by
  unfold ipLenPlace ipSumPlace udpSportPlace udpSumPlace signaturePlace at apart
  unfold wanReplyUdp headed summed ipLenPlace ipSumPlace ipSrcPlace ipDstPlace udpSumPlace
  dsimp only
  rw [load_put_apart (by omega), load_put_apart (by omega),
    load_exchange_apart (by omega) (by omega), load_put_apart (by omega), load_put_apart (by omega)]

theorem reply_sum : load (wanReplyUdp configId mboxLen data).1 udpSumPlace 2 =
    wordOctets 2 (wanCalcChecksum (filled configId mboxLen data) udpOffset
      ((udpLength configId mboxLen).toNat + udpOffset)).toNat := by
  unfold wanReplyUdp headed summed ipLenPlace ipSumPlace ipSrcPlace ipDstPlace udpSumPlace
  dsimp only
  rw [load_put_apart (by omega), load_put_apart (by omega),
    load_exchange_apart (by omega) (by omega), load_put_apart (by omega), load_put]

theorem reply_addresses :
    load (wanReplyUdp configId mboxLen data).1 ipSrcPlace 4 = load data ipDstPlace 4 ∧
      load (wanReplyUdp configId mboxLen data).1 ipDstPlace 4 = load data ipSrcPlace 4 := by
  have source : load (filled configId mboxLen data) ipSrcPlace 4 = load data ipSrcPlace 4 :=
    load_filled configId mboxLen data (Or.inl (by decide))
  have target : load (filled configId mboxLen data) ipDstPlace 4 = load data ipDstPlace 4 :=
    load_filled configId mboxLen data (Or.inl (by decide))
  rw [← source, ← target]
  unfold wanReplyUdp headed summed ipLenPlace ipSumPlace ipSrcPlace ipDstPlace udpSumPlace
  dsimp only
  constructor
  · rw [load_put_apart (by omega), load_put_apart (by omega), load_exchange_left (by omega),
      load_put_apart (by omega), load_put_apart (by omega)]
  · rw [load_put_apart (by omega), load_put_apart (by omega), load_exchange_right,
      load_put_apart (by omega), load_put_apart (by omega)]

theorem reply_ipLen : load (wanReplyUdp configId mboxLen data).1 ipLenPlace 2 =
    netOctets (replyLength configId mboxLen).toNat := by
  unfold wanReplyUdp headed ipLenPlace ipSumPlace ipSrcPlace ipDstPlace
  dsimp only
  rw [load_put_apart (by omega), load_put_apart (by omega),
    load_exchange_apart (by omega) (by omega), load_put, wordOctets_swap]

/-- A word that is put in the place of zero adds to the sum. -/
theorem hostSum_put (data : Nat → Octet) (place : Nat) (word : BitVec 16) {start left : Nat}
    (right : Nat) (here : place = start + left) (even : left % 2 = 0) :
    hostSum (load (put (put data place 0) place word) start (left + (2 + right))) =
      hostSum (load (put data place 0) start (left + (2 + right))) + word.toNat := by
  have first : (load data start left).length % 2 = 0 := by rw [load_length, even]
  have second (value : BitVec 16) : (wordOctets 2 value.toNat).length % 2 = 0 := by
    rw [wordOctets_length]
  have zero : (0 : BitVec 16).toNat = 0 := rfl
  rw [load_append, load_append, load_append, load_append]
  rw [load_put_apart (by omega), load_put_apart (by omega), ← here, load_put, load_put,
    load_put_apart (by omega), load_put_apart (by omega), hostSum_append first,
    hostSum_append first, hostSum_append (second word), hostSum_append (second 0), hostSum_word,
    hostSum_word, zero]
  omega

theorem reply_ipSum : Verifies (load (wanReplyUdp configId mboxLen data).1 0 ipSize) := by
  have check := wanCalcChecksum_spec
    (headed configId mboxLen (summed configId mboxLen (filled configId mboxLen data))) 0
    (show ipSize % 2 = 0 from rfl) (by decide)
  have some := wanCalcChecksum_pos
    (headed configId mboxLen (summed configId mboxLen (filled configId mboxLen data))) 0 ipSize
  have added := hostSum_put
    (exchange
      (put (summed configId mboxLen (filled configId mboxLen data)) ipLenPlace
        (swap (replyLength configId mboxLen)))
      ipSrcPlace ipDstPlace 4)
    ipSumPlace
    (wanCalcChecksum
      (headed configId mboxLen (summed configId mboxLen (filled configId mboxLen data))) 0 ipSize)
    8 (show ipSumPlace = 0 + 10 from rfl) rfl
  rw [verifies_host]
  change hostSum (load (wanReplyUdp configId mboxLen data).1 0 ipSize) = _ at added
  rw [added]
  exact ⟨Nat.add_pos_right _ some, check⟩

theorem hostSum_load (data : Nat → Octet) (place : Nat) {left : Nat} (even : left % 2 = 0)
    (right : Nat) : hostSum (load data place (left + right)) =
      hostSum (load data place left) + hostSum (load data (place + left) right) := by
  have first : (load data place left).length % 2 = 0 := by rw [load_length, even]
  rw [load_append, hostSum_append first]

/-- The sum that the UDP checksum is made of, part by part. -/
theorem filled_sums {rest : Nat} (even : rest % 2 = 0) :
    hostSum (load (filled configId mboxLen data) udpOffset (4 + (4 + (6 + (2 + (rest + 4)))))) =
      hostSum (load data ipSrcPlace 4) + hostSum (load data ipDstPlace 4) +
        hostSum (load (filled configId mboxLen data) udpSportPlace 6) +
        hostSum (load (filled configId mboxLen data) signaturePlace rest) +
        hostSum (load (filled configId mboxLen data) (signaturePlace + rest) 4) := by
  have source : load (filled configId mboxLen data) udpOffset 4 = load data ipSrcPlace 4 :=
    load_filled configId mboxLen data (Or.inl (by decide))
  have target : load (filled configId mboxLen data) (udpOffset + 4) 4 = load data ipDstPlace 4 :=
    load_filled configId mboxLen data (Or.inl (by decide))
  have none : hostSum (load (filled configId mboxLen data) (udpOffset + 4 + 4 + 6) 2) = 0 := by
    change hostSum (load (filled configId mboxLen data) udpSumPlace 2) = 0
    rw [filled_sum]
    rfl
  rw [hostSum_load _ _ rfl, hostSum_load _ _ rfl, hostSum_load _ _ rfl, hostSum_load _ _ rfl,
    hostSum_load _ _ even, source, target, none]
  change _ + (_ + (hostSum (load (filled configId mboxLen data) udpSportPlace 6) + (0 +
    (hostSum (load (filled configId mboxLen data) signaturePlace rest) +
      hostSum (load (filled configId mboxLen data) (signaturePlace + rest) 4))))) = _
  omega

/-- The sum that has to verify, part by part. -/
theorem reply_sums (protocol : data ipProtocolPlace = udpmgmtUdpProtocol) (rest : Nat) :
    hostSum (pseudoHeader (wanReplyUdp configId mboxLen data).1 ++
        load (wanReplyUdp configId mboxLen data).1 ipSize (6 + (2 + rest))) =
      hostSum (load data ipDstPlace 4) + hostSum (load data ipSrcPlace 4) + 0x1100 +
        hostSum (netOctets (udpLength configId mboxLen).toNat) +
        hostSum (load (filled configId mboxLen data) udpSportPlace 6) +
        (wanCalcChecksum (filled configId mboxLen data) udpOffset
          ((udpLength configId mboxLen).toNat + udpOffset)).toNat +
        hostSum (load (filled configId mboxLen data) signaturePlace rest) := by
  have addresses : load (wanReplyUdp configId mboxLen data).1 ipSrcPlace 4 = load data ipDstPlace 4 ∧
      load (wanReplyUdp configId mboxLen data).1 ipDstPlace 4 = load data ipSrcPlace 4 :=
    reply_addresses configId mboxLen data
  have header : load (wanReplyUdp configId mboxLen data).1 ipSize 6 =
      load (filled configId mboxLen data) udpSportPlace 6 :=
    load_reply configId mboxLen data (Or.inr (Or.inr (Or.inl (by decide))))
  have body : load (wanReplyUdp configId mboxLen data).1 (ipSize + 6 + 2) rest =
      load (filled configId mboxLen data) signaturePlace rest :=
    load_reply configId mboxLen data (Or.inr (Or.inr (Or.inr (by decide))))
  have length : load (wanReplyUdp configId mboxLen data).1 udpLenPlace 2 =
      netOctets (udpLength configId mboxLen).toNat :=
    (load_reply configId mboxLen data (Or.inr (Or.inr (Or.inl (by decide))))).trans (filled_len configId mboxLen data)
  have kind : (wanReplyUdp configId mboxLen data).1 ipProtocolPlace = udpmgmtUdpProtocol := by
    have one : load (wanReplyUdp configId mboxLen data).1 ipProtocolPlace 1 =
        load data ipProtocolPlace 1 :=
      (load_reply configId mboxLen data (Or.inr (Or.inl (by decide)))).trans
        (load_filled configId mboxLen data (Or.inl (by decide)))
    exact (List.cons.inj one).1.trans protocol
  have check : load (wanReplyUdp configId mboxLen data).1 (ipSize + 6) 2 = _ :=
    reply_sum configId mboxLen data
  have fields : (load (wanReplyUdp configId mboxLen data).1 ipSrcPlace 8 ++
      [0, udpmgmtUdpProtocol]).length % 2 = 0 := by
    rw [List.length_append, load_length]
    rfl
  have both : (load (wanReplyUdp configId mboxLen data).1 ipSrcPlace 8).length % 2 = 0 := by
    rw [load_length]
  have pseudo : (pseudoHeader (wanReplyUdp configId mboxLen data).1).length % 2 = 0 := by
    rw [pseudoHeader, kind, List.length_append, List.length_append, load_length, load_length]
    rfl
  rw [hostSum_append pseudo, pseudoHeader, kind, hostSum_append fields, hostSum_append both]
  change hostSum (load _ _ (4 + 4)) + _ + _ + _ = _
  rw [hostSum_load _ _ rfl, hostSum_load _ _ rfl, hostSum_load _ _ rfl, addresses.1, header, body,
    length, check, hostSum_word]
  change _ + hostSum (load (wanReplyUdp configId mboxLen data).1 ipDstPlace 4) + 0x1100 + _ + _ = _
  rw [addresses.2]
  omega

/-- The UDP checksum is right when the octets behind the summed datagram sum up as the pseudo header
does. -/
theorem reply_udpSum (protocol : data ipProtocolPlace = udpmgmtUdpProtocol)
    (fits : mboxLen ≤ wanMaxDataSize) :
    Verifies (pseudoHeader (wanReplyUdp configId mboxLen data).1 ++
        load (wanReplyUdp configId mboxLen data).1 ipSize (udpLength configId mboxLen).toNat) ↔
      hostSum (load (filled configId mboxLen data)
        (ipSize + (udpLength configId mboxLen).toNat) 4) % 65535 =
        (0x1100 + hostSum (netOctets (udpLength configId mboxLen).toNat)) % 65535 := by
  have length := udpLength_toNat configId fits
  have even := udpLength_even configId fits
  have bound := evenBound_eq configId fits
  have few : counted configId ≤ 2 := by
    unfold counted traceSize
    split <;> omega
  obtain ⟨rest, size⟩ : ∃ rest, (udpLength configId mboxLen).toNat = 6 + (2 + rest) :=
    ⟨(udpLength configId mboxLen).toNat - 8, by omega⟩
  have check := wanCalcChecksum_spec (filled configId mboxLen data) udpOffset
    (show ((udpLength configId mboxLen).toNat + udpOffset) % 2 = 0 by unfold udpOffset; omega)
    (by unfold wanMaxDataSize at *; unfold udpOffset; omega)
  have range : (udpLength configId mboxLen).toNat + udpOffset =
      4 + (4 + (6 + (2 + (rest + 4)))) := by
    unfold udpOffset
    omega
  have behind : signaturePlace + rest = ipSize + (udpLength configId mboxLen).toNat := by
    unfold signaturePlace ipSize
    omega
  have parts := filled_sums configId mboxLen data (show rest % 2 = 0 by omega)
  have whole := reply_sums configId mboxLen data protocol rest
  rw [← range, behind] at parts
  rw [← size] at whole
  rw [parts] at check
  rw [verifies_host, whole]
  omega

end Reply

section Property

variable (configId : Nat) {mboxLen : Nat} {data : Nat → Octet}

theorem hostSum_netOctets {number : Nat} (small : number < 65536) :
    hostSum (netOctets number) = number / 256 + 256 * (number % 256) := by
  change (BitVec.ofNat 8 (number / 256)).toNat + 256 * (BitVec.ofNat 8 (number % 256)).toNat + 0 = _
  rw [BitVec.toNat_ofNat, BitVec.toNat_ofNat]
  omega

/-- Two octets are told from their sum. -/
theorem hostSum_two {place number : Nat} (small : number < 65536)
    (same : hostSum (load data place 2) = hostSum (netOctets number)) :
    load data place 2 = netOctets number := by
  have low := (data (place + 0)).isLt
  have high := (data (place + 1)).isLt
  rw [hostSum_netOctets small] at same
  change (data (place + 0)).toNat + 256 * (data (place + 1)).toNat + 0 = _ at same
  have upper : (data (place + 1)).toNat = number % 256 := by
    have left : ((data (place + 0)).toNat + 256 * (data (place + 1)).toNat + 0) / 256 =
        (data (place + 1)).toNat := by omega
    rw [← left, same]
    omega
  change [data (place + 0), data (place + 1)] = _
  have first : data (place + 0) = BitVec.ofNat 8 (number / 256) := by
    apply BitVec.eq_of_toNat_eq
    rw [BitVec.toNat_ofNat]
    omega
  have second : data (place + 1) = BitVec.ofNat 8 (number % 256) := by
    apply BitVec.eq_of_toNat_eq
    rw [BitVec.toNat_ofNat]
    omega
  rw [first, second]
  rfl

/-- The two octets in front of the pseudo header happen to be the UDP length. -/
def Spelled (configId mboxLen : Nat) (data : Nat → Octet) : Prop :=
  load data (pseudoPlace configId mboxLen - traceSize) 2 =
    netOctets (udpLength configId mboxLen).toNat

instance spelledDecidable (configId mboxLen : Nat) (data : Nat → Octet) :
    Decidable (Spelled configId mboxLen data) := inferInstanceAs (Decidable (_ = _))

theorem udpSum_iff (protocol : data ipProtocolPlace = udpmgmtUdpProtocol)
    (fits : mboxLen ≤ wanMaxDataSize) :
    Verifies (pseudoHeader (wanReplyUdp configId mboxLen data).1 ++
        load (wanReplyUdp configId mboxLen data).1 ipSize (udpLength configId mboxLen).toNat) ↔
      traced configId = true ∨ Spelled configId mboxLen data := by
  have pseudo := filled_pseudo configId mboxLen data
  have place := pseudoPlace_eq configId fits
  have length := udpLength_toNat configId fits
  have bound := evenBound_eq configId fits
  rw [reply_udpSum configId mboxLen data protocol fits]
  cases kind : traced configId with
  | true =>
      have here : ipSize + (udpLength configId mboxLen).toNat = pseudoPlace configId mboxLen := by
        unfold counted at place
        rw [kind, if_pos rfl] at place
        omega
      have even : ([0, 0x11] : List Octet).length % 2 = 0 := rfl
      rw [here, pseudo, hostSum_append even]
      exact ⟨fun _ => Or.inl rfl, fun _ => rfl⟩
  | false =>
      have none : counted configId = 0 := by
        unfold counted
        rw [kind]
        rfl
      have here : pseudoPlace configId mboxLen =
          ipSize + (udpLength configId mboxLen).toNat + 2 := by
        rw [none] at place
        exact place
      have front : load (filled configId mboxLen data) (pseudoPlace configId mboxLen) 2 =
          [0, 0x11] := by
        change load _ _ (2 + 2) = _ at pseudo
        rw [load_append] at pseudo
        exact (List.append_inj pseudo (load_length _ _ _)).1
      have stale : load (filled configId mboxLen data)
          (ipSize + (udpLength configId mboxLen).toNat) 2 =
          load data (pseudoPlace configId mboxLen - traceSize) 2 := by
        have before : pseudoPlace configId mboxLen - traceSize =
            ipSize + (udpLength configId mboxLen).toNat := by
          rw [here]
          rfl
        rw [before]
        apply load_filled
        unfold requestReplyPlace ipSize at *
        omega
      have small : (udpLength configId mboxLen).toNat < 65536 := (udpLength configId mboxLen).isLt
      have most := (get data (pseudoPlace configId mboxLen - traceSize)).isLt
      rw [get_toNat] at most
      have sum := hostSum_netOctets small
      have both : hostSum (load (filled configId mboxLen data)
          (ipSize + (udpLength configId mboxLen).toNat) 4) =
          hostSum (load data (pseudoPlace configId mboxLen - traceSize) 2) + 0x1100 := by
        change hostSum (load _ _ (2 + 2)) = _
        rw [hostSum_load _ _ rfl, stale, ← here, front]
        rfl
      rw [both]
      constructor
      · intro same
        refine Or.inr (hostSum_two small ?_)
        rw [sum] at same ⊢
        unfold wanMaxDataSize at fits
        omega
      · rintro (no | spelled)
        · cases no
        · rw [spelled, Nat.add_comm]

theorem Request.protocol (request : Request) :
    request.data ipProtocolPlace = udpmgmtUdpProtocol := by
  have accepted := request.accepted
  unfold wanUdpPktType at accepted
  split at accepted
  · rename_i fields
    exact fields.2.1
  · cases accepted

theorem udp_reply (request : Request) (configId : Nat) :
    Answers request.mboxLen request.data (wanReplyUdp configId request.mboxLen request.data).1
        (wanReplyUdp configId request.mboxLen request.data).2 ↔
      traced configId = true ∨ Spelled configId request.mboxLen request.data := by
  have fits := request.fits
  have length := udpLength_toNat configId fits
  have behind := pseudoPlace_le configId request.mboxLen
  have total : (wanReplyUdp configId request.mboxLen request.data).2 =
      ipSize + (udpLength configId request.mboxLen).toNat := replyLength_toNat configId fits
  have datagram : (wanReplyUdp configId request.mboxLen request.data).2 - ipSize =
      (udpLength configId request.mboxLen).toNat := by
    rw [total]
    omega
  rw [← udpSum_iff configId request.protocol fits, ← datagram]
  refine ⟨Answers.udpSum, fun verifies => ?_⟩
  refine ⟨?_, ⟨?_, ?_⟩, ?_, verifies, ?_, ⟨?_, ?_⟩, ?_, ?_⟩
  · exact reply_ipLen configId request.mboxLen request.data
  · rw [total]
    unfold udpSize
    omega
  · rw [datagram, load_reply _ _ _ (Or.inr (Or.inr (Or.inl (by decide))))]
    exact filled_len configId request.mboxLen request.data
  · exact reply_ipSum configId request.mboxLen request.data
  · exact reply_addresses configId request.mboxLen request.data
  · rw [load_reply _ _ _ (Or.inr (Or.inr (Or.inl (by decide))))]
    exact (filled_ports configId request.mboxLen request.data).1
  · rw [load_reply _ _ _ (Or.inr (Or.inr (Or.inl (by decide))))]
    exact (filled_ports configId request.mboxLen request.data).2
  · rw [load_reply _ _ _ (Or.inr (Or.inr (Or.inr (by decide))))]
    exact load_filled _ _ _ (Or.inr (Or.inr ⟨by decide, behind⟩))
  · rw [load_reply _ _ _ (Or.inr (Or.inr (Or.inr (by decide))))]
    have early : tracePlace + traceSize ≤ dataPlace + request.mboxLen := Nat.le_add_right _ _
    exact load_filled _ _ _ (Or.inr (Or.inr ⟨by decide, early.trans behind⟩))

/-- A request without data to a card whose length does not take the trace information in. -/
def shortRequest : Request where
  udpPort := 9000
  data i := [0x45, 0, 0, 0, 0, 0, 0, 0, 64, 0x11, 0, 0, 10, 0, 0, 1, 10, 0, 0, 2, 0x23, 0x28, 0x23,
    0x28, 0, 0, 0, 0, 0x57, 0x41, 0x4E, 0x50, 0x49, 0x50, 0x45, 0, 0x01].getD i 0
  accepted := by decide +kernel
  mboxLen := 2
  fits := by decide

/-- Behind two octets of zeros its reply has a UDP checksum that does not verify. -/
theorem udp_reply_aft :
    ¬ Answers shortRequest.mboxLen shortRequest.data
      (wanReplyUdp 117 shortRequest.mboxLen shortRequest.data).1
      (wanReplyUdp 117 shortRequest.mboxLen shortRequest.data).2 := by
  intro answers
  have length : (wanReplyUdp 117 shortRequest.mboxLen shortRequest.data).2 - ipSize =
      (udpLength 117 shortRequest.mboxLen).toNat := by decide +kernel
  have verifies := answers.udpSum
  rw [length, udpSum_iff 117 shortRequest.protocol shortRequest.fits] at verifies
  rcases verifies with counted | spelled
  · cases counted
  · exact absurd spelled (by decide +kernel)

end Property

end Wanpipe.Utils.UdpReply
