import Mathlib.Data.BitVec
import Wanpipe.Blocks
import Wanpipe.Line.Octets
import Wanpipe.Words

/-! The MD5 digest of the authentication, on a machine that stores the low octet of a word first. -/

namespace Wanpipe.Syncppp

open Line Words Blocks

structure Md5State where
  a : BitVec 32
  b : BitVec 32
  c : BitVec 32
  d : BitVec 32
  deriving DecidableEq, Repr

/-- `struct wp_MD5Context`: `mem` are the octets of `in`. -/
structure Md5Context where
  buf : Md5State
  bytes0 : BitVec 32
  bytes1 : BitVec 32
  mem : List Octet

/-- The four core functions. -/
inductive Core
  | f1
  | f2
  | f3
  | f4

def core (x y z : BitVec 32) : Core → BitVec 32
  | .f1 => z ^^^ (x &&& (y ^^^ z))
  | .f2 => y ^^^ (z &&& (x ^^^ y))
  | .f3 => x ^^^ y ^^^ z
  | .f4 => y ^^^ (x ||| ~~~z)

/-- A word of a block. -/
def wordAt (block : List Octet) (i : Nat) : BitVec 32 :=
  BitVec.ofNat 32 (wordValue ((block.drop (4 * i)).take 4))

/-- `wp_MD5STEP`, and the registers in the order of the next step. -/
def md5Step (block : List Octet) (s : Md5State) (row : Core × Nat × BitVec 32 × Nat) : Md5State :=
  let w := s.a + (core s.b s.c s.d row.1 + (wordAt block row.2.1 + row.2.2.1))
  ⟨s.d, (w <<< row.2.2.2 ||| w >>> (32 - row.2.2.2)) + s.b, s.b, s.c⟩

/-- The steps: the core function, the word, the constant and by how many bits is rotated. -/
def md5Rows : List (Core × Nat × BitVec 32 × Nat) :=
  [(.f1, 0, 0xd76aa478#32, 7), (.f1, 1, 0xe8c7b756#32, 12), (.f1, 2, 0x242070db#32, 17),
    (.f1, 3, 0xc1bdceee#32, 22), (.f1, 4, 0xf57c0faf#32, 7), (.f1, 5, 0x4787c62a#32, 12),
    (.f1, 6, 0xa8304613#32, 17), (.f1, 7, 0xfd469501#32, 22), (.f1, 8, 0x698098d8#32, 7),
    (.f1, 9, 0x8b44f7af#32, 12), (.f1, 10, 0xffff5bb1#32, 17), (.f1, 11, 0x895cd7be#32, 22),
    (.f1, 12, 0x6b901122#32, 7), (.f1, 13, 0xfd987193#32, 12), (.f1, 14, 0xa679438e#32, 17),
    (.f1, 15, 0x49b40821#32, 22), (.f2, 1, 0xf61e2562#32, 5), (.f2, 6, 0xc040b340#32, 9),
    (.f2, 11, 0x265e5a51#32, 14), (.f2, 0, 0xe9b6c7aa#32, 20), (.f2, 5, 0xd62f105d#32, 5),
    (.f2, 10, 0x02441453#32, 9), (.f2, 15, 0xd8a1e681#32, 14), (.f2, 4, 0xe7d3fbc8#32, 20),
    (.f2, 9, 0x21e1cde6#32, 5), (.f2, 14, 0xc33707d6#32, 9), (.f2, 3, 0xf4d50d87#32, 14),
    (.f2, 8, 0x455a14ed#32, 20), (.f2, 13, 0xa9e3e905#32, 5), (.f2, 2, 0xfcefa3f8#32, 9),
    (.f2, 7, 0x676f02d9#32, 14), (.f2, 12, 0x8d2a4c8a#32, 20), (.f3, 5, 0xfffa3942#32, 4),
    (.f3, 8, 0x8771f681#32, 11), (.f3, 11, 0x6d9d6122#32, 16), (.f3, 14, 0xfde5380c#32, 23),
    (.f3, 1, 0xa4beea44#32, 4), (.f3, 4, 0x4bdecfa9#32, 11), (.f3, 7, 0xf6bb4b60#32, 16),
    (.f3, 10, 0xbebfbc70#32, 23), (.f3, 13, 0x289b7ec6#32, 4), (.f3, 0, 0xeaa127fa#32, 11),
    (.f3, 3, 0xd4ef3085#32, 16), (.f3, 6, 0x04881d05#32, 23), (.f3, 9, 0xd9d4d039#32, 4),
    (.f3, 12, 0xe6db99e5#32, 11), (.f3, 15, 0x1fa27cf8#32, 16), (.f3, 2, 0xc4ac5665#32, 23),
    (.f4, 0, 0xf4292244#32, 6), (.f4, 7, 0x432aff97#32, 10), (.f4, 14, 0xab9423a7#32, 15),
    (.f4, 5, 0xfc93a039#32, 21), (.f4, 12, 0x655b59c3#32, 6), (.f4, 3, 0x8f0ccc92#32, 10),
    (.f4, 10, 0xffeff47d#32, 15), (.f4, 1, 0x85845dd1#32, 21), (.f4, 8, 0x6fa87e4f#32, 6),
    (.f4, 15, 0xfe2ce6e0#32, 10), (.f4, 6, 0xa3014314#32, 15), (.f4, 13, 0x4e0811a1#32, 21),
    (.f4, 4, 0xf7537e82#32, 6), (.f4, 11, 0xbd3af235#32, 10), (.f4, 2, 0x2ad7d2bb#32, 15),
    (.f4, 9, 0xeb86d391#32, 21)]

def wpMd5Transform (buf : Md5State) (block : List Octet) : Md5State :=
  let s := md5Rows.foldl (md5Step block) buf
  ⟨buf.a + s.a, buf.b + s.b, buf.c + s.c, buf.d + s.d⟩

def md5Initial : Md5State := ⟨0x67452301#32, 0xefcdab89#32, 0x98badcfe#32, 0x10325476#32⟩

/-- What stands in `in` is left there. -/
def wpMd5Init (ctx : Md5Context) : Md5Context := ⟨md5Initial, 0#32, 0#32, ctx.mem⟩

/-- Octets are put to a place. -/
def putAt (mem : List Octet) (place : Nat) (octets : List Octet) : List Octet :=
  mem.take place ++ octets ++ mem.drop (place + octets.length)

/-- The loop over the blocks of 64 octets, and what is left behind them. -/
def md5Chunks : Nat → Md5Context → List Octet → Md5Context
  | 0, ctx, _ => ctx
  | rounds + 1, ctx, octets =>
      if 64 ≤ octets.length then
        let mem := putAt ctx.mem 0 (octets.take 64)
        md5Chunks rounds { ctx with mem := mem, buf := wpMd5Transform ctx.buf mem } (octets.drop 64)
      else { ctx with mem := putAt ctx.mem 0 octets }

def wpMd5Update (ctx : Md5Context) (octets : List Octet) : Md5Context :=
  let low := ctx.bytes0 + BitVec.ofNat 32 octets.length
  let high := if low.toNat < ctx.bytes0.toNat then ctx.bytes1 + 1#32 else ctx.bytes1
  let space := 64 - ctx.bytes0.toNat % 64
  if octets.length < space then
    ⟨ctx.buf, low, high, putAt ctx.mem (64 - space) octets⟩
  else
    let mem := putAt ctx.mem (64 - space) (octets.take space)
    md5Chunks octets.length ⟨wpMd5Transform ctx.buf mem, low, high, mem⟩ (octets.drop space)

/-- The octets of the registers. -/
def md5Digest (s : Md5State) : List Octet :=
  wordOctets 4 s.a.toNat ++ wordOctets 4 s.b.toNat ++ wordOctets 4 s.c.toNat ++
    wordOctets 4 s.d.toNat

def zeros (count : Nat) : List Octet := List.replicate count 0#8

/-- The length in bits goes into the last two words. -/
def md5Finish (ctx : Md5Context) (buf : Md5State) (mem : List Octet) : List Octet :=
  let mem := putAt mem 56 (wordOctets 4 (ctx.bytes0 <<< 3).toNat)
  let mem := putAt mem 60 (wordOctets 4 (ctx.bytes1 <<< 3 ||| ctx.bytes0 >>> 29).toNat)
  md5Digest (wpMd5Transform buf mem)

def wpMd5Final (ctx : Md5Context) : List Octet :=
  let count := ctx.bytes0.toNat % 64
  let mem := putAt ctx.mem count [0x80#8]
  if 55 < count then
    let mem := putAt mem (count + 1) (zeros (63 - count))
    md5Finish ctx (wpMd5Transform ctx.buf mem) (putAt mem 0 (zeros 56))
  else md5Finish ctx ctx.buf (putAt mem (count + 1) (zeros (55 - count)))

/-- A message as it is digested: an octet with its first bit set, as few zeros as fill a block up with
the length in bits, and that length. -/
def md5Padded (message : List Octet) : List Octet :=
  message ++ 0x80#8 :: zeros ((119 - message.length % 64) % 64) ++
    wordOctets 8 (8 * message.length)

/-- The digest of a message. -/
def md5 (message : List Octet) : List Octet :=
  md5Digest (absorbed wpMd5Transform 64 md5Initial (md5Padded message))

example : md5 [] = [0xd4#8, 0x1d#8, 0x8c#8, 0xd9#8, 0x8f#8, 0x00#8, 0xb2#8, 0x04#8, 0xe9#8, 0x80#8,
    0x09#8, 0x98#8, 0xec#8, 0xf8#8, 0x42#8, 0x7e#8] := by
  decide +kernel

section Memory

theorem putAt_length {mem octets : List Octet} {place : Nat}
    (room : place + octets.length ≤ mem.length) : (putAt mem place octets).length = mem.length := by
  rw [putAt, List.length_append, List.length_append, List.length_take, List.length_drop]
  omega

/-- What stands in front of a place, and what has been put there. -/
theorem putAt_take {mem octets : List Octet} {place : Nat} (room : place ≤ mem.length) :
    (putAt mem place octets).take (place + octets.length) = mem.take place ++ octets := by
  rw [putAt]
  apply List.take_left'
  rw [List.length_append, List.length_take, Nat.min_eq_left room]

theorem putAt_all {mem octets : List Octet} {place : Nat}
    (whole : place + octets.length = mem.length) :
    putAt mem place octets = mem.take place ++ octets := by
  have none : mem.drop (place + octets.length) = [] := List.drop_eq_nil_of_le (Nat.le_of_eq whole.symm)
  rw [putAt, none, List.append_nil]

theorem wordOctets_append (first second value : Nat) :
    wordOctets (first + second) value =
      wordOctets first value ++ wordOctets second (value / limit first) := by
  induction first generalizing value with
  | zero => rw [Nat.zero_add, limit, Nat.div_one]; rfl
  | succ first ih =>
      rw [Nat.succ_add, wordOctets, wordOctets, ih, limit, Nat.div_div_eq_div_mul, List.cons_append]

/-- Only so many octets of a number matter. -/
theorem wordOctets_mod (count value : Nat) : wordOctets count (value % limit count) = wordOctets count value := by
  induction count generalizing value with
  | zero => rfl
  | succ count ih =>
      have low : BitVec.ofNat 8 (value % limit (count + 1)) = BitVec.ofNat 8 value := by
        apply BitVec.eq_of_toNat_eq
        rw [BitVec.toNat_ofNat, BitVec.toNat_ofNat, limit]
        exact Nat.mod_mod_of_dvd _ (Nat.dvd_mul_right 256 (limit count))
      have high : value % limit (count + 1) / 256 = value / 256 % limit count := by
        rw [limit, Nat.mod_mul_right_div_self]
      rw [wordOctets, wordOctets, low, high, ih]

end Memory

/-- What a context has taken in. -/
structure Taken (ctx : Md5Context) (total : List Octet) : Prop where
  buf : ctx.buf = absorbed wpMd5Transform 64 md5Initial total
  whole : ctx.mem.length = 64
  pending : ctx.mem.take (total.length % 64) = rest 64 total
  low : ctx.bytes0 = BitVec.ofNat 32 total.length
  high : ctx.bytes1 = BitVec.ofNat 32 (total.length / 4294967296)

theorem md5Chunks_taken {rounds : Nat} {ctx : Md5Context} {octets : List Octet}
    (whole : ctx.mem.length = 64) (enough : octets.length / 64 < rounds) :
    ∃ mem, md5Chunks rounds ctx octets =
        { ctx with buf := absorbed wpMd5Transform 64 ctx.buf octets, mem := mem } ∧
      mem.length = 64 ∧ mem.take (octets.length % 64) = rest 64 octets := by
  induction rounds generalizing ctx octets with
  | zero => omega
  | succ rounds ih =>
      rw [md5Chunks]
      split
      · next more =>
          have block : (octets.take 64).length = 64 := by
            rw [List.length_take]
            omega
          have split : octets = octets.take 64 ++ octets.drop 64 := (List.take_append_drop 64 octets).symm
          have mem : putAt ctx.mem 0 (octets.take 64) = octets.take 64 := by
            rw [putAt_all (by rw [block, whole])]
            rfl
          have left : (octets.drop 64).length = octets.length - 64 := List.length_drop
          have fewer : (octets.drop 64).length / 64 < rounds := by omega
          have same : (octets.drop 64).length % 64 = octets.length % 64 := by omega
          obtain ⟨last, done, full, kept⟩ :=
            @ih ⟨wpMd5Transform ctx.buf (octets.take 64), ctx.bytes0, ctx.bytes1, octets.take 64⟩
              (octets.drop 64) block fewer
          refine ⟨last, ?_, full, ?_⟩
          · dsimp only
            rw [mem, done]
            dsimp only
            rw [← absorbed_block _ _ block (by decide), ← split]
          · rw [← same, kept, ← rest_block (octets.drop 64) block (by decide), ← split]
      · next less =>
          have short : octets.length < 64 := Nat.lt_of_not_le less
          have all := @putAt_take ctx.mem octets 0 (Nat.zero_le ctx.mem.length)
          rw [Nat.zero_add] at all
          refine ⟨putAt ctx.mem 0 octets, ?_, ?_, ?_⟩
          · rw [absorbed_short _ short]
          · rw [putAt_length (by omega), whole]
          · rw [Nat.mod_eq_of_lt short, rest_short short, all]
            rfl

theorem bytes_add {total len : Nat} (short : len < 4294967296) :
    (if (BitVec.ofNat 32 total + BitVec.ofNat 32 len).toNat < (BitVec.ofNat 32 total).toNat then
        BitVec.ofNat 32 (total / 4294967296) + 1#32
      else BitVec.ofNat 32 (total / 4294967296)) = BitVec.ofNat 32 ((total + len) / 4294967296) := by
  apply BitVec.eq_of_toNat_eq
  split
  · next carry =>
      simp only [BitVec.toNat_add, BitVec.toNat_ofNat] at carry ⊢
      omega
  · next fits =>
      simp only [BitVec.toNat_add, BitVec.toNat_ofNat] at fits ⊢
      omega

/-- What has to be taken in is what was left over, and the next piece. -/
theorem Taken.next {ctx next : Md5Context} {total octets : List Octet} (taken : Taken ctx total)
    (buf : next.buf = absorbed wpMd5Transform 64 ctx.buf (rest 64 total ++ octets))
    (whole : next.mem.length = 64)
    (pending : next.mem.take ((rest 64 total ++ octets).length % 64) =
      rest 64 (rest 64 total ++ octets))
    (low : next.bytes0 = BitVec.ofNat 32 (total ++ octets).length)
    (high : next.bytes1 = BitVec.ofNat 32 ((total ++ octets).length / 4294967296)) :
    Taken next (total ++ octets) := by
  have some : 0 < 64 := by decide
  have sum : (total ++ octets).length % 64 = (rest 64 total ++ octets).length % 64 := by
    rw [List.length_append, List.length_append, rest_length]
    omega
  refine ⟨?_, whole, ?_, low, high⟩
  · rw [buf, taken.buf]
    exact (absorbed_append _ total octets some).symm
  · rw [sum, pending]
    exact (rest_append total octets some).symm

/-- A piece is taken in behind what has been taken in before. -/
theorem wpMd5Update_taken {ctx : Md5Context} {total octets : List Octet} (taken : Taken ctx total)
    (short : octets.length < 4294967296) : Taken (wpMd5Update ctx octets) (total ++ octets) := by
  have low : ctx.bytes0 + BitVec.ofNat 32 octets.length =
      BitVec.ofNat 32 (total ++ octets).length := by
    rw [taken.low, List.length_append, BitVec.ofNat_add]
  have high : (if (ctx.bytes0 + BitVec.ofNat 32 octets.length).toNat < ctx.bytes0.toNat then
      ctx.bytes1 + 1#32 else ctx.bytes1) =
        BitVec.ofNat 32 ((total ++ octets).length / 4294967296) := by
    rw [taken.low, taken.high, List.length_append]
    exact bytes_add short
  have used : ctx.bytes0.toNat % 64 = (rest 64 total).length := by
    rw [taken.low, BitVec.toNat_ofNat, rest_length]
    omega
  have front : ctx.mem.take (rest 64 total).length = rest 64 total := by
    rw [rest_length]
    exact taken.pending
  have few : (rest 64 total).length < 64 := by
    rw [rest_length]
    exact Nat.mod_lt _ (by decide)
  have whole := taken.whole
  have place : 64 - (64 - (rest 64 total).length) = (rest 64 total).length := by omega
  unfold wpMd5Update
  dsimp only
  rw [high, low, used, place]
  split
  · next fits =>
      have less : (rest 64 total ++ octets).length < 64 := by
        rw [List.length_append]
        omega
      apply taken.next
      · rw [absorbed_short _ less]
      · exact (putAt_length (by omega)).trans whole
      · rw [Nat.mod_eq_of_lt less, rest_short less, List.length_append, putAt_take (by omega), front]
      · rfl
      · rfl
  · next full =>
      generalize same : rest 64 total = kept at *
      have first : (octets.take (64 - kept.length)).length = 64 - kept.length := by
        rw [List.length_take]
        omega
      have block : (kept ++ octets.take (64 - kept.length)).length = 64 := by
        rw [List.length_append, first]
        omega
      have mem : putAt ctx.mem kept.length (octets.take (64 - kept.length)) =
          kept ++ octets.take (64 - kept.length) := by
        rw [putAt_all (by omega), front]
      have pieces : kept ++ octets =
          (kept ++ octets.take (64 - kept.length)) ++ octets.drop (64 - kept.length) := by
        rw [List.append_assoc, List.take_append_drop]
      have count : (kept ++ octets).length % 64 = (octets.drop (64 - kept.length)).length % 64 := by
        rw [List.length_append, List.length_drop]
        omega
      have enough : (octets.drop (64 - kept.length)).length / 64 < octets.length := by
        rw [List.length_drop]
        omega
      rw [mem]
      generalize octets.take (64 - kept.length) = left at block pieces ⊢
      obtain ⟨last, done, filled, leaves⟩ := @md5Chunks_taken octets.length
        ⟨wpMd5Transform ctx.buf (kept ++ left), BitVec.ofNat 32 (total ++ octets).length,
          BitVec.ofNat 32 ((total ++ octets).length / 4294967296), kept ++ left⟩
        (octets.drop (64 - kept.length)) block enough
      rw [done]
      apply taken.next
      · rw [same, pieces, absorbed_block _ _ block (by decide)]
      · exact filled
      · rw [same, count, pieces, rest_block _ block (by decide)]
        exact leaves
      · rfl
      · rfl

theorem lowWord (total : Nat) : (BitVec.ofNat 32 total <<< 3).toNat = 8 * total % limit 4 := by
  have wide : limit 4 = 4294967296 := rfl
  rw [BitVec.toNat_shiftLeft, BitVec.toNat_ofNat, Nat.shiftLeft_eq, wide]
  omega

theorem highWord (total : Nat) :
    (BitVec.ofNat 32 (total / 4294967296) <<< 3 ||| BitVec.ofNat 32 total >>> 29).toNat =
      8 * total / limit 4 % limit 4 := by
  have wide : limit 4 = 4294967296 := rfl
  have high : (BitVec.ofNat 32 (total / 4294967296) <<< 3).toNat =
      (total / 4294967296 % 536870912) <<< 3 := by
    rw [BitVec.toNat_shiftLeft, BitVec.toNat_ofNat, Nat.shiftLeft_eq, Nat.shiftLeft_eq]
    omega
  have low : (BitVec.ofNat 32 total >>> 29).toNat = total % 4294967296 / 536870912 := by
    rw [BitVec.toNat_ushiftRight, BitVec.toNat_ofNat, Nat.shiftRight_eq_div_pow]
  have few : total % 4294967296 / 536870912 < 2 ^ 3 := by omega
  rw [BitVec.toNat_or, high, low, ← Nat.shiftLeft_add_eq_or_of_lt few, Nat.shiftLeft_eq, wide]
  omega

/-- The last block. -/
theorem md5Finish_block {ctx : Md5Context} {total front mem : List Octet} (buf : Md5State)
    (low : ctx.bytes0 = BitVec.ofNat 32 total.length)
    (high : ctx.bytes1 = BitVec.ofNat 32 (total.length / 4294967296)) (whole : mem.length = 64)
    (kept : mem.take 56 = front) :
    md5Finish ctx buf mem =
      md5Digest (wpMd5Transform buf (front ++ wordOctets 8 (8 * total.length))) := by
  have first : (wordOctets 4 (ctx.bytes0 <<< 3).toNat) = wordOctets 4 (8 * total.length) := by
    rw [low, lowWord, wordOctets_mod]
  have second : wordOctets 4 (ctx.bytes1 <<< 3 ||| ctx.bytes0 >>> 29).toNat =
      wordOctets 4 (8 * total.length / limit 4) := by
    rw [low, high, highWord, wordOctets_mod]
  have four : ∀ value, (wordOctets 4 value).length = 4 := wordOctets_length 4
  have room : 56 + (wordOctets 4 (8 * total.length)).length ≤ mem.length := by
    rw [four, whole]
    decide
  have upTo := @putAt_take mem (wordOctets 4 (8 * total.length)) 56 (Nat.le_of_add_right_le room)
  rw [four, kept] at upTo
  unfold md5Finish
  dsimp only
  rw [first, second, putAt_all, upTo, List.append_assoc, ← wordOctets_append 4 4]
  rw [four, putAt_length room, whole]

/-- What `wp_MD5Final` gives is the digest of all that has been taken in. -/
theorem wpMd5Final_taken {ctx : Md5Context} {total : List Octet} (taken : Taken ctx total) :
    wpMd5Final ctx = md5 total := by
  have used : ctx.bytes0.toNat % 64 = (rest 64 total).length := by
    rw [taken.low, BitVec.toNat_ofNat, rest_length]
    omega
  have front : ctx.mem.take (rest 64 total).length = rest 64 total := by
    rw [rest_length]
    exact taken.pending
  have few : (rest 64 total).length < 64 := by
    rw [rest_length]
    exact Nat.mod_lt _ (by decide)
  have whole := taken.whole
  have padded : md5 total = md5Digest (absorbed wpMd5Transform 64 ctx.buf
      (rest 64 total ++ (0x80#8 :: zeros ((119 - (rest 64 total).length) % 64) ++
        wordOctets 8 (8 * total.length)))) := by
    rw [md5, md5Padded, List.append_assoc, absorbed_append _ _ _ (by decide), taken.buf, rest_length]
  rw [padded]
  generalize rest 64 total = kept at used front few ⊢
  unfold wpMd5Final
  dsimp only
  rw [used]
  have marked : (putAt ctx.mem kept.length [0x80#8]).take (kept.length + 1) = kept ++ [0x80#8] := by
    have upTo := @putAt_take ctx.mem [0x80#8] kept.length (by omega)
    rw [front] at upTo
    exact upTo
  have long : (putAt ctx.mem kept.length [0x80#8]).length = 64 :=
    (putAt_length (by rw [whole]; exact few)).trans whole
  generalize putAt ctx.mem kept.length [0x80#8] = mem at marked long ⊢
  have zero : ∀ count, (zeros count).length = count := fun count => List.length_replicate
  have eight : (wordOctets 8 (8 * total.length)).length = 8 := wordOctets_length 8 _
  split
  · next crowded =>
      have block : (kept ++ [0x80#8] ++ zeros (63 - kept.length)).length = 64 := by
        rw [List.length_append, List.length_append, zero, List.length_singleton]
        omega
      have filled : putAt mem (kept.length + 1) (zeros (63 - kept.length)) =
          kept ++ [0x80#8] ++ zeros (63 - kept.length) := by
        rw [putAt_all (by rw [zero, long]; omega), marked]
      have pieces : kept ++ (0x80#8 :: zeros ((119 - kept.length) % 64) ++
          wordOctets 8 (8 * total.length)) =
          (kept ++ [0x80#8] ++ zeros (63 - kept.length)) ++
            (zeros 56 ++ wordOctets 8 (8 * total.length)) := by
        have count : (119 - kept.length) % 64 = (63 - kept.length) + 56 := by omega
        have both : zeros ((63 - kept.length) + 56) = zeros (63 - kept.length) ++ zeros 56 :=
          List.replicate_add _ _ _
        rw [count, both]
        simp only [List.append_assoc, List.cons_append, List.nil_append]
      have cleared : (putAt (kept ++ [0x80#8] ++ zeros (63 - kept.length)) 0 (zeros 56)).take 56 =
          zeros 56 := by
        have upTo := @putAt_take (kept ++ [0x80#8] ++ zeros (63 - kept.length)) (zeros 56) 0
          (Nat.zero_le _)
        rwa [zero, Nat.zero_add] at upTo
      have last : (zeros 56 ++ wordOctets 8 (8 * total.length)).length = 64 := by
        rw [List.length_append, eight, zero]
      rw [filled, pieces, absorbed_block _ _ block (by decide), absorbed_one _ last (by decide)]
      apply md5Finish_block _ taken.low taken.high _ cleared
      rw [putAt_length (by rw [zero, block]; decide), block]
  · next fits =>
      have pieces : kept ++ (0x80#8 :: zeros ((119 - kept.length) % 64) ++
          wordOctets 8 (8 * total.length)) =
          (kept ++ [0x80#8] ++ zeros (55 - kept.length)) ++ wordOctets 8 (8 * total.length) := by
        have count : (119 - kept.length) % 64 = 55 - kept.length := by omega
        rw [count]
        simp only [List.append_assoc, List.cons_append, List.nil_append]
      have block : ((kept ++ [0x80#8] ++ zeros (55 - kept.length)) ++
          wordOctets 8 (8 * total.length)).length = 64 := by
        rw [List.length_append, List.length_append, List.length_append, eight, zero,
          List.length_singleton]
        omega
      have filled : (putAt mem (kept.length + 1) (zeros (55 - kept.length))).take 56 =
          kept ++ [0x80#8] ++ zeros (55 - kept.length) := by
        have upTo := @putAt_take mem (zeros (55 - kept.length)) (kept.length + 1) (by omega)
        have all : kept.length + 1 + (55 - kept.length) = 56 := by omega
        rwa [zero, all, marked] at upTo
      rw [pieces, absorbed_one _ block (by decide)]
      apply md5Finish_block _ taken.low taken.high _ filled
      rw [putAt_length (by rw [zero, long]; omega), long]

theorem wpMd5Init_taken {ctx : Md5Context} (whole : ctx.mem.length = 64) :
    Taken (wpMd5Init ctx) [] := ⟨rfl, whole, rfl, rfl, rfl⟩

theorem Taken.pieces {ctx : Md5Context} {total : List Octet} (taken : Taken ctx total)
    (pieces : List (List Octet)) (short : ∀ piece ∈ pieces, piece.length < 4294967296) :
    Taken (pieces.foldl wpMd5Update ctx) (total ++ pieces.flatten) := by
  induction pieces generalizing ctx total with
  | nil =>
      rw [List.flatten_nil, List.append_nil]
      exact taken
  | cons piece pieces ih =>
      have next := wpMd5Update_taken taken (short piece List.mem_cons_self)
      rw [List.flatten_cons, ← List.append_assoc]
      exact ih next fun later member => short later (List.mem_cons_of_mem piece member)

/-- In whatever pieces a message is taken in, the digest is that of the whole message. -/
theorem md5_pieces (ctx : Md5Context) (whole : ctx.mem.length = 64) (pieces : List (List Octet))
    (short : ∀ piece ∈ pieces, piece.length < 4294967296) :
    wpMd5Final (pieces.foldl wpMd5Update (wpMd5Init ctx)) = md5 pieces.flatten :=
  wpMd5Final_taken ((wpMd5Init_taken whole).pieces pieces short)

theorem md5_pieces_two :
    wpMd5Final ([[0x61#8], [0x62#8, 0x63#8]].foldl wpMd5Update
      (wpMd5Init ⟨md5Initial, 0#32, 0#32, zeros 64⟩)) = md5 [0x61#8, 0x62#8, 0x63#8] :=
  md5_pieces ⟨md5Initial, 0#32, 0#32, zeros 64⟩ rfl [[0x61#8], [0x62#8, 0x63#8]] (by decide)

end Wanpipe.Syncppp
