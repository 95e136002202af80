import Mathlib.Data.List.Nodup
import Wanpipe.Chase
import Wanpipe.Line.Octets

/-! The bit error rate test of `aft_core_utils.c`: a transmitter sends a sequence of octets over and
over, and a receiver that may be anywhere in it finds its place. -/

namespace Wanpipe.Aft

open Line Chase

inductive WpBertSequenceType
  | random
  | ascendant
  | descendant
  deriving DecidableEq, Repr

abbrev wpBertSequenceLength : Nat := 257

def wpBertRandomSequence : List Octet :=
  [15, 164, 118, 194, 69, 52, 47, 152, 122, 117, 44, 99, 150, 185, 197, 226, 235, 146, 250, 135,
    18, 76, 207, 115, 81, 130, 232, 98, 153, 151, 145, 53, 253, 154, 224, 27, 14, 26, 212, 131,
    85, 95, 160, 241, 68, 203, 114, 62, 138, 83, 71, 105, 3, 240, 156, 208, 175, 205, 107, 30,
    251, 198, 40, 159, 63, 173, 149, 169, 227, 75, 57, 46, 254, 113, 191, 24, 129, 245, 142, 174,
    100, 190, 37, 147, 28, 246, 77, 8, 230, 165, 223, 93, 244, 111, 215, 4, 195, 242, 163, 58, 96,
    219, 157, 202, 210, 143, 13, 88, 181, 158, 243, 16, 120, 11, 214, 31, 166, 255, 228, 91, 204,
    218, 36, 19, 42, 148, 67, 29, 201, 66, 23, 128, 87, 167, 136, 7, 193, 222, 200, 92, 144, 176,
    82, 108, 65, 172, 141, 252, 10, 234, 233, 171, 101, 54, 132, 103, 236, 73, 61, 192, 79, 211,
    221, 74, 50, 64, 180, 220, 196, 187, 12, 102, 70, 104, 206, 0, 116, 133, 225, 170, 125, 127,
    124, 22, 209, 137, 126, 106, 186, 112, 162, 183, 237, 238, 199, 33, 121, 155, 168, 139, 34,
    216, 48, 231, 38, 51, 5, 239, 1, 229, 84, 178, 35, 94, 43, 189, 161, 179, 90, 97, 32, 134,
    217, 6, 49, 2, 17, 56, 248, 123, 213, 89, 188, 86, 72, 184, 39, 21, 25, 247, 55, 182, 119,
    249, 140, 109, 41, 177, 80, 45, 59, 60, 78, 20, 110, 111]

def wpBertAscendantSequence : List Octet :=
  [97, 115, 99, 101, 110, 100, 97, 110, 116, 1, 2, 3, 4, 5, 6, 7, 8, 9, 10, 11, 12, 13, 14, 15,
    16, 17, 18, 19, 20, 21, 22, 23, 24, 25, 26, 27, 28, 29, 30, 31, 32, 33, 34, 35, 36, 37, 38,
    39, 40, 41, 42, 43, 44, 45, 46, 47, 48, 49, 50, 51, 52, 53, 54, 55, 56, 57, 58, 59, 60, 61,
    62, 63, 64, 65, 66, 67, 68, 69, 70, 71, 72, 73, 74, 75, 76, 77, 78, 79, 80, 81, 82, 83, 84,
    85, 86, 87, 88, 89, 90, 91, 92, 93, 94, 95, 96, 97, 98, 99, 100, 101, 102, 103, 104, 105, 106,
    107, 108, 109, 110, 111, 112, 113, 114, 115, 116, 117, 118, 119, 120, 121, 122, 123, 124, 125,
    126, 127, 128, 129, 130, 131, 132, 133, 134, 135, 136, 137, 138, 139, 140, 141, 142, 142, 144,
    145, 146, 147, 148, 149, 150, 151, 152, 153, 154, 155, 156, 157, 158, 159, 160, 161, 162, 163,
    165, 166, 167, 168, 169, 170, 171, 172, 173, 174, 175, 176, 177, 178, 179, 180, 181, 182, 183,
    184, 185, 186, 187, 188, 189, 190, 191, 192, 193, 194, 195, 196, 197, 198, 199, 200, 201, 202,
    203, 204, 205, 206, 207, 208, 209, 210, 211, 212, 213, 214, 215, 216, 217, 218, 219, 220, 221,
    222, 223, 224, 225, 226, 227, 228, 229, 230, 231, 232, 233, 234, 235, 236, 237, 238, 239, 240,
    241, 242, 243, 244, 245, 246, 247, 248]

def wpBertDescendantSequence : List Octet :=
  [100, 101, 115, 99, 100, 97, 110, 116, 249, 248, 247, 246, 245, 244, 243, 242, 241, 240, 239,
    238, 237, 236, 235, 234, 233, 232, 231, 230, 229, 228, 227, 226, 225, 224, 223, 222, 221, 220,
    219, 218, 217, 216, 215, 214, 213, 212, 211, 210, 209, 208, 207, 206, 205, 204, 203, 202, 201,
    200, 199, 198, 197, 196, 195, 194, 193, 192, 191, 190, 189, 188, 187, 186, 185, 184, 183, 182,
    181, 180, 179, 178, 177, 176, 175, 174, 173, 172, 171, 170, 169, 168, 167, 166, 165, 164, 163,
    162, 161, 160, 159, 158, 157, 156, 155, 154, 153, 152, 151, 150, 149, 148, 147, 146, 145, 144,
    143, 142, 141, 140, 139, 138, 137, 136, 135, 134, 133, 132, 131, 130, 129, 128, 127, 126, 125,
    124, 123, 122, 121, 120, 119, 118, 117, 116, 115, 114, 113, 112, 111, 110, 109, 108, 107, 106,
    105, 104, 103, 102, 101, 100, 99, 98, 97, 96, 95, 94, 93, 92, 91, 90, 89, 88, 87, 86, 85, 84,
    83, 82, 81, 80, 79, 78, 77, 76, 75, 74, 73, 72, 71, 70, 69, 68, 67, 66, 65, 64, 63, 62, 61,
    60, 59, 58, 57, 56, 55, 54, 53, 52, 51, 50, 49, 48, 47, 46, 45, 44, 43, 42, 41, 40, 39, 38,
    37, 36, 35, 34, 33, 32, 31, 30, 29, 28, 27, 26, 25, 24, 23, 22, 21, 20, 19, 18, 17, 16, 15,
    14, 13, 12, 11, 10, 9, 8, 7, 6, 5, 4, 3, 2, 1]

def wpBertSequence : WpBertSequenceType → List Octet
  | .random => wpBertRandomSequence
  | .ascendant => wpBertAscendantSequence
  | .descendant => wpBertDescendantSequence

/-- An entry of the array; where the initializer is shorter the rest is zero. -/
def sequenceValue (type : WpBertSequenceType) (i : Fin wpBertSequenceLength) : Octet :=
  (wpBertSequence type).getD i 0

/-- `wp_bert_t`. The pointers are places in the sequence of the type, where `m_pSequenceBegin` and
`m_pSequenceEnd` point. -/
structure WpBert where
  eSequenceType : WpBertSequenceType
  uiNumberOfIdenticalValues : Nat
  uiErrors : Nat
  uiSynchronizedCount : Nat
  bSynchronized : Bool
  uiNumberOfIdenticalValuesRequireToSynchronize : Nat
  pNextExpectedValue : Fin wpBertSequenceLength
  pNextValue : Fin wpBertSequenceLength
  deriving DecidableEq, Repr

def wpBertReset (bert : WpBert) : WpBert :=
  { bert with
    bSynchronized := false
    uiErrors := 0
    uiSynchronizedCount := 0
    uiNumberOfIdenticalValues := 0
    uiNumberOfIdenticalValuesRequireToSynchronize := wpBertSequenceLength / 4
    pNextValue := 0
    pNextExpectedValue := 0 }

def wpBertSetSequenceType (bert : WpBert) (sequenceType : WpBertSequenceType) : WpBert :=
  wpBertReset { bert with eSequenceType := sequenceType }

/-- At the end of the sequence the sum wraps to its beginning. -/
def wpBertIncreaseSequenceValuePtr (ptr : Fin wpBertSequenceLength) : Fin wpBertSequenceLength :=
  ptr + 1

def wpBertPopValue (bert : WpBert) : WpBert × Octet :=
  ({ bert with pNextValue := wpBertIncreaseSequenceValuePtr bert.pNextValue },
    sequenceValue bert.eSequenceType bert.pNextValue)

def advanceExpected (bert : WpBert) : WpBert :=
  { bert with pNextExpectedValue := wpBertIncreaseSequenceValuePtr bert.pNextExpectedValue }

/-- One more identical value, which counts as an error until the receiver is synchronized. -/
def countMatch (bert : WpBert) : WpBert :=
  { bert with
    uiNumberOfIdenticalValues := bert.uiNumberOfIdenticalValues + 1
    uiErrors := bert.uiErrors + 1 }

def synchronize (bert : WpBert) : WpBert :=
  { bert with bSynchronized := true, uiSynchronizedCount := bert.uiSynchronizedCount + 1 }

/-- The value pushed is the one expected. -/
def pushMatch (bert : WpBert) : WpBert :=
  if bert.bSynchronized then advanceExpected bert
  else if bert.uiNumberOfIdenticalValues + 1 =
      bert.uiNumberOfIdenticalValuesRequireToSynchronize then
    synchronize (countMatch (advanceExpected bert))
  else countMatch (advanceExpected bert)

/-- Another value than the one expected, which does not move on. -/
def pushOther (bert : WpBert) : WpBert :=
  { bert with
    bSynchronized := false, uiNumberOfIdenticalValues := 0, uiErrors := bert.uiErrors + 1 }

/-- The value that was expected is handed back beside the receiver; the value returned is its
`bSynchronized`. -/
def wpBertPushValue (bert : WpBert) (currentValue : Octet) : WpBert × Octet :=
  let expectedValue := sequenceValue bert.eSequenceType bert.pNextExpectedValue
  (if currentValue = expectedValue then pushMatch bert else pushOther bert, expectedValue)

/-- What a receiver is left with by the values pushed. -/
def pushed (bert : WpBert) (values : List Octet) : WpBert :=
  values.foldl (fun bert value => (wpBertPushValue bert value).1) bert

/-- One value from the transmitter to the receiver, without an error. -/
def exchange (berts : WpBert × WpBert) : WpBert × WpBert :=
  let popped := wpBertPopValue berts.1
  (popped.1, (wpBertPushValue berts.2 popped.2).1)

/-- A value of the sequence and the one behind it, as one number. -/
def pairCode (type : WpBertSequenceType) (i : Nat) : Nat :=
  256 * ((wpBertSequence type).getD i 0).toNat +
    ((wpBertSequence type).getD ((i + 1) % wpBertSequenceLength) 0).toNat

/-- No number of the list is set in the mask or comes twice. -/
def freshIn : Nat → List Nat → Bool
  | _, [] => true
  | mask, code :: codes => !mask.testBit code && freshIn (mask ||| 1 <<< code) codes

theorem freshIn_nodup {codes : List Nat} {mask : Nat} (fresh : freshIn mask codes = true) :
    codes.Nodup ∧ ∀ code ∈ codes, mask.testBit code = false := by
  induction codes generalizing mask with
  | nil => exact ⟨List.nodup_nil, nofun⟩
  | cons code codes ih =>
      rw [freshIn, Bool.and_eq_true, Bool.not_eq_true'] at fresh
      obtain ⟨nodup, unset⟩ := ih fresh.2
      have apart (other : Nat) (member : other ∈ codes) :
          mask.testBit other = false ∧ code ≠ other := by
        have bit := unset other member
        rw [Nat.testBit_or, Bool.or_eq_false_iff, Nat.one_shiftLeft, Nat.testBit_two_pow,
          decide_eq_false_iff_not] at bit
        exact bit
      refine ⟨List.nodup_cons.mpr ⟨fun member => (apart code member).2 rfl, nodup⟩, ?_⟩
      intro other member
      rcases List.mem_cons.mp member with rfl | later
      · exact fresh.1
      · exact (apart other later).1

theorem pairCode_nodup (type : WpBertSequenceType) :
    ((List.range wpBertSequenceLength).map (pairCode type)).Nodup := by
  have fresh : freshIn 0 ((List.range wpBertSequenceLength).map (pairCode type)) = true := by
    cases type <;> decide +kernel
  exact (freshIn_nodup fresh).1

/-- Values repeat in the sequences, pairs of values do not. -/
theorem sequenceValue_telling (type : WpBertSequenceType) : Telling (sequenceValue type) := by
  intro i j same behind
  have code : pairCode type i = pairCode type j := by
    have first : (wpBertSequence type).getD i 0 = (wpBertSequence type).getD j 0 := same
    have second : (wpBertSequence type).getD ((i + 1) % wpBertSequenceLength) 0 =
        (wpBertSequence type).getD ((j + 1) % wpBertSequenceLength) 0 := behind
    rw [pairCode, pairCode, first, second]
  exact Fin.ext (List.inj_on_of_nodup_map (pairCode_nodup type) (List.mem_range.mpr i.isLt)
    (List.mem_range.mpr j.isLt) code)

/-- What the values pushed keep: the type, the matches that are required, and fewer of them as long
as the receiver is not synchronized. -/
structure Listens (type : WpBertSequenceType) (bert : WpBert) : Prop where
  type : bert.eSequenceType = type
  required : bert.uiNumberOfIdenticalValuesRequireToSynchronize = 64
  count : bert.bSynchronized = false → bert.uiNumberOfIdenticalValues < 64

def places (berts : WpBert × WpBert) : Fin wpBertSequenceLength × Fin wpBertSequenceLength :=
  (berts.1.pNextValue, berts.2.pNextExpectedValue)

section Receiver

variable {type : WpBertSequenceType} {bert : WpBert}

theorem reset_listens (bert : WpBert) (type : WpBertSequenceType) :
    Listens type (wpBertSetSequenceType bert type) := ⟨rfl, rfl, fun _ => Nat.succ_pos 63⟩

theorem pushMatch_listens (listens : Listens type bert) : Listens type (pushMatch bert) := by
  obtain ⟨kind, required, count⟩ := listens
  rw [pushMatch]
  split
  · exact ⟨kind, required, count⟩
  · next waits =>
      split
      · exact ⟨kind, required, nofun⟩
      · next less =>
          have before := count (Bool.eq_false_of_not_eq_true waits)
          rw [required] at less
          exact ⟨kind, required, fun _ => Nat.lt_of_le_of_ne before less⟩

theorem push_listens (listens : Listens type bert) (value : Octet) :
    Listens type (wpBertPushValue bert value).1 := by
  rw [wpBertPushValue]
  split
  · exact pushMatch_listens listens
  · exact ⟨listens.type, listens.required, fun _ => Nat.succ_pos 63⟩

theorem pushed_listens (listens : Listens type bert) (values : List Octet) :
    Listens type (pushed bert values) := by
  induction values generalizing bert with
  | nil => exact listens
  | cons value values ih => exact ih (push_listens listens value)

end Receiver

/-- The matches that are missing until the receiver is synchronized. -/
def missing (bert : WpBert) : Nat :=
  if bert.bSynchronized then 0 else 64 - bert.uiNumberOfIdenticalValues

section Exchange

variable {berts : WpBert × WpBert}

/-- A receiver of the transmitter's type. -/
def Linked (berts : WpBert × WpBert) : Prop := Listens berts.1.eSequenceType berts.2

theorem exchange_linked (linked : Linked berts) : Linked (exchange berts) :=
  push_listens linked _

theorem pushMatch_expected (bert : WpBert) :
    (pushMatch bert).pNextExpectedValue = bert.pNextExpectedValue + 1 := by
  rw [pushMatch]
  split
  · rfl
  · split <;> rfl

/-- The places of the two are a chase. -/
theorem exchange_places (linked : Linked berts) :
    places (exchange berts) =
      Chase.step (sequenceValue berts.1.eSequenceType) (places berts) := by
  rw [Chase.step, places, exchange, wpBertPushValue, linked.type]
  refine Prod.ext rfl ?_
  show (ite _ _ _ : WpBert).pNextExpectedValue = _
  split
  · next same => exact (pushMatch_expected berts.2).trans (if_pos same).symm
  · next other => exact (if_neg other).symm

theorem iterate_linked (linked : Linked berts) (n : Nat) : Linked (exchange^[n] berts) := by
  induction n generalizing berts with
  | zero => exact linked
  | succ n ih => exact ih (exchange_linked linked)

theorem iterate_places (linked : Linked berts) (n : Nat) :
    places (exchange^[n] berts) =
      (Chase.step (sequenceValue berts.1.eSequenceType))^[n] (places berts) := by
  induction n generalizing berts with
  | zero => rfl
  | succ n ih =>
      rw [Function.iterate_succ_apply, Function.iterate_succ_apply, ih (exchange_linked linked),
        exchange_places linked]
      rfl

/-- The receiver expects the value that the transmitter sends next. -/
def InPhase (berts : WpBert × WpBert) : Prop :=
  berts.1.pNextValue = berts.2.pNextExpectedValue

theorem inPhase_iff : InPhase berts ↔ (places berts).1 = (places berts).2 := Iff.rfl

theorem exchange_matches (linked : Linked berts) (phase : InPhase berts) :
    (exchange berts).2 = pushMatch berts.2 := by
  rw [exchange, wpBertPushValue, linked.type]
  exact if_pos (congrArg (sequenceValue berts.1.eSequenceType) phase)

theorem exchange_phase (linked : Linked berts) (phase : InPhase berts) :
    InPhase (exchange berts) := by
  have chase := exchange_places linked
  rw [InPhase, exchange_matches linked phase, pushMatch_expected, ← phase]
  rfl

theorem iterate_phase (linked : Linked berts) (phase : InPhase berts) (n : Nat) :
    InPhase (exchange^[n] berts) := by
  induction n generalizing berts with
  | zero => exact phase
  | succ n ih => exact ih (exchange_linked linked) (exchange_phase linked phase)

/-- Wherever the two are, they are in phase after two rounds of the sequence. -/
theorem iterate_in_phase (linked : Linked berts) : InPhase (exchange^[2 * 256] berts) := by
  have near : Chase.lag (places berts) ≤ 256 :=
    Nat.le_of_lt_succ (berts.2.pNextExpectedValue - berts.1.pNextValue).isLt
  have together := (sequenceValue_telling berts.1.eSequenceType).together near
  rw [← iterate_places linked] at together
  exact inPhase_iff.mpr together

theorem pushMatch_missing (bert : WpBert) : missing (pushMatch bert) ≤ missing bert - 1 := by
  rw [pushMatch]
  split
  · next synchronized =>
      rw [missing, if_pos (show (advanceExpected bert).bSynchronized = true from synchronized)]
      exact Nat.zero_le _
  · next waits =>
      split
      · exact Nat.zero_le _
      · have counts : (countMatch (advanceExpected bert)).uiNumberOfIdenticalValues =
            bert.uiNumberOfIdenticalValues + 1 := rfl
        rw [missing, missing, if_neg waits,
          if_neg (show ¬ (countMatch (advanceExpected bert)).bSynchronized = true from waits), counts]
        omega

theorem missing_zero {type : WpBertSequenceType} {bert : WpBert} (listens : Listens type bert)
    (none : missing bert = 0) : bert.bSynchronized = true := by
  by_contra waits
  have few := listens.count (Bool.eq_false_of_not_eq_true waits)
  rw [missing, if_neg waits] at none
  omega

theorem iterate_synchronized (linked : Linked berts) (phase : InPhase berts) {n : Nat}
    (most : missing berts.2 ≤ n) : (exchange^[n] berts).2.bSynchronized = true := by
  induction n generalizing berts with
  | zero => exact missing_zero linked (Nat.le_zero.mp most)
  | succ n ih =>
      have less : missing (exchange berts).2 ≤ missing berts.2 - 1 := by
        rw [exchange_matches linked phase]
        exact pushMatch_missing _
      exact ih (exchange_linked linked) (exchange_phase linked phase) (by omega)

/-- Synchronized and in phase, every value matches. -/
theorem exchange_holds (linked : Linked berts) (phase : InPhase berts)
    (synchronized : berts.2.bSynchronized = true) :
    (exchange berts).2.bSynchronized = true ∧ (exchange berts).2.uiErrors = berts.2.uiErrors := by
  rw [exchange_matches linked phase, pushMatch, if_pos synchronized]
  exact ⟨synchronized, rfl⟩

theorem iterate_holds (linked : Linked berts) (phase : InPhase berts)
    (synchronized : berts.2.bSynchronized = true) (n : Nat) :
    (exchange^[n] berts).2.bSynchronized = true ∧
      (exchange^[n] berts).2.uiErrors = berts.2.uiErrors := by
  induction n generalizing berts with
  | zero => exact ⟨synchronized, rfl⟩
  | succ n ih =>
      have holds := exchange_holds linked phase synchronized
      have rest := ih (exchange_linked linked) (exchange_phase linked phase) holds.1
      exact ⟨rest.1, rest.2.trans holds.2⟩

theorem push_synchronized {bert : WpBert} {value : Octet}
    (synchronized : (wpBertPushValue bert value).1.bSynchronized = true) :
    value = sequenceValue bert.eSequenceType bert.pNextExpectedValue := by
  by_contra other
  rw [wpBertPushValue, if_neg other] at synchronized
  cases synchronized

/-- Out of phase a match follows a mismatch, which cleared the count. -/
theorem two_in_phase (linked : Linked berts)
    (synchronized : (exchange (exchange berts)).2.bSynchronized = true) :
    InPhase (exchange (exchange berts)) := by
  by_contra late
  have middle : ¬ InPhase (exchange berts) :=
    fun phase => late (exchange_phase (exchange_linked linked) phase)
  have early : ¬ InPhase berts := fun phase => middle (exchange_phase linked phase)
  have type : (exchange berts).2.eSequenceType = berts.1.eSequenceType :=
    (exchange_linked linked).type
  have second : sequenceValue berts.1.eSequenceType (exchange berts).1.pNextValue =
      sequenceValue berts.1.eSequenceType (exchange berts).2.pNextExpectedValue := by
    have matched := push_synchronized synchronized
    rw [type] at matched
    exact matched
  have first : sequenceValue berts.1.eSequenceType berts.1.pNextValue ≠
      sequenceValue berts.1.eSequenceType berts.2.pNextExpectedValue := by
    intro same
    have apart : (places berts).1 ≠ (places berts).2 := early
    have once := (sequenceValue_telling berts.1.eSequenceType).match_once apart same
    rw [← exchange_places linked] at once
    exact once second
  have cleared : (exchange berts).2 = pushOther berts.2 := by
    rw [exchange, wpBertPushValue, linked.type]
    exact if_neg first
  have waits : ¬ (pushOther berts.2).bSynchronized = true := nofun
  have short : (pushOther berts.2).uiNumberOfIdenticalValues + 1 ≠
      (pushOther berts.2).uiNumberOfIdenticalValuesRequireToSynchronize := by
    show 0 + 1 ≠ berts.2.uiNumberOfIdenticalValuesRequireToSynchronize
    rw [linked.required]
    decide
  have matched : (exchange (exchange berts)).2 = countMatch (advanceExpected (pushOther berts.2)) := by
    rw [exchange, wpBertPushValue, type]
    refine (if_pos second).trans ?_
    rw [cleared, pushMatch, if_neg waits, if_neg short]
  rw [matched] at synchronized
  cases synchronized

theorem settled (linked : Linked berts) {k : Nat} (phase : InPhase (exchange^[k] berts)) (m : Nat)
    (enough : 64 + k ≤ m) :
    (exchange^[m] berts).2.bSynchronized = true ∧
      (exchange^[m] berts).2.uiErrors = (exchange^[64 + k] berts).2.uiErrors := by
  have most : missing (exchange^[k] berts).2 ≤ 64 := by
    rw [missing]
    split <;> omega
  have met := iterate_linked linked k
  obtain ⟨more, rfl⟩ := Nat.exists_eq_add_of_le' enough
  rw [Function.iterate_add_apply exchange more, Function.iterate_add_apply exchange 64]
  exact iterate_holds (iterate_linked met 64) (iterate_phase met phase 64)
    (iterate_synchronized met phase most) more

theorem settles (linked : Linked berts) {k : Nat} (early : 64 + k ≤ 4096)
    (phase : InPhase (exchange^[k] berts)) :
    ∃ n ≤ 4096, ∀ m ≥ n, (exchange^[m] berts).2.bSynchronized = true ∧
      (exchange^[m] berts).2.uiErrors = (exchange^[n] berts).2.uiErrors :=
  ⟨64 + k, early, settled linked phase⟩

theorem iterate_two_in_phase (linked : Linked berts) (n : Nat)
    (synchronized : (exchange^[n + 2] berts).2.bSynchronized = true) :
    InPhase (exchange^[n + 2] berts) := by
  have two : exchange^[n + 2] berts = exchange (exchange (exchange^[n] berts)) := by
    rw [Function.iterate_succ_apply', Function.iterate_succ_apply']
  rw [two] at synchronized ⊢
  exact two_in_phase (iterate_linked linked n) synchronized

end Exchange

/-- Whatever was received before, wherever the transmitter stands: within 4096 values the receiver
is synchronized for good and counts no more errors; and a receiver that is synchronized behind 64
good values expects the one that comes next. -/
theorem wp_bert_synchronizes (transmitter bert : WpBert) (history : List Octet) :
    let receiver := pushed (wpBertSetSequenceType bert transmitter.eSequenceType) history
    let behind := fun n : Nat => exchange^[n] (transmitter, receiver)
    (∃ n ≤ 4096, ∀ m ≥ n, (behind m).2.bSynchronized = true ∧
        (behind m).2.uiErrors = (behind n).2.uiErrors) ∧
      ((behind 64).2.bSynchronized = true →
        (behind 64).2.pNextExpectedValue = (behind 64).1.pNextValue) := by
  intro receiver behind
  have linked : Linked (transmitter, receiver) := pushed_listens (reset_listens _ _) history
  constructor
  · exact settles linked (by decide) (iterate_in_phase linked)
  · intro synchronized
    exact (iterate_two_in_phase linked 62 synchronized).symm

end Wanpipe.Aft
