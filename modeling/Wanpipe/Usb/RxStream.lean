import Wanpipe.Runs
import Wanpipe.Usb.RxRing

/-! The octets that leave the receive ring are those of the completions, in order, as long as the
ring has room. -/

namespace Wanpipe.Usb.RxRing

open Line Store Wanpipe.Circle Runs

/-- What is to be read. -/
def unread (ring : Ring) : List Octet :=
  around ring.readbuf maxReadBufLen ring.nextReadInd (rxLen ring)

def Gone.back : Gone → Option Octet
  | .returned octet => some octet
  | .passed _ => none

/-- The octets that reads have returned. -/
def returned (ring : Ring) : List Octet := ring.gone.filterMap Gone.back

/-- The ring will not be full, and an empty one is not crossed at its end. -/
structure Roomy (ring : Ring) (block : Block) : Prop where
  room : rxLen ring + block.octets.length < maxReadBufLen
  straight : rxLen ring = 0 → ring.nextRxInd + block.octets.length ≤ maxReadBufLen

def Allowed (ring : Ring) : Op → Prop
  | .complete block => Roomy ring block
  | .get _ => True
  | .reset => True

/-- What is read next starts as a block does, where that is verified. -/
def Framed (ring : Ring) : Prop :=
  ring.opmode = .voice → 4 < pending ring → starts ring = true ∧ idle ring = true

/-- What was delivered has left the ring or is still to be read, in order; a read returns the next
of it; and only the verification of voice mode passes over octets, where no block starts. -/
structure Faithful (ring : Ring) : Prop where
  kept : ring.delivered = ring.gone.map Gone.octet ++ unread ring
  next : ∀ maxLen, (sdlaUsbRxdataGet ring maxLen).2 = (unread ring).take (min maxLen maxUsbRxLen)
  calm : ∀ octet, .passed octet ∈ ring.gone → ring.opmode = .voice
  steady : ∀ block readbuf nextRxInd nextRxOff,
    arrived ring block = .taken readbuf nextRxInd nextRxOff →
    Framed (accept ring block readbuf nextRxInd nextRxOff) →
    (sdlausbReadComplete ring block).gone = ring.gone

/-- The offsets lie on the ring, and nothing is lost. -/
structure Held (ind next : Nat) (ring : Ring) : Prop where
  rx : ring.nextRxInd = ind
  off : ring.nextOff = next
  bound : ind < maxReadBufLen
  read : ring.nextReadInd < maxReadBufLen
  kept : ring.delivered = ring.gone.map Gone.octet ++ unread ring
  calm : ∀ octet, .passed octet ∈ ring.gone → ring.opmode = .voice

/-- The transfer writes where the next block is expected. -/
structure Tidy (ring : Ring) : Prop where
  held : Held ring.nextRxInd ring.nextOff ring
  transfer : ring.transfer = ring.nextRxInd

theorem ring_size : maxReadBufLen = 3200 := rfl

theorem block_size : maxUsbRxLen = 32 := rfl

section Offsets

variable {read rx len : Nat}

theorem between_less (inside : read < maxReadBufLen) (bound : rx < maxReadBufLen) :
    between read rx < maxReadBufLen := by
  unfold between
  split
  · omega
  · split <;> omega

theorem between_place (inside : read < maxReadBufLen) (bound : rx < maxReadBufLen) :
    place maxReadBufLen read (between read rx) = rx := by
  unfold between place
  split
  · split <;> omega
  · split <;> split <;> omega

theorem place_mod (inside : read < maxReadBufLen) (few : len < maxReadBufLen) :
    (read + len) % maxReadBufLen = place maxReadBufLen read len := by
  rw [ring_size] at *
  unfold place
  split <;> omega

/-- What is read makes what is left shorter. -/
theorem between_read (inside : read < maxReadBufLen) (bound : rx < maxReadBufLen)
    (few : len ≤ between read rx) :
    between (place maxReadBufLen read len) rx = between read rx - len := by
  unfold between place at *
  grind

/-- What is written makes it longer. -/
theorem between_written (inside : read < maxReadBufLen) (bound : rx < maxReadBufLen)
    (room : between read rx + len < maxReadBufLen) :
    between read ((rx + len) % maxReadBufLen) = between read rx + len := by
  have few : len < maxReadBufLen := by omega
  rw [place_mod bound few]
  unfold between place at *
  grind

end Offsets

section Get

variable {ring : Ring} {ind next : Nat}

theorem unread_length (ring : Ring) : (unread ring).length = rxLen ring := around_length _ _ _ _

theorem Held.less (held : Held ind next ring) : rxLen ring < maxReadBufLen :=
  between_less held.read (held.rx ▸ held.bound)

theorem unread_take (held : Held ind next ring) {count : Nat} (few : count ≤ rxLen ring) :
    around ring.readbuf maxReadBufLen ring.nextReadInd count = (unread ring).take count := by
  have less := held.less
  obtain ⟨rest, whole⟩ : ∃ rest, rxLen ring = count + rest := ⟨rxLen ring - count, by omega⟩
  rw [unread, whole, around_append _ held.read (by omega), List.take_left' (around_length _ _ _ _)]

theorem copyOut_unread (held : Held ind next ring) {len : Nat} (few : len ≤ rxLen ring) :
    copyOut ring len = (unread ring).take len := by
  have less := held.less
  rw [← unread_take held few, copyOut]
  split
  · rename_i inside
    exact (around_load _ (Nat.le_of_lt inside)).symm
  · exact (around_split _ held.read (by omega) (by omega)).symm

theorem getLen_few (ring : Ring) (maxLen : Nat) : getLen ring maxLen ≤ rxLen ring :=
  (Nat.min_le_left _ _).trans (Nat.min_le_left _ _)

theorem sdlaUsbRxdataGet_returns (held : Held ind next ring) (maxLen : Nat) :
    (sdlaUsbRxdataGet ring maxLen).2 = (unread ring).take (min maxLen maxUsbRxLen) := by
  unfold sdlaUsbRxdataGet
  split
  · rename_i none
    have empty : unread ring = [] :=
      List.eq_nil_of_length_eq_zero ((unread_length ring).trans none)
    rw [empty, List.take_nil]
  · change copyOut ring (getLen ring maxLen) = _
    rw [copyOut_unread held (getLen_few ring maxLen), getLen, Nat.min_assoc, ← unread_length ring,
      Nat.min_comm, ← List.take_eq_take_min]

theorem moveRead_rxLen (held : Held ind next ring) {count : Nat} (few : count ≤ rxLen ring)
    (gone : List Gone) : rxLen (moveRead ring count gone) = rxLen ring - count := by
  have less := held.less
  rw [rxLen, moveRead, place_mod held.read (by omega)]
  exact between_read held.read (held.rx ▸ held.bound) few

theorem moveRead_unread (held : Held ind next ring) {count : Nat} (few : count ≤ rxLen ring)
    (gone : List Gone) : unread (moveRead ring count gone) = (unread ring).drop count := by
  have less := held.less
  rw [unread, moveRead_rxLen held few gone]
  change around ring.readbuf _ ((ring.nextReadInd + count) % maxReadBufLen) _ = _
  rw [place_mod held.read (by omega)]
  exact around_drop _ held.read (Nat.le_of_lt less) few

/-- What leaves the ring is the next of what is to be read. -/
theorem moveRead_held (held : Held ind next ring) {count : Nat} (few : count ≤ rxLen ring)
    {gone : List Gone} (same : gone.map Gone.octet = (unread ring).take count)
    (calm : ∀ octet, .passed octet ∈ gone → ring.opmode = .voice) :
    Held ind next (moveRead ring count gone) where
  rx := held.rx
  off := held.off
  bound := held.bound
  read := Nat.mod_lt _ (by decide)
  kept := calc
    ring.delivered = ring.gone.map Gone.octet ++ unread ring := held.kept
    _ = ring.gone.map Gone.octet ++ ((unread ring).take count ++ (unread ring).drop count) := by
      rw [List.take_append_drop]
    _ = (ring.gone ++ gone).map Gone.octet ++ unread (moveRead ring count gone) := by
      rw [moveRead_unread held few, List.map_append, same, List.append_assoc]
  calm := by
    intro octet member
    rcases List.mem_append.mp member with before | now
    · exact held.calm octet before
    · exact calm octet now

theorem takeOut_held (held : Held ind next ring) {len : Nat} (few : len ≤ rxLen ring) :
    Held ind next (takeOut ring len) := by
  apply moveRead_held held few
  · rw [copyOut_unread held few, List.map_map]
    exact List.map_id' _
  · intro octet member
    obtain ⟨_, _, other⟩ := List.mem_map.mp member
    cases other

theorem get_tidy (tidy : Tidy ring) (maxLen : Nat) : Tidy (sdlaUsbRxdataGet ring maxLen).1 := by
  unfold sdlaUsbRxdataGet
  split
  · exact tidy
  · exact ⟨takeOut_held tidy.held (getLen_few ring maxLen), tidy.transfer⟩

end Get

section Sync

variable {ring : Ring} {ind next : Nat}

theorem pending_rxLen (ring : Ring) : pending ring = rxLen ring := by
  unfold pending rxLen between
  split <;> split <;> try split
  all_goals omega

theorem skip_held (held : Held ind next ring) (voice : ring.opmode = .voice) {count : Nat}
    (few : count ≤ rxLen ring) : Held ind next (skip ring count) := by
  apply moveRead_held held few
  · rw [unread_take held few, List.map_map]
    exact List.map_id' _
  · exact fun _ _ => voice

theorem searchSync_held (held : Held ind next ring) (voice : ring.opmode = .voice) {len : Nat}
    (few : len ≤ rxLen ring) : Held ind next (searchSync len ring) := by
  fun_induction searchSync len ring with
  | case1 => exact held
  | case2 len ring _ ih =>
      have one : 1 ≤ rxLen ring := by omega
      have left : rxLen (skip ring 1) = rxLen ring - 1 := moveRead_rxLen held one _
      exact ih (skip_held held voice one) voice (by omega)
  | case3 => exact held
  | case4 => exact ⟨held.rx, held.off, held.bound, held.read, held.kept, held.calm⟩
  | case5 len ring _ _ _ ih =>
      have four : 4 ≤ rxLen ring := by omega
      have left : rxLen (skip ring 4) = rxLen ring - 4 := moveRead_rxLen held four _
      exact ih (skip_held held voice four) voice (by omega)

theorem loseSync_held (held : Held ind next ring) (voice : ring.opmode = .voice)
    (some : 1 ≤ rxLen ring) : Held ind next (loseSync ring) := by
  have passed := skip_held held voice some
  exact ⟨passed.rx, passed.off, passed.bound, passed.read, passed.kept, passed.calm⟩

theorem checkTxSync_held (held : Held ind next ring) : Held ind next (checkTxSync ring) := by
  unfold checkTxSync
  split_ifs <;> exact ⟨held.rx, held.off, held.bound, held.read, held.kept, held.calm⟩

/-- The verification passes over what is there, and only in voice mode. -/
theorem verify_held (held : Held ind next ring) : Held ind next (verify ring) := by
  unfold verify
  split
  · rename_i looked
    rw [pending_rxLen] at looked ⊢
    unfold sdlausbSyncverify
    split_ifs
    · exact searchSync_held held looked.1 le_rfl
    · exact loseSync_held held looked.1 (by omega)
    · exact loseSync_held held looked.1 (by omega)
    · exact checkTxSync_held held
  · exact held

theorem checkTxSync_gone (ring : Ring) : (checkTxSync ring).gone = ring.gone := by
  unfold checkTxSync
  split_ifs <;> rfl

theorem searchSync_gone {len : Nat} (many : 4 < len) (start : starts ring = true)
    (quiet : idle ring = true) : (searchSync len ring).gone = ring.gone := by
  obtain ⟨rest, rfl⟩ : ∃ rest, len = rest + 1 := ⟨len - 1, by omega⟩
  rw [searchSync, if_neg (by simp [start]), if_neg (by omega), if_pos quiet]

/-- Where a block starts nothing is passed over. -/
theorem verify_gone (framed : Framed ring) : (verify ring).gone = ring.gone := by
  unfold verify
  split
  · rename_i looked
    obtain ⟨start, quiet⟩ := framed looked.1 looked.2
    unfold sdlausbSyncverify
    split
    · exact searchSync_gone looked.2 start quiet
    · rw [if_neg (by simp [start]), if_neg (by simp [quiet])]
      exact checkTxSync_gone ring
  · rfl

end Sync

section Completion

variable {ring : Ring} {block : Block}

/-- A block that the end of the ring does not cross. -/
theorem put_straight (mem : Nat → Octet) {start : Nat} {items : List Octet}
    (straight : start + items.length ≤ maxReadBufLen) :
    Put mem (store mem start items) maxReadBufLen start items := by
  intro i bound
  unfold offset
  split
  · rename_i above
    rw [store, if_pos above]
  · rename_i below
    rw [store, if_neg below, List.getD_eq_default _ _ (by omega)]

/-- A block that it crosses, and whose rest is copied. -/
theorem put_crossed (mem : Nat → Octet) {start : Nat} {items : List Octet}
    (inside : start < maxReadBufLen) (crosses : maxReadBufLen < start + items.length)
    (short : items.length ≤ start) :
    Put mem (copySlack (store mem start items) (start + items.length - maxReadBufLen))
      maxReadBufLen start items := by
  intro i bound
  have wide := load_length (store mem start items) maxReadBufLen
    (start + items.length - maxReadBufLen)
  by_cases early : i < start + items.length - maxReadBufLen
  · have here : offset maxReadBufLen start i = maxReadBufLen + i - start := by
      unfold offset
      split <;> omega
    rw [copySlack, store_inside (Nat.zero_le i) (by omega) (mem i), Nat.sub_zero, load_getD early,
      here, store_inside (by omega) (by omega) (mem i)]
  · rw [copySlack, store_outside (by omega)]
    unfold offset
    split
    · rename_i above
      rw [store, if_pos above]
    · rename_i below
      rw [store, if_neg below, List.getD_eq_default _ _ (by omega)]

/-- With room, a block is put behind what is unread. -/
theorem arrived_roomy (tidy : Tidy ring) (roomy : Roomy ring block) :
    ∃ readbuf, arrived ring block =
        .taken readbuf ((ring.nextRxInd + block.octets.length) % maxReadBufLen)
          ((ring.nextRxInd + block.octets.length) % maxReadBufLen) ∧
      Put ring.readbuf readbuf maxReadBufLen ring.nextRxInd block.octets := by
  have rx := tidy.held.bound
  have read := tidy.held.read
  have room := roomy.room
  have straight := roomy.straight
  have few := block.fits
  rw [block_size] at few
  unfold arrived placeBlock
  rw [tidy.transfer, urbcountRead, Nat.mul_one]
  unfold rxLen between at room straight
  split
  · rename_i behind
    rw [if_neg (by omega), if_pos behind] at room
    rw [if_neg (by omega)]
    exact ⟨_, rfl, put_straight _ (by omega)⟩
  · split
    · rename_i ahead
      rw [if_pos ahead] at room
      split
      · rename_i crosses
        have less : ¬ ring.nextReadInd <
            (ring.nextRxInd + block.octets.length) % maxReadBufLen := by
          rw [ring_size] at *
          omega
        have short : block.octets.length ≤ ring.nextRxInd := by
          rw [ring_size] at crosses
          omega
        rw [if_neg less]
        exact ⟨_, rfl, put_crossed _ rx crosses short⟩
      · exact ⟨_, rfl, put_straight _ (by omega)⟩
    · rename_i same ahead
      rw [if_neg ahead, if_neg same] at straight
      exact ⟨_, rfl, put_straight _ (straight rfl)⟩

/-- The block is behind what was to be read. -/
theorem accept_held (tidy : Tidy ring) (roomy : Roomy ring block) {readbuf : Nat → Octet}
    (put : Put ring.readbuf readbuf maxReadBufLen ring.nextRxInd block.octets) {ind : Nat}
    (moved : ind = (ring.nextRxInd + block.octets.length) % maxReadBufLen) :
    Held ind ind (accept ring block readbuf ind ind) where
  rx := rfl
  off := rfl
  bound := moved ▸ Nat.mod_lt _ (by decide)
  read := tidy.held.read
  kept := by
    have grown : rxLen (accept ring block readbuf ind ind) = rxLen ring + block.octets.length := by
      rw [rxLen, accept, moved]
      exact between_written tidy.held.read tidy.held.bound roomy.room
    rw [← between_place tidy.held.read tidy.held.bound] at put
    have behind : around readbuf maxReadBufLen ring.nextReadInd
        (rxLen ring + block.octets.length) = unread ring ++ block.octets :=
      put.around tidy.held.read (Nat.le_of_lt roomy.room) tidy.held.less
    calc
      ring.delivered ++ block.octets =
          ring.gone.map Gone.octet ++ (unread ring ++ block.octets) := by
        rw [tidy.held.kept, List.append_assoc]
      _ = ring.gone.map Gone.octet ++ unread (accept ring block readbuf ind ind) := by
        rw [← behind, unread, grown, accept]
  calm := tidy.held.calm

theorem complete_tidy (tidy : Tidy ring) (roomy : Roomy ring block) :
    Tidy (sdlausbReadComplete ring block) := by
  obtain ⟨readbuf, arrives, put⟩ := arrived_roomy tidy roomy
  have held := verify_held (accept_held tidy roomy put rfl)
  unfold sdlausbReadComplete
  rw [arrives]
  have same := held.rx.trans held.off.symm
  refine ⟨⟨rfl, rfl, ?_, held.read, held.kept, held.calm⟩, same.symm⟩
  change (verify _).nextRxInd < maxReadBufLen
  rw [held.rx]
  exact held.bound

theorem complete_steady {readbuf : Nat → Octet} {nextRxInd nextRxOff : Nat}
    (arrives : arrived ring block = .taken readbuf nextRxInd nextRxOff)
    (framed : Framed (accept ring block readbuf nextRxInd nextRxOff)) :
    (sdlausbReadComplete ring block).gone = ring.gone := by
  unfold sdlausbReadComplete
  rw [arrives]
  exact verify_gone framed

/-- A block that fills the ring leaves it as an empty one. -/
theorem accept_full (tidy : Tidy ring)
    (full : rxLen ring + block.octets.length = maxReadBufLen) (readbuf : Nat → Octet)
    (off : Nat) :
    rxLen (accept ring block readbuf ((ring.nextRxInd + block.octets.length) % maxReadBufLen)
      off) = 0 := by
  have bound := tidy.held.bound
  have read := tidy.held.read
  have same : (ring.nextRxInd + block.octets.length) % maxReadBufLen = ring.nextReadInd := by
    unfold rxLen between at full
    rw [ring_size] at *
    split at full
    · omega
    · split at full <;> omega
  rw [accept, rxLen, same]
  simp [between]

end Completion

section Runs

theorem reset_tidy (ring : Ring) : Tidy (sdlaUsbRxurbReset ring) := by
  have start : 0 < maxReadBufLen := by decide
  refine ⟨⟨rfl, rfl, start, start, rfl, ?_⟩, rfl⟩
  intro octet member
  cases member

theorem step_tidy {ring : Ring} (tidy : Tidy ring) {op : Op} (allowed : Allowed ring op) :
    Tidy (step ring op) := by
  cases op with
  | complete block => exact complete_tidy tidy allowed
  | get maxLen => exact get_tidy tidy maxLen
  | reset => exact reset_tidy ring

theorem Tidy.faithful {ring : Ring} (tidy : Tidy ring) : Faithful ring where
  kept := tidy.held.kept
  next := sdlaUsbRxdataGet_returns tidy.held
  calm := tidy.held.calm
  steady _ _ _ _ := complete_steady

def blank (opmode : Opmode) : Ring where
  readbuf _ := 0#8
  nextRxInd := 0
  nextReadInd := 0
  nextOff := 0
  transfer := 0
  opmode := opmode
  coreRev := 0#8
  rxSync := false
  txSync := false
  rxOverrunCnt := 0
  rxSyncErrCnt := 0
  devSyncErrCnt := 0
  delivered := []
  gone := []

def noise : Block := ⟨[0#8, 0#8, 0#8, 0#8, 0#8], by decide, by decide⟩

theorem skip_returned (ring : Ring) (count : Nat) : returned (skip ring count) = returned ring := by
  have none : ((around ring.readbuf maxReadBufLen ring.nextReadInd count).map
      Gone.passed).filterMap Gone.back = [] := by
    rw [List.filterMap_map]
    exact List.filterMap_eq_nil_iff.mpr fun _ _ => rfl
  rw [returned, skip, moveRead, List.filterMap_append, none, List.append_nil, returned]

theorem searchSync_returned (len : Nat) (ring : Ring) :
    returned (searchSync len ring) = returned ring := by
  fun_induction searchSync len ring with
  | case1 => rfl
  | case2 _ _ _ ih => rw [ih, skip_returned]
  | case3 => rfl
  | case4 => rfl
  | case5 _ _ _ _ _ ih => rw [ih, skip_returned]

theorem searchSync_delivered (len : Nat) (ring : Ring) :
    (searchSync len ring).delivered = ring.delivered := by
  fun_induction searchSync len ring with
  | case1 => rfl
  | case2 _ _ _ ih => exact ih
  | case3 => rfl
  | case4 => rfl
  | case5 _ _ _ _ _ ih => exact ih

theorem searchSync_silent {len : Nat} {ring : Ring} (silent : ∀ i, ring.readbuf i = 0#8) :
    (searchSync len ring).nextReadInd % maxReadBufLen =
      (ring.nextReadInd + len) % maxReadBufLen := by
  induction len generalizing ring with
  | zero => rw [searchSync, Nat.add_zero]
  | succ len ih =>
      have unstarted : starts ring = false := by
        rw [starts, silent]
        rfl
      have next : (searchSync len (skip ring 1)).nextReadInd % maxReadBufLen =
          ((skip ring 1).nextReadInd + len) % maxReadBufLen := ih silent
      rw [searchSync, if_pos (by rw [unstarted]; rfl), next, skip, moveRead, Nat.mod_add_mod,
        Nat.add_assoc, Nat.add_comm 1]

/-- The ring of voice mode behind its first block. -/
def afterNoise : Ring :=
  accept (sdlaUsbRxurbReset (blank .voice)) noise (store (fun _ => 0#8) 0 noise.octets) 5 5

theorem afterNoise_silent (i : Nat) : afterNoise.readbuf i = 0#8 := by
  change store (fun _ => 0#8) 0 (List.replicate 5 0#8) i = 0#8
  unfold store
  split
  · rw [List.getD_eq_getElem?_getD, List.getElem?_replicate]
    split <;> rfl
  · rfl

theorem noise_arrives : arrived (sdlaUsbRxurbReset (blank .voice)) noise =
    .taken (store (fun _ => 0#8) 0 noise.octets) 5 5 := rfl

theorem afterNoise_verify : verify afterNoise = searchSync 5 afterNoise := by
  have looked : afterNoise.opmode = .voice ∧ 4 < pending afterNoise := ⟨rfl, by decide⟩
  have unsynced : (!afterNoise.rxSync) = true := rfl
  have five : pending afterNoise = 5 := rfl
  rw [verify, if_pos looked, sdlausbSyncverify, if_pos unsynced, five]

theorem noise_step :
    step (sdlaUsbRxurbReset (blank .voice)) (.complete noise) =
      resubmit (searchSync 5 afterNoise) := by
  rw [← afterNoise_verify]
  rfl

theorem noise_roomy : Roomy (sdlaUsbRxurbReset (blank .voice)) noise :=
  ⟨by decide, fun _ => by decide⟩

theorem noise_put : Put (sdlaUsbRxurbReset (blank .voice)).readbuf
    (store (fun _ => 0#8) 0 noise.octets) maxReadBufLen
    (sdlaUsbRxurbReset (blank .voice)).nextRxInd noise.octets :=
  put_straight _ (by decide)

theorem afterNoise_held : Held 5 5 (searchSync 5 afterNoise) := by
  have five : 5 = ((sdlaUsbRxurbReset (blank .voice)).nextRxInd + noise.octets.length) %
      maxReadBufLen := rfl
  rw [← afterNoise_verify]
  exact verify_held (accept_held (reset_tidy _) noise_roomy noise_put five)

theorem afterNoise_read : (searchSync 5 afterNoise).nextReadInd = 5 := by
  have moved : (searchSync 5 afterNoise).nextReadInd % maxReadBufLen =
      (afterNoise.nextReadInd + 5) % maxReadBufLen := searchSync_silent afterNoise_silent
  rw [Nat.mod_eq_of_lt afterNoise_held.read] at moved
  exact moved.trans (by decide)

theorem read_empty {ring : Ring} (same : ring.nextRxInd = ring.nextReadInd) :
    unread (resubmit ring) = [] := by
  apply List.eq_nil_of_length_eq_zero
  rw [unread_length, rxLen, resubmit, same]
  simp [between]

theorem resubmit_returned (ring : Ring) : returned (resubmit ring) = returned ring := rfl

theorem resubmit_delivered (ring : Ring) : (resubmit ring).delivered = ring.delivered := rfl

theorem rx_ring (ring : Ring) (ops : List Op)
    (along : Along (fun ring op => some (step ring op)) Allowed (sdlaUsbRxurbReset ring) ops) :
    Faithful (ops.foldl step (sdlaUsbRxurbReset ring)) := by
  have tidy : Tidy (ops.foldl step (sdlaUsbRxurbReset ring)) :=
    along.fold (fun _ _ tidy allowed => step_tidy tidy allowed) (reset_tidy ring)
  exact tidy.faithful

theorem rx_ring_noise :
    Faithful ([.complete noise, .get 3, .reset].foldl step (sdlaUsbRxurbReset (blank .api))) := by
  apply rx_ring (blank .api) [.complete noise, .get 3, .reset]
  have room : Roomy (sdlaUsbRxurbReset (blank .api)) noise := ⟨by decide, fun _ => by decide⟩
  exact ⟨room, fun _ _ => ⟨trivial, fun _ _ => ⟨trivial, fun _ _ => trivial⟩⟩⟩

/-- In voice mode, octets in which no block starts are returned by no read. -/
theorem rx_ring_passed :
    ¬ ∀ (ring : Ring) (ops : List Op),
      (ops.foldl step (sdlaUsbRxurbReset ring)).delivered =
        returned (ops.foldl step (sdlaUsbRxurbReset ring)) ++
          unread (ops.foldl step (sdlaUsbRxurbReset ring)) := by
  intro all
  have kept := all (blank .voice) [.complete noise]
  have empty : unread (resubmit (searchSync 5 afterNoise)) = [] :=
    read_empty (afterNoise_held.rx.trans afterNoise_read.symm)
  have none : returned (searchSync 5 afterNoise) = [] := searchSync_returned 5 afterNoise
  have same : (searchSync 5 afterNoise).delivered = noise.octets :=
    searchSync_delivered 5 afterNoise
  rw [List.foldl_cons, List.foldl_nil, noise_step, empty, resubmit_returned, resubmit_delivered,
    none, same] at kept
  cases kept

end Runs

end Wanpipe.Usb.RxRing
