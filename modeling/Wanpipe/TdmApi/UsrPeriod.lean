import Wanpipe.TdmApi.Stream

/-! The receive buffers of a channelized device while its user changes the period. -/

namespace Wanpipe.TdmApi

open Line

def eopnotsupp : Int := 95

/-- `WP_API_CMD_SET_USR_PERIOD` takes the period. -/
def periodOk (period : Nat) : Prop := 10 ≤ period ∧ period % 10 = 0 ∧ period ≤ 1000

instance (period : Nat) : Decidable (periodOk period) := inferInstanceAs (Decidable (_ ∧ _ ∧ _))

/-- `WP_API_CMD_SET_USR_PERIOD`; of the codec it matters to `usr_mtu_mru` whether it is
`WP_SLINEAR`. -/
def setUsrPeriod (dev : Dev) (slinear : Bool) (period : Nat) : Int × Dev :=
  if dev.operationMode ≠ .chan then (-eopnotsupp, dev)
  else if periodOk period then
    let usrMtuMru := period * dev.cfg.hwMtuMru * dev.bufferMultiplier * dev.timeslots
    (0,
      { dev with
        cfg :=
          { dev.cfg with
            usrPeriod := period
            usrMtuMru := if slinear then usrMtuMru * 2 else usrMtuMru }
        mtuMru := period * dev.cfg.hwMtuMru * dev.timeslots + hdrSz })
  else (-einval, dev)

inductive PeriodOp
  | setUsrPeriod (slinear : Bool) (period : Nat)
  | chan (op : ChanOp)

def periodStep (dev : Dev) : PeriodOp → Dev
  | .setUsrPeriod slinear period => (setUsrPeriod dev slinear period).2
  | .chan op => chanStep dev op

def periodRun (dev : Dev) (ops : List PeriodOp) : Dev := ops.foldl periodStep dev

/-- The chunks of the line are `hw_mtu_mru` long. -/
def HwChunk (hw : Nat) : PeriodOp → Prop
  | .chan (.rxTx rxData _ _) => rxData.length = hw
  | _ => True

/-- A period that is taken leaves room in a buffer for all its chunks. -/
def PeriodFits (hw timeslots : Nat) : PeriodOp → Prop
  | .setUsrPeriod _ period =>
      periodOk period → period * hw * timeslots + hdrSz ≤ wpTdmApiMaxLen
  | _ => True

/-- What was put last is in `rx_skb` or at the end of `wp_rx_list`; no buffer is longer than what
was allocated for it. -/
def Fits (dev : Dev) : Prop :=
  ∀ skb ∈ dev.rxSkb.toList ++ dev.rxList, skb.length ≤ wpTdmApiMaxLen

/-- The step puts nothing into a buffer, and the limit stays. -/
structure Shrinks (dev next : Dev) : Prop where
  mtuMru : next.mtuMru = dev.mtuMru
  hwMtuMru : next.cfg.hwMtuMru = dev.cfg.hwMtuMru
  timeslots : next.timeslots = dev.timeslots
  rxSkb : next.rxSkb = dev.rxSkb ∨ next.rxSkb = none
  rxList : next.rxList ⊆ dev.rxList

theorem Shrinks.refl (dev : Dev) : Shrinks dev dev := ⟨rfl, rfl, rfl, .inl rfl, List.Subset.refl _⟩

theorem Shrinks.trans {dev next last : Dev} (first : Shrinks dev next)
    (second : Shrinks next last) : Shrinks dev last where
  mtuMru := second.mtuMru.trans first.mtuMru
  hwMtuMru := second.hwMtuMru.trans first.hwMtuMru
  timeslots := second.timeslots.trans first.timeslots
  rxSkb := by
    rcases second.rxSkb with same | none
    · rw [same]
      exact first.rxSkb
    · exact .inr none
  rxList := List.Subset.trans second.rxList first.rxList

/-- What sending leaves alone: everything but the statistics and its own buffers. -/
structure LeavesRx (dev next : Dev) : Prop where
  cfg : next.cfg = { dev.cfg with stats := next.cfg.stats }
  init : next.init = dev.init
  used : next.used = dev.used
  timeslots : next.timeslots = dev.timeslots
  mtuMru : next.mtuMru = dev.mtuMru
  rxSkb : next.rxSkb = dev.rxSkb
  rxList : next.rxList = dev.rxList
  rxFreeList : next.rxFreeList = dev.rxFreeList

theorem LeavesRx.shrinks {dev next : Dev} (leaves : LeavesRx dev next) : Shrinks dev next where
  mtuMru := leaves.mtuMru
  hwMtuMru := by rw [leaves.cfg]
  timeslots := leaves.timeslots
  rxSkb := .inl leaves.rxSkb
  rxList := by rw [leaves.rxList]; exact List.Subset.refl _

theorem txSend_leaves {dev next : Dev} (leaves : LeavesRx dev next) (skb : Skb) (len : Nat) :
    LeavesRx dev (txSend next skb len).2 := by
  have cfg (stats : Stats) : ({ next.cfg with stats := stats } : Cfg) = { dev.cfg with stats := stats } := by
    rw [leaves.cfg]
  rw [txSend]
  split
  · exact ⟨cfg _, leaves.init, leaves.used, leaves.timeslots, leaves.mtuMru, leaves.rxSkb,
      leaves.rxList, leaves.rxFreeList⟩
  · split
    · exact ⟨cfg _, leaves.init, leaves.used, leaves.timeslots, leaves.mtuMru, leaves.rxSkb,
        leaves.rxList, leaves.rxFreeList⟩
    · exact ⟨leaves.cfg, leaves.init, leaves.used, leaves.timeslots, leaves.mtuMru, leaves.rxSkb,
        leaves.rxList, leaves.rxFreeList⟩

theorem channelizedTx_leaves (dev : Dev) (txData : List Octet) :
    LeavesRx dev (wanpipeTdmApiChannelizedTx dev txData).2 := by
  have same : LeavesRx dev dev := ⟨rfl, rfl, rfl, rfl, rfl, rfl, rfl, rfl⟩
  simp only [wanpipeTdmApiChannelizedTx]
  split
  · exact same
  · split
    · exact txSend_leaves same _ _
    · exact ⟨rfl, rfl, rfl, rfl, rfl, rfl, rfl, rfl⟩
    · split
      · exact ⟨rfl, rfl, rfl, rfl, rfl, rfl, rfl, rfl⟩
      · next skb skbs _ _ _ =>
          have taken : LeavesRx dev (txTake dev skb skbs) := ⟨rfl, rfl, rfl, rfl, rfl, rfl, rfl, rfl⟩
          exact txSend_leaves taken _ _

theorem addStats_shrinks (dev : Dev) (update : Stats → Stats) : Shrinks dev (addStats dev update) :=
  ⟨rfl, rfl, rfl, .inl rfl, List.Subset.refl _⟩

theorem rxError_shrinks (dev : Dev) : Shrinks dev (rxError dev) :=
  ⟨rfl, rfl, rfl, .inr rfl, List.Subset.refl _⟩

theorem takeRx_shrinks (dev : Dev) (mem : Bool) : Shrinks dev (takeRx dev mem).2 := by
  have fewer {skbs : List Skb} (part : skbs ⊆ dev.rxList) : Shrinks dev { dev with rxList := skbs } :=
    ⟨rfl, rfl, rfl, .inl rfl, part⟩
  rw [takeRx]
  split
  · split
    · exact Shrinks.refl dev
    · next skb skbs queue =>
        have tail : skbs ⊆ dev.rxList := by
          rw [queue]
          exact List.subset_cons_self skb skbs
        split
        · exact Shrinks.refl dev
        · split
          · exact fewer (List.Subset.trans (List.drop_subset _ _) tail)
          · exact fewer tail
  · split
    · exact Shrinks.refl dev
    · next skb skbs queue =>
        refine fewer ?_
        rw [queue]
        exact List.subset_cons_self skb skbs

theorem read_shrinks (dev : Dev) (count : Int) (mem : Bool) (errors : BitVec 32) :
    Shrinks dev (wpTdmapiReadMsg dev count mem errors).2 := by
  have takes := takeRx_shrinks dev mem
  rw [wpTdmapiReadMsg]
  split
  · exact Shrinks.refl dev
  · generalize takeRx dev mem = taken at takes
    obtain ⟨skb, next⟩ := taken
    cases skb with
    | none => exact takes
    | some skb =>
        simp only
        split
        · exact takes
        · exact takes.trans ⟨rfl, rfl, rfl, .inl rfl, List.Subset.refl _⟩

theorem write_shrinks (dev : Dev) (skb : Skb) : Shrinks dev (wpTdmapiWriteMsg dev skb).2 := by
  rw [wpTdmapiWriteMsg]
  split
  · exact Shrinks.refl dev
  · split
    · exact addStats_shrinks dev txErrors
    · split
      · exact addStats_shrinks dev txErrors
      · rw [writeChan]
        split
        · exact addStats_shrinks dev txErrors
        · split <;> exact ⟨rfl, rfl, rfl, .inl rfl, List.Subset.refl _⟩

theorem flush_shrinks (dev : Dev) (option : Flush) : Shrinks dev (wpTdmapiInitBuffs dev option) := by
  have rx : Shrinks dev (flushRx dev) := by
    rw [flushRx]
    split <;> exact ⟨rfl, rfl, rfl, .inr rfl, List.nil_subset _⟩
  have tx (dev : Dev) : Shrinks dev (flushTx dev) := ⟨rfl, rfl, rfl, .inl rfl, List.Subset.refl _⟩
  have event (dev : Dev) : Shrinks dev (flushEvent dev) :=
    ⟨rfl, rfl, rfl, .inl rfl, List.Subset.refl _⟩
  cases option with
  | all => exact (rx.trans (tx _)).trans (event _)
  | rx => exact rx
  | tx => exact tx dev
  | event => exact event dev

theorem open_shrinks (dev : Dev) : Shrinks dev (wpTdmapiOpen dev) := by
  simp only [wpTdmapiOpen]
  split
  · exact Shrinks.refl dev
  · split
    · have flushed := flush_shrinks { dev with openCnt := dev.openCnt + 1#32 } .all
      exact ⟨flushed.mtuMru, rfl, flushed.timeslots, flushed.rxSkb, flushed.rxList⟩
    · exact ⟨rfl, rfl, rfl, .inl rfl, List.Subset.refl _⟩

theorem release_shrinks (dev : Dev) : Shrinks dev (wpTdmapiRelease dev) := by
  simp only [wpTdmapiRelease]
  split
  · split <;> exact ⟨rfl, rfl, rfl, .inl rfl, List.Subset.refl _⟩
  · exact ⟨rfl, rfl, rfl, .inl rfl, List.Subset.refl _⟩

/-- The limit is a whole number of chunks behind the header and within a buffer, and so is what the
buffer that is being filled will hold after one more chunk. -/
structure Room (hw timeslots : Nat) (dev : Dev) : Prop where
  hwMtuMru : dev.cfg.hwMtuMru = hw
  timeslots : dev.timeslots = timeslots
  chunk : hdrSz + hw ≤ wpTdmApiMaxLen
  limit : ∃ n, dev.mtuMru = hdrSz + n * hw ∧ dev.mtuMru ≤ wpTdmApiMaxLen
  filling : ∀ skb ∈ dev.rxSkb,
    ∃ k, skb.length = hdrSz + k * hw ∧ skb.length + hw ≤ wpTdmApiMaxLen
  queued : ∀ skb ∈ dev.rxList, skb.length ≤ wpTdmApiMaxLen

section Rooms

variable {hw timeslots : Nat} {dev next : Dev}

theorem Room.fits (room : Room hw timeslots dev) : Fits dev := by
  intro skb member
  rcases List.mem_append.mp member with filling | queued
  · obtain ⟨k, -, bound⟩ := room.filling skb (Option.mem_toList.mp filling)
    omega
  · exact room.queued skb queued

theorem Shrinks.room (shrinks : Shrinks dev next) (room : Room hw timeslots dev) :
    Room hw timeslots next where
  hwMtuMru := shrinks.hwMtuMru.trans room.hwMtuMru
  timeslots := shrinks.timeslots.trans room.timeslots
  chunk := room.chunk
  limit := by rw [shrinks.mtuMru]; exact room.limit
  filling := by
    intro skb filling
    rcases shrinks.rxSkb with same | none
    · exact room.filling skb (by rwa [same] at filling)
    · rw [none] at filling
      cases filling
  queued skb queued := room.queued skb (shrinks.rxList queued)

/-- The chunk that fills a buffer up to the limit is within the buffer, and before it there is room
for a chunk more. -/
theorem rxAppend_room (room : Room hw timeslots dev) {skb : Skb} {k : Nat}
    (whole : skb.length = hdrSz + k * hw) (free : skb.length + hw ≤ wpTdmApiMaxLen)
    {rxData : List Octet} (chunk : rxData.length = hw) (now : Time) :
    Room hw timeslots (rxAppend dev skb rxData now) := by
  have filled : (skb ++ rxData).length = hdrSz + (k + 1) * hw := by
    rw [List.length_append, whole, chunk, Nat.succ_mul, Nat.add_assoc]
  have within : (skb ++ rxData).length ≤ wpTdmApiMaxLen := by
    rw [List.length_append, chunk]
    exact free
  simp only [rxAppend]
  split
  · refine ⟨room.hwMtuMru, room.timeslots, room.chunk, room.limit,
      fun other none => absurd none (Option.not_mem_none other), ?_⟩
    intro other member
    rcases List.mem_append.mp member with old | new
    · exact room.queued other old
    · have long : hdrSz ≤ (skb ++ rxData).length := by omega
      rw [List.mem_singleton.mp new, wanpipeTdmTimestampHdr_length long]
      exact within
  · next short =>
      refine ⟨room.hwMtuMru, room.timeslots, room.chunk, room.limit, ?_, room.queued⟩
      rintro other ⟨⟩
      refine ⟨k + 1, filled, ?_⟩
      obtain ⟨n, limit, bound⟩ := room.limit
      have less : (k + 1) * hw < n * hw := by omega
      have more : (k + 1 + 1) * hw ≤ n * hw :=
        Nat.mul_le_mul_right hw (Nat.lt_of_mul_lt_mul_right less)
      calc (skb ++ rxData).length + hw
          = hdrSz + (k + 1 + 1) * hw := by rw [filled, Nat.succ_mul (k + 1), Nat.add_assoc]
        _ ≤ hdrSz + n * hw := Nat.add_le_add_left more hdrSz
        _ ≤ wpTdmApiMaxLen := limit ▸ bound

theorem channelizedRx_room (room : Room hw timeslots dev) {rxData : List Octet}
    (chunk : rxData.length = hw) (now : Time) :
    Room hw timeslots (wanpipeTdmApiChannelizedRx dev rxData now) := by
  rw [wanpipeTdmApiChannelizedRx]
  split
  · exact (rxError_shrinks dev).room room
  · split
    · exact ((addStats_shrinks dev rxDropped).trans (rxError_shrinks _)).room room
    · cases filling : dev.rxSkb with
      | some skb =>
          obtain ⟨k, whole, free⟩ := room.filling skb filling
          exact rxAppend_room room whole free chunk now
      | none =>
          simp only
          split
          · exact ((addStats_shrinks dev rxErrors).trans (rxError_shrinks _)).room room
          · have taken : Room hw timeslots { dev with rxFreeList := dev.rxFreeList - 1 } :=
              ⟨room.hwMtuMru, room.timeslots, room.chunk, room.limit, room.filling, room.queued⟩
            refine rxAppend_room (k := 0) taken ?_ ?_ chunk now
            · rw [List.length_replicate, Nat.zero_mul, Nat.add_zero]
            · rw [List.length_replicate]
              exact room.chunk

theorem rxTx_room (room : Room hw timeslots dev) {rxData : List Octet}
    (chunk : rxData.length = hw) (txData : List Octet) (now : Time) :
    Room hw timeslots (wanpipeTdmApiRxTx dev rxData txData now).2 := by
  have received := channelizedRx_room room chunk now
  have sent := (channelizedTx_leaves (wanpipeTdmApiChannelizedRx dev rxData now) txData).shrinks.room
    received
  simp only [wanpipeTdmApiRxTx]
  split
  · exact room
  · split
    · split
      · split
        · exact sent
        · exact sent
      · exact room
    · exact room

theorem periodStep_room (room : Room hw timeslots dev) {op : PeriodOp} (chunk : HwChunk hw op)
    (fits : PeriodFits hw timeslots op) : Room hw timeslots (periodStep dev op) := by
  cases op with
  | setUsrPeriod slinear period =>
      simp only [periodStep, setUsrPeriod]
      split
      · exact room
      · split
        · next ok =>
            have limit : period * dev.cfg.hwMtuMru * dev.timeslots + hdrSz =
                hdrSz + period * dev.timeslots * hw := by
              rw [room.hwMtuMru, Nat.add_comm, Nat.mul_right_comm]
            have within : period * dev.cfg.hwMtuMru * dev.timeslots + hdrSz ≤ wpTdmApiMaxLen := by
              rw [room.hwMtuMru, room.timeslots]
              exact fits ok
            exact ⟨room.hwMtuMru, room.timeslots, room.chunk, ⟨_, limit, within⟩, room.filling,
              room.queued⟩
        · exact room
  | chan op =>
      cases op with
      | rxTx rxData txData now => exact rxTx_room room chunk txData now
      | read count errors => exact (read_shrinks dev count true errors).room room
      | write skb => exact (write_shrinks dev skb).room room
      | flush option => exact (flush_shrinks dev option).room room
      | openDev => exact (open_shrinks dev).room room
      | closeDev => exact (release_shrinks dev).room room

theorem periodRun_room (room : Room hw timeslots dev) {ops : List PeriodOp}
    (chunks : ∀ op ∈ ops, HwChunk hw op) (fits : ∀ op ∈ ops, PeriodFits hw timeslots op) :
    Room hw timeslots (periodRun dev ops) := by
  induction ops generalizing dev with
  | nil => exact room
  | cons op ops ih =>
      have step := periodStep_room room (chunks op List.mem_cons_self) (fits op List.mem_cons_self)
      exact ih step (fun later member => chunks later (List.mem_cons_of_mem op member))
        fun later member => fits later (List.mem_cons_of_mem op member)

end Rooms

/-- The next chunk is put into a buffer. -/
structure Receiving (dev : Dev) : Prop where
  init : dev.init = true
  used : dev.used = true
  rxDisable : dev.cfg.rxDisable = false
  queue : dev.rxList.length < dev.cfg.rxQueueSz
  buffer : dev.rxSkb.isSome = true ∨ 0 < dev.rxFreeList

/-- The buffer that the next chunk is put into. -/
def rxBuffer (dev : Dev) : Skb := dev.rxSkb.getD (List.replicate hdrSz 0x00#8)

/-- The device with that buffer taken from the free ones. -/
def rxTake (dev : Dev) : Dev :=
  { dev with rxFreeList := if dev.rxSkb.isSome then dev.rxFreeList else dev.rxFreeList - 1 }

section Overruns

variable {dev : Dev} {rxData : List Octet}

theorem Receiving.channelizedRx (receiving : Receiving dev) (rxData : List Octet) (now : Time) :
    wanpipeTdmApiChannelizedRx dev rxData now = rxAppend (rxTake dev) (rxBuffer dev) rxData now := by
  have queue := Nat.not_le_of_lt receiving.queue
  rw [wanpipeTdmApiChannelizedRx, if_neg (ne_true_of_eq_false receiving.rxDisable), if_neg queue]
  cases filling : dev.rxSkb with
  | some skb =>
      have free : (if dev.rxSkb.isSome then dev.rxFreeList else dev.rxFreeList - 1) =
          dev.rxFreeList := by
        rw [filling]
        rfl
      have buffer : rxBuffer dev = skb := by rw [rxBuffer, filling, Option.getD_some]
      rw [rxTake, free, buffer]
  | none =>
      have buffer : dev.rxFreeList ≠ 0 := by
        rcases receiving.buffer with some | some
        · rw [filling] at some
          cases some
        · exact Nat.ne_of_gt some
      simp [rxTake, rxBuffer, filling, buffer]

theorem Receiving.rxTx (receiving : Receiving dev) (some : rxData ≠ []) (txData : List Octet)
    (now : Time) :
    LeavesRx (rxAppend (rxTake dev) (rxBuffer dev) rxData now)
      (wanpipeTdmApiRxTx dev rxData txData now).2 := by
  have sent := channelizedTx_leaves (wanpipeTdmApiChannelizedRx dev rxData now) txData
  have long : rxData.length ≠ 0 := fun none => some (List.length_eq_zero_iff.mp none)
  rw [receiving.channelizedRx] at sent
  simp only [wanpipeTdmApiRxTx, if_neg long, receiving.init, receiving.used, if_true,
    receiving.channelizedRx]
  split
  · exact sent
  · exact sent

/-- A chunk that does not fill the buffer up to the limit leaves the next one room. -/
theorem Receiving.fills (receiving : Receiving dev) (some : rxData ≠ [])
    (short : (rxBuffer dev).length + rxData.length < dev.mtuMru) (txData : List Octet)
    (now : Time) {next : Dev} (ran : (wanpipeTdmApiRxTx dev rxData txData now).2 = next) :
    Receiving next ∧ rxBuffer next = rxBuffer dev ++ rxData ∧ next.mtuMru = dev.mtuMru := by
  have leaves := receiving.rxTx some txData now
  have part : ¬ (rxTake dev).mtuMru ≤ (rxBuffer dev ++ rxData).length := by
    rw [List.length_append]
    exact Nat.not_le_of_lt short
  rw [ran] at leaves
  simp only [rxAppend, if_neg part] at leaves
  refine ⟨⟨?_, ?_, ?_, ?_, ?_⟩, ?_, leaves.mtuMru⟩
  · exact leaves.init.trans receiving.init
  · exact leaves.used.trans receiving.used
  · rw [leaves.cfg]
    exact receiving.rxDisable
  · rw [leaves.cfg, leaves.rxList]
    exact receiving.queue
  · rw [leaves.rxSkb]
    exact .inl rfl
  · rw [rxBuffer, leaves.rxSkb]
    rfl

/-- The chunk that reaches a limit beyond the buffer runs over its end. -/
theorem Receiving.overruns (receiving : Receiving dev) (some : rxData ≠ [])
    (limit : wpTdmApiMaxLen < dev.mtuMru)
    (full : dev.mtuMru ≤ (rxBuffer dev).length + rxData.length) (txData : List Octet) (now : Time) :
    ¬ Fits (wanpipeTdmApiRxTx dev rxData txData now).2 := by
  have leaves := receiving.rxTx some txData now
  have beyond : wpTdmApiMaxLen < (rxBuffer dev ++ rxData).length := by
    rw [List.length_append]
    exact Nat.lt_of_lt_of_le limit full
  have whole : (rxTake dev).mtuMru ≤ (rxBuffer dev ++ rxData).length := by
    rw [List.length_append]
    exact full
  simp only [rxAppend, if_pos whole, addStats] at leaves
  intro fits
  have bound := fits (wanpipeTdmTimestampHdr (rxBuffer dev ++ rxData) now) (by
    rw [leaves.rxList]
    exact List.mem_append_right _ (List.mem_append_right _ List.mem_cons_self))
  have header : hdrSz ≤ (rxBuffer dev ++ rxData).length :=
    Nat.le_trans (by decide) (Nat.le_of_lt beyond)
  rw [wanpipeTdmTimestampHdr_length header] at bound
  exact Nat.not_lt_of_le bound beyond

/-- A buffer that is too long already. -/
theorem not_fits_of_long (long : wpTdmApiMaxLen < (rxBuffer dev).length) : ¬ Fits dev := by
  intro fits
  cases filling : dev.rxSkb with
  | none =>
      rw [rxBuffer, filling, Option.getD_none, List.length_replicate] at long
      exact absurd long (by decide)
  | some skb =>
      rw [rxBuffer, filling, Option.getD_some] at long
      have bound := fits skb (by rw [filling]; exact List.mem_cons_self)
      exact Nat.not_lt_of_le bound long

/-- Chunks for a device whose limit is beyond the buffer; `room` is what is left of the buffer. -/
theorem chunks_overrun (some : rxData ≠ []) (txData : List Octet) (now : Time) (room : Nat)
    {dev : Dev} (receiving : Receiving dev) (limit : wpTdmApiMaxLen < dev.mtuMru)
    (left : wpTdmApiMaxLen < (rxBuffer dev).length + room) :
    ∃ n, ¬ Fits (periodRun dev (List.replicate n (.chan (.rxTx rxData txData now)))) := by
  induction room generalizing dev with
  | zero => exact ⟨0, not_fits_of_long left⟩
  | succ room ih =>
      by_cases short : (rxBuffer dev).length + rxData.length < dev.mtuMru
      · obtain ⟨next, buffer, same⟩ := receiving.fills some short txData now rfl
        have positive : 0 < rxData.length := List.length_pos_iff.mpr some
        obtain ⟨n, overrun⟩ := ih next (by rw [same]; exact limit) (by
          rw [buffer, List.length_append]
          omega)
        exact ⟨n + 1, overrun⟩
      · exact ⟨1, receiving.overruns some limit (Nat.le_of_not_lt short) txData now⟩

end Overruns

/-- The limit of a device as its configuration leaves it in channel mode. -/
structure ConfiguredLimit (dev next : Dev) : Prop where
  hwMtuMru : next.cfg.hwMtuMru = dev.cfg.hwMtuMru
  mtuMru : next.mtuMru = dev.cfg.usrPeriod * dev.cfg.hwMtuMru + hdrSz

theorem configure_limit (isBri : Bool) {dev : Dev} (mode : dev.blockMode = false)
    (done : (configure isBri dev).1 = 0) :
    ConfiguredLimit dev (configure isBri dev).2 ∧ dev.cfg.hwMtuMru ≠ 0 ∧ dev.cfg.usrPeriod ≠ 0 := by
  have chan : dev.operationMode = .chan ∧ dev.hdlcFraming = false := by
    simpa [Dev.blockMode] using mode
  simp only [configure, chan.1, chan.2, Bool.false_eq_true, if_false, if_true] at done ⊢
  split at done
  · cases done
  · next filled =>
      rw [if_neg filled]
      simp only [not_or] at filled
      refine ⟨?_, filled.1, filled.2.1⟩
      simp only [idleCfg]
      split <;> exact ⟨rfl, rfl⟩

/-- A device as it is registered in channel mode. -/
theorem registered_room {card next : Card} {t : Nat} {out : Outcomes} (mem : out.cdev = true)
    (memDev : out.cardDev = true) (ran : aftTdmApiInit card t out = some (0, next))
    (mode : (card.devs t).blockMode = false) (fresh : (card.devs t).rxSkb = none)
    (fits : (card.devs t).cfg.usrPeriod * (card.devs t).cfg.hwMtuMru + hdrSz ≤ wpTdmApiMaxLen) :
    Room (card.devs t).cfg.hwMtuMru (next.devs t).timeslots (next.devs t) := by
  rcases aftTdmApiInit_dev mem memDev ran with ⟨-, done, dev, made, registered⟩
  have rx := configure_rx card.isBri (allocEvents (countedDev (card.devs t)) out)
  obtain ⟨limit, -, some⟩ :=
    @configure_limit card.isBri (allocEvents (countedDev (card.devs t)) out) mode done
  have mtuMru : (next.devs t).mtuMru =
      hdrSz + (card.devs t).cfg.usrPeriod * (card.devs t).cfg.hwMtuMru := by
    rw [registered, made, Nat.add_comm]
    exact limit.mtuMru
  constructor
  · rw [registered, made]
    exact limit.hwMtuMru
  · rfl
  · calc hdrSz + (card.devs t).cfg.hwMtuMru
        ≤ hdrSz + (card.devs t).cfg.usrPeriod * (card.devs t).cfg.hwMtuMru :=
          Nat.add_le_add_left (Nat.le_mul_of_pos_left _ (Nat.pos_of_ne_zero some)) hdrSz
      _ ≤ wpTdmApiMaxLen := Nat.add_comm _ hdrSz ▸ fits
  · exact ⟨_, mtuMru, by rw [mtuMru, Nat.add_comm]; exact fits⟩
  · have none : (next.devs t).rxSkb = none := by
      rw [registered, made]
      exact rx.rxSkb.trans fresh
    intro skb filling
    rw [none] at filling
    cases filling
  · have empty : (next.devs t).rxList = [] := by
      rw [registered, made]
      exact rx.rxList
    intro skb queued
    rw [empty] at queued
    cases queued

/-- In every run of a registered device whose periods fit, no buffer is longer than its memory; and
a device whose limit went past that is overrun by the chunks of the line, as long as it receives. -/
theorem usr_period_bound {card next : Card} {t : Nat} {out : Outcomes} (mem : out.cdev = true)
    (memDev : out.cardDev = true) (ran : aftTdmApiInit card t out = some (0, next))
    (mode : (card.devs t).blockMode = false) (fresh : (card.devs t).rxSkb = none)
    (ops : List PeriodOp) (chunks : ∀ op ∈ ops, HwChunk (card.devs t).cfg.hwMtuMru op) :
    ((card.devs t).cfg.usrPeriod * (card.devs t).cfg.hwMtuMru + hdrSz ≤ wpTdmApiMaxLen →
      (∀ op ∈ ops, PeriodFits (card.devs t).cfg.hwMtuMru (next.devs t).timeslots op) →
        Fits (periodRun (next.devs t) ops)) ∧
    ∀ rxData txData now, rxData.length = (card.devs t).cfg.hwMtuMru →
      Receiving (periodRun (next.devs t) ops) →
        wpTdmApiMaxLen < (periodRun (next.devs t) ops).mtuMru →
          ∃ n, ¬ Fits (periodRun (next.devs t)
            (ops ++ List.replicate n (.chan (.rxTx rxData txData now)))) := by
  constructor
  · intro first fits
    have room := registered_room mem memDev ran mode fresh first
    exact (periodRun_room room chunks fits).fits
  · intro rxData txData now chunk receiving limit
    rcases aftTdmApiInit_dev mem memDev ran with ⟨-, done, -⟩
    obtain ⟨-, hw, -⟩ :=
      @configure_limit card.isBri (allocEvents (countedDev (card.devs t)) out) mode done
    have some : rxData ≠ [] := by
      intro none
      rw [none] at chunk
      exact hw chunk.symm
    obtain ⟨n, overrun⟩ := chunks_overrun some txData now (wpTdmApiMaxLen + 1) receiving limit
      (Nat.lt_add_left _ (Nat.lt_succ_self _))
    refine ⟨n, ?_⟩
    rw [periodRun, List.foldl_append]
    exact overrun

/-- The period of 510 is the longest that fits one time slot with chunks of 8. -/
theorem usr_period_bound_longest :
    ∃ next, aftTdmApiInit emptyCard 0 allThere = some (0, next) ∧
      Fits (periodRun (next.devs 0)
        [.chan .openDev, .setUsrPeriod false 510, .chan (.rxTx (List.replicate 8 0x55#8) (List.replicate 8 0x55#8) ⟨0#32, 0#32⟩)]) := by
  have done : (aftTdmApiInit emptyCard 0 allThere).map
      (fun result => (result.1, (result.2.devs 0).timeslots)) = some (0, 1) := by
    decide +kernel
  rcases Option.map_eq_some_iff.mp done with ⟨⟨err, next⟩, ran, seen⟩
  simp only [Prod.mk.injEq] at seen
  rcases seen with ⟨zero, timeslots⟩
  rw [zero] at ran
  refine ⟨next, ran, (usr_period_bound rfl rfl ran (by decide) (by decide) _ ?_).1 (by decide) ?_⟩
  · intro op member
    simp only [List.mem_cons, List.not_mem_nil, or_false] at member
    rcases member with rfl | rfl | rfl
    · trivial
    · trivial
    · exact List.length_replicate
  · intro op member
    simp only [List.mem_cons, List.not_mem_nil, or_false] at member
    rw [timeslots]
    rcases member with rfl | rfl | rfl
    · trivial
    · exact fun _ => by decide
    · trivial

/-- The period of a second, with the 8 octets a millisecond of one voice channel. -/
theorem usr_period_bound_second :
    ¬ ∀ (card next : Card) (t : Nat) (out : Outcomes) (ops : List PeriodOp), out.cdev = true →
      out.cardDev = true → aftTdmApiInit card t out = some (0, next) →
      (card.devs t).blockMode = false → (card.devs t).rxSkb = none →
      8 ≤ (card.devs t).cfg.hwMtuMru → (∀ op ∈ ops, HwChunk (card.devs t).cfg.hwMtuMru op) →
      Fits (periodRun (next.devs t) ops) := by
  intro always
  let first : List PeriodOp := [.chan .openDev, .setUsrPeriod false 1000]
  let chunk : PeriodOp :=
    .chan (.rxTx (List.replicate 8 0x55#8) (List.replicate 8 0x55#8) ⟨0#32, 0#32⟩)
  have done : (aftTdmApiInit emptyCard 0 allThere).map (fun result =>
      let dev := periodRun (result.2.devs 0) first
      (result.1, decide (dev.init = true ∧ dev.used = true ∧ dev.cfg.rxDisable = false ∧
        dev.rxList.length < dev.cfg.rxQueueSz ∧ 0 < dev.rxFreeList ∧
          wpTdmApiMaxLen < dev.mtuMru))) = some (0, true) := by
    decide +kernel
  rcases Option.map_eq_some_iff.mp done with ⟨⟨err, next⟩, ran, seen⟩
  simp only [Prod.mk.injEq, decide_eq_true_eq] at seen
  rcases seen with ⟨zero, init, used, rxDisable, queue, buffer, limit⟩
  rw [zero] at ran
  obtain ⟨n, overrun⟩ := chunks_overrun (List.cons_ne_nil _ _) (List.replicate 8 0x55#8)
    ⟨0#32, 0#32⟩ (wpTdmApiMaxLen + 1) ⟨init, used, rxDisable, queue, .inr buffer⟩ limit
    (Nat.lt_add_left _ (Nat.lt_succ_self _))
  have chunks : ∀ op ∈ first ++ List.replicate n chunk, HwChunk 8 op := by
    intro op member
    rcases List.mem_append.mp member with member | member
    · simp only [first, List.mem_cons, List.not_mem_nil, or_false] at member
      rcases member with rfl | rfl <;> trivial
    · rw [List.eq_of_mem_replicate member]
      exact List.length_replicate
  have fits := always emptyCard next 0 allThere (first ++ List.replicate n chunk) rfl rfl ran
    (by decide) (by decide) (by decide) chunks
  rw [periodRun, List.foldl_append] at fits
  exact overrun fits

end Wanpipe.TdmApi
