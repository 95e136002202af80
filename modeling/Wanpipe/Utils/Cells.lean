import Mathlib.Data.List.Basic
import Mathlib.Tactic.Common
import Wanpipe.Line.Octets

/-! The cells of an ATM channel packed into a transmit buffer, with idle cells behind them. -/

namespace Wanpipe.Utils.Cells

open Line

def atmPayloadSz : Nat := 48

def atmCellSize : Nat := 53

/-- `idle_cell`, a header and the pad characters. -/
def idleCell : List Octet :=
  [0x00, 0x00, 0x00, 0x01, 0x52] ++ List.replicate atmPayloadSz 0x6A

/-- What `init_atm_idle_buffer` leaves in a buffer that takes at least one cell. -/
def initAtmIdleBuffer (buff : List Octet) : Option (List Octet) :=
  if buff.length / atmCellSize = 0 then none
  else
    some ((List.replicate (buff.length / atmCellSize) idleCell).flatten ++
      buff.drop (buff.length / atmCellSize * atmCellSize))

/-- A buffer of the kernel with the room behind its data. -/
structure Skb where
  data : List Octet
  tailroom : Nat

/-- `wan_skb_alloc`. There may be no memory, and the kernel may give `slack` more than was asked
for. -/
def wanSkbAlloc (slack : Option Nat) (len : Nat) : Option Skb :=
  slack.map fun more => ⟨[], len + more⟩

/-- The `dataLen` octets at `data`. -/
def atmAddDataToSkb (skb : Skb) (data : List Octet) (dataLen : Nat) : Except Nat Skb :=
  if dataLen ≠ atmCellSize then .error 1
  else if skb.tailroom < dataLen then .error 1
  else .ok ⟨skb.data ++ data.take dataLen, skb.tailroom - dataLen⟩

def addIdleCells (idle : List Octet) : Nat → Skb → Except Nat Skb
  | 0, skb => .ok skb
  | count + 1, skb =>
      match atmAddDataToSkb skb idle atmCellSize with
      | .error _ => .error 2
      | .ok skb => addIdleCells idle count skb

def emptySpace (skb : Skb) (idle : List Octet) : Int := idle.length - skb.data.length

def atmPadIdleCellsInTxSkb (skb : Skb) (idle : List Octet) : Except Nat Skb :=
  if (emptySpace skb idle).tmod atmCellSize ≠ 0 then .error 1
  else addIdleCells idle ((emptySpace skb idle).tdiv atmCellSize).toNat skb

abbrev Pending := List (List Octet)

/-- The loop over the cells. A cell is off the list before it is known to fit. -/
def fillCells : Nat → Skb → Pending → Option Skb × Pending
  | 0, txSkb, pending => (some txSkb, pending)
  | _ + 1, txSkb, [] => (some txSkb, [])
  | room + 1, txSkb, cell :: pending =>
      match atmAddDataToSkb txSkb cell cell.length with
      | .error _ => (none, pending)
      | .ok txSkb => fillCells room txSkb pending

def padCells (idle : List Octet) : Option Skb × Pending → Option Skb × Pending
  | (none, pending) => (none, pending)
  | (some txSkb, pending) =>
      match atmPadIdleCellsInTxSkb txSkb idle with
      | .error _ => (none, pending)
      | .ok txSkb => (some txSkb, pending)

def maxNumOfCellsFitInTxBuffer (idle : List Octet) : Nat := idle.length / atmCellSize

def atmTxSkbDequeue (slack : Option Nat) (pending : Pending) (idle : List Octet) :
    Option Skb × Pending :=
  if pending.length = 0 then (none, pending)
  else
    match wanSkbAlloc slack idle.length with
    | none => (none, pending)
    | some txSkb => padCells idle (fillCells (maxNumOfCellsFitInTxBuffer idle) txSkb pending)

section Property

def taken (pending : Pending) (idle : List Octet) : Nat :=
  min pending.length (maxNumOfCellsFitInTxBuffer idle)

/-- Idle cells are copies of the first cell of the idle buffer. -/
def idleCells (idle : List Octet) (count : Nat) : List Octet :=
  (List.replicate count (idle.take atmCellSize)).flatten

/-- Behind `init_atm_idle_buffer` these are cells with the idle header. -/
theorem idleCells_init {buff idle : List Octet} (init : initAtmIdleBuffer buff = some idle)
    (count : Nat) : idleCells idle count = (List.replicate count idleCell).flatten := by
  have cell : idle.take atmCellSize = idleCell := by
    unfold initAtmIdleBuffer at init
    split at init
    · cases init
    · rename_i some
      rw [Option.some.injEq] at init
      obtain ⟨others, many⟩ := Nat.exists_eq_succ_of_ne_zero some
      have size : idleCell.length = atmCellSize := rfl
      rw [← init, many, List.replicate_succ, List.flatten_cons, List.append_assoc, ← size,
        List.take_left]
  rw [idleCells, cell]

/-- The buffer is as long as the idle one, with the first cells and behind them idle cells only, and
just these are off the list. Without a buffer none is. -/
def NoCellLost (pending : Pending) (idle : List Octet) : Option Skb × Pending → Prop
  | (none, left) => left = pending
  | (some buffer, left) =>
      buffer.data.length = idle.length ∧
        (∃ count, buffer.data =
          (pending.take (taken pending idle)).flatten ++ idleCells idle count) ∧
        left = pending.drop (taken pending idle)

/-- Whole cells only, in the list up to where the buffer is full and in the idle buffer, unless
nothing is taken. -/
def Packable (slack : Option Nat) (pending : Pending) (idle : List Octet) : Prop :=
  pending = [] ∨ slack = none ∨ maxNumOfCellsFitInTxBuffer idle = 0 ∨
    atmCellSize ∣ idle.length ∧ ∀ cell ∈ pending.take (taken pending idle), cell.length = atmCellSize

end Property

section Steps

theorem atmAddDataToSkb_cell {skb : Skb} {data : List Octet} (fits : atmCellSize ≤ skb.tailroom) :
    atmAddDataToSkb skb data atmCellSize =
      .ok ⟨skb.data ++ data.take atmCellSize, skb.tailroom - atmCellSize⟩ := by
  unfold atmAddDataToSkb
  rw [if_neg (not_not.mpr rfl), if_neg (Nat.not_lt.mpr fits)]

theorem atmAddDataToSkb_other {skb : Skb} {data : List Octet} {dataLen : Nat}
    (other : dataLen ≠ atmCellSize) : atmAddDataToSkb skb data dataLen = .error 1 :=
  if_pos other

theorem addIdleCells_eq {idle : List Octet} {count : Nat} {skb : Skb}
    (fits : atmCellSize * count ≤ skb.tailroom) :
    addIdleCells idle count skb =
      .ok ⟨skb.data ++ idleCells idle count, skb.tailroom - atmCellSize * count⟩ := by
  induction count generalizing skb with
  | zero => simp [addIdleCells, idleCells]
  | succ count ih =>
      have one : atmCellSize ≤ skb.tailroom := by
        have least : atmCellSize * 1 ≤ atmCellSize * (count + 1) :=
          Nat.mul_le_mul_left _ (Nat.succ_le_succ (Nat.zero_le count))
        omega
      have rest : atmCellSize * count ≤ skb.tailroom - atmCellSize := by
        rw [Nat.mul_succ] at fits
        omega
      rw [addIdleCells, atmAddDataToSkb_cell one]
      dsimp only
      rw [ih rest]
      simp only [idleCells, List.replicate_succ, List.flatten_cons, List.append_assoc, Nat.mul_succ]
      rw [Nat.sub_sub, Nat.add_comm atmCellSize]

theorem emptySpace_eq {skb : Skb} {idle : List Octet} {count : Nat}
    (space : idle.length = skb.data.length + count) : emptySpace skb idle = count := by
  unfold emptySpace
  omega

theorem atmPadIdleCellsInTxSkb_whole {skb : Skb} {idle : List Octet} {count : Nat}
    (space : idle.length = skb.data.length + atmCellSize * count)
    (fits : atmCellSize * count ≤ skb.tailroom) :
    atmPadIdleCellsInTxSkb skb idle =
      .ok ⟨skb.data ++ idleCells idle count, skb.tailroom - atmCellSize * count⟩ := by
  have rest : (emptySpace skb idle).tmod atmCellSize = 0 := by
    rw [emptySpace_eq space, ← Int.ofNat_tmod, Nat.mul_mod_right]
    rfl
  have cells : ((emptySpace skb idle).tdiv atmCellSize).toNat = count := by
    rw [emptySpace_eq space, ← Int.ofNat_tdiv, Nat.mul_div_cancel_left _ (by decide)]
    rfl
  unfold atmPadIdleCellsInTxSkb
  rw [if_neg (not_not.mpr rest), cells, addIdleCells_eq fits]

theorem atmPadIdleCellsInTxSkb_rest {skb : Skb} {idle : List Octet} {space : Nat}
    (behind : idle.length = skb.data.length + space) (rest : ¬ atmCellSize ∣ space) :
    atmPadIdleCellsInTxSkb skb idle = .error 1 := by
  refine if_pos ?_
  rw [emptySpace_eq behind, ← Int.ofNat_tmod]
  exact fun none => rest (Nat.dvd_of_mod_eq_zero (Int.ofNat_eq_zero.mp none))

theorem flatten_cells {cells : Pending} (whole : ∀ cell ∈ cells, cell.length = atmCellSize) :
    cells.flatten.length = atmCellSize * cells.length := by
  induction cells with
  | nil => rfl
  | cons cell cells ih =>
      rw [List.flatten_cons, List.length_append, whole cell List.mem_cons_self,
        ih fun later member => whole later (List.mem_cons_of_mem cell member), List.length_cons,
        Nat.mul_succ, Nat.add_comm]

theorem fillCells_whole {room : Nat} {skb : Skb} {pending : Pending}
    (whole : ∀ cell ∈ pending.take room, cell.length = atmCellSize)
    (fits : atmCellSize * room ≤ skb.tailroom) :
    fillCells room skb pending =
      (some ⟨skb.data ++ (pending.take room).flatten,
        skb.tailroom - atmCellSize * (pending.take room).length⟩, pending.drop room) := by
  induction room generalizing skb pending with
  | zero => simp [fillCells]
  | succ room ih =>
      cases pending with
      | nil => simp [fillCells]
      | cons cell pending =>
          have size : cell.length = atmCellSize := whole cell List.mem_cons_self
          have one : atmCellSize ≤ skb.tailroom := by
            rw [Nat.mul_succ] at fits
            omega
          have rest : atmCellSize * room ≤ skb.tailroom - atmCellSize := by
            rw [Nat.mul_succ] at fits
            omega
          have all : cell.take atmCellSize = cell := List.take_of_length_le (Nat.le_of_eq size)
          rw [fillCells, size, atmAddDataToSkb_cell one, all]
          dsimp only
          rw [ih (fun later member => whole later (List.mem_cons_of_mem cell member)) rest]
          simp only [List.take_succ_cons, List.flatten_cons, List.append_assoc, List.drop_succ_cons,
            List.length_cons, Nat.mul_succ]
          rw [Nat.sub_sub, Nat.add_comm atmCellSize]

/-- The cells before the one of another size are gone, and this one too. -/
theorem fillCells_other {room : Nat} {pending : Pending} {cell : List Octet} (skb : Skb)
    (member : cell ∈ pending.take room) (other : cell.length ≠ atmCellSize) :
    ∃ left, fillCells room skb pending = (none, left) ∧ left.length < pending.length := by
  induction room generalizing skb pending with
  | zero => simp at member
  | succ room ih =>
      cases pending with
      | nil => simp at member
      | cons first pending =>
          cases added : atmAddDataToSkb skb first first.length with
          | error code =>
              refine ⟨pending, ?_, Nat.lt_succ_self _⟩
              rw [fillCells, added]
          | ok next =>
              have later : cell ∈ pending.take room := by
                rw [List.take_succ_cons] at member
                refine (List.mem_cons.mp member).resolve_left ?_
                rintro rfl
                rw [atmAddDataToSkb_other other] at added
                cases added
              obtain ⟨left, filled, fewer⟩ := ih next later
              refine ⟨left, ?_, Nat.lt_succ_of_lt fewer⟩
              rw [fillCells, added]
              exact filled

end Steps

section Dequeue

variable {pending : Pending} {idle : List Octet}

theorem atmTxSkbDequeue_some (more : Nat) (waiting : pending ≠ []) :
    atmTxSkbDequeue (some more) pending idle =
      padCells idle
        (fillCells (maxNumOfCellsFitInTxBuffer idle) ⟨[], idle.length + more⟩ pending) :=
  if_neg (mt List.length_eq_zero_iff.mp waiting)

theorem taken_eq_zero (none : maxNumOfCellsFitInTxBuffer idle = 0) : taken pending idle = 0 := by
  rw [taken, none, Nat.min_zero]

theorem take_taken : pending.take (taken pending idle) =
    pending.take (maxNumOfCellsFitInTxBuffer idle) := by
  rw [taken, Nat.min_comm, ← List.take_eq_take_min]

theorem drop_taken : pending.drop (taken pending idle) =
    pending.drop (maxNumOfCellsFitInTxBuffer idle) := by
  rcases Nat.le_total pending.length (maxNumOfCellsFitInTxBuffer idle) with few | many
  · rw [taken, Nat.min_eq_left few, List.drop_length, List.drop_of_length_le few]
  · rw [taken, Nat.min_eq_right many]

theorem cells_fit (idle : List Octet) (more : Nat) :
    atmCellSize * maxNumOfCellsFitInTxBuffer idle ≤ idle.length + more :=
  Nat.le_add_right_of_le (Nat.mul_div_le idle.length atmCellSize)

/-- Without room for a cell the list is not touched. -/
theorem NoCellLost.of_small (more : Nat) (waiting : pending ≠ [])
    (none : maxNumOfCellsFitInTxBuffer idle = 0) :
    NoCellLost pending idle (atmTxSkbDequeue (some more) pending idle) := by
  rw [atmTxSkbDequeue_some more waiting, none]
  change NoCellLost pending idle (padCells idle (some ⟨[], idle.length + more⟩, pending))
  have space : idle.length = ([] : List Octet).length + idle.length := (Nat.zero_add _).symm
  by_cases rest : atmCellSize ∣ idle.length
  · have empty : idle.length = 0 := by
      rw [← Nat.div_mul_cancel rest]
      change maxNumOfCellsFitInTxBuffer idle * atmCellSize = 0
      rw [none, Nat.zero_mul]
    have padded : atmPadIdleCellsInTxSkb ⟨[], idle.length + more⟩ idle =
        .ok ⟨[] ++ idleCells idle 0, idle.length + more - atmCellSize * 0⟩ :=
      atmPadIdleCellsInTxSkb_whole empty (Nat.zero_le _)
    rw [padCells, padded]
    refine ⟨empty.symm, ⟨0, ?_⟩, ?_⟩
    · rw [taken_eq_zero none]
      rfl
    · rw [taken_eq_zero none]
      rfl
  · rw [padCells, atmPadIdleCellsInTxSkb_rest space rest]
    rfl

theorem NoCellLost.of_whole (more : Nat) (waiting : pending ≠ []) (cells : atmCellSize ∣ idle.length)
    (whole : ∀ cell ∈ pending.take (taken pending idle), cell.length = atmCellSize) :
    NoCellLost pending idle (atmTxSkbDequeue (some more) pending idle) := by
  rw [take_taken] at whole
  rw [atmTxSkbDequeue_some more waiting, fillCells_whole whole (cells_fit idle more), List.nil_append]
  have filled := flatten_cells whole
  have count : (pending.take (maxNumOfCellsFitInTxBuffer idle)).length ≤
      maxNumOfCellsFitInTxBuffer idle := List.length_take_le _ _
  have full : idle.length = atmCellSize * maxNumOfCellsFitInTxBuffer idle :=
    (Nat.mul_div_cancel' cells).symm
  obtain ⟨empty, rest⟩ := Nat.exists_eq_add_of_le count
  have space : idle.length =
      (pending.take (maxNumOfCellsFitInTxBuffer idle)).flatten.length + atmCellSize * empty := by
    rw [filled, ← Nat.mul_add, ← rest]
    exact full
  rw [padCells, atmPadIdleCellsInTxSkb_whole space (by dsimp only; omega)]
  refine ⟨?_, ⟨empty, ?_⟩, drop_taken.symm⟩
  · have one : 0 < maxNumOfCellsFitInTxBuffer idle ∨ empty = 0 := by omega
    have size : (idleCells idle empty).length = atmCellSize * empty := by
      rcases one with one | none
      · have cell : (idle.take atmCellSize).length = atmCellSize := by
          have enough : atmCellSize * 1 ≤ atmCellSize * maxNumOfCellsFitInTxBuffer idle :=
            Nat.mul_le_mul_left _ one
          rw [List.length_take]
          omega
        rw [idleCells, flatten_cells fun other member => by rw [List.eq_of_mem_replicate member, cell],
          List.length_replicate]
      · rw [none]
        rfl
    rw [List.length_append, size]
    exact space.symm
  · rw [take_taken]

/-- A cell is lost in every other case. -/
theorem NoCellLost.packable {slack : Option Nat}
    (kept : NoCellLost pending idle (atmTxSkbDequeue slack pending idle)) :
    Packable slack pending idle := by
  by_cases waiting : pending = []
  · exact Or.inl waiting
  cases slack with
  | none => exact Or.inr (Or.inl rfl)
  | some more =>
      by_cases none : maxNumOfCellsFitInTxBuffer idle = 0
      · exact Or.inr (Or.inr (Or.inl none))
      refine Or.inr (Or.inr (Or.inr ?_))
      rw [atmTxSkbDequeue_some more waiting] at kept
      by_cases whole : ∀ cell ∈ pending.take (taken pending idle), cell.length = atmCellSize
      · refine ⟨?_, whole⟩
        by_contra rest
        rw [take_taken] at whole
        have space : idle.length = (pending.take (maxNumOfCellsFitInTxBuffer idle)).flatten.length +
            (idle.length - atmCellSize * (pending.take (maxNumOfCellsFitInTxBuffer idle)).length) := by
          have fits := cells_fit idle 0
          have count := Nat.mul_le_mul_left atmCellSize
            (List.length_take_le (maxNumOfCellsFitInTxBuffer idle) pending)
          rw [flatten_cells whole]
          omega
        have odd : ¬ atmCellSize ∣
            idle.length - atmCellSize * (pending.take (maxNumOfCellsFitInTxBuffer idle)).length := by
          intro even
          rw [flatten_cells whole] at space
          exact rest (space ▸ Nat.dvd_add (Nat.dvd_mul_right _ _) even)
        rw [fillCells_whole whole (cells_fit idle more), padCells,
          atmPadIdleCellsInTxSkb_rest space odd] at kept
        have fewer := congrArg List.length kept
        rw [List.length_drop] at fewer
        have some := List.length_pos_iff.mpr waiting
        omega
      · exfalso
        rw [take_taken] at whole
        push Not at whole
        obtain ⟨cell, member, other⟩ := whole
        obtain ⟨left, filled, fewer⟩ := fillCells_other ⟨[], idle.length + more⟩ member other
        rw [filled] at kept
        have same : left = pending := kept
        rw [same] at fewer
        exact Nat.lt_irrefl _ fewer

theorem atm_tx_skb_dequeue (slack : Option Nat) (pending : Pending) (idle : List Octet) :
    NoCellLost pending idle (atmTxSkbDequeue slack pending idle) ↔ Packable slack pending idle := by
  refine ⟨NoCellLost.packable, fun packable => ?_⟩
  by_cases waiting : pending = []
  · rw [waiting]
    exact rfl
  cases slack with
  | none =>
      have missing : atmTxSkbDequeue none pending idle = (none, pending) :=
        if_neg (mt List.length_eq_zero_iff.mp waiting)
      rw [missing]
      exact rfl
  | some more =>
      rcases packable with none | none | none | ⟨cells, whole⟩
      · exact absurd none waiting
      · cases none
      · exact NoCellLost.of_small more waiting none
      · exact NoCellLost.of_whole more waiting cells whole

/-- The whole cell in front of a shorter one is lost with it. -/
theorem atm_tx_skb_dequeue_short :
    ¬ NoCellLost [List.replicate 53 0, List.replicate 52 0] (List.replicate 106 0)
      (atmTxSkbDequeue (some 0) [List.replicate 53 0, List.replicate 52 0]
        (List.replicate 106 0)) := by
  have lost : atmTxSkbDequeue (some 0) [List.replicate 53 0, List.replicate 52 0]
      (List.replicate 106 0) = (none, []) := rfl
  rw [lost]
  intro same
  cases same

end Dequeue

end Wanpipe.Utils.Cells
