import Wanpipe.Runs
import Wanpipe.Shelf
import Wanpipe.Mtp1.TransmitBuffer

/-! Who owns the frames that `wp_mtp1_tx_data` took. The queues of the link are the places of a
shelf whose frames have names. -/

namespace Wanpipe.Mtp1

open Line Runs

/-- A frame under the number it was taken with. -/
abbrev Named := Nat × Skb

def sentItem : Entry Named → Option Dequeued
  | .took _ _ => none
  | .sent frame => some (.data frame.2)
  | .repeated frame => some (.repeated frame.2)
  | .idle => some .idle

/-- The queues of the link and what it dequeued, against a shelf. -/
structure Shelved (link : Link) (shelf : Shelf Named) : Prop where
  waiting : link.tbs.txQ = shelf.waiting.map Prod.snd
  again : link.tbs.txRQ = shelf.again.map Prod.snd
  discarded : link.tbs.txQDealloc = shelf.discarded.map Prod.snd
  dequeued : link.dequeued = shelf.entries.filterMap sentItem

theorem latestRepeat_eq (txRQ dealloc : List Skb) :
    latestRepeat txRQ dealloc = (txRQ.getLast?, dealloc ++ txRQ.dropLast) := by
  fun_induction latestRepeat txRQ dealloc with
  | case1 => simp
  | case2 => simp
  | case3 skb txRQ dealloc nonempty ih =>
      rw [ih]
      cases txRQ with
      | nil => exact absurd rfl nonempty
      | cons head tail => simp

/-- Writing to the line buffer leaves the queues alone. -/
structure Unqueued (before after : Link) : Prop where
  waiting : after.tbs.txQ = before.tbs.txQ
  again : after.tbs.txRQ = before.tbs.txRQ
  discarded : after.tbs.txQDealloc = before.tbs.txQDealloc
  dequeued : after.dequeued = before.dequeued

theorem putBits_kept (mode : OpMode) (bits : List Bool) (tbs : Tbs) :
    Tbs.Kept tbs (bits.foldl (Tbs.putBit mode) tbs) := by
  induction bits generalizing tbs with
  | nil => exact Tbs.Kept.refl tbs
  | cons bit bits ih => exact (Tbs.putBit_kept mode tbs bit).trans (ih _)

theorem suBitToTbs_kept (mode : OpMode) (tbs : Tbs) (bit : Bool) :
    Tbs.Kept tbs (Tbs.suBitToTbs mode tbs bit) := by
  cases bit with
  | false => exact Tbs.suZeroToTbs_kept mode tbs
  | true =>
      have counted := (Tbs.putBit_kept mode tbs true).trans
        (Tbs.ones_kept _ ((Tbs.putBit mode tbs true).cur1sBitCount + 1))
      unfold Tbs.suBitToTbs
      dsimp only
      split
      · exact counted.trans (Tbs.suZeroToTbs_kept mode _)
      · exact counted

theorem suOctetsToTbs_kept (cfg : Cfg) (octets : List Octet) (tbs : Tbs) :
    Tbs.Kept tbs (octets.foldl (suOctetToTbs cfg) tbs) := by
  have octet (bits : List Bool) (tbs : Tbs) :
      Tbs.Kept tbs (bits.foldl (Tbs.suBitToTbs cfg.hdlcOpMode) tbs) := by
    induction bits generalizing tbs with
    | nil => exact Tbs.Kept.refl tbs
    | cons bit bits ih => exact (suBitToTbs_kept _ tbs bit).trans (ih _)
  induction octets generalizing tbs with
  | nil => exact Tbs.Kept.refl tbs
  | cons first octets ih => exact (octet _ tbs).trans (ih _)

theorem daedTx_unqueued (link : Link) (buf : List Octet) (crc : Option (BitVec 16)) :
    Unqueued link (daedTx link buf crc) := by
  have opened := (Tbs.ones_kept link.tbs 0).trans (putBits_kept link.cfg.hdlcOpMode flag _)
  have filled := opened.trans (suOctetsToTbs_kept link.cfg buf _)
  cases crc with
  | none => exact ⟨filled.txQ, filled.txRQ, filled.txQDealloc, rfl⟩
  | some crc =>
      have closed := filled.trans (suOctetsToTbs_kept link.cfg (crcOctets crc) _)
      exact ⟨closed.txQ, closed.txRQ, closed.txQDealloc, rfl⟩

theorem sentItem_append (entries : List (Entry Named)) (entry : Entry Named) (item : Dequeued)
    (same : sentItem entry = some item) :
    (entries ++ [entry]).filterMap sentItem = entries.filterMap sentItem ++ [item] := by
  rw [List.filterMap_append, List.filterMap_cons_some same, List.filterMap_nil]

theorem sent_shelved {link after : Link} {shelf : Shelf Named} {frame : Named}
    {rest : List Named} (shelved : Shelved link shelf) (queue : shelf.waiting = frame :: rest)
    (kept : Unqueued (setQueues link (rest.map Prod.snd) link.tbs.txRQ link.tbs.txQDealloc)
      after) :
    Shelved (txDataDone after frame.2) shelf.send ∧
      (txDataDone after frame.2).dequeued = link.dequeued ++ [.data frame.2] := by
  have history : (txDataDone after frame.2).dequeued = link.dequeued ++ [.data frame.2] := by
    rw [txDataDone, kept.dequeued]
    rfl
  have sends : shelf.send =
      { shelf with
        waiting := rest
        discarded := shelf.discarded ++ [frame]
        entries := shelf.entries ++ [.sent frame] } := by
    simp only [Shelf.send, queue]
  refine ⟨?_, history⟩
  rw [sends]
  refine ⟨kept.waiting, kept.again.trans shelved.again, ?_, ?_⟩
  · rw [List.map_append, ← shelved.discarded]
    exact congrArg (· ++ [frame.2]) kept.discarded
  · rw [history, shelved.dequeued]
    exact (sentItem_append _ _ _ rfl).symm

theorem repeated_shelved {link after : Link} {shelf : Shelf Named} {frame : Named}
    (shelved : Shelved link shelf) (queue : shelf.waiting = [])
    (last : shelf.again.getLast? = some frame)
    (kept : Unqueued (setQueues link [] [] (link.tbs.txQDealloc ++ link.tbs.txRQ.dropLast))
      after) :
    Shelved (txRepeatDone after frame.2) shelf.send ∧
      (txRepeatDone after frame.2).dequeued = link.dequeued ++ [.repeated frame.2] := by
  have empty : after.tbs.txRQ = [] := kept.again
  have history : (txRepeatDone after frame.2).dequeued =
      link.dequeued ++ [.repeated frame.2] := by
    rw [txRepeatDone, kept.dequeued]
    rfl
  have sends : shelf.send =
      { shelf with
        again := [frame]
        discarded := shelf.discarded ++ shelf.again.dropLast
        entries := shelf.entries ++ [.repeated frame] } := by
    simp only [Shelf.send, queue, last]
  refine ⟨?_, history⟩
  rw [sends]
  have ends := txRepeatDone_empty after frame.2 empty
  refine ⟨?_, ?_, ?_, ?_⟩
  · rw [ends, queue]
    exact kept.waiting
  · rw [ends]
    rfl
  · rw [ends, List.map_append, ← shelved.discarded, List.map_dropLast, ← shelved.again]
    exact kept.discarded
  · rw [history, shelved.dequeued]
    exact (sentItem_append _ _ _ rfl).symm

theorem idle_shelved {link after : Link} {shelf : Shelf Named} (shelved : Shelved link shelf)
    (queue : shelf.waiting = []) (none_ : shelf.again.getLast? = none)
    (kept : Unqueued link after) :
    Shelved (txIdleDone after) shelf.send ∧
      (txIdleDone after).dequeued = link.dequeued ++ [.idle] := by
  have history : (txIdleDone after).dequeued = link.dequeued ++ [.idle] := by
    rw [txIdleDone, kept.dequeued]
  have sends : shelf.send = { shelf with entries := shelf.entries ++ [.idle] } := by
    simp only [Shelf.send, queue, none_]
  refine ⟨?_, history⟩
  rw [sends]
  refine ⟨kept.waiting.trans shelved.waiting, kept.again.trans shelved.again,
    kept.discarded.trans shelved.discarded, ?_⟩
  rw [history, shelved.dequeued]
  exact (sentItem_append _ _ _ rfl).symm

/-- One pass of the encoding loop sends what the shelf sends. -/
theorem txEncodeNext_shelved {link : Link} {shelf : Shelf Named} (shelved : Shelved link shelf) :
    Shelved (txEncodeNext link) shelf.send ∧
      ∃ item, (txEncodeNext link).dequeued = link.dequeued ++ [item] := by
  have waiting := shelved.waiting
  have again := shelved.again
  cases queue : shelf.waiting with
  | cons frame rest =>
      rw [queue, List.map_cons] at waiting
      have step : txEncodeNext link = txDataDone (txEncodeSkb (setQueues link
          (rest.map Prod.snd) link.tbs.txRQ link.tbs.txQDealloc) frame.2) frame.2 := by
        simp only [txEncodeNext, waiting]
      have sent := sent_shelved shelved queue (daedTx_unqueued _ frame.2.data
        (some (frame.2.csum.setWidth 16)))
      rw [step]
      exact ⟨sent.1, _, sent.2⟩
  | nil =>
      rw [queue, List.map_nil] at waiting
      cases last : shelf.again.getLast? with
      | none =>
          have empty : link.tbs.txRQ = [] := by
            rw [again, List.getLast?_eq_none_iff.mp last, List.map_nil]
          have step : txEncodeNext link = txIdleDone (daedTx link [] none) := by
            simp only [txEncodeNext, waiting, empty, if_true]
          have sent := idle_shelved shelved queue last (daedTx_unqueued link [] none)
          rw [step]
          exact ⟨sent.1, _, sent.2⟩
      | some frame =>
          have newest : link.tbs.txRQ.getLast? = some frame.2 := by
            rw [again, List.getLast?_map, last]
            rfl
          have some_ : link.tbs.txRQ ≠ [] := by
            intro none_
            simp [none_] at newest
          have step : txEncodeNext link = txRepeatDone (txEncodeSkb (setQueues link [] []
              (link.tbs.txQDealloc ++ link.tbs.txRQ.dropLast)) frame.2) frame.2 := by
            simp only [txEncodeNext, waiting, some_, if_false, latestRepeat_eq, newest]
          have sent := repeated_shelved shelved queue last (daedTx_unqueued _ frame.2.data
            (some (frame.2.csum.setWidth 16)))
          rw [step]
          exact ⟨sent.1, _, sent.2⟩

theorem txFill_shelved (fuel : Nat) (link next : Link) (mtu : Nat) (shelf : Shelf Named)
    (shelved : Shelved link shelf) (filled : txFill fuel link mtu = some next) :
    ∃ n, next.dequeued.length = link.dequeued.length + n ∧
      Shelved next (Shelf.send^[n] shelf) := by
  induction fuel generalizing link shelf with
  | zero =>
      rw [txFill] at filled
      split at filled
      · contradiction
      · rw [Option.some.injEq] at filled
        rw [← filled]
        exact ⟨0, rfl, shelved⟩
  | succ fuel ih =>
      rw [txFill] at filled
      split at filled
      · rcases txEncodeNext_shelved shelved with ⟨sent, item, more⟩
        rcases ih _ _ sent filled with ⟨n, size, rest⟩
        refine ⟨n + 1, ?_, rest⟩
        rw [size, more, List.length_append, List.length_singleton]
        omega
      · rw [Option.some.injEq] at filled
        rw [← filled]
        exact ⟨0, rfl, shelved⟩

theorem txMove_queues (tbs : Tbs) (mtu : Nat) :
    (txMove tbs mtu).txQ = tbs.txQ ∧ (txMove tbs mtu).txRQ = tbs.txRQ ∧
      (txMove tbs mtu).txQDealloc = tbs.txQDealloc := by
  unfold txMove
  dsimp only
  split <;> exact ⟨rfl, rfl, rfl⟩

theorem wpMtp1TxBhHandler_shelved {fuel mtu : Nat} {link next : Link} {data : List Octet}
    {shelf : Shelf Named} (shelved : Shelved link shelf)
    (ran : wpMtp1TxBhHandler fuel link mtu = some (next, data)) :
    ∃ n, next.dequeued.length = link.dequeued.length + n ∧
      Shelved next (Shelf.send^[n] shelf) := by
  unfold wpMtp1TxBhHandler at ran
  split at ran
  · contradiction
  · rename_i filled fill
    simp only [Option.some.injEq, Prod.mk.injEq] at ran
    rcases txFill_shelved fuel link filled mtu shelf shelved fill with ⟨n, size, sent⟩
    have queues := txMove_queues (txTake filled.tbs mtu).1 mtu
    rw [← ran.1]
    exact ⟨n, size, queues.1.trans sent.waiting, queues.2.1.trans sent.again,
      queues.2.2.trans sent.discarded, sent.dequeued⟩

theorem wpMtp1TxData_shelved {link : Link} {shelf : Shelf Named} (skb : List Octet)
    (rskb : Option (List Octet)) (name again : Nat) (shelved : Shelved link shelf) :
    (wpMtp1TxData link skb rskb).2 = 0 ∧
        Shelved (wpMtp1TxData link skb rskb).1
          (shelf.take (name, csumSkb skb) (rskb.map fun data => (again, csumSkb data))) ∨
      (wpMtp1TxData link skb rskb).2 = 1 ∧ (wpMtp1TxData link skb rskb).1 = link := by
  have history := shelved.dequeued
  unfold wpMtp1TxData
  split
  · exact Or.inr ⟨rfl, rfl⟩
  · left
    cases rskb with
    | none =>
        refine ⟨rfl, ?_, ?_, shelved.discarded, ?_⟩
        · simp [Shelf.take, shelved.waiting]
        · simpa [Shelf.take] using shelved.again
        · simpa [Shelf.take, sentItem, List.filterMap_cons] using history
    | some data =>
        refine ⟨rfl, ?_, ?_, shelved.discarded, ?_⟩
        · simp [Shelf.take, shelved.waiting]
        · simp [Shelf.take, shelved.again]
        · simpa [Shelf.take, sentItem, List.filterMap_cons] using history

theorem pollLoop_eq (loops : Nat) (txQDealloc : List Skb) :
    pollLoop loops txQDealloc = (txQDealloc.take loops, txQDealloc.drop loops) := by
  fun_induction pollLoop loops txQDealloc with
  | case1 => simp
  | case2 => simp
  | case3 loops skb txQDealloc ih => simp [ih]

theorem wpMtp1Poll_shelved {link : Link} {shelf : Shelf Named} (shelved : Shelved link shelf) :
    Shelved (wpMtp1Poll link).1 (shelf.free 200) ∧
      (wpMtp1Poll link).2 = (shelf.discarded.take 200).map Prod.snd := by
  have discarded := shelved.discarded
  simp only [wpMtp1Poll, pollLoop_eq]
  refine ⟨⟨shelved.waiting, shelved.again, ?_, shelved.dequeued⟩, ?_⟩
  · simp only [setQueues, Shelf.free, discarded, List.map_drop]
  · rw [discarded, List.map_take]

inductive OwnerOp
  | txData (skb : List Octet) (rskb : Option (List Octet))
  | txBh (mtu : Nat)
  | poll
  deriving DecidableEq, Repr

/-- A link with the shelf of the frames it took and the frames it freed. -/
structure Owner where
  link : Link
  shelf : Shelf Named
  freed : List Skb

def Owner.start (link : Link) : Owner := ⟨link, Shelf.empty, []⟩

def takenFrames (shelf : Shelf Named) : List Named := shelf.entries.flatMap Entry.frames

def ownerStep (fuel : Nat) (owner : Owner) : OwnerOp → Option Owner
  | .txData skb rskb =>
      let (link, err) := wpMtp1TxData owner.link skb rskb
      let name := (takenFrames owner.shelf).length
      if err = 0 then
        some
          { owner with
            link := link
            shelf := owner.shelf.take (name, csumSkb skb)
              (rskb.map fun data => (name + 1, csumSkb data)) }
      else some { owner with link := link }
  | .txBh mtu =>
      (wpMtp1TxBhHandler fuel owner.link mtu).map fun (link, _) =>
        { owner with
          link := link
          shelf := Shelf.send^[link.dequeued.length - owner.link.dequeued.length] owner.shelf }
  | .poll =>
      let (link, freed) := wpMtp1Poll owner.link
      some { link := link, shelf := owner.shelf.free 200, freed := owner.freed ++ freed }

/-- The link's queues are the places of its shelf, under names of their own. -/
structure Owned (owner : Owner) : Prop where
  shelved : Shelved owner.link owner.shelf
  freed : owner.freed = owner.shelf.freed.map Prod.snd
  kept : owner.shelf.Kept
  names : (takenFrames owner.shelf).map Prod.fst = List.range (takenFrames owner.shelf).length

theorem takenFrames_send (shelf : Shelf Named) : takenFrames shelf.send = takenFrames shelf := by
  unfold Shelf.send
  split
  · simp [takenFrames]
  · split <;> simp [takenFrames]

theorem sends_kept (n : Nat) (shelf : Shelf Named) (kept : shelf.Kept) :
    (Shelf.send^[n] shelf).Kept ∧ (Shelf.send^[n] shelf).freed = shelf.freed ∧
      takenFrames (Shelf.send^[n] shelf) = takenFrames shelf := by
  have freed (shelf : Shelf Named) : shelf.send.freed = shelf.freed := by
    unfold Shelf.send
    split
    · rfl
    · split <;> rfl
  induction n generalizing shelf with
  | zero => exact ⟨kept, rfl, rfl⟩
  | succ n ih =>
      rcases ih shelf.send (Shelf.send_kept kept) with ⟨all, same, taken⟩
      exact ⟨all, same.trans (freed shelf), taken.trans (takenFrames_send shelf)⟩

theorem take_names (shelf : Shelf Named) (skb : Skb) (rskb : Option Skb)
    (names : (takenFrames shelf).map Prod.fst = List.range (takenFrames shelf).length) :
    (takenFrames (shelf.take ((takenFrames shelf).length, skb)
        (rskb.map fun skb => ((takenFrames shelf).length + 1, skb)))).map Prod.fst =
      List.range (takenFrames (shelf.take ((takenFrames shelf).length, skb)
        (rskb.map fun skb => ((takenFrames shelf).length + 1, skb)))).length := by
  have grown (again : Option Named) : takenFrames (shelf.take ((takenFrames shelf).length, skb)
      again) = takenFrames shelf ++ ((takenFrames shelf).length, skb) :: again.toList := by
    simp [takenFrames, Shelf.take]
  rw [grown]
  cases rskb with
  | none => simp [names, List.range_succ]
  | some rskb => simp [names, List.range_succ]

theorem ownerStep_owned {fuel : Nat} {owner next : Owner} {op : OwnerOp} (owned : Owned owner)
    (stepped : ownerStep fuel owner op = some next) : Owned next := by
  cases op with
  | txData skb rskb =>
      simp only [ownerStep] at stepped
      rcases wpMtp1TxData_shelved skb rskb (takenFrames owner.shelf).length
        ((takenFrames owner.shelf).length + 1) owned.shelved with ⟨ok, shelved⟩ | ⟨full, same⟩
      · rw [if_pos ok, Option.some.injEq] at stepped
        rw [← stepped]
        have names := take_names owner.shelf (csumSkb skb) (rskb.map csumSkb) owned.names
        rw [Option.map_map] at names
        exact ⟨shelved, owned.freed, Shelf.take_kept owned.kept _ _, names⟩
      · have busy : ¬ (wpMtp1TxData owner.link skb rskb).2 = 0 := by
          rw [full]
          decide
        rw [if_neg busy, Option.some.injEq, same] at stepped
        rw [← stepped]
        exact owned
  | txBh mtu =>
      obtain ⟨⟨link, data⟩, ran, rfl⟩ := Option.map_eq_some_iff.mp stepped
      rcases wpMtp1TxBhHandler_shelved owned.shelved ran with ⟨n, size, shelved⟩
      have count : link.dequeued.length - owner.link.dequeued.length = n := by omega
      rcases sends_kept n owner.shelf owned.kept with ⟨kept, freed, taken⟩
      dsimp only
      rw [count]
      refine ⟨shelved, owned.freed.trans (congrArg _ freed.symm), kept, ?_⟩
      dsimp only
      rw [taken]
      exact owned.names
  | poll =>
      simp only [ownerStep, Option.some.injEq] at stepped
      rcases wpMtp1Poll_shelved owned.shelved with ⟨shelved, freed⟩
      rw [← stepped]
      refine ⟨shelved, ?_, Shelf.free_kept owned.kept 200, owned.names⟩
      simp only [Shelf.free, List.map_append, ← owned.freed, freed]

theorem start_owned (reg : Reg) (link : Link) (registered : wpMtp1Register reg = some link) :
    Owned (Owner.start link) := by
  unfold wpMtp1Register at registered
  split at registered
  · contradiction
  · rw [Option.some.injEq] at registered
    subst registered
    exact ⟨⟨rfl, rfl, rfl, rfl⟩, rfl, Shelf.kept_empty, rfl⟩

/-- Whatever the calls, every frame taken is in one place: waiting, kept to be repeated, to be
freed or freed. The data frames went out once each and in order up to those that wait, and a
repeat was of the newest repeat frame with nothing waiting. A call of `wp_mtp1_tx_data` takes its
frames and returns 0, or it changes nothing and returns 1. -/
theorem mtp1_tx_conserved (reg : Reg) (link : Link) (registered : wpMtp1Register reg = some link)
    (fuel : Nat) (ops : List OwnerOp) (last : Owner)
    (ran : run (ownerStep fuel) (Owner.start link) ops = some last) :
    Owned last ∧ (last.shelf.places.map Prod.fst).Nodup ∧
      ∀ skb rskb, (wpMtp1TxData last.link skb rskb).2 = 0 ∨
        (wpMtp1TxData last.link skb rskb).2 = 1 ∧ (wpMtp1TxData last.link skb rskb).1 = last.link := by
  have steps : ∀ (owner : Owner) (op : OwnerOp) (next : Owner), Owned owner → True →
      ownerStep fuel owner op = some next → Owned next :=
    fun _ _ _ owned _ stepped => ownerStep_owned owned stepped
  have always : Along (ownerStep fuel) (fun _ _ => True) (Owner.start link) ops :=
    Along.of_forall _ ops fun _ _ => trivial
  have owned := Along.kept steps (start_owned reg link registered) always ran
  refine ⟨owned, ?_, ?_⟩
  · have names := owned.kept.places.map Prod.fst
    have taken : (last.shelf.entries.flatMap Entry.frames).map Prod.fst =
        List.range (takenFrames last.shelf).length := owned.names
    rw [names.nodup_iff, taken]
    exact List.nodup_range
  · intro skb rskb
    rcases wpMtp1TxData_shelved skb rskb 0 0 owned.shelved with ⟨ok, _⟩ | full
    · exact Or.inl ok
    · exact Or.inr full

def ownerReg : Reg := ⟨true, true, false, ⟨.hdlc8Bit, .bit0First, 16, 280⟩⟩

def ownerOps : List OwnerOp :=
  [.txData [1#8] (some [2#8]), .txData [3#8] (some [4#8]), .txBh 24, .poll, .txData [5#8] none]

theorem mtp1_tx_conserved_run :
    ∃ link last, wpMtp1Register ownerReg = some link ∧
      run (ownerStep 24) (Owner.start link) ownerOps = some last ∧ Owned last ∧
      last.shelf.waiting = [(4, csumSkb [5#8])] ∧ last.shelf.again = [(3, csumSkb [4#8])] ∧
      last.shelf.freed = [(0, csumSkb [1#8]), (2, csumSkb [3#8]), (1, csumSkb [2#8])] := by
  have ran : ∃ link, wpMtp1Register ownerReg = some link ∧
      (run (ownerStep 24) (Owner.start link) ownerOps).map
          (fun last => (last.shelf.waiting, last.shelf.again, last.shelf.freed)) =
        some ([(4, csumSkb [5#8])], [(3, csumSkb [4#8])],
          [(0, csumSkb [1#8]), (2, csumSkb [3#8]), (1, csumSkb [2#8])]) :=
    ⟨_, rfl, by decide +kernel⟩
  rcases ran with ⟨link, registered, ran⟩
  obtain ⟨last, ran, places⟩ := Option.map_eq_some_iff.mp ran
  simp only [Prod.mk.injEq] at places
  have owned := (mtp1_tx_conserved ownerReg link registered 24 ownerOps last ran).1
  exact ⟨link, last, registered, ran, owned, places⟩

end Wanpipe.Mtp1
