import Wanpipe.TdmApi.Stream

/-! The transmit side of a channelized device, and both streams over runs. -/

namespace Wanpipe.TdmApi

open Line Runs

/-- The payloads that wait have bytes, and the one that is being sent consists of whole chunks. -/
structure Ready (len : Nat) (dev : Dev) : Prop where
  current : ∀ data ∈ dev.txSkb, good len data = true
  some : ∀ data ∈ waiting dev, data ≠ []

/-- What a call puts on the line. -/
inductive Puts (len : Nat) (dev next : Dev) (chunk : List Octet) : Prop
  | idle (fill : sentIdle dev next = true) (none : waiting dev = []) (left : waiting next = [])
  | refused (fill : sentIdle dev next = true) (data : List Octet)
      (first : waiting dev = data :: waiting next) (bad : good len data = false)
  | data (sends : sentIdle dev next = false) (data : List Octet) (rest : List (List Octet))
      (first : waiting dev = data :: rest) (fits : good len data = true)
      (front : chunk = data.take len)
      (left : waiting next = if data.drop len = [] then rest else data.drop len :: rest)

variable {len : Nat} {dev : Dev}

theorem good_length {data : List Octet} (fits : good len data = true) (some : data ≠ []) :
    len ≤ data.length := by
  have whole : len ∣ data.length := Nat.dvd_of_mod_eq_zero (beq_iff_eq.mp fits)
  exact Nat.le_of_dvd (List.length_pos_iff.mpr some) whole

theorem good_drop {data : List Octet} (fits : good len data = true) :
    good len (data.drop len) = true := by
  have whole : len ∣ data.length := Nat.dvd_of_mod_eq_zero (beq_iff_eq.mp fits)
  rw [good, List.length_drop, beq_iff_eq]
  exact Nat.mod_eq_zero_of_dvd (Nat.dvd_sub whole (Nat.dvd_refl len))

/-- A chunk of a payload of whole chunks. -/
theorem txSend_good (dev : Dev) {data : List Octet} (fits : good len data = true) (some : data ≠ []) :
    let sent := txSend dev data len
    sent.1 = data.take len ∧ sent.2.txList = dev.txList ∧
      sent.2.txSkb = (if data.drop len = [] then none else Option.some (data.drop len)) ∧
      sent.2.cfg.stats.txIdlePackets = dev.cfg.stats.txIdlePackets := by
  have long : ¬ data.length < len := Nat.not_lt.mpr (good_length fits some)
  simp only [txSend, if_neg long]
  split <;> exact ⟨rfl, rfl, rfl, rfl⟩

theorem waiting_sent {next : Dev} {data : List Octet} {list : List Skb}
    (skb : next.txSkb = if data.drop len = [] then none else some (data.drop len))
    (queue : next.txList = list) :
    waiting next =
      if data.drop len = [] then list.map payload else data.drop len :: list.map payload := by
  rw [waiting, skb, queue]
  split <;> rfl

theorem channelizedTx_puts (streaming : Streaming dev) (ready : Ready len dev)
    {txData : List Octet} (chunk : txData.length = len) :
    Puts len dev (wanpipeTdmApiChannelizedTx dev txData).2
      (wanpipeTdmApiChannelizedTx dev txData).1 := by
  have enabled : ¬ dev.cfg.txDisable = true := by simp [streaming.txDisable]
  have counts (count : Nat) : (count + 1 != count) = true := by simp
  simp only [wanpipeTdmApiChannelizedTx, if_neg enabled, chunk]
  cases current : dev.txSkb with
  | some data =>
      have fits := ready.current data (by rw [current]; rfl)
      have first : waiting dev = data :: dev.txList.map payload := by rw [waiting, current]; rfl
      have some := ready.some data (by rw [first]; exact List.mem_cons_self)
      rcases txSend_good dev fits some with ⟨front, queue, skb, idle⟩
      exact .data (by simp [sentIdle, idle]) data _ first fits front (waiting_sent skb queue)
  | none =>
      cases queue : dev.txList with
      | nil =>
          have none : waiting dev = [] := by rw [waiting, current, queue]; rfl
          exact .idle (counts _) none none
      | cons skb skbs =>
          have first : waiting dev = payload skb :: skbs.map payload := by
            rw [waiting, current, queue]
            rfl
          have some := ready.some (payload skb) (by rw [first]; exact List.mem_cons_self)
          simp only
          split
          · next bad =>
              exact .refused (counts _) (payload skb) first (beq_eq_false_iff_ne.mpr bad)
          · next whole =>
              have fits : good len (payload skb) = true := beq_iff_eq.mpr (not_not.mp whole)
              rcases txSend_good (txTake dev skb skbs) fits some with
                ⟨front, left, rest, idle⟩
              have same : (txTake dev skb skbs).cfg = dev.cfg := rfl
              rw [same] at idle
              exact .data (by simp [sentIdle, idle]) (payload skb) _ first fits front
                (waiting_sent rest left)

theorem SameTx.waiting {next : Dev} (same : SameTx dev next) : waiting next = waiting dev := by
  rw [TdmApi.waiting, TdmApi.waiting, same.txSkb, same.txList]

theorem SameTx.ready {next : Dev} (same : SameTx dev next) (ready : Ready len dev) :
    Ready len next := by
  constructor
  · rw [same.txSkb]
    exact ready.current
  · rw [same.waiting]
    exact ready.some

theorem Puts.after {next last : Dev} {chunk : List Octet} (same : SameTx dev next)
    (puts : Puts len next last chunk) : Puts len dev last chunk := by
  have idle : sentIdle next last = sentIdle dev last := by rw [sentIdle, sentIdle, same.idle]
  cases puts with
  | idle fill none left => exact .idle (idle ▸ fill) (same.waiting ▸ none) left
  | refused fill data first bad => exact .refused (idle ▸ fill) data (same.waiting ▸ first) bad
  | data sends data rest first fits front left =>
      exact .data (idle ▸ sends) data rest (same.waiting ▸ first) fits front left

theorem rxTx_puts (streaming : Streaming dev) (ready : Ready len dev) (some : 0 < len)
    {rxData txData : List Octet} (rxLen : rxData.length = len) (txLen : txData.length = len)
    (now : Time) :
    let sent := wanpipeTdmApiRxTx dev rxData txData now
    Puts len dev sent.2 sent.1 := by
  have full : rxData.length ≠ 0 := by omega
  have heard := channelizedRx_tx dev rxData now
  simp only [rxTx_eq streaming full]
  exact (channelizedTx_puts (heard.set.streaming streaming) (heard.ready ready) txLen).after heard

/-- The payload that is being sent stays one of whole chunks. -/
theorem channelizedTx_current (streaming : Streaming dev) (ready : Ready len dev)
    {txData : List Octet} (chunk : txData.length = len) :
    ∀ data ∈ (wanpipeTdmApiChannelizedTx dev txData).2.txSkb, good len data = true := by
  have enabled : ¬ dev.cfg.txDisable = true := by simp [streaming.txDisable]
  have rest (from' : Dev) {data : List Octet} (fits : good len data = true) (some : data ≠ []) :
      ∀ later ∈ (txSend from' data len).2.txSkb, good len later = true := by
    rcases txSend_good from' fits some with ⟨-, -, skb, -⟩
    rw [skb]
    intro later member
    split at member
    · cases member
    · rw [← Option.mem_some_iff.mp member]
      exact good_drop fits
  simp only [wanpipeTdmApiChannelizedTx, if_neg enabled, chunk]
  cases current : dev.txSkb with
  | some data =>
      have fits := ready.current data (by rw [current]; rfl)
      exact rest dev fits (ready.some data (by simp [waiting, current]))
  | none =>
      cases queue : dev.txList with
      | nil =>
          intro data member
          rw [addStats, current] at member
          cases member
      | cons skb skbs =>
          simp only
          split
          · intro data member
            cases member
          · next whole =>
              exact rest _ (beq_iff_eq.mpr (not_not.mp whole))
                (ready.some (payload skb) (by simp [waiting, current, queue]))

theorem Puts.some {next : Dev} {chunk : List Octet} (puts : Puts len dev next chunk)
    (ready : Ready len dev) : ∀ data ∈ waiting next, data ≠ [] := by
  cases puts with
  | idle fill none left =>
      rw [left]
      simp
  | refused fill data first bad =>
      intro other member
      apply ready.some other
      rw [first]
      exact List.mem_cons_of_mem data member
  | data sends data rest first fits front left =>
      rw [left]
      have later : ∀ other ∈ rest, other ≠ [] := fun other member =>
        ready.some other (by rw [first]; exact List.mem_cons_of_mem data member)
      split
      · exact later
      · next more =>
          intro other member
          rcases List.mem_cons.mp member with here | old
          · rw [here]
            exact more
          · exact later other old

theorem wanted_cons (len : Nat) (data : List Octet) (rest : List (List Octet)) :
    wanted len (data :: rest) = (if good len data then data else []) ++ wanted len rest := by
  by_cases fits : good len data = true
  · simp [wanted, fits]
  · simp [wanted, fits]

theorem wanted_append (len : Nat) (left right : List (List Octet)) :
    wanted len (left ++ right) = wanted len left ++ wanted len right := by
  simp [wanted]

/-- What a call puts on the line is the front of what is wanted there. -/
theorem Puts.wanted {next : Dev} {chunk : List Octet} (puts : Puts len dev next chunk) :
    wanted len (waiting dev) =
      (if sentIdle dev next then [] else chunk) ++ wanted len (waiting next) := by
  cases puts with
  | idle fill none left => rw [fill, none, left, if_pos rfl, List.nil_append]
  | refused fill data first bad =>
      rw [fill, first, wanted_cons, bad]
      rfl
  | data sends data rest first fits front left =>
      rw [sends, first, wanted_cons, fits, left, front]
      simp only [if_true, Bool.false_eq_true, if_false]
      split
      · next none =>
          calc
            data ++ TdmApi.wanted len rest = data.take len ++ data.drop len ++ _ := by
              rw [List.take_append_drop]
            _ = data.take len ++ TdmApi.wanted len rest := by rw [none, List.append_nil]
      · calc
          data ++ TdmApi.wanted len rest = data.take len ++ data.drop len ++ _ := by
            rw [List.take_append_drop]
          _ = data.take len ++ TdmApi.wanted len (data.drop len :: rest) := by
            rw [wanted_cons, good_drop fits, List.append_assoc]
            rfl

/-- A write that is accepted is queued as it is. -/
theorem write_view (streaming : Streaming dev) (skb : Skb) :
    let result := wpTdmapiWriteMsg dev skb
    result.2.txSkb = dev.txSkb ∧
      if result.1.err = 0 then hdrSz < skb.length ∧ result.2.txList = dev.txList ++ [skb]
      else result.2.txList = dev.txList := by
  have open' : ¬ (!dev.init || !dev.used) = true := by simp [streaming.init, streaming.used]
  have up : ¬ dev.down = true := by simp [streaming.down]
  simp only [wpTdmapiWriteMsg, if_neg open', if_neg up]
  split
  · exact ⟨rfl, rfl⟩
  · next long =>
      simp only [writeChan]
      split
      · exact ⟨rfl, rfl⟩
      · split
        · exact ⟨rfl, rfl⟩
        · have gain : wpTdmapiSetGain skb dev.txGain = skb := by
            rw [streaming.txGain, wpTdmapiSetGain]
          rw [gain]
          exact ⟨rfl, Nat.lt_of_not_le long, rfl⟩

/-- The accepted payloads are on the line or wait, in their order. -/
structure Sends (len : Nat) (stream : Stream) : Prop where
  sent : wanted len stream.accepted = stream.sent ++ wanted len (waiting stream.dev)
  queued : stream.dev.txList.map payload <:+ stream.accepted
  ready : Ready len stream.dev

variable {stream : Stream}

theorem waiting_same {next : Dev} (skb : next.txSkb = dev.txSkb) (queue : next.txList = dev.txList) :
    waiting next = waiting dev := by
  rw [waiting, waiting, skb, queue]

theorem txSend_queue (dev : Dev) (skb : Skb) (len : Nat) :
    (txSend dev skb len).2.txList = dev.txList := by
  rw [txSend]
  split
  · rfl
  · split <;> rfl

theorem channelizedTx_queue (dev : Dev) (txData : List Octet) :
    (wanpipeTdmApiChannelizedTx dev txData).2.txList <:+ dev.txList := by
  simp only [wanpipeTdmApiChannelizedTx]
  split
  · exact List.suffix_refl _
  · split
    · simp [txSend_queue]
    · exact List.suffix_refl _
    · next skb skbs current queue =>
        rw [queue]
        split
        · exact List.suffix_cons skb skbs
        · rw [txSend_queue]
          exact List.suffix_cons skb skbs

theorem Sends.rxTx (sends : Sends len stream) (streaming : Streaming stream.dev) (some : 0 < len)
    {rxData txData : List Octet} (rxLen : rxData.length = len) (txLen : txData.length = len)
    (now : Time) : Sends len (streamStep stream (.rxTx rxData txData now)) := by
  have puts := rxTx_puts streaming sends.ready some rxLen txLen now
  have full : rxData.length ≠ 0 := by omega
  have heard := channelizedRx_tx stream.dev rxData now
  have moved : (streamStep stream (.rxTx rxData txData now)).dev =
      (wanpipeTdmApiChannelizedTx (wanpipeTdmApiChannelizedRx stream.dev rxData now) txData).2 :=
    congrArg Prod.snd (rxTx_eq streaming full txData now)
  constructor
  · calc
      wanted len stream.accepted = stream.sent ++ wanted len (waiting stream.dev) := sends.sent
      _ = stream.sent ++ (_ ++ _) := congrArg (stream.sent ++ ·) puts.wanted
      _ = _ := (List.append_assoc _ _ _).symm
  · rw [moved]
    have queue := (channelizedTx_queue (wanpipeTdmApiChannelizedRx stream.dev rxData now) txData).map
      payload
    rw [heard.txList] at queue
    exact queue.trans sends.queued
  · refine ⟨?_, puts.some sends.ready⟩
    rw [moved]
    exact channelizedTx_current (heard.set.streaming streaming) (heard.ready sends.ready) txLen

theorem read_tx (streaming : Streaming dev) (channelized : Channelized dev) {count : Int}
    {errors : BitVec 32} (fits : ReadFits dev (.read count errors)) :
    SameTx dev (wpTdmapiReadMsg dev count true errors).2 := by
  have view := read_view streaming channelized fits
  cases queue : dev.rxList with
  | nil =>
      simp only [queue] at view
      rw [view.2]
      exact SameTx.refl dev
  | cons skb skbs =>
      simp only [queue] at view
      rw [view.2]
      exact ⟨⟨rfl, rfl, rfl, rfl, rfl, rfl, rfl, rfl, rfl, rfl, rfl⟩, rfl, rfl, rfl⟩

theorem Sends.read (sends : Sends len stream) (streaming : Streaming stream.dev)
    (channelized : Channelized stream.dev) {count : Int} {errors : BitVec 32}
    (fits : ReadFits stream.dev (.read count errors)) :
    Sends len (streamStep stream (.read count errors)) := by
  have same : SameTx stream.dev (streamStep stream (.read count errors)).dev :=
    read_tx streaming channelized fits
  constructor
  · rw [same.waiting]
    exact sends.sent
  · rw [same.txList]
    exact sends.queued
  · exact same.ready sends.ready

theorem Sends.write (sends : Sends len stream) (streaming : Streaming stream.dev) (skb : Skb) :
    Sends len (streamStep stream (.write skb)) := by
  rcases write_view streaming skb with ⟨current, queue⟩
  simp only [streamStep, chanStep, StreamOp.toChan]
  generalize wpTdmapiWriteMsg stream.dev skb = result at current queue ⊢
  split at queue
  · next accepted =>
      rcases queue with ⟨long, queue⟩
      rw [if_pos accepted]
      have waits : waiting result.2 = waiting stream.dev ++ [payload skb] := by
        rw [waiting, waiting, current, queue, List.map_append, List.append_assoc]
        rfl
      constructor
      · simp only [waits, wanted_append, sends.sent, List.append_assoc]
      · simp only [queue, List.map_append]
        rcases sends.queued with ⟨gone, same⟩
        exact ⟨gone, by rw [← same, List.append_assoc]; rfl⟩
      · constructor
        · rw [current]
          exact sends.ready.current
        · rw [waits]
          intro data member
          rcases List.mem_append.mp member with old | new
          · exact sends.ready.some data old
          · rw [List.mem_singleton.mp new]
            apply List.ne_nil_of_length_pos
            rw [payload, List.length_drop]
            omega
  · next refused =>
      rw [if_neg refused, List.append_nil]
      have same : waiting result.2 = waiting stream.dev := waiting_same current queue
      constructor
      · rw [same]
        exact sends.sent
      · rw [queue]
        exact sends.queued
      · constructor
        · rw [current]
          exact sends.ready.current
        · rw [same]
          exact sends.ready.some

/-- What a run keeps of both streams. -/
structure Carries (len : Nat) (stream : Stream) : Prop where
  streaming : Streaming stream.dev
  sends : Sends len stream
  receives : ∃ packets gap part, Receives len stream packets gap part

/-- A call with chunks of the length of the line, or a read with room for what it returns. -/
def StreamAllowed (len : Nat) (stream : Stream) (op : StreamOp) : Prop :=
  ChunkLen len op ∧ ReadFits stream.dev op.toChan

theorem streamStep_carries (some : 0 < len) (carries : Carries len stream) {op : StreamOp}
    (allowed : StreamAllowed len stream op) : Carries len (streamStep stream op) := by
  rcases carries.receives with ⟨packets, gap, part, receives⟩
  cases op with
  | rxTx rxData txData now =>
      rcases allowed.1 with ⟨rxLen, txLen⟩
      have full : rxData.length ≠ 0 := by omega
      have set : SameSet stream.dev (wanpipeTdmApiRxTx stream.dev rxData txData now).2 := by
        rw [rxTx_eq carries.streaming full]
        exact (channelizedRx_tx stream.dev rxData now).set.trans (channelizedTx_set _ txData)
      constructor
      · exact set.streaming carries.streaming
      · exact carries.sends.rxTx carries.streaming some rxLen txLen now
      · exact receives.rxTx carries.streaming now rxLen some
  | read count errors =>
      have same := read_tx carries.streaming receives.channelized allowed.2
      constructor
      · exact same.set.streaming carries.streaming
      · exact carries.sends.read carries.streaming receives.channelized allowed.2
      · exact ⟨packets, gap, part, receives.read carries.streaming allowed.2⟩
  | write skb =>
      constructor
      · exact (writeMsg_set stream.dev skb).streaming carries.streaming
      · exact carries.sends.write carries.streaming skb
      · exact ⟨packets, gap, part, receives.write skb⟩

/-- A registered device in channel mode that nobody has open. -/
structure Closed (dev : Dev) : Prop where
  init : dev.init = true
  down : dev.down = false
  openCnt : dev.openCnt = 0#32
  mode : dev.blockMode = false
  multiplier : dev.bufferMultiplier = 1
  rxDisable : dev.cfg.rxDisable = false
  txDisable : dev.cfg.txDisable = false
  rxGain : dev.rxGain = none
  txGain : dev.txGain = none

/-- A device that was just opened. -/
def opened (dev : Dev) : Stream :=
  { dev := wpTdmapiOpen dev, accepted := [], sent := [], heard := [], read := [] }

theorem flushRx_closed {dev : Dev} (mode : dev.blockMode = false) :
    flushRx dev =
      { dev with
        rxList := []
        rxFreeList := dev.rxFreeList + dev.rxList.length + dev.rxSkb.toList.length
        rxSkb := none } := by
  rw [flushRx, if_neg (Bool.eq_false_iff.mp mode)]

/-- The state of a device after its first open. -/
def openedDev (dev : Dev) : Dev :=
  { flushEvent (flushTx
      { dev with
        openCnt := 1#32
        rxList := []
        rxFreeList := dev.rxFreeList + dev.rxList.length + dev.rxSkb.toList.length
        rxSkb := none }) with
    cfg := { dev.cfg with loop := false }
    used := true }

theorem Closed.opened {dev : Dev} (closed : Closed dev) : wpTdmapiOpen dev = openedDev dev := by
  have up : ¬ dev.down = true := by simp [closed.down]
  have mode : ({ dev with openCnt := 0#32 + 1#32 } : Dev).blockMode = false := closed.mode
  simp only [wpTdmapiOpen, if_neg up, closed.openCnt, wpTdmapiInitBuffs, flushRx_closed mode]
  rfl

theorem opened_carries {dev : Dev} (closed : Closed dev) (len : Nat) :
    Carries len (opened dev) := by
  have moved : (opened dev).dev = openedDev dev := closed.opened
  have streaming : Streaming (opened dev).dev := by
    rw [moved]
    exact ⟨closed.init, rfl, closed.down, closed.mode, closed.multiplier, closed.rxDisable,
      closed.txDisable, rfl, closed.rxGain, closed.txGain⟩
  refine ⟨streaming, ?_, [], [], [], ?_⟩
  · constructor
    · rw [moved]
      rfl
    · rw [moved]
      exact List.suffix_refl []
    · rw [moved]
      constructor
      · intro data member
        cases member
      · intro data member
        cases member
  · constructor
    · exact Cut.start (Nat.le_max_left 1 _)
    · rw [moved]
      rfl
    · rw [moved]
      rfl
    · intro arrival member
      cases member
    · rw [moved]
      constructor
      · exact closed.mode
      · exact closed.multiplier
      · intro skb member
        cases member
      · intro skb member
        cases member

/-- Both directions of a device carry the bytes of its user. -/
structure Streams (len : Nat) (stream : Stream) : Prop where
  sent : stream.sent ++ wanted len (waiting stream.dev) = wanted len stream.accepted
  queued : stream.dev.txList.map payload <:+ stream.accepted
  cut : ∃ packets gap part,
    Cut (packetChunks stream.dev.mtuMru len) stream.heard packets gap part ∧
      packets.map Packet.payload = stream.read ++ stream.dev.rxList.map payload
  length : ∀ data ∈ stream.read, data.length = packetChunks stream.dev.mtuMru len * len

/-- Idle fill is sent while nothing waits, or for a payload that is no whole number of chunks. -/
def IdleFill (len : Nat) (dev : Dev) : Prop :=
  ∀ rxData txData now, rxData.length = len → txData.length = len →
    let next := (wanpipeTdmApiRxTx dev rxData txData now).2
    sentIdle dev next = true →
      waiting dev = [] ∨ ∃ data, waiting dev = data :: waiting next ∧ good len data = false

theorem Receives.streams {packets : List (Packet Octet)} {gap part : List (Arrival Octet)}
    (receives : Receives len stream packets gap part) :
    ∀ data ∈ stream.read, data.length = packetChunks stream.dev.mtuMru len * len := by
  intro data member
  have cut : data ∈ packets.map Packet.payload := by
    rw [receives.payloads]
    exact List.mem_append_left _ member
  rcases List.mem_map.mp cut with ⟨packet, present, rfl⟩
  have even : ∀ arrival ∈ packet.body, arrival.data.length = len := by
    intro arrival inside
    apply receives.even
    rw [receives.cut.heard]
    apply List.mem_append_left
    exact List.mem_flatMap.mpr ⟨packet, present, List.mem_append_right _ inside⟩
  rw [Packet.payload, bytes_length even, receives.cut.whole packet present]

theorem Carries.idleFill (some : 0 < len) (carries : Carries len stream) :
    IdleFill len stream.dev := by
  intro rxData txData now rxLen txLen
  have puts := rxTx_puts carries.streaming carries.sends.ready some rxLen txLen now
  intro next fill
  cases puts with
  | idle _ none left => exact .inl none
  | refused _ data first bad => exact .inr ⟨data, first, bad⟩
  | data sends data rest first fits front left =>
      rw [fill] at sends
      cases sends

theorem channel_streams {dev : Dev} (closed : Closed dev) (some : 0 < len) (ops : List StreamOp)
    (allowed : Along (fun stream op => Option.some (streamStep stream op)) (StreamAllowed len)
      (opened dev) ops) :
    let last := streamRun (opened dev) ops
    Streams len last ∧ IdleFill len last.dev := by
  have carries : Carries len (streamRun (opened dev) ops) :=
    allowed.fold (fun _ _ carries => streamStep_carries some carries) (opened_carries closed len)
  rcases carries.receives with ⟨packets, gap, part, receives⟩
  refine ⟨?_, carries.idleFill some⟩
  constructor
  · exact carries.sends.sent.symm
  · exact carries.sends.queued
  · exact ⟨packets, gap, part, receives.cut, receives.payloads⟩
  · exact receives.streams

instance (len : Nat) : (op : StreamOp) → Decidable (ChunkLen len op)
  | .rxTx _ _ _ => inferInstanceAs (Decidable (_ ∧ _))
  | .read _ _ => isTrue trivial
  | .write _ => isTrue trivial

instance (dev : Dev) : (op : ChanOp) → Decidable (ReadFits dev op)
  | .rxTx _ _ _ => isTrue trivial
  | .read count _ =>
      inferInstanceAs (Decidable (dev.init = true → dev.used = true → dev.down = false →
        ∀ skb ∈ dev.rxList.head?, (skb.length : Int) ≤ count))
  | .write _ => isTrue trivial
  | .flush _ => isTrue trivial
  | .openDev => isTrue trivial
  | .closeDev => isTrue trivial

instance (len : Nat) (stream : Stream) (op : StreamOp) : Decidable (StreamAllowed len stream op) :=
  inferInstanceAs (Decidable (_ ∧ _))

/-- The first device of the card once it is registered. -/
def registeredDev : Dev :=
  ((aftTdmApiInit emptyCard 0 allThere).map fun result => result.2.devs 0).getD Dev.zero

theorem registeredDev_closed : Closed registeredDev := by
  constructor <;> decide +kernel

def zeros (count : Nat) : List Octet := List.replicate count 0x00#8

def atZero : Time := ⟨0#32, 0#32⟩

theorem channel_streams_registered :
    let ops := [.write (zeros 72), .rxTx (zeros 8) (zeros 8) atZero, .read 4224 0#32]
    let last := streamRun (opened registeredDev) ops
    Streams 8 last ∧ IdleFill 8 last.dev :=
  channel_streams registeredDev_closed (by decide) _ (by decide +kernel)

/-- A payload of three bytes is answered with idle fill while another one waits; and with chunks of
seven bytes a payload of 161 bytes is read where the buffer begins to be full at 160. -/
theorem channel_streams_fill :
    (¬ ∀ (dev : Dev) (len : Nat) (ops : List StreamOp) (rxData txData : List Octet) (now : Time),
      Closed dev → 0 < len →
      Along (fun stream op => some (streamStep stream op)) (StreamAllowed len) (opened dev) ops →
      rxData.length = len → txData.length = len →
      let last := (streamRun (opened dev) ops).dev
      sentIdle last (wanpipeTdmApiRxTx last rxData txData now).2 = true → waiting last = []) ∧
    ¬ ∀ (dev : Dev) (len : Nat) (ops : List StreamOp), Closed dev → 0 < len →
      Along (fun stream op => some (streamStep stream op)) (StreamAllowed len) (opened dev) ops →
      let last := streamRun (opened dev) ops
      ∀ data ∈ last.read, data.length = last.dev.mtuMru - hdrSz := by
  constructor
  · intro always
    have none := always registeredDev 8 [.write (zeros 67), .write (zeros 72)] (zeros 8) (zeros 8)
      atZero registeredDev_closed (by decide) (by decide +kernel) (by decide) (by decide)
      (by decide +kernel)
    have two : (waiting (streamRun (opened registeredDev)
        [.write (zeros 67), .write (zeros 72)]).dev).length = 2 := by decide +kernel
    rw [none] at two
    cases two
  · intro always
    let ops : List StreamOp :=
      List.replicate 23 (.rxTx (zeros 7) (zeros 7) atZero) ++ [.read 4224 0#32]
    have seen : (streamRun (opened registeredDev) ops).read.map List.length = [161] := by
      decide +kernel
    have size : (streamRun (opened registeredDev) ops).dev.mtuMru = 224 := by decide +kernel
    have each := always registeredDev 7 ops registeredDev_closed (by decide) (by decide +kernel)
    have long : 161 ∈ (streamRun (opened registeredDev) ops).read.map List.length := by
      rw [seen]
      exact List.mem_cons_self
    rcases List.mem_map.mp long with ⟨data, member, length⟩
    have short := each data member
    rw [length, size] at short
    cases short

end Wanpipe.TdmApi
