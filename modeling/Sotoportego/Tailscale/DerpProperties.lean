import Sotoportego.Tailscale.Derp
import Sotoportego.Tailscale.RegisterProperties

/-!
# Frames through the relay buffer

Every read keeps what is still to come, in the buffer and on the stream, and the compaction
always leaves it room.
-/

set_option autoImplicit false

namespace Sotoportego.Tailscale

open Octets CText Deliveries

namespace DerpFrame

def header (frame : DerpFrame) : Bytes :=
  DerpClient.frameHeader frame.type frame.payload.length

def octets (frame : DerpFrame) : Bytes :=
  frame.header ++ frame.payload

def text (frames : List DerpFrame) : Bytes :=
  frames.flatMap octets

@[simp] theorem length_header (frame : DerpFrame) : frame.header.length = 5 := rfl

theorem text_cons (frame : DerpFrame) (frames : List DerpFrame) :
    text (frame :: frames) = frame.header ++ (frame.payload ++ text frames) := by
  rw [text, List.flatMap_cons, octets, List.append_assoc]
  rfl

theorem header_length {frame : DerpFrame} (small : frame.payload.length ≤ kDerpMaxFrame) :
    (octetAt frame.header 1).toNat <<< 24 ||| (octetAt frame.header 2).toNat <<< 16 |||
      (octetAt frame.header 3).toNat <<< 8 ||| (octetAt frame.header 4).toNat =
        frame.payload.length := by
  rw [kDerpMaxFrame] at small
  have top : octetAt frame.header 1 = 0 := by
    have none : frame.payload.length >>> 24 = 0 := by
      rw [Nat.shiftRight_eq_div_pow]
      omega
    calc octetAt frame.header 1 = UInt8.ofNat (frame.payload.length >>> 24) := rfl
      _ = 0 := by rw [none]; rfl
  have low : (octetAt frame.header 2).toNat <<< 16 ||| (octetAt frame.header 3).toNat <<< 8 |||
      (octetAt frame.header 4).toNat = frame.payload.length := join24 (by omega)
  rw [top, UInt8.toNat_zero, Nat.zero_shiftLeft, Nat.zero_or]
  exact low

end DerpFrame

namespace DerpClient

open DerpFrame (text_cons)

/-- What `WriteFrame` writes on an open session. -/
theorem writeFrame_octets {client : DerpClient} {stream : List (Delivery UInt8)}
    (opened : client.tls = some stream) (frame : DerpFrame) :
    client.writeFrame frame.type frame.payload =
      (.ok, { client with sent := client.sent ++ frame.octets }) := by
  rw [writeFrame, opened, List.append_assoc]
  rfl

/-- What the TLS reads still bring. -/
def ahead (client : DerpClient) : Bytes :=
  arriving (client.tls.getD [])

/-- What is still to be read, in the buffer or not. -/
def coming (client : DerpClient) : Bytes :=
  client.live ++ client.ahead

/-- No poll of the stop flag sees it set. -/
def Going (client : DerpClient) : Prop :=
  true ∉ client.polls

def Roomy (client : DerpClient) : Prop :=
  ∀ size ∈ client.rooms, 0 < size

section TlsRead

variable {size : Nat} {client next : DerpClient} {answer : Answer UInt8} {taken : Bytes}

/-- A read on a closed session ends; on an open one it is that of the deliveries. -/
theorem tlsRead_cases (answered : client.tlsRead size = (answer, next)) :
    (client.tls = none ∧ answer = .ended ∧
        next = { client with rooms := client.rooms ++ [size] }) ∨
      ∃ stream rest, client.tls = some stream ∧ Deliveries.read size stream = (answer, rest) ∧
        next = { client with tls := some rest, rooms := client.rooms ++ [size] } := by
  rw [tlsRead] at answered
  cases opened : client.tls with
  | none =>
      rw [opened] at answered
      cases answered
      exact .inl ⟨rfl, rfl, rfl⟩
  | some stream =>
      rw [opened] at answered
      cases answered
      exact .inr ⟨stream, _, rfl, rfl, rfl⟩

theorem tlsRead_kept (answered : client.tlsRead size = (answer, next)) :
    next.live = client.live ∧ next.polls = client.polls ∧ next.bufOff = client.bufOff ∧
      next.rooms = client.rooms ++ [size] := by
  obtain ⟨-, -, rfl⟩ | ⟨stream, rest, -, -, rfl⟩ := tlsRead_cases answered
  · exact ⟨rfl, rfl, rfl, rfl⟩
  · exact ⟨rfl, rfl, rfl, rfl⟩

theorem tlsRead_bytes (answered : client.tlsRead size = (.bytes taken, next)) :
    taken ++ next.ahead = client.ahead ∧
      pauses (next.tls.getD []) = pauses (client.tls.getD []) ∧ taken.length ≤ size ∧
      (0 < size → 0 < taken.length) := by
  obtain ⟨-, ended, -⟩ | ⟨stream, rest, opened, read, rfl⟩ := tlsRead_cases answered
  · cases ended
  · rw [ahead, ahead, opened]
    exact read_bytes read

theorem tlsRead_pause (answered : client.tlsRead size = (.timeout, next)) :
    next.ahead = client.ahead ∧
      pauses (client.tls.getD []) = next.ahead.length :: pauses (next.tls.getD []) := by
  obtain ⟨-, ended, -⟩ | ⟨stream, rest, opened, read, rfl⟩ := tlsRead_cases answered
  · cases ended
  · rw [ahead, ahead, opened]
    exact read_timeout read

theorem tlsRead_ended (answered : client.tlsRead size = (.ended, next)) : client.ahead = [] := by
  obtain ⟨closed, -, -⟩ | ⟨stream, rest, opened, read, rfl⟩ := tlsRead_cases answered
  · rw [ahead, closed]
    rfl
  · rw [ahead, opened, (read_ended read).1]
    rfl

theorem Roomy.tlsRead (roomy : client.Roomy) (positive : 0 < size)
    (answered : client.tlsRead size = (answer, next)) : next.Roomy := by
  obtain ⟨-, -, -, rooms⟩ := tlsRead_kept answered
  intro room member
  rw [rooms] at member
  cases List.mem_append.mp member with
  | inl earlier => exact roomy room earlier
  | inr now =>
      rw [List.mem_singleton.mp now]
      exact positive

end TlsRead

/-! ## The buffer -/

/-- A buffer that lacks something needed has room, after the compaction. -/
theorem room_compact {client : DerpClient} {need : Nat} (fits : need ≤ kDerpBufSize)
    (short : ¬ need ≤ client.live.length) : 0 < client.compact.room := by
  rw [kDerpBufSize] at fits
  unfold compact
  split
  next => simp only [room, bufLen, kDerpBufSize]; omega
  next full =>
    simp only [room, bufLen, kDerpBufSize] at full ⊢
    omega

theorem Roomy.compact {client : DerpClient} (roomy : client.Roomy) : client.compact.Roomy := by
  rw [Roomy, rooms_compact]
  exact roomy

theorem Roomy.fillLoop {need : Nat} (fits : need ≤ kDerpBufSize) {client : DerpClient}
    (roomy : client.Roomy) : (client.fillLoop need).2.Roomy := by
  fun_induction DerpClient.fillLoop need client with
  | case1 client enough => exact roomy
  | case2 client short next answered stop =>
      have kept := roomy.compact.tlsRead (room_compact fits short) answered
      exact kept
  | case3 client short next answered going continued =>
      have kept := roomy.compact.tlsRead (room_compact fits short) answered
      exact continued kept
  | case4 client short first more next answered continued =>
      have kept := roomy.compact.tlsRead (room_compact fits short) answered
      exact continued kept
  | case5 client short answer next _ _ answered =>
      have kept := roomy.compact.tlsRead (room_compact fits short) answered
      exact kept

theorem Going.tail {client next : DerpClient} (going : client.Going)
    (kept : next.polls = client.polls) :
    ¬ next.polls.headD false = true ∧ ({ next with polls := next.polls.tail } : DerpClient).Going := by
  rw [Going, ← kept] at going
  constructor
  · intro set
    cases polls : next.polls with
    | nil =>
        rw [polls] at set
        cases set
    | cons first later =>
        rw [polls] at set going
        exact going (set ▸ List.mem_cons_self)
  · exact fun member => going (List.mem_of_mem_tail member)

theorem fillLoop_enough {need : Nat} (fits : need ≤ kDerpBufSize) {client : DerpClient}
    (enough : need ≤ client.coming.length) (going : client.Going) :
    (client.fillLoop need).1 = .ok ∧ need ≤ (client.fillLoop need).2.live.length ∧
      (client.fillLoop need).2.coming = client.coming ∧ (client.fillLoop need).2.Going := by
  fun_induction fillLoop need client with
  | case1 client held => exact ⟨rfl, held, rfl, going⟩
  | case2 client short next answered stop =>
      obtain ⟨-, polls, -, -⟩ := tlsRead_kept answered
      exact ((going.tail (polls.trans (polls_compact client))).1 stop).elim
  | case3 client short next answered more continued =>
      obtain ⟨live, polls, -, -⟩ := tlsRead_kept answered
      have onward := (going.tail (polls.trans (polls_compact client))).2
      have same : next.coming = client.coming := by
        rw [coming, coming, live, live_compact, (tlsRead_pause answered).1, ahead, ahead,
          tls_compact]
      obtain ⟨ok, held, kept, still⟩ := continued (same ▸ enough) onward
      exact ⟨ok, held, kept.trans same, still⟩
  | case4 client short first more next answered continued =>
      obtain ⟨live, polls, -, -⟩ := tlsRead_kept answered
      have same : ({ next with live := next.live ++ first :: more } : DerpClient).coming =
          client.coming := by
        have split := (tlsRead_bytes answered).1
        rw [ahead, ahead, tls_compact] at split
        rw [coming, coming, ahead, ahead, live, live_compact, List.append_assoc, split]
      have onward : ({ next with live := next.live ++ first :: more } : DerpClient).Going := by
        rw [Going, polls, polls_compact]
        exact going
      obtain ⟨ok, held, kept, still⟩ := continued (same ▸ enough) onward
      exact ⟨ok, held, kept.trans same, still⟩
  | case5 client short answer next pause bytes answered =>
      -- Something is still to arrive and there is room for it.
      have waiting : 0 < client.compact.ahead.length := by
        rw [coming, List.length_append] at enough
        rw [ahead, tls_compact]
        rw [ahead] at enough
        omega
      cases answer with
      | timeout => exact (pause rfl).elim
      | ended =>
          rw [tlsRead_ended answered] at waiting
          exact (Nat.lt_irrefl 0 waiting).elim
      | bytes taken =>
          have positive := (tlsRead_bytes answered).2.2.2 (room_compact fits short)
          cases taken with
          | nil => exact (Nat.lt_irrefl 0 positive).elim
          | cons first more => exact (bytes first more rfl).elim

theorem Roomy.readRaw {client : DerpClient} (roomy : client.Roomy) (n : Nat) :
    (client.readRaw n).2.2.Roomy := by
  have filled : (client.fill n).2.Roomy := by
    rw [fill]
    split
    next => exact roomy
    next fits => exact roomy.fillLoop (Nat.not_lt.mp fits)
  rw [DerpClient.readRaw]
  split
  next next result =>
    rw [result] at filled
    exact filled
  next status next _ result =>
    rw [result] at filled
    exact filled

theorem Roomy.readFrame {client : DerpClient} (roomy : client.Roomy) (cap : Nat) :
    (client.readFrame cap).2.Roomy := by
  have front := roomy.readRaw 5
  rw [DerpClient.readFrame]
  split
  next hdr next result =>
    rw [result] at front
    dsimp only
    split_ifs
    · exact front
    · exact front
    · have back := Roomy.readRaw front ((octetAt hdr 1).toNat <<< 24 |||
        (octetAt hdr 2).toNat <<< 16 ||| (octetAt hdr 3).toNat <<< 8 ||| (octetAt hdr 4).toNat)
      split
      next result =>
        rw [result] at back
        exact back
      next result =>
        rw [result] at back
        exact back
    · exact front
  next result =>
    rw [result] at front
    exact front

theorem readRaw_front {client : DerpClient} {front rest : Bytes}
    (fits : front.length ≤ kDerpBufSize) (split : client.coming = front ++ rest)
    (going : client.Going) :
    ∃ next, client.readRaw front.length = (.ok, front, next) ∧ next.coming = rest ∧ next.Going := by
  have enough : front.length ≤ client.coming.length := by
    rw [split, List.length_append]
    exact Nat.le_add_right _ _
  obtain ⟨ok, held, kept, still⟩ := fillLoop_enough fits enough going
  cases result : client.fillLoop front.length with
  | mk status next =>
      rw [result] at ok held kept still
      cases ok
      have whole : next.live ++ next.ahead = front ++ rest := kept.trans split
      have taken : next.live.take front.length = front := by
        rw [← List.take_append_of_le_length held, whole, List.take_left]
      have left : next.live.drop front.length ++ next.ahead = rest := by
        rw [← List.drop_append_of_le_length held, whole, List.drop_left]
      refine ⟨{ next with
          bufOff := next.bufOff + front.length, live := next.live.drop front.length },
        ?_, left, still⟩
      rw [readRaw, fill, if_neg (Nat.not_lt.mpr fits), result]
      simp only [taken]

/-- The next frame is read whole, whatever follows it. -/
theorem readFrame_cons {client : DerpClient} {frame : DerpFrame} {frames : List DerpFrame}
    (small : frame.payload.length ≤ kDerpMaxFrame)
    (carried : client.coming = DerpFrame.text (frame :: frames)) (going : client.Going) :
    ∃ next, client.readFrame kDerpMaxFrame = (.ok frame, next) ∧ next.coming = DerpFrame.text frames ∧
      next.Going := by
  rw [text_cons] at carried
  obtain ⟨middle, header, onward, still⟩ :=
    readRaw_front (by rw [DerpFrame.length_header]; decide) carried going
  rw [DerpFrame.length_header] at header
  have type : octetAt frame.header 0 = frame.type := rfl
  rw [readFrame, header]
  simp only [DerpFrame.header_length small, type, if_neg (Nat.not_lt.mpr small)]
  by_cases payload : 0 < frame.payload.length
  · have fits : frame.payload.length ≤ kDerpBufSize := by
      rw [kDerpMaxFrame] at small
      rw [kDerpBufSize]
      omega
    obtain ⟨next, body, rest, last⟩ := readRaw_front fits onward still
    rw [if_pos payload, body]
    exact ⟨next, rfl, rest, last⟩
  · have empty : frame.payload = [] := List.eq_nil_of_length_eq_zero (Nat.eq_zero_of_not_pos payload)
    rw [if_neg payload, ← empty]
    rw [empty] at onward
    exact ⟨middle, rfl, onward, still⟩

/-- Successive `ReadFrame` calls with the same buffer. -/
def readFrames (cap : Nat) : Nat → DerpClient → List (Except Status DerpFrame) × DerpClient
  | 0, client => ([], client)
  | calls + 1, client =>
      let (result, client) := client.readFrame cap
      let (results, client) := readFrames cap calls client
      (result :: results, client)

theorem readFrames_text {frames : List DerpFrame}
    (small : ∀ frame ∈ frames, frame.payload.length ≤ kDerpMaxFrame) :
    ∀ {client : DerpClient}, client.coming = DerpFrame.text frames → client.Going →
      (client.readFrames kDerpMaxFrame frames.length).1 = frames.map .ok := by
  induction frames with
  | nil => intro client _ _; rfl
  | cons frame frames continued =>
      intro client carried going
      obtain ⟨next, read, onward, still⟩ :=
        readFrame_cons (small frame List.mem_cons_self) carried going
      have later := continued (fun other member => small other (List.mem_cons_of_mem _ member))
        onward still
      rw [List.length_cons, readFrames, read, List.map_cons, ← later]

theorem Roomy.readFrames (cap calls : Nat) {client : DerpClient} (roomy : client.Roomy) :
    (client.readFrames cap calls).2.Roomy := by
  induction calls generalizing client with
  | zero => exact roomy
  | succ calls continued => exact continued (roomy.readFrame cap)

/-! ## The upgrade -/

/-- A response that `_ReadUpgrade` accepts: the first empty line ends it. -/
structure UpgradeResponse (response : Bytes) : Prop where
  ends : Register.findFirst crlfCrlf response = some crlfCrlf
  short : response.length ≤ kDerpUpgradeSize
  accepted : Register.findFirst (ascii " 101 ") response ≠ none

section Upgrade

variable {response rest : Bytes}

theorem UpgradeResponse.headerEnd_append (is : UpgradeResponse response) (more : Bytes) :
    headerEnd (response ++ more) = some response.length := by
  have long := (Register.findFirst_found is.ends).2.length_le
  rw [headerEnd, Register.findFirst_append is.ends more, Option.map_some, List.length_append,
    List.length_append]
  have size : crlfCrlf.length = 4 := rfl
  congr 1
  omega

theorem UpgradeResponse.headerEnd_part (is : UpgradeResponse response) {part : Bytes}
    (proper : part <+: response) (shorter : part.length < response.length) :
    headerEnd part = none := by
  obtain ⟨more, rfl⟩ := proper
  rw [headerEnd, Option.map_eq_none_iff]
  cases found : Register.findFirst crlfCrlf part with
  | none => rfl
  | some place =>
      have whole := Register.findFirst_append found more
      rw [is.ends] at whole
      have lengths := congrArg List.length (Option.some.inj whole)
      have reach := (Register.findFirst_found found).1.length_le
      rw [List.length_append] at lengths shorter
      omega

/-- Of two splits of one text, the one that is short of the other is a part of it. -/
theorem part_of_split {part after : Bytes} (same : part ++ after = response ++ rest)
    (shorter : part.length ≤ response.length) : part <+: response :=
  List.prefix_of_prefix_length_le ⟨after, same⟩ (List.prefix_append _ _) shorter

theorem Roomy.upgradeLoop (tmp : Bytes) {client : DerpClient} (roomy : client.Roomy) :
    (client.upgradeLoop tmp).2.Roomy := by
  fun_induction DerpClient.upgradeLoop tmp client with
  | case1 tmp client full => exact roomy
  | case2 tmp client room first more next answered size ended =>
      exact roomy.tlsRead (by omega) answered
  | case3 tmp client room first more next answered unended continued =>
      exact continued (roomy.tlsRead (by omega) answered)
  | case4 tmp client room answer next _ answered => exact roomy.tlsRead (by omega) answered

theorem Roomy.readUpgrade {client : DerpClient} (roomy : client.Roomy) :
    client.readUpgrade.2.Roomy := by
  have kept := roomy.upgradeLoop []
  rw [DerpClient.readUpgrade]
  split
  next result =>
    rw [result] at kept
    exact kept
  next result =>
    rw [result] at kept
    split
    next => exact kept
    next => exact kept

/-- The headers are found with the read that completes them, and nothing after them is lost. -/
theorem upgradeLoop_response (is : UpgradeResponse response) (tmp : Bytes) {client : DerpClient}
    (together : tmp ++ client.ahead = response ++ rest) (within : tmp.length < response.length)
    (quiet : ∀ after ∈ pauses (client.tls.getD []), after ≤ rest.length) :
    ∃ seen next, client.upgradeLoop tmp = (some (seen, response.length), next) ∧
      response <+: seen ∧ seen ++ next.ahead = response ++ rest ∧ next.polls = client.polls := by
  have total := congrArg List.length together
  rw [List.length_append, List.length_append] at total
  fun_induction upgradeLoop tmp client with
  | case1 tmp client full =>
      have short := is.short
      omega
  | case2 tmp client room first more next answered size ended =>
      have kept := (tlsRead_bytes answered).1
      rw [← kept, ← List.append_assoc] at together
      have reached : ¬ (tmp ++ first :: more).length < response.length := by
        intro shorter
        rw [is.headerEnd_part (part_of_split together (Nat.le_of_lt shorter)) shorter] at ended
        cases ended
      have inside : response <+: tmp ++ first :: more :=
        part_of_split together.symm (Nat.not_lt.mp reached)
      obtain ⟨beyond, seen⟩ := inside
      rw [← seen, is.headerEnd_append beyond] at ended
      cases ended
      exact ⟨_, next, rfl, ⟨beyond, seen⟩, together, (tlsRead_kept answered).2.1⟩
  | case3 tmp client room first more next answered unended continued =>
      obtain ⟨kept, waits, -, -⟩ := tlsRead_bytes answered
      rw [← kept, ← List.append_assoc] at together
      have shorter : (tmp ++ first :: more).length < response.length := by
        by_contra long
        obtain ⟨beyond, seen⟩ := part_of_split together.symm (Nat.not_lt.mp long)
        rw [← seen, is.headerEnd_append beyond] at unended
        cases unended
      have later := continued together shorter (by rw [waits]; exact quiet)
        (by rw [← List.length_append, together, List.length_append])
      rw [(tlsRead_kept answered).2.1] at later
      exact later
  | case4 tmp client room answer next other answered =>
      cases answer with
      | timeout =>
          obtain ⟨same, waits⟩ := tlsRead_pause answered
          have after := quiet client.ahead.length (by rw [waits, same]; exact List.mem_cons_self)
          omega
      | ended =>
          rw [tlsRead_ended answered, List.length_nil] at total
          omega
      | bytes taken =>
          have positive := (tlsRead_bytes answered).2.2.2 (by omega)
          cases taken with
          | nil => exact (Nat.lt_irrefl 0 positive).elim
          | cons first more => exact (other first more rfl).elim

/-- What was read with the headers comes first. -/
theorem readUpgrade_response (is : UpgradeResponse response) {client : DerpClient}
    (arrives : client.ahead = response ++ rest)
    (quiet : ∀ after ∈ pauses (client.tls.getD []), after ≤ rest.length) (going : client.Going) :
    ∃ next, client.readUpgrade = (.ok, next) ∧ next.coming = rest ∧ next.Going := by
  have within : ([] : Bytes).length < response.length :=
    Nat.lt_of_lt_of_le (by decide) (Register.findFirst_found is.ends).2.length_le
  obtain ⟨seen, next, read, ⟨beyond, rfl⟩, together, polls⟩ :=
    upgradeLoop_response is [] arrives within quiet
  rw [List.append_assoc] at together
  refine ⟨{ next with live := (response ++ beyond).drop response.length }, ?_, ?_, ?_⟩
  · rw [readUpgrade, read]
    simp only [List.take_left, if_neg is.accepted]
  · rw [coming, List.drop_left]
    exact List.append_cancel_left together
  · rw [Going, polls]
    exact going

end Upgrade

theorem frames_delivered {response : Bytes} (is : UpgradeResponse response)
    (frames : List DerpFrame) (small : ∀ frame ∈ frames, frame.payload.length ≤ 65535)
    (stream : List (Delivery UInt8)) (arrives : arriving stream = response ++ DerpFrame.text frames)
    (afterwards : ∀ after ∈ pauses stream, after ≤ (DerpFrame.text frames).length)
    (host : CString) (client : DerpClient) (going : client.Going) (roomy : client.Roomy) :
    let upgraded := (client.opened stream host).readUpgrade
    let read := upgraded.2.readFrames 65535 frames.length
    upgraded.1 = .ok ∧ read.1 = frames.map .ok ∧ read.2.Roomy := by
  intro upgraded read
  have start : (client.opened stream host).Roomy := roomy
  have whole : (client.opened stream host).ahead = response ++ DerpFrame.text frames := arrives
  obtain ⟨next, result, onward, still⟩ := readUpgrade_response is whole afterwards going
  have same : upgraded = (.ok, next) := result
  refine ⟨congrArg Prod.fst same, ?_, start.readUpgrade.readFrames _ _⟩
  simp only [read, same]
  exact readFrames_text small onward still

/-! A ping behind the headers, a timeout, and a packet in two parts. -/

namespace Sample

def response : Bytes := ascii "HTTP/1.1 101 Switching Protocols\r\n\r\n"

def frames : List DerpFrame := [⟨derpPing, [1, 2]⟩, ⟨derpRecvPacket, List.replicate 33 7⟩]

def stream : List (Delivery UInt8) :=
  [.chunk 72 ((response ++ frameHeader derpPing 2 ++ [1]).drop 1), .timeout,
    .chunk 2 (frameHeader derpRecvPacket 33 ++ List.replicate 3 7),
    .chunk 7 (List.replicate 29 7)]

end Sample

theorem frames_delivered_sample :
    let upgraded := (({} : DerpClient).opened Sample.stream .empty).readUpgrade
    let read := upgraded.2.readFrames 65535 2
    upgraded.1 = .ok ∧ read.1 = Sample.frames.map .ok ∧ read.2.Roomy :=
  have accepted : UpgradeResponse Sample.response :=
    ⟨by decide +kernel, by decide +kernel, by decide +kernel⟩
  frames_delivered accepted Sample.frames (by decide) Sample.stream (by decide +kernel)
    (by decide +kernel) .empty {} List.not_mem_nil (fun _ member => (List.not_mem_nil member).elim)

end DerpClient

end Sotoportego.Tailscale
