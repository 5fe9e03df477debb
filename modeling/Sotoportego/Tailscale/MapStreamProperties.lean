import Sotoportego.Tailscale.MapStream

/-!
# Messages out of a response body

The body reaches `ReadBody` as DATA frames among reads that time out, and ends with the
stream or with the connection.
-/

set_option autoImplicit false

namespace Sotoportego.Tailscale

open Octets CText

/-! ## The body as `ReadBody` meets it -/

/-- A DATA frame of the stream whose padding lies inside it. -/
structure Http2Frame.Carries (streamId : UInt32) (frame : Http2Frame) : Prop where
  data : frame.type = h2Data
  stream : frame.streamId = streamId
  padding : frame.has h2FlagPadded → (octetAt frame.payload 0).toNat < frame.size

/-- A result of `ReadFrame` before the end of the body. -/
def Pours (streamId : UInt32) : Except Status Http2Frame → Prop
  | .error status => status = .wouldBlock
  | .ok frame => frame.Carries streamId ∧ ¬ frame.has h2FlagEndStream

def pouredBy : Except Status Http2Frame → Bytes
  | .error _ => []
  | .ok frame => frame.content

def poured (results : List (Except Status Http2Frame)) : Bytes :=
  results.flatMap pouredBy

/-- How the body ends; after the last frame of the stream anything may come. -/
inductive Ending (streamId : UInt32) where
  | lost
  | data (frame : Http2Frame) (carries : frame.Carries streamId)
      (ends : frame.has h2FlagEndStream) (after : List (Except Status Http2Frame))
  | trailers (frame : Http2Frame) (headers : frame.type = h2Headers)
      (stream : frame.streamId = streamId) (ends : frame.has h2FlagEndStream)
      (after : List (Except Status Http2Frame))

namespace Ending

variable {streamId : UInt32}

def results : Ending streamId → List (Except Status Http2Frame)
  | .lost => []
  | .data frame _ _ after => .ok frame :: after
  | .trailers frame _ _ _ after => .ok frame :: after

def content : Ending streamId → Bytes
  | .lost => []
  | .data frame _ _ _ => frame.content
  | .trailers _ _ _ _ _ => []

/-- The stream has ended, not only the connection. -/
def clean : Ending streamId → Bool
  | .lost => false
  | _ => true

end Ending

/-- A response body on a stream. -/
structure Response (streamId : UInt32) where
  body : List (Except Status Http2Frame)
  pours : ∀ result ∈ body, Pours streamId result
  ending : Ending streamId

namespace Response

variable {streamId : UInt32}

def incoming (response : Response streamId) : List (Except Status Http2Frame) :=
  response.body ++ response.ending.results

def octets (response : Response streamId) : Bytes :=
  poured response.body ++ response.ending.content

end Response

namespace Http2Client

variable {client : Http2Client} {frame : Http2Frame} {incoming : List (Except Status Http2Frame)}

theorem readBody_lost (streaming : client.reqEnded = false) (none : client.incoming = []) :
    client.readBody kH2MaxFramePayload = (.ioError, [], client) := by
  rw [readBody, if_neg (streaming ▸ Bool.false_ne_true), if_neg (Nat.lt_irrefl _),
    show kFrameBudget = 99999 + 1 from rfl, readContent, readFrame, none]

theorem readBody_error {status : Status} (streaming : client.reqEnded = false)
    (front : client.incoming = .error status :: incoming) :
    client.readBody kH2MaxFramePayload = (status, [], { client with incoming }) := by
  rw [readBody, if_neg (streaming ▸ Bool.false_ne_true), if_neg (Nat.lt_irrefl _),
    show kFrameBudget = 99999 + 1 from rfl, readContent, readFrame, front]

/-- After `ReadBody` has taken one frame. -/
structure Taken (incoming : List (Except Status Http2Frame)) (ended : Bool)
    (client next : Http2Client) : Prop where
  incoming : next.incoming = incoming
  stream : next.reqStream = client.reqStream
  ended : next.reqEnded = ended

theorem readBody_data (streaming : client.reqEnded = false)
    (front : client.incoming = .ok frame :: incoming) (carries : frame.Carries client.reqStream) :
    ∃ next, client.readBody kH2MaxFramePayload = (.ok, frame.content, next) ∧
      Taken incoming (frame.has h2FlagEndStream) client next := by
  have others : frame.type ≠ h2Settings ∧ frame.type ≠ h2Ping ∧ frame.type ≠ h2GoAway ∧
      frame.type ≠ h2RstStream := by
    rw [carries.data]
    decide
  rw [readBody, if_neg (streaming ▸ Bool.false_ne_true), if_neg (Nat.lt_irrefl _),
    show kFrameBudget = 99999 + 1 from rfl, readContent, readFrame, front]
  simp only
  rw [if_neg others.1, if_neg others.2.1, if_neg others.2.2.1,
    if_neg (fun reset => others.2.2.2 reset.1), if_pos ⟨carries.data, carries.stream⟩]
  obtain ⟨outgoing, written⟩ := replenish_written _ frame
  rw [written]
  exact ⟨_, rfl, rfl, rfl, by simp only [streaming, Bool.false_or]⟩

theorem readBody_trailers (streaming : client.reqEnded = false)
    (front : client.incoming = .ok frame :: incoming) (headers : frame.type = h2Headers)
    (stream : frame.streamId = client.reqStream) (ends : frame.has h2FlagEndStream) :
    ∃ next, client.readBody kH2MaxFramePayload = (.ok, [], next) ∧
      Taken incoming true client next := by
  have others : frame.type ≠ h2Settings ∧ frame.type ≠ h2Ping ∧ frame.type ≠ h2GoAway ∧
      frame.type ≠ h2RstStream ∧ frame.type ≠ h2Data := by
    rw [headers]
    decide
  rw [readBody, if_neg (streaming ▸ Bool.false_ne_true), if_neg (Nat.lt_irrefl _),
    show kFrameBudget = 99999 + 1 from rfl, readContent, readFrame, front]
  simp only
  rw [if_neg others.1, if_neg others.2.1, if_neg others.2.2.1,
    if_neg (fun reset => others.2.2.2.1 reset.1), if_neg (fun data => others.2.2.2.2 data.1),
    if_pos ⟨headers, stream, ends⟩]
  exact ⟨_, rfl, rfl, rfl, rfl⟩

end Http2Client

/-! ## Messages in the accumulator -/

namespace MapStream

def kMaxMapMessageSize : Nat := kMaxMapMessage.toNat

/-- A message as the server sends it. -/
def framed (message : Bytes) : Bytes :=
  let size := UInt32.ofNat message.length
  [size.toUInt8, (size >>> 8).toUInt8, (size >>> 16).toUInt8, (size >>> 24).toUInt8] ++ message

/-- A message that the stream may carry. -/
structure Sendable (message : Bytes) : Prop where
  bounded : message.length ≤ kMaxMapMessageSize
  no_nul : 0 ∉ message

theorem length_framed (message : Bytes) : (framed message).length = 4 + message.length := by
  rw [framed, List.length_append]
  rfl

theorem messageLength_framed (message rest : Bytes) :
    messageLength (framed message ++ rest) = UInt32.ofNat message.length :=
  join32 _

theorem messageLength_append {unread : Bytes} (four : 4 ≤ unread.length) (rest : Bytes) :
    messageLength (unread ++ rest) = messageLength unread := by
  have same (position : Nat) (below : position < 4) :
      octetAt (unread ++ rest) position = octetAt unread position :=
    octetAt_append_left (Nat.lt_of_lt_of_le below four) rest
  rw [messageLength, same 0 (by decide), same 1 (by decide), same 2 (by decide),
    same 3 (by decide), messageLength]

theorem toNat_length {message : Bytes} (bounded : message.length ≤ kMaxMapMessageSize) :
    (UInt32.ofNat message.length).toNat = message.length := by
  have limit : kMaxMapMessageSize = 33554432 := rfl
  rw [UInt32.toNat_ofNat']
  omega

theorem toNat_four_add {size : UInt32} (bounded : ¬ kMaxMapMessage < size) :
    (4 + size).toNat = 4 + size.toNat := by
  have limit : kMaxMapMessage.toNat = 33554432 := rfl
  rw [UInt32.lt_iff_toNat_lt] at bounded
  rw [UInt32.toNat_add]
  have four : (4 : UInt32).toNat = 4 := rfl
  omega

/-- No whole message. -/
def Short (unread : Bytes) : Prop :=
  unread.length < 4 ∨
    messageLength unread ≤ kMaxMapMessage ∧ unread.length < (4 + messageLength unread).toNat

theorem short_of_cut {unread message : Bytes} (bounded : message.length ≤ kMaxMapMessageSize)
    (cut : unread <+: framed message) (proper : unread.length < (framed message).length) :
    Short unread := by
  by_cases few : unread.length < 4
  · exact .inl few
  · obtain ⟨rest, whole⟩ := cut
    have size : messageLength unread = UInt32.ofNat message.length := by
      rw [← messageLength_append (Nat.not_lt.mp few) rest, whole,
        ← messageLength_framed message [], List.append_nil]
    have fits : ¬ kMaxMapMessage < UInt32.ofNat message.length := by
      rw [UInt32.lt_iff_toNat_lt, toNat_length bounded]
      exact Nat.not_lt.mpr bounded
    refine .inr ⟨?_, ?_⟩
    · rw [size]
      exact UInt32.not_lt.mp fits
    · rw [size, toNat_four_add fits, toNat_length bounded, ← length_framed]
      exact proper

theorem not_short_framed {message : Bytes} (bounded : message.length ≤ kMaxMapMessageSize)
    (rest : Bytes) : ¬ Short (framed message ++ rest) := by
  rintro (few | ⟨fits, proper⟩)
  · rw [List.length_append, length_framed] at few
    omega
  · rw [messageLength_framed] at fits proper
    rw [toNat_four_add (UInt32.not_lt.mpr fits), toNat_length bounded, List.length_append,
      length_framed] at proper
    omega

theorem fillAtLeast_enough {need : Nat} {stream : MapStream} (enough : need ≤ stream.live) :
    stream.fillAtLeast need = (.ok, false, stream) := by
  rw [fillAtLeast, if_pos enough]

/-- With a chunk of the body behind the accumulator. -/
def received (http2 : Http2Client) (chunk : Bytes) (stream : MapStream) : MapStream :=
  let kept := if 0 < stream.accOff then stream.compact else stream
  { kept with http2 }.insert chunk

@[simp] theorem unread_received (http2 : Http2Client) (chunk : Bytes) (stream : MapStream) :
    (stream.received http2 chunk).unread = stream.unread ++ chunk := by
  rw [received, unread_insert]
  congr 1
  split
  next => exact unread_compact stream
  next => rfl

@[simp] theorem http2_received (http2 : Http2Client) (chunk : Bytes) (stream : MapStream) :
    (stream.received http2 chunk).http2 = http2 := rfl

@[simp] theorem begun_compact (stream : MapStream) : stream.compact.begun = stream.begun := by
  rw [compact]
  split
  next => rfl
  next => rfl

@[simp] theorem http2_compact (stream : MapStream) : stream.compact.http2 = stream.http2 := by
  rw [compact]
  split
  next => rfl
  next => rfl

@[simp] theorem begun_received (http2 : Http2Client) (chunk : Bytes) (stream : MapStream) :
    (stream.received http2 chunk).begun = stream.begun := by
  rw [received, insert]
  simp only
  split
  next => exact begun_compact stream
  next => rfl

theorem fillAtLeast_chunk {need : Nat} {stream : MapStream} {http2 : Http2Client}
    {chunk : Bytes} (few : stream.live < need) (some : chunk ≠ [])
    (read : stream.http2.readBody kH2MaxFramePayload = (.ok, chunk, http2)) :
    stream.fillAtLeast need = (stream.received http2 chunk).fillAtLeast need := by
  obtain ⟨first, more, rfl⟩ := List.exists_cons_of_ne_nil some
  rw [fillAtLeast, if_neg (Nat.not_le.mpr few), read]
  rfl

theorem fillAtLeast_empty {need : Nat} {stream : MapStream} {http2 : Http2Client}
    (few : stream.live < need)
    (read : stream.http2.readBody kH2MaxFramePayload = (.ok, [], http2)) :
    stream.fillAtLeast need = (.ok, true, { stream with http2 }) := by
  rw [fillAtLeast, if_neg (Nat.not_le.mpr few), read]

theorem fillAtLeast_failed {need : Nat} {stream : MapStream} {http2 : Http2Client}
    {status : Status} {chunk : Bytes} (few : stream.live < need) (failed : status ≠ .ok)
    (read : stream.http2.readBody kH2MaxFramePayload = (status, chunk, http2)) :
    stream.fillAtLeast need = (status, false, { stream with http2 }) := by
  rw [fillAtLeast, if_neg (Nat.not_le.mpr few), read]
  cases status with
  | ok => exact (failed rfl).elim
  | _ => rfl

section ReadMessage

variable {stream : MapStream} {http2 : Http2Client} {status : Status} {chunk : Bytes}

theorem readMessage_sized (begun : stream.begun = true) (four : ¬ stream.live < 4)
    (fits : ¬ kMaxMapMessage < messageLength stream.unread) :
    stream.readMessage = stream.readSized (messageLength stream.unread) := by
  rw [readMessage, if_neg (not_not_intro begun), fillAtLeast_enough (Nat.not_lt.mp four)]
  simp only
  rw [if_neg (fun both => four both.2), if_neg fits]

/-- A chunk that completes no message changes nothing else in the call. -/
theorem readMessage_chunk (begun : stream.begun = true) (short : Short stream.unread)
    (some : chunk ≠ []) (read : stream.http2.readBody kH2MaxFramePayload = (.ok, chunk, http2)) :
    stream.readMessage = (stream.received http2 chunk).readMessage := by
  by_cases few : stream.live < 4
  · rw [readMessage, readMessage, begun_received, begun, fillAtLeast_chunk few some read]
    rfl
  · rw [Short, length_unread] at short
    obtain ⟨fits, few'⟩ := short.resolve_left few
    have four : 4 ≤ stream.unread.length := by
      rw [length_unread]
      exact Nat.not_lt.mp few
    have same : messageLength (stream.received http2 chunk).unread = messageLength stream.unread := by
      rw [unread_received, messageLength_append four]
    have four' : ¬ (stream.received http2 chunk).live < 4 := by
      rw [← length_unread, unread_received, List.length_append]
      omega
    rw [readMessage_sized begun few (UInt32.not_lt.mpr fits),
      readMessage_sized (by rw [begun_received, begun]) four' (same ▸ UInt32.not_lt.mpr fits), same,
      readSized, readSized, fillAtLeast_chunk few' some read]

/-- An empty read ends the call: with a message begun it is an error. -/
theorem readMessage_empty (begun : stream.begun = true) (short : Short stream.unread)
    (read : stream.http2.readBody kH2MaxFramePayload = (.ok, [], http2)) :
    stream.readMessage =
      (if stream.unread.length < 4 then .entryNotFound else .ioError, [],
        { stream with http2 }) := by
  rw [length_unread]
  by_cases few : stream.live < 4
  · rw [readMessage, if_neg (not_not_intro begun), fillAtLeast_empty few read]
    simp only
    rw [if_pos ⟨trivial, few⟩, if_pos few]
  · rw [Short, length_unread] at short
    obtain ⟨fits, few'⟩ := short.resolve_left few
    rw [readMessage_sized begun few (UInt32.not_lt.mpr fits), readSized,
      fillAtLeast_empty few' read, if_neg few]
    exact dif_pos few'

theorem readMessage_failed (begun : stream.begun = true) (short : Short stream.unread)
    (failed : status ≠ .ok)
    (read : stream.http2.readBody kH2MaxFramePayload = (status, chunk, http2)) :
    stream.readMessage = (status, [], { stream with http2 }) := by
  by_cases few : stream.live < 4
  · rw [readMessage, if_neg (not_not_intro begun), fillAtLeast_failed few failed read]
    cases status with
    | ok => exact (failed rfl).elim
    | _ => rfl
  · rw [Short, length_unread] at short
    obtain ⟨fits, few'⟩ := short.resolve_left few
    rw [readMessage_sized begun few (UInt32.not_lt.mpr fits), readSized,
      fillAtLeast_failed few' failed read]
    cases status with
    | ok => exact (failed rfl).elim
    | _ => rfl

/-- A whole message is returned without a read. -/
theorem readMessage_framed {message rest : Bytes} (begun : stream.begun = true)
    (sendable : Sendable message) (unread : stream.unread = framed message ++ rest) :
    ∃ next, stream.readMessage = (.ok, message, next) ∧ next.begun = true ∧
      next.http2 = stream.http2 ∧ next.unread = rest := by
  have size : messageLength stream.unread = UInt32.ofNat message.length := by
    rw [unread, messageLength_framed]
  have held : stream.live = 4 + message.length + rest.length := by
    rw [← length_unread, unread, List.length_append, length_framed]
  have fits : ¬ kMaxMapMessage < UInt32.ofNat message.length := by
    rw [UInt32.lt_iff_toNat_lt, toNat_length sendable.bounded]
    exact Nat.not_lt.mpr sendable.bounded
  have total : (4 + messageLength stream.unread).toNat = 4 + message.length := by
    rw [size, toNat_four_add fits, toNat_length sendable.bounded]
  have enough : (4 + messageLength stream.unread).toNat ≤ stream.live := by omega
  have text : (stream.unread.drop 4).take (messageLength stream.unread).toNat = message := by
    rw [size, toNat_length sendable.bounded, unread]
    simp [framed]
  have whole : (CString.ofBytes message).bytes = message := by
    refine List.takeWhile_eq_self_iff.mpr fun octet member => ?_
    exact decide_eq_true fun zero => sendable.no_nul (zero ▸ member)
  rw [readMessage_sized begun (by omega) (size ▸ fits), readSized, fillAtLeast_enough enough]
  simp only
  rw [dif_neg (Nat.not_lt.mpr enough), text, whole]
  refine ⟨_, rfl, ?_, ?_, ?_⟩
  · rw [begun_compact]
    exact begun
  · rw [http2_compact]
    rfl
  · rw [unread_compact, MapStream.unread, consume]
    simp only
    rw [← List.drop_drop, ← MapStream.unread, total, unread, ← length_framed, List.drop_left]

end ReadMessage

/-! ## Repeated calls -/

/-- Some number of calls returns these messages, and then this status. -/
def Returns (stream : MapStream) (messages : List Bytes) (status : Status) (final : MapStream) :
    Prop :=
  ∃ calls, stream.readAll calls = some (messages, status, final)

section Returns

variable {stream next final : MapStream} {messages : List Bytes} {message text : Bytes}
  {status last : Status}

theorem returns_message (read : stream.readMessage = (.ok, message, next)) :
    stream.Returns messages status final ↔
      ∃ more, messages = message :: more ∧ next.Returns more status final := by
  constructor
  · rintro ⟨calls, all⟩
    cases calls with
    | zero => cases all
    | succ calls =>
        rw [readAll, read] at all
        obtain ⟨⟨more, result⟩, rest, same⟩ := Option.map_eq_some_iff.mp all
        cases same
        exact ⟨more, rfl, calls, rest⟩
  · rintro ⟨more, rfl, calls, rest⟩
    refine ⟨calls + 1, ?_⟩
    rw [readAll, read]
    simp only
    rw [rest]
    rfl

theorem returns_wouldBlock (read : stream.readMessage = (.wouldBlock, text, next)) :
    stream.Returns messages status final ↔ next.Returns messages status final := by
  constructor
  · rintro ⟨calls, all⟩
    cases calls with
    | zero => cases all
    | succ calls =>
        rw [readAll, read] at all
        exact ⟨calls, all⟩
  · rintro ⟨calls, rest⟩
    refine ⟨calls + 1, ?_⟩
    rw [readAll, read]
    exact rest

theorem returns_last (read : stream.readMessage = (last, text, next)) (notOk : last ≠ .ok)
    (notBlocked : last ≠ .wouldBlock) :
    stream.Returns messages status final ↔ messages = [] ∧ status = last ∧ final = next := by
  have stops (calls : Nat) : stream.readAll (calls + 1) = some ([], last, next) := by
    rw [readAll, read]
    cases last with
    | ok => exact (notOk rfl).elim
    | wouldBlock => exact (notBlocked rfl).elim
    | _ => rfl
  constructor
  · rintro ⟨calls, all⟩
    cases calls with
    | zero => cases all
    | succ calls =>
        rw [stops] at all
        cases all
        exact ⟨rfl, rfl, rfl⟩
  · rintro ⟨rfl, rfl, rfl⟩
    exact ⟨1, stops 0⟩

theorem returns_same {other : MapStream} (same : stream.readMessage = other.readMessage) :
    stream.Returns messages status final ↔ other.Returns messages status final := by
  have all (calls : Nat) : stream.readAll calls = other.readAll calls := by
    cases calls with
    | zero => rfl
    | succ calls => rw [readAll, readAll, same]
  exact exists_congr fun calls => by rw [all]

end Returns

/-- The calls return exactly these messages, and then the end of the stream if `whole` and an
error otherwise; the end is returned only after the stream's end and with nothing left. -/
def Delivers (stream : MapStream) (messages : List Bytes) (whole : Prop) : Prop :=
  ∃ status final, stream.Returns messages status final ∧ (status = .entryNotFound ↔ whole) ∧
    (status = .entryNotFound → final.http2.reqEnded = true ∧ final.unread = [])

section Delivers

variable {stream : MapStream} {http2 : Http2Client} {messages : List Bytes} {whole : Prop}

theorem delivers_congr {other : MapStream}
    (same : ∀ status final, stream.Returns messages status final ↔
      other.Returns messages status final) :
    stream.Delivers messages whole ↔ other.Delivers messages whole :=
  exists₂_congr fun status final => and_congr (same status final) Iff.rfl

theorem delivers_last {status : Status} {text : Bytes} {next : MapStream}
    (read : stream.readMessage = (status, text, next)) (notOk : status ≠ .ok)
    (notBlocked : status ≠ .wouldBlock) :
    stream.Delivers messages whole ↔ messages = [] ∧ (status = .entryNotFound ↔ whole) ∧
      (status = .entryNotFound → next.http2.reqEnded = true ∧ next.unread = []) := by
  constructor
  · rintro ⟨status, final, returns, clean⟩
    obtain ⟨none, rfl, rfl⟩ := (returns_last read notOk notBlocked).mp returns
    exact ⟨none, clean⟩
  · rintro ⟨none, clean⟩
    exact ⟨status, next, (returns_last read notOk notBlocked).mpr ⟨none, rfl, rfl⟩, clean⟩

theorem delivers_empty (begun : stream.begun = true) (short : Short stream.unread)
    (read : stream.http2.readBody kH2MaxFramePayload = (.ok, [], http2)) :
    stream.Delivers messages whole ↔ messages = [] ∧
      if stream.unread.length < 4 then whole ∧ http2.reqEnded = true ∧ stream.unread = []
      else ¬ whole := by
  have once := readMessage_empty begun short read
  split
  next few =>
    rw [if_pos few] at once
    rw [delivers_last once nofun nofun]
    have same : ({ stream with http2 } : MapStream).unread = stream.unread := rfl
    simp [same]
  next four =>
    rw [if_neg four] at once
    rw [delivers_last once nofun nofun]
    simp

theorem delivers_failed {status : Status} {chunk : Bytes} (begun : stream.begun = true)
    (short : Short stream.unread) (notOk : status ≠ .ok) (notBlocked : status ≠ .wouldBlock)
    (notEnd : status ≠ .entryNotFound)
    (read : stream.http2.readBody kH2MaxFramePayload = (status, chunk, http2)) :
    stream.Delivers messages whole ↔ messages = [] ∧ ¬ whole := by
  rw [delivers_last (readMessage_failed begun short notOk read) notOk notBlocked]
  simp [notEnd]

end Delivers

/-! ## Every split of the framed messages -/

/-- What is left of a stream cut before the end of a message. -/
def Cut (tail : Bytes) : Prop :=
  ∃ message, message.length ≤ kMaxMapMessageSize ∧ tail <+: framed message ∧
    tail.length < (framed message).length

theorem Cut.short {tail unread : Bytes} (cut : Cut tail) (part : unread <+: tail) :
    Short unread := by
  obtain ⟨message, bounded, inside, proper⟩ := cut
  exact short_of_cut bounded (part.trans inside) (Nat.lt_of_le_of_lt part.length_le proper)

/-- The same calls, with the whole messages of the accumulator already returned. -/
structure Drained (messages left : List Bytes) (stream next : MapStream) : Prop where
  begun : next.begun = true
  http2 : next.http2 = stream.http2
  short : Short next.unread
  returned : ∃ done, messages = done ++ left ∧
    stream.unread = done.flatMap framed ++ next.unread ∧
    ∀ whole, stream.Delivers messages whole ↔ next.Delivers left whole

theorem delivers_message {stream next : MapStream} {message : Bytes} {messages : List Bytes}
    {whole : Prop} (read : stream.readMessage = (.ok, message, next)) :
    stream.Delivers (message :: messages) whole ↔ next.Delivers messages whole := by
  refine exists₂_congr fun status final => and_congr ?_ Iff.rfl
  rw [returns_message read]
  constructor
  · rintro ⟨more, same, returns⟩
    cases same
    exact returns
  · intro returns
    exact ⟨messages, rfl, returns⟩

theorem exists_drained {tail : Bytes} (cut : Cut tail) {messages : List Bytes}
    (sendable : ∀ message ∈ messages, Sendable message) {stream : MapStream}
    (begun : stream.begun = true) (part : stream.unread <+: messages.flatMap framed ++ tail) :
    ∃ left next, Drained messages left stream next := by
  induction messages generalizing stream with
  | nil =>
      exact ⟨[], stream, begun, rfl, cut.short part, [], rfl, rfl, fun _ => Iff.rfl⟩
  | cons message messages continued =>
      have first := sendable message List.mem_cons_self
      rw [List.flatMap_cons, List.append_assoc] at part
      by_cases whole : (framed message).length ≤ stream.unread.length
      · obtain ⟨rest, split⟩ :=
          List.prefix_of_prefix_length_le (List.prefix_append _ _) part whole
        obtain ⟨middle, read, started, client, unread⟩ :=
          readMessage_framed begun first split.symm
        rw [← split, List.prefix_append_right_inj, ← unread] at part
        obtain ⟨left, next, drained⟩ := continued
          (fun later member => sendable later (List.mem_cons_of_mem _ member)) started part
        obtain ⟨done, same, octets, delivers⟩ := drained.returned
        refine ⟨left, next, drained.begun, drained.http2.trans client, drained.short,
          message :: done, ?_, ?_, fun whole => ?_⟩
        · rw [same]
          rfl
        · rw [← split, ← unread, octets, List.flatMap_cons, List.append_assoc]
        · rw [delivers_message read, delivers whole]
      · have proper := Nat.not_le.mp whole
        have inside : stream.unread <+: framed message :=
          List.prefix_of_prefix_length_le part (List.prefix_append _ _) (Nat.le_of_lt proper)
        exact ⟨message :: messages, stream, begun, rfl, short_of_cut first.bounded inside proper,
          [], rfl, rfl, fun _ => Iff.rfl⟩

theorem left_eq_nil {left : List Bytes} (sendable : ∀ message ∈ left, Sendable message)
    {unread tail : Bytes} (short : Short unread) (octets : unread = left.flatMap framed ++ tail) :
    left = [] := by
  cases left with
  | nil => rfl
  | cons message left =>
      rw [octets, List.flatMap_cons, List.append_assoc] at short
      exact (not_short_framed (sendable message List.mem_cons_self).bounded _ short).elim

/-- No empty DATA frame comes before four octets of the unfinished message, and the stream
does not end inside a length. -/
structure Unbroken (before : Nat) (body : List (Except Status Http2Frame))
    (messages : List Bytes) (tail : Bytes) (clean : Bool) : Prop where
  ended : clean = true → tail = [] ∨ 4 ≤ tail.length
  empty : ∀ front frame back, body = front ++ .ok frame :: back → frame.content = [] →
    (messages.flatMap framed).length + 4 ≤ before + (poured front).length

theorem unbroken_nil {before : Nat} {messages : List Bytes} {tail : Bytes} {clean : Bool} :
    Unbroken before [] messages tail clean ↔ (clean = true → tail = [] ∨ 4 ≤ tail.length) := by
  refine ⟨Unbroken.ended, fun ended => ⟨ended, fun front frame back split => ?_⟩⟩
  exact (List.append_ne_nil_of_right_ne_nil _ (List.cons_ne_nil _ _) split.symm).elim

theorem unbroken_cons {before : Nat} {result : Except Status Http2Frame}
    {body : List (Except Status Http2Frame)} {messages : List Bytes} {tail : Bytes}
    {clean : Bool} : Unbroken before (result :: body) messages tail clean ↔
      (∀ frame, result = .ok frame → frame.content = [] →
        (messages.flatMap framed).length + 4 ≤ before) ∧
      Unbroken (before + (pouredBy result).length) body messages tail clean := by
  constructor
  · intro unbroken
    refine ⟨fun frame same none => ?_, unbroken.ended, fun front frame back split none => ?_⟩
    · exact unbroken.empty [] frame body (by rw [same, List.nil_append]) none
    · have later := unbroken.empty (result :: front) frame back (by rw [split, List.cons_append]) none
      rwa [poured, List.flatMap_cons, List.length_append, ← Nat.add_assoc] at later
  · rintro ⟨first, rest⟩
    refine ⟨rest.ended, fun front frame back split none => ?_⟩
    cases front with
    | nil =>
        cases split
        exact first frame rfl none
    | cons head front =>
        cases split
        rw [poured, List.flatMap_cons, List.length_append, ← Nat.add_assoc]
        exact rest.empty front frame back rfl none

theorem Drained.unbroken_iff {messages left : List Bytes} {stream next : MapStream}
    (drained : Drained messages left stream next) {body : List (Except Status Http2Frame)}
    {tail : Bytes} {clean : Bool} :
    Unbroken stream.unread.length body messages tail clean ↔
      Unbroken next.unread.length body left tail clean := by
  obtain ⟨done, rfl, octets, -⟩ := drained.returned
  have shift (size : Nat) : ((done ++ left).flatMap framed).length + 4 ≤
      stream.unread.length + size ↔
      (left.flatMap framed).length + 4 ≤ next.unread.length + size := by
    rw [octets, List.flatMap_append, List.length_append, List.length_append]
    omega
  constructor
  · intro unbroken
    exact ⟨unbroken.ended, fun front frame back split none =>
      (shift _).mp (unbroken.empty front frame back split none)⟩
  · intro unbroken
    exact ⟨unbroken.ended, fun front frame back split none =>
      (shift _).mpr (unbroken.empty front frame back split none)⟩

section Splits

variable {tail : Bytes} {messages : List Bytes} {stream : MapStream} {http2 : Http2Client}

/-- All has arrived, and the next read finds the stream ended. -/
theorem delivers_end (sendable : ∀ message ∈ messages, Sendable message)
    (begun : stream.begun = true) (short : Short stream.unread)
    (octets : stream.unread = messages.flatMap framed ++ tail)
    (read : stream.http2.readBody kH2MaxFramePayload = (.ok, [], http2))
    (ended : http2.reqEnded = true) :
    stream.Delivers messages (tail = []) ↔ tail = [] ∨ 4 ≤ tail.length := by
  cases left_eq_nil sendable short octets
  have rest : stream.unread = tail := octets
  rw [delivers_empty begun short read, ended, rest]
  by_cases few : tail.length < 4
  · rw [if_pos few]
    have notFour : ¬ 4 ≤ tail.length := Nat.not_le.mpr few
    tauto
  · have some : tail ≠ [] := by
      rintro rfl
      exact few (by decide)
    have four : 4 ≤ tail.length := Nat.not_lt.mp few
    rw [if_neg few]
    tauto

theorem delivers_ended (cut : Cut tail) (sendable : ∀ message ∈ messages, Sendable message)
    (begun : stream.begun = true) (ended : stream.http2.reqEnded = true)
    (octets : stream.unread = messages.flatMap framed ++ tail) :
    stream.Delivers messages (tail = []) ↔ tail = [] ∨ 4 ≤ tail.length := by
  obtain ⟨left, next, drained⟩ :=
    exists_drained cut sendable begun (octets ▸ List.prefix_rfl)
  obtain ⟨done, rfl, split, delivers⟩ := drained.returned
  rw [split, List.flatMap_append, List.append_assoc, List.append_cancel_left_eq] at octets
  rw [delivers]
  exact delivers_end (fun message member => sendable message (List.mem_append_right _ member))
    drained.begun drained.short octets (Http2Client.readBody_ended (drained.http2 ▸ ended) _)
    (drained.http2 ▸ ended)

/-- The end of the body, with no whole message in the accumulator. -/
theorem delivers_ending (cut : Cut tail) (sendable : ∀ message ∈ messages, Sendable message)
    {streamId : UInt32} (ending : Ending streamId) (begun : stream.begun = true)
    (short : Short stream.unread) (streaming : stream.http2.reqEnded = false)
    (same : stream.http2.reqStream = streamId) (incoming : stream.http2.incoming = ending.results)
    (octets : stream.unread ++ ending.content = messages.flatMap framed ++ tail) :
    stream.Delivers messages (ending.clean = true ∧ tail = []) ↔
      (ending.clean = true → tail = [] ∨ 4 ≤ tail.length) := by
  subst same
  cases ending with
  | lost =>
      have all : stream.unread = messages.flatMap framed ++ tail := by
        rwa [Ending.content, List.append_nil] at octets
      have failed := Http2Client.readBody_lost streaming incoming
      rw [delivers_failed begun short (by nofun) (by nofun) (by nofun) failed]
      simp [Ending.clean, left_eq_nil sendable short all]
  | data frame carries ends after =>
      obtain ⟨http2, read, taken⟩ := Http2Client.readBody_data streaming incoming carries
      have ended : http2.reqEnded = true := taken.ended.trans ends
      simp only [Ending.clean, true_and, true_implies]
      by_cases none : frame.content = []
      · rw [none] at read
        rw [Ending.content, none, List.append_nil] at octets
        exact delivers_end sendable begun short octets read ended
      · have once := readMessage_chunk begun short none read
        rw [delivers_congr fun status final => returns_same once]
        refine delivers_ended cut sendable (by rw [begun_received, begun]) ended ?_
        rw [unread_received]
        exact octets
  | trailers frame headers onStream ends after =>
      obtain ⟨http2, read, taken⟩ :=
        Http2Client.readBody_trailers streaming incoming headers onStream ends
      rw [Ending.content, List.append_nil] at octets
      simp only [Ending.clean, true_and, true_implies]
      exact delivers_end sendable begun short octets read taken.ended

/-- An empty frame in the middle of the body does no harm only after the last message, where
it makes an error of an unfinished one. -/
theorem empty_iff (sendable : ∀ message ∈ messages, Sendable message) {unread : Bytes}
    (short : Short unread) (part : unread <+: messages.flatMap framed ++ tail)
    {frame : Http2Frame} (none : frame.content = []) {body : List (Except Status Http2Frame)}
    {clean : Bool} :
    (messages = [] ∧
      if unread.length < 4 then (clean = true ∧ tail = []) ∧ false = true ∧ unread = []
      else ¬(clean = true ∧ tail = [])) ↔
      (∀ other, Except.ok frame = (.ok other : Except Status Http2Frame) → other.content = [] →
        (messages.flatMap framed).length + 4 ≤ unread.length) ∧
      Unbroken (unread.length + (pouredBy (.ok frame)).length) body messages tail clean := by
  constructor
  · rintro ⟨rfl, rest⟩
    have four : ¬ unread.length < 4 := fun few => by simp [few] at rest
    have long : unread.length ≤ tail.length := part.length_le
    refine ⟨fun other _ _ => ?_, fun _ => .inr (by omega), fun front other back _ _ => ?_⟩
    · rw [List.flatMap_nil, List.length_nil]
      omega
    · rw [List.flatMap_nil, List.length_nil]
      omega
  · rintro ⟨first, -⟩
    have enough := first frame rfl none
    have whole : messages.flatMap framed <+: unread :=
      List.prefix_of_prefix_length_le (List.prefix_append _ _) part (by omega)
    obtain ⟨rest, split⟩ := whole
    cases left_eq_nil sendable short split.symm
    have long : unread.length ≤ tail.length := part.length_le
    have four : ¬ unread.length < 4 := by omega
    refine ⟨rfl, ?_⟩
    rw [if_neg four]
    rintro ⟨-, rfl⟩
    exact four (Nat.lt_of_le_of_lt long (by decide))

theorem delivers_iff_unbroken (cut : Cut tail) {streamId : UInt32} (ending : Ending streamId)
    {body : List (Except Status Http2Frame)} (pours : ∀ result ∈ body, Pours streamId result)
    (sendable : ∀ message ∈ messages, Sendable message) (begun : stream.begun = true)
    (streaming : stream.http2.reqEnded = false) (same : stream.http2.reqStream = streamId)
    (incoming : stream.http2.incoming = body ++ ending.results)
    (octets : stream.unread ++ (poured body ++ ending.content) =
      messages.flatMap framed ++ tail) :
    stream.Delivers messages (ending.clean = true ∧ tail = []) ↔
      Unbroken stream.unread.length body messages tail ending.clean := by
  induction body generalizing stream messages with
  | nil =>
      obtain ⟨left, next, drained⟩ := exists_drained cut sendable begun ⟨_, octets⟩
      obtain ⟨done, rfl, split, delivers⟩ := drained.returned
      rw [split, List.flatMap_append, List.append_assoc, List.append_assoc,
        List.append_cancel_left_eq] at octets
      rw [delivers, unbroken_nil]
      exact delivers_ending cut
        (fun message member => sendable message (List.mem_append_right _ member)) ending
        drained.begun drained.short (drained.http2 ▸ streaming) (drained.http2 ▸ same)
        (drained.http2 ▸ incoming) octets
  | cons result body continued =>
      obtain ⟨left, next, drained⟩ := exists_drained cut sendable begun ⟨_, octets⟩
      obtain ⟨done, rfl, split, delivers⟩ := drained.returned
      rw [split, List.flatMap_append, List.append_assoc, List.append_assoc,
        List.append_cancel_left_eq, poured, List.flatMap_cons, List.append_assoc] at octets
      rw [delivers, drained.unbroken_iff, unbroken_cons]
      have sent (message : Bytes) (member : message ∈ left) : Sendable message :=
        sendable message (List.mem_append_right _ member)
      have pourRest (later : Except Status Http2Frame) (member : later ∈ body) :
          Pours streamId later := pours later (List.mem_cons_of_mem _ member)
      rw [← drained.http2] at streaming same incoming
      have started := drained.begun
      have short := drained.short
      cases result with
      | error status =>
          cases (pours _ List.mem_cons_self : status = .wouldBlock)
          have blocked := Http2Client.readBody_error streaming incoming
          have read := readMessage_failed started short (by nofun) blocked
          rw [delivers_congr fun status final => returns_wouldBlock read]
          refine (@continued left
            { next with http2 := { next.http2 with incoming := body ++ ending.results } }
            pourRest sent started streaming same rfl octets).trans ?_
          simp only [reduceCtorEq, false_implies, implies_true, true_and]
          rfl
      | ok frame =>
          obtain ⟨carries, open_⟩ := pours _ List.mem_cons_self
          subst same
          obtain ⟨http2, read, taken⟩ := Http2Client.readBody_data streaming incoming carries
          have still : http2.reqEnded = false := taken.ended.trans (Bool.eq_false_of_not_eq_true open_)
          by_cases none : frame.content = []
          · rw [none] at read
            rw [delivers_empty started short read, still]
            exact empty_iff sent short ⟨_, octets⟩ none
          · have once := readMessage_chunk started short none read
            rw [delivers_congr fun status final => returns_same once]
            have started' : (next.received http2 frame.content).begun = true := by
              rw [begun_received, started]
            have octets' : (next.received http2 frame.content).unread ++
                (poured body ++ ending.content) = left.flatMap framed ++ tail := by
              rw [unread_received, List.append_assoc]
              exact octets
            rw [continued pourRest sent started' still taken.stream taken.incoming octets',
              unread_received, List.length_append]
            simp only [Except.ok.injEq, forall_eq', none, false_implies, true_and]
            rfl

end Splits

theorem messages_delivered_iff (http2 : Http2Client) (streaming : http2.reqEnded = false)
    (response : Response http2.reqStream) (incoming : http2.incoming = response.incoming)
    (messages : List Bytes) (sendable : ∀ message ∈ messages, Sendable message) (tail : Bytes)
    (cut : Cut tail) (octets : response.octets = messages.flatMap framed ++ tail) :
    (reading http2).Delivers messages (response.ending.clean = true ∧ tail = []) ↔
      Unbroken 0 response.body messages tail response.ending.clean :=
  delivers_iff_unbroken cut response.ending response.pours sendable rfl streaming rfl incoming octets

/-! An empty frame in front of an empty message. -/

namespace Sample

def dataFrame (flags : UInt8) (payload : Bytes) : Http2Frame where
  type := h2Data
  flags
  streamId := 1
  payload

theorem carries (flags : UInt8) (payload : Bytes) (plain : flags &&& h2FlagPadded = 0) :
    (dataFrame flags payload).Carries 1 where
  data := rfl
  stream := rfl
  padding padded := by simp [Http2Frame.has, dataFrame, plain] at padded

def emptyFirst : Response 1 where
  body := [.ok (dataFrame 0 [])]
  pours result member := by
    cases List.mem_singleton.mp member
    exact ⟨carries 0 [] (by decide), by decide⟩
  ending := .data (dataFrame h2FlagEndStream [0, 0, 0, 0]) (carries _ _ (by decide)) (by decide) []

def client : Http2Client where
  incoming := emptyFirst.incoming
  reqStream := 1
  reqEnded := false

theorem sendable : ∀ message ∈ [[]], Sendable message := by
  intro message member
  cases List.mem_singleton.mp member
  exact ⟨by decide, by decide⟩

theorem cut : Cut [] := ⟨[], by decide, by decide, by decide⟩

end Sample

theorem empty_frame_ends_stream : ¬ ∀ (http2 : Http2Client), http2.reqEnded = false →
    ∀ response : Response http2.reqStream, http2.incoming = response.incoming →
    ∀ messages : List Bytes, (∀ message ∈ messages, Sendable message) → ∀ tail, Cut tail →
    response.octets = messages.flatMap framed ++ tail →
    (reading http2).Delivers messages (response.ending.clean = true ∧ tail = []) := by
  intro always
  have delivered := always Sample.client rfl Sample.emptyFirst rfl [[]] Sample.sendable [] Sample.cut
    (by decide)
  have unbroken : Unbroken 0 Sample.emptyFirst.body [[]] [] true :=
    (delivers_iff_unbroken Sample.cut Sample.emptyFirst.ending Sample.emptyFirst.pours
      Sample.sendable rfl rfl rfl rfl (by decide)).mp delivered
  exact absurd (unbroken.empty [] (Sample.dataFrame 0 []) [] rfl rfl) (by decide)

theorem messages_delivered_iff_sample :
    (reading Sample.client).Delivers [[]] (Sample.emptyFirst.ending.clean = true ∧ [] = ([] : Bytes)) ↔
      Unbroken 0 Sample.emptyFirst.body [[]] [] Sample.emptyFirst.ending.clean :=
  messages_delivered_iff Sample.client rfl Sample.emptyFirst rfl [[]] Sample.sendable [] Sample.cut
    (by decide)

end MapStream

end Sotoportego.Tailscale
