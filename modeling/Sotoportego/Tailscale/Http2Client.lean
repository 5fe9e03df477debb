import Sotoportego.Tailscale.Hpack
import Sotoportego.Tailscale.Http2

/-!
# Requests over HTTP/2

`Http2Conn` above its frames: `BeginRequest` and `ReadBody`, over the results that the calls
of `ReadFrame` will have and the frames that `WriteFrame` has taken.
-/

set_option autoImplicit false

namespace Sotoportego.Tailscale

open Octets CText

def h2Data : UInt8 := 0

def h2Headers : UInt8 := 1

def h2RstStream : UInt8 := 3

def h2Settings : UInt8 := 4

def h2Ping : UInt8 := 6

def h2GoAway : UInt8 := 7

def h2WindowUpdate : UInt8 := 8

def h2Continuation : UInt8 := 9

def h2FlagAck : UInt8 := 1

def h2FlagEndStream : UInt8 := 1

def h2FlagEndHeaders : UInt8 := 4

def h2FlagPadded : UInt8 := 8

def h2FlagPriority : UInt8 := 0x20

/-- The rounds of the two frame loops. -/
def kFrameBudget : Nat := 100000

namespace Http2Frame

def has (frame : Http2Frame) (flag : UInt8) : Bool :=
  frame.flags &&& flag ≠ 0

def size (frame : Http2Frame) : Nat := frame.payload.length

/-- The part of a header block that `BeginRequest` takes from a frame. -/
def fragment (frame : Http2Frame) : Bytes :=
  let headers := frame.type = h2Headers
  let padded := headers ∧ frame.has h2FlagPadded ∧ 0 < frame.size
  let off := (if padded then 1 else 0) + if headers ∧ frame.has h2FlagPriority then 5 else 0
  let pad := if padded then (octetAt frame.payload 0).toNat else 0
  if off + pad ≤ frame.size then (frame.payload.take (frame.size - pad)).drop off else []

/-- The part of a DATA frame that `ReadBody` copies; a padding longer than the frame makes the
length wrap around. -/
def content (frame : Http2Frame) : Bytes :=
  let padded := frame.has h2FlagPadded ∧ 0 < frame.size
  let off := if padded then 1 else 0
  let stop :=
    if padded then (frame.size + 2 ^ 64 - (octetAt frame.payload 0).toNat) % 2 ^ 64 else frame.size
  (frame.payload.drop off).take (stop - off)

/-- The length of that copy, which is more than the payload has when it wraps around. -/
def copied (frame : Http2Frame) : Nat :=
  let padded := frame.has h2FlagPadded ∧ 0 < frame.size
  let off := if padded then 1 else 0
  let stop :=
    if padded then (frame.size + 2 ^ 64 - (octetAt frame.payload 0).toNat) % 2 ^ 64 else frame.size
  if off < stop then stop - off else 0

end Http2Frame

structure Http2Client where
  /-- What the next calls of `ReadFrame` return; after that the connection has ended. -/
  incoming : List (Except Status Http2Frame)
  /-- What `WriteFrame` has taken. -/
  outgoing : List Http2Frame := []
  lastError : String := ""
  nextStreamId : UInt32 := 1
  reqStream : UInt32 := 0
  reqEnded : Bool := true
  decoder : HpackDecoder := {}
  /-- The frames read since `Init`; nothing reads it. -/
  seen : List Http2Frame := []

namespace Http2Client

/-- `Init` on a new connection. -/
def init (incoming : List (Except Status Http2Frame)) (client : Http2Client) : Http2Client :=
  { client with
    incoming, outgoing := [], nextStreamId := 1, reqStream := 0, reqEnded := true, seen := [] }

def readFrame (client : Http2Client) : Except Status Http2Frame × Http2Client :=
  match client.incoming with
  | [] => (.error .ioError, client)
  | .error status :: incoming => (.error status, { client with incoming })
  | .ok frame :: incoming => (.ok frame, { client with incoming, seen := client.seen ++ [frame] })

def writeFrame (type flags : UInt8) (streamId : UInt32) (payload : Bytes) (client : Http2Client) :
    Status × Http2Client :=
  if kH2MaxFramePayload < payload.length then (.badValue, client)
  else (.ok, { client with outgoing := client.outgoing ++ [⟨type, flags, streamId, payload⟩] })

/-- A frame that both loops answer and pass over. -/
def answer (frame : Http2Frame) (payload : Bytes) (client : Http2Client) : Http2Client :=
  if frame.has h2FlagAck then client
  else (client.writeFrame frame.type h2FlagAck 0 payload).2

/-- The header block of `BeginRequest`. -/
def requestHeaders (method scheme path authority : CString) (contentType : Option CString)
    (bodyLen : Nat) : Bytes :=
  HpackEncoder.addHeader (.ofBytes (ascii ":method")) method ++
    HpackEncoder.addHeader (.ofBytes (ascii ":scheme")) scheme ++
    HpackEncoder.addHeader (.ofBytes (ascii ":path")) path ++
    HpackEncoder.addHeader (.ofBytes (ascii ":authority")) authority ++
    if 0 < bodyLen then
      (match contentType with
        | some contentType => HpackEncoder.addHeader (.ofBytes (ascii "content-type")) contentType
        | none => []) ++
        HpackEncoder.addHeader (.ofBytes (ascii "content-length")) (.ofBytes (ascii (toString bodyLen)))
    else []

/-- The last `:status` among the headers. -/
def statusOf (headers : List HpackHeader) : Int :=
  headers.foldl (fun status header =>
    if header.name = ascii ":status" then atoi (.ofBytes header.value) else status) 0

/-- The frame loop of `BeginRequest`; the number is `*outStatus`. -/
def readHeaders (streamId : UInt32) :
    Nat → Bytes → Http2Client → Status × Option Int × Http2Client
  | 0, _, client => (.error, none, { client with lastError := "no response HEADERS" })
  | budget + 1, headerBlock, client =>
      match client.readFrame with
      | (.error status, client) => (status, none, client)
      | (.ok frame, client) =>
          if frame.type = h2Settings then
            readHeaders streamId budget headerBlock (client.answer frame [])
          else if frame.type = h2Ping then
            readHeaders streamId budget headerBlock (client.answer frame frame.payload)
          else if frame.type = h2GoAway then
            (.error, none, { client with lastError := "server sent GOAWAY" })
          else if frame.type = h2RstStream ∧ frame.streamId = streamId then
            (.error, none, { client with lastError := "server reset the request stream" })
          else if (frame.type = h2Headers ∨ frame.type = h2Continuation) ∧
              frame.streamId = streamId then
            let headerBlock := headerBlock ++ frame.fragment
            let client := { client with reqEnded := client.reqEnded || frame.has h2FlagEndStream }
            if frame.has h2FlagEndHeaders then
              let (decoded, headers, decoder) := client.decoder.decode headerBlock
              (.ok, some (if decoded then statusOf headers else 0), { client with decoder })
            else readHeaders streamId budget headerBlock client
          else readHeaders streamId budget headerBlock client

def beginRequest (method scheme authority path : CString) (contentType : Option CString)
    (body : Bytes) (client : Http2Client) : Status × Option Int × Http2Client :=
  let streamId := client.nextStreamId
  let client := { client with
    nextStreamId := client.nextStreamId + 2, reqStream := streamId, reqEnded := false }
  let headers := requestHeaders method scheme path authority contentType body.length
  let flags := h2FlagEndHeaders ||| if 0 < body.length then 0 else h2FlagEndStream
  match client.writeFrame h2Headers flags streamId headers with
  | (.ok, client) =>
      if 0 < body.length then
        match client.writeFrame h2Data h2FlagEndStream streamId body with
        | (.ok, client) => readHeaders streamId kFrameBudget [] client
        | (status, client) => (status, none, client)
      else readHeaders streamId kFrameBudget [] client
  | (status, client) => (status, none, client)

/-- Gives back the flow-control credit of a DATA frame. -/
def replenish (frame : Http2Frame) (client : Http2Client) : Http2Client :=
  if 0 < frame.size then
    let increment : Bytes :=
      [UInt8.ofNat (frame.size >>> 24), UInt8.ofNat (frame.size >>> 16),
        UInt8.ofNat (frame.size >>> 8), UInt8.ofNat frame.size]
    ((client.writeFrame h2WindowUpdate 0 client.reqStream increment).2.writeFrame
      h2WindowUpdate 0 0 increment).2
  else client

/-- The frame loop of `ReadBody`. -/
def readContent : Nat → Http2Client → Status × Bytes × Http2Client
  | 0, client => (.error, [], { client with lastError := "body read exceeded frame budget" })
  | budget + 1, client =>
      match client.readFrame with
      | (.error status, client) => (status, [], client)
      | (.ok frame, client) =>
          if frame.type = h2Settings then readContent budget (client.answer frame [])
          else if frame.type = h2Ping then readContent budget (client.answer frame frame.payload)
          else if frame.type = h2GoAway then
            (.error, [], { client with lastError := "server sent GOAWAY" })
          else if frame.type = h2RstStream ∧ frame.streamId = client.reqStream then
            (.error, [], { client with lastError := "server reset the stream" })
          else if frame.type = h2Data ∧ frame.streamId = client.reqStream then
            let client := client.replenish frame
            (.ok, frame.content,
              { client with reqEnded := client.reqEnded || frame.has h2FlagEndStream })
          else if frame.type = h2Headers ∧ frame.streamId = client.reqStream ∧
              frame.has h2FlagEndStream then
            (.ok, [], { client with reqEnded := true })
          else readContent budget client

def readBody (cap : Nat) (client : Http2Client) : Status × Bytes × Http2Client :=
  if client.reqEnded then (.ok, [], client)
  else if cap < kH2MaxFramePayload then (.badValue, [], client)
  else client.readContent kFrameBudget

/-- The SETTINGS exchange of `Bootstrap`, after the client's own SETTINGS. -/
def exchangeSettings : Nat → Bool → Bool → Http2Client → Status × Http2Client
  | rounds, ours, theirs, client =>
      if ours && theirs then (.ok, client)
      else
        match rounds with
        | 0 => (.error, { client with lastError := "HTTP/2 SETTINGS handshake did not complete" })
        | rounds + 1 =>
            match client.readFrame with
            | (.error status, client) => (status, client)
            | (.ok frame, client) =>
                if frame.type = h2Settings then
                  if frame.has h2FlagAck then exchangeSettings rounds true theirs client
                  else
                    exchangeSettings rounds ours true (client.writeFrame h2Settings h2FlagAck 0 []).2
                else if frame.type = h2GoAway then
                  (.error, { client with
                    lastError := "server sent GOAWAY during HTTP/2 handshake" })
                else exchangeSettings rounds ours theirs client

/-! What is written changes nothing else. -/

section Written

variable (client : Http2Client) (type flags : UInt8) (streamId : UInt32) (payload : Bytes)
  (frame : Http2Frame)

theorem writeFrame_written :
    ∃ outgoing, (client.writeFrame type flags streamId payload).2 = { client with outgoing } := by
  rw [writeFrame]
  split
  next => exact ⟨client.outgoing, rfl⟩
  next => exact ⟨_, rfl⟩

theorem answer_written : ∃ outgoing, client.answer frame payload = { client with outgoing } := by
  rw [answer]
  split
  next => exact ⟨client.outgoing, rfl⟩
  next => exact writeFrame_written _ _ _ _ _

theorem replenish_written : ∃ outgoing, client.replenish frame = { client with outgoing } := by
  rw [replenish]
  split
  next =>
    obtain ⟨first, same⟩ := client.writeFrame_written h2WindowUpdate 0 client.reqStream
      [UInt8.ofNat (frame.size >>> 24), UInt8.ofNat (frame.size >>> 16),
        UInt8.ofNat (frame.size >>> 8), UInt8.ofNat frame.size]
    simp only [same]
    exact writeFrame_written _ _ _ _ _
  next => exact ⟨client.outgoing, rfl⟩

end Written

/-! ## A whole exchange -/

theorem readContent_shorter {budget : Nat} {client next : Http2Client} {chunk : Bytes}
    (read : client.readContent budget = (.ok, chunk, next)) :
    next.incoming.length < client.incoming.length := by
  induction budget generalizing client with
  | zero => cases read
  | succ budget continued =>
      rw [readContent] at read
      cases front : client.incoming with
      | nil =>
          rw [readFrame, front] at read
          cases read
      | cons result incoming =>
          rw [readFrame, front] at read
          cases result with
          | error status =>
              cases read
              exact Nat.lt_succ_self _
          | ok frame =>
              have onward {later : Http2Client} (same : later.incoming = incoming)
                  (rest : later.readContent budget = (.ok, chunk, next)) :
                  next.incoming.length < incoming.length + 1 :=
                Nat.lt_succ_of_lt (same ▸ continued rest)
              simp only at read
              split at read
              next =>
                obtain ⟨outgoing, written⟩ := answer_written _ [] frame
                rw [written] at read
                exact onward rfl read
              next =>
                split at read
                next =>
                  obtain ⟨outgoing, written⟩ := answer_written _ frame.payload frame
                  rw [written] at read
                  exact onward rfl read
                next =>
                  split at read
                  next => cases read
                  next =>
                    split at read
                    next => cases read
                    next =>
                      split at read
                      next =>
                        obtain ⟨outgoing, written⟩ := replenish_written _ frame
                        rw [written] at read
                        cases read
                        exact Nat.lt_succ_self _
                      next =>
                        split at read
                        next =>
                          cases read
                          exact Nat.lt_succ_self _
                        next => exact onward rfl read

/-- A call at the end of the stream reads nothing. -/
theorem readBody_ended {client : Http2Client} (ended : client.reqEnded = true) (cap : Nat) :
    client.readBody cap = (.ok, [], client) := by
  rw [readBody, if_pos ended]

theorem readBody_shorter {cap : Nat} {client next : Http2Client} {chunk : Bytes}
    (read : client.readBody cap = (.ok, chunk, next)) (streaming : ¬ next.reqEnded) :
    next.incoming.length < client.incoming.length := by
  rw [readBody] at read
  split at read
  next ended =>
    cases read
    exact (streaming ended).elim
  next =>
    split at read
    next => cases read
    next => exact readContent_shorter read

/-- The body loop of `Request`; `BString::Append` stops at a NUL in each chunk. -/
def readWhole (respBody : Bytes) (client : Http2Client) : Status × Bytes × Http2Client :=
  match _ : client.readBody kH2MaxFramePayload with
  | (.ok, chunk, next) =>
      let respBody := respBody ++ (CString.ofBytes chunk).bytes
      if next.reqEnded then (.ok, respBody, next) else readWhole respBody next
  | (status, _, next) => (status, respBody, next)
termination_by client.incoming.length
decreasing_by exact readBody_shorter (by assumption) (by assumption)

theorem readWhole_ok {client next : Http2Client} {respBody chunk : Bytes}
    (read : client.readBody kH2MaxFramePayload = (.ok, chunk, next)) :
    client.readWhole respBody =
      if next.reqEnded then (.ok, respBody ++ (CString.ofBytes chunk).bytes, next)
      else next.readWhole (respBody ++ (CString.ofBytes chunk).bytes) := by
  rw [readWhole]
  split
  next result =>
    cases read.symm.trans result
    rfl
  next notOk result => exact (notOk (congrArg Prod.fst (result.symm.trans read))).elim

theorem readWhole_failed {client next : Http2Client} {respBody chunk : Bytes} {status : Status}
    (read : client.readBody kH2MaxFramePayload = (status, chunk, next)) (failed : status ≠ .ok) :
    client.readWhole respBody = (status, respBody, next) := by
  rw [readWhole]
  split
  next result => exact (failed (congrArg Prod.fst (read.symm.trans result))).elim
  next result =>
    cases read.symm.trans result
    rfl

/-- The numbers and texts are the out-parameters, which an error leaves alone. -/
def request (method scheme authority path : CString) (contentType : Option CString)
    (body : Bytes) (client : Http2Client) : Status × Option (Int × Bytes) × Http2Client :=
  match client.beginRequest method scheme authority path contentType body with
  | (.ok, status, client) =>
      match client.readWhole [] with
      | (.ok, respBody, client) => (.ok, some (status.getD 0, respBody), client)
      | (failed, _, client) => (failed, none, client)
  | (failed, _, client) => (failed, none, client)

end Http2Client

end Sotoportego.Tailscale
