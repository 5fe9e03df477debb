import Sotoportego.Tailscale.Register

/-!
# The map stream

`MapStream`: messages behind four octets of length, taken from the body of one response.
-/

set_option autoImplicit false

namespace Sotoportego.Tailscale

open Octets CText
open WireGuard (Key)

def kMaxMapMessage : UInt32 := 32 * 1024 * 1024

structure MapStream where
  /-- `fHttp2` is set. -/
  begun : Bool := false
  http2 : Http2Client
  acc : Bytes := []
  accOff : Nat := 0
  consumed : accOff ≤ acc.length := by exact Nat.zero_le _

namespace MapStream

def live (stream : MapStream) : Nat :=
  stream.acc.length - stream.accOff

def unread (stream : MapStream) : Bytes :=
  stream.acc.drop stream.accOff

/-- Drops the accumulator when all of it is consumed. -/
def compact (stream : MapStream) : MapStream :=
  if stream.accOff = stream.acc.length then
    { stream with acc := [], accOff := 0, consumed := Nat.le_refl 0 }
  else stream

def insert (chunk : Bytes) (stream : MapStream) : MapStream :=
  { stream with
    acc := stream.acc ++ chunk
    consumed := by
      rw [List.length_append]
      exact Nat.le_add_right_of_le stream.consumed }

def consume (size : Nat) (stream : MapStream) (held : size ≤ stream.live) : MapStream :=
  { stream with
    accOff := stream.accOff + size
    consumed := by
      have bound := stream.consumed
      rw [live] at held
      omega }

@[simp] theorem unread_compact (stream : MapStream) : stream.compact.unread = stream.unread := by
  rw [compact]
  split
  next whole => simp [unread, whole]
  next => rfl

@[simp] theorem unread_insert (chunk : Bytes) (stream : MapStream) :
    (stream.insert chunk).unread = stream.unread ++ chunk :=
  List.drop_append_of_le_length stream.consumed

theorem length_unread (stream : MapStream) : stream.unread.length = stream.live :=
  List.length_drop

/-- The loop of `_FillAtLeast`; the boolean is `outEof`. -/
def fillAtLeast (need : Nat) (stream : MapStream) : Status × Bool × MapStream :=
  if need ≤ stream.live then (.ok, false, stream)
  else
    match stream.http2.readBody kH2MaxFramePayload with
    | (.ok, [], http2) => (.ok, true, { stream with http2 })
    | (.ok, first :: more, http2) =>
        let kept := if 0 < stream.accOff then stream.compact else stream
        fillAtLeast need ({ kept with http2 }.insert (first :: more))
    | (status, _, http2) => (status, false, { stream with http2 })
termination_by need - stream.live
decreasing_by
  have grown (kept : MapStream) (same : kept.unread = stream.unread) :
      (({ kept with http2 } : MapStream).insert (first :: more)).live =
        stream.live + (more.length + 1) := by
    rw [← length_unread, ← length_unread, unread_insert, List.length_append, ← same]
    rfl
  rw [grown]
  · omega
  · split
    next => rw [unread_compact]
    next => rfl

/-- The length in front of a message. -/
def messageLength (p : Bytes) : UInt32 :=
  (octetAt p 0).toUInt32 ||| ((octetAt p 1).toUInt32 <<< 8) |||
    ((octetAt p 2).toUInt32 <<< 16) ||| ((octetAt p 3).toUInt32 <<< 24)

/-- `ReadMessage` once it has the length. -/
def readSized (msgLen : UInt32) (stream : MapStream) : Status × Bytes × MapStream :=
  match stream.fillAtLeast (4 + msgLen).toNat with
  | (.ok, _, stream) =>
      if short : stream.live < (4 + msgLen).toNat then (.ioError, [], stream)
      else
        (.ok, (CString.ofBytes ((stream.unread.drop 4).take msgLen.toNat)).bytes,
          (stream.consume (4 + msgLen).toNat (Nat.not_lt.mp short)).compact)
  | (status, _, stream) => (status, [], stream)

def readMessage (stream : MapStream) : Status × Bytes × MapStream :=
  if ¬ stream.begun then (.noInit, [], stream)
  else
    match stream.fillAtLeast 4 with
    | (.ok, eof, stream) =>
        if eof ∧ stream.live < 4 then (.entryNotFound, [], stream)
        else
          let msgLen := messageLength stream.unread
          if kMaxMapMessage < msgLen then (.badData, [], stream) else stream.readSized msgLen
    | (status, _, stream) => (status, [], stream)

/-- The MapRequest of `Begin`. -/
def body (version : UInt16) (nodePub discoPub : Key) (hostname endpointsJson : Option CString)
    (stream : Bool) : Bytes :=
  ascii "\x7b" ++
    (ascii "\"Version\":" ++ ascii (toString version.toNat) ++ ascii ",") ++
    (ascii "\"NodeKey\":\"nodekey:" ++ (toHex nodePub.bytes).bytes ++ ascii "\",") ++
    (ascii "\"DiscoKey\":\"discokey:" ++ (toHex discoPub.bytes).bytes ++ ascii "\",") ++
    (ascii "\"Stream\":" ++ ascii (if stream then "true" else "false") ++ ascii ",") ++
    (ascii "\"OmitPeers\":" ++ ascii (if stream then "false" else "true") ++ ascii ",") ++
    (ascii "\"Endpoints\":[" ++ (endpointsJson.getD .empty).bytes ++ ascii "],") ++
    Register.hostinfo hostname ++
    ascii "\x7d"

def begin (host : CString) (version : UInt16) (nodePub discoPub : Key)
    (hostname endpointsJson : Option CString) (stream : Bool) (http2 : Http2Client) :
    Status × Option Int × MapStream :=
  match http2.beginRequest (.ofBytes (ascii "POST")) (.ofBytes (ascii "https")) host
      (.ofBytes (ascii "/machine/map")) (some (.ofBytes (ascii "application/json")))
      (body version nodePub discoPub hostname endpointsJson stream) with
  | (status, outStatus, http2) => (status, outStatus, { begun := true, http2 })

/-- A stream that has just begun to read a response. -/
def reading (http2 : Http2Client) : MapStream where
  begun := true
  http2

/-- `ReadMessage` again and again while it returns a message or would block; at most this
many calls. -/
def readAll : Nat → MapStream → Option (List Bytes × Status × MapStream)
  | 0, _ => none
  | calls + 1, stream =>
      match stream.readMessage with
      | (.ok, message, stream) =>
          (readAll calls stream).map fun (messages, last) => (message :: messages, last)
      | (.wouldBlock, _, stream) => readAll calls stream
      | (status, _, stream) => some ([], status, stream)

end MapStream

end Sotoportego.Tailscale
