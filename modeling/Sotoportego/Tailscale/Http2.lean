import Sotoportego.Tailscale.ControlConn

/-!
# HTTP/2 frames over the record stream

`Http2Conn`: the frame buffer that records are read into, and frames written and read
whole.
-/

set_option autoImplicit false

namespace Sotoportego.Tailscale

open Octets WireGuard

def kH2FrameHeaderLen : Nat := 9

def kH2MaxFramePayload : Nat := 16384

/-- The size of `Http2Conn::fBuf`. -/
def kH2BufSize : Nat := 65536

structure Http2Frame where
  type : UInt8
  flags : UInt8
  streamId : UInt32
  payload : Bytes
  deriving DecidableEq

structure Http2Conn where
  conn : ControlConn
  bufOff : Nat := 0
  /-- `fBuf` from `fBufOff` to `fBufLen`. -/
  live : Bytes := []
  lastError : String := ""
  /-- The room of every `ReadRecord` call so far; nothing reads it. -/
  rooms : List Nat := []

namespace Http2Conn

def init (conn : ControlConn) : Http2Conn where
  conn

def bufLen (http2 : Http2Conn) : Nat :=
  http2.bufOff + http2.live.length

/-- What is left of `fBuf` after `fBufLen`. -/
def room (http2 : Http2Conn) : Nat :=
  kH2BufSize - http2.bufLen

/-- Moves the live part to the front when the tail cannot hold another maximal payload. -/
def compact (http2 : Http2Conn) : Http2Conn :=
  if 0 < http2.bufOff ∧ kH2BufSize < http2.bufLen + kH2MaxFramePayload then
    { http2 with bufOff := 0 }
  else http2

/-- After a `ReadRecord` call that put `plain` behind the live part. -/
def called (http2 : Http2Conn) (conn : ControlConn) (plain : Bytes) : Http2Conn :=
  { http2 with conn, live := http2.live ++ plain, rooms := http2.rooms ++ [http2.room] }

@[simp] theorem live_compact (http2 : Http2Conn) : http2.compact.live = http2.live := by
  unfold compact
  split
  · rfl
  · rfl

@[simp] theorem conn_compact (http2 : Http2Conn) : http2.compact.conn = http2.conn := by
  unfold compact
  split
  · rfl
  · rfl

@[simp] theorem rooms_compact (http2 : Http2Conn) : http2.compact.rooms = http2.rooms := by
  unfold compact
  split
  · rfl
  · rfl

/-- The loop of `_Fill`. -/
def fillLoop (crypto : Crypto) (need : Nat) (http2 : Http2Conn) : Status × Http2Conn :=
  if need ≤ http2.live.length then (.ok, http2)
  else
    match http2.conn.readRecord crypto http2.compact.room with
    | (.blocked, conn) => (.wouldBlock, http2.compact.called conn [])
    | (.opened (first :: more), conn) =>
        fillLoop crypto need (http2.compact.called conn (first :: more))
    | (_, conn) =>
        (.ioError, { http2.compact.called conn [] with
          lastError := "record stream ended while reading HTTP/2" })
termination_by need - http2.live.length
decreasing_by
  simp only [called, live_compact, List.length_append, List.length_cons]
  omega

def fill (crypto : Crypto) (need : Nat) (http2 : Http2Conn) : Status × Http2Conn :=
  if kH2BufSize < need then (.badValue, http2) else http2.fillLoop crypto need

def readRaw (crypto : Crypto) (n : Nat) (http2 : Http2Conn) : Status × Bytes × Http2Conn :=
  match http2.fill crypto n with
  | (.ok, http2) =>
      (.ok, http2.live.take n,
        { http2 with bufOff := http2.bufOff + n, live := http2.live.drop n })
  | (status, http2) => (status, [], http2)

/-- The header `WriteFrame` puts before the payload. -/
def frameHeader (type flags : UInt8) (streamId : UInt32) (len : Nat) : Bytes :=
  [UInt8.ofNat (len >>> 16), UInt8.ofNat (len >>> 8), UInt8.ofNat (len &&& 0xff), type, flags,
    ((streamId >>> 24) &&& 0x7f).toUInt8, (streamId >>> 16).toUInt8, (streamId >>> 8).toUInt8,
    (streamId &&& 0xff).toUInt8]

/-- What is written to the stream. -/
def writeFrame (crypto : Crypto) (http2 : Http2Conn) (type flags : UInt8) (streamId : UInt32)
    (payload : Bytes) : Except Status (Http2Conn × Bytes) :=
  if 0xffffff < payload.length then .error .badValue
  else if kH2MaxFramePayload < payload.length then .error .badValue
  else
    match http2.conn.writeMessage crypto (frameHeader type flags streamId payload.length ++ payload) with
    | some (conn, written) => .ok ({ http2 with conn }, written)
    | none => .error .error

def readFrame (crypto : Crypto) (payloadCap : Nat) (http2 : Http2Conn) :
    Except Status Http2Frame × Http2Conn :=
  match http2.readRaw crypto kH2FrameHeaderLen with
  | (.ok, hdr, http2) =>
      let len := (octetAt hdr 0).toNat <<< 16 ||| (octetAt hdr 1).toNat <<< 8 |||
        (octetAt hdr 2).toNat
      let type := octetAt hdr 3
      let flags := octetAt hdr 4
      let streamId := ((octetAt hdr 5).toUInt32 <<< 24 ||| (octetAt hdr 6).toUInt32 <<< 16 |||
        (octetAt hdr 7).toUInt32 <<< 8 ||| (octetAt hdr 8).toUInt32) &&& 0x7fffffff
      if payloadCap < len then
        (.error .error,
          { http2 with lastError := "HTTP/2 frame (" ++ toString len ++ ") exceeds buffer" })
      else if 0 < len then
        match http2.readRaw crypto len with
        | (.ok, payload, http2) => (.ok ⟨type, flags, streamId, payload⟩, http2)
        -- The header is consumed, so a would-block here cannot be retried.
        | (.wouldBlock, _, http2) => (.error .ioError, http2)
        | (status, _, http2) => (.error status, http2)
      else (.ok ⟨type, flags, streamId, []⟩, http2)
  | (status, _, http2) => (.error status, http2)

end Http2Conn

end Sotoportego.Tailscale
