import Sotoportego.Tailscale.Http2Properties
import Sotoportego.Tailscale.Register

/-!
# Requests on the record stream

`Http2Conn` with all of its fields, over the octets of its connection: what `Http2Client` does
with frames is done here with what `ReadFrame` reads and `WriteFrame` writes.
-/

set_option autoImplicit false

namespace Sotoportego.Tailscale

open Octets Deliveries CText WireGuard

/-! ## Frames in and out -/

/-- A connection with what has been put on its stream. -/
structure Http2Link where
  http2 : Http2Conn
  sent : Bytes := []

namespace Http2Link

def fail (lastError : String) (link : Http2Link) : Http2Link :=
  { link with http2 := { link.http2 with lastError } }

def readRaw (crypto : Crypto) (n : Nat) (link : Http2Link) : Status × Bytes × Http2Link :=
  let (status, octets, http2) := link.http2.readRaw crypto n
  (status, octets, { link with http2 })

/-- With room for every payload that `WriteFrame` sends. -/
def readFrame (crypto : Crypto) (link : Http2Link) : Except Status Http2Frame × Http2Link :=
  let (result, http2) := link.http2.readFrame crypto kH2MaxFramePayload
  (result, { link with http2 })

def writeMessage (crypto : Crypto) (data : Bytes) (link : Http2Link) : Status × Http2Link :=
  match link.http2.conn.writeMessage crypto data with
  | some (conn, written) =>
      (.ok, { http2 := { link.http2 with conn }, sent := link.sent ++ written })
  | none => (.error, link)

def writeFrame (crypto : Crypto) (type flags : UInt8) (streamId : UInt32) (payload : Bytes)
    (link : Http2Link) : Status × Http2Link :=
  match link.http2.writeFrame crypto type flags streamId payload with
  | .ok (http2, written) => (.ok, { http2, sent := link.sent ++ written })
  | .error status => (status, link)

end Http2Link

/-! ## What a read leaves -/

/-- Fewer octets are left of the records, or as many and fewer in the buffer. -/
def Http2Conn.Behind (next http2 : Http2Conn) : Prop :=
  Prod.Lex (· < ·) (· < ·) (next.conn.unread.length, next.live.length)
    (http2.conn.unread.length, http2.live.length)

theorem Http2Conn.Behind.trans {first second third : Http2Conn} (later : third.Behind second)
    (next : second.Behind first) : third.Behind first := by
  unfold Behind at *
  rw [Prod.lex_def] at *
  dsimp only at *
  omega

namespace ControlConn

theorem unread_readFull {conn next : ControlConn} {len : Nat} {got : Bytes}
    (read : conn.readFull len = (.ok, got, next)) :
    next.unread.length + len = conn.unread.length := by
  have full := readFull_fullRead conn len
  rw [read] at full
  cases full with
  | ok exact kept _ =>
      rw [← kept, List.length_append, exact]
      exact Nat.add_comm _ _

theorem unread_readRecord {crypto : Crypto} {conn next : ControlConn} {cap : Nat} {plain : Bytes}
    (read : conn.readRecord crypto cap = (.opened plain, next)) :
    next.unread.length < conn.unread.length := by
  unfold readRecord at read
  split at read
  next => cases read
  next => cases read
  next header middle result =>
    have front := unread_readFull result
    rw [kRecordHeaderLen] at front
    dsimp only at read
    split at read
    next => cases read
    next =>
      split at read
      next => cases read
      next =>
        split at read
        next => cases read
        next =>
          split at read
          next cipher last result =>
            have back := unread_readFull result
            split at read
            next opened =>
              cases read
              show last.unread.length < conn.unread.length
              omega
            next => cases read
          next => cases read
  next => cases read

end ControlConn

namespace Http2Conn

variable {crypto : Crypto} {http2 next : Http2Conn}

theorem unread_fillLoop (crypto : Crypto) (need : Nat) (http2 : Http2Conn) :
    (http2.fillLoop crypto need).1 = .ok → need ≤ (http2.fillLoop crypto need).2.live.length ∧
      ((http2.fillLoop crypto need).2 = http2 ∨
        (http2.fillLoop crypto need).2.conn.unread.length < http2.conn.unread.length) := by
  fun_induction fillLoop crypto need http2 with
  | case1 http2 enough => exact fun _ => ⟨enough, .inl rfl⟩
  | case2 http2 short conn result =>
      intro filled
      cases filled
  | case3 http2 short first more conn result continued =>
      intro filled
      have taken : conn.unread.length < http2.conn.unread.length :=
        ControlConn.unread_readRecord result
      obtain ⟨enough, onward⟩ := continued filled
      refine ⟨enough, .inr ?_⟩
      rcases onward with same | fewer
      · rw [same]
        exact taken
      · exact Nat.lt_trans fewer taken
  | case4 http2 short record conn notBlocked notOpened result =>
      intro filled
      cases filled

theorem behind_readRaw {n : Nat} {octets : Bytes} (positive : 0 < n)
    (read : http2.readRaw crypto n = (.ok, octets, next)) : next.Behind http2 := by
  rw [readRaw] at read
  split at read
  next filled result =>
    cases read
    rw [fill] at result
    split at result
    next => cases result
    next =>
      have taken := unread_fillLoop crypto n http2
      rw [result] at taken
      obtain ⟨enough, onward⟩ := taken rfl
      rw [Behind, Prod.lex_def]
      dsimp only at enough onward ⊢
      rw [List.length_drop]
      rcases onward with rfl | fewer
      · exact .inr ⟨rfl, by omega⟩
      · exact .inl fewer
  next status middle notOk result =>
    cases read
    exact (notOk rfl).elim

theorem behind_readFrame {payloadCap : Nat} {frame : Http2Frame}
    (read : http2.readFrame crypto payloadCap = (.ok frame, next)) : next.Behind http2 := by
  rw [readFrame] at read
  split at read
  next hdr middle result =>
    have header := behind_readRaw (by decide) result
    dsimp only at read
    split at read
    next => cases read
    next =>
      split at read
      next positive =>
        split at read
        next result =>
          cases read
          exact (behind_readRaw positive result).trans header
        next => cases read
        next => cases read
      next =>
        cases read
        exact header
  next => cases read

theorem readFrame_failed {payloadCap : Nat} {status : Status}
    (read : http2.readFrame crypto payloadCap = (.error status, next)) : status ≠ .ok := by
  rw [readFrame] at read
  split at read
  next =>
    dsimp only at read
    split at read
    next =>
      cases read
      decide
    next =>
      split at read
      next =>
        split at read
        next => cases read
        next =>
          cases read
          decide
        next notOk _ _ =>
          cases read
          exact notOk
      next => cases read
  next notOk _ =>
    cases read
    exact notOk

theorem reads_writeMessage {last : ControlConn} {data : Bytes} :
    ∀ {conn : ControlConn} {written : Bytes},
      conn.writeMessage crypto data = some (last, written) →
        last = { conn with txCounter := last.txCounter } := by
  fun_induction ControlConn.recordChunks data with
  | case1 data fits =>
      intro conn written wrote
      obtain ⟨frame, -, step⟩ := ControlConn.writeMessage_cases wrote
      rw [if_pos fits] at step
      rw [step.1]
  | case2 data long continued =>
      intro conn written wrote
      obtain ⟨frame, -, step⟩ := ControlConn.writeMessage_cases wrote
      rw [if_neg long] at step
      obtain ⟨more, -, onward⟩ := step
      have same := continued onward
      exact same

/-- What is written changes only how it is sealed. -/
theorem reads_writeFrame {type flags : UInt8} {streamId : UInt32} {payload written : Bytes}
    (wrote : http2.writeFrame crypto type flags streamId payload = .ok (next, written)) :
    next = { http2 with conn := { http2.conn with txCounter := next.conn.txCounter } } := by
  rw [writeFrame] at wrote
  split at wrote
  next => cases wrote
  next =>
    split at wrote
    next => cases wrote
    next =>
      split at wrote
      next conn octets result =>
        cases wrote
        rw [← reads_writeMessage result]
      next => cases wrote

end Http2Conn

/-! ## Requests -/

structure Http2Session where
  link : Http2Link
  nextStreamId : UInt32 := 1
  reqStream : UInt32 := 0
  reqEnded : Bool := true
  decoder : HpackDecoder := {}

namespace Http2Session

/-- `Init` on a connection; the decoder and the last error stay. -/
def init (conn : ControlConn) (last : Option Http2Session) : Http2Session where
  link := {
    http2 := { Http2Conn.init conn with
      lastError := (last.map fun last => last.link.http2.lastError).getD "" } }
  decoder := (last.map fun last => last.decoder).getD {}

def fail (lastError : String) (session : Http2Session) : Http2Session :=
  { session with link := session.link.fail lastError }

def readFrame (crypto : Crypto) (session : Http2Session) :
    Except Status Http2Frame × Http2Session :=
  let (result, link) := session.link.readFrame crypto
  (result, { session with link })

def writeFrame (crypto : Crypto) (type flags : UInt8) (streamId : UInt32) (payload : Bytes)
    (session : Http2Session) : Status × Http2Session :=
  let (status, link) := session.link.writeFrame crypto type flags streamId payload
  (status, { session with link })

def answer (crypto : Crypto) (frame : Http2Frame) (payload : Bytes) (session : Http2Session) :
    Http2Session :=
  if frame.has h2FlagAck then session
  else (session.writeFrame crypto frame.type h2FlagAck 0 payload).2

/-- The frame loop of `BeginRequest`; the number is `*outStatus`. -/
def readHeaders (crypto : Crypto) (streamId : UInt32) :
    Nat → Bytes → Http2Session → Status × Option Int × Http2Session
  | 0, _, session => (.error, none, session.fail "no response HEADERS")
  | budget + 1, headerBlock, session =>
      match session.readFrame crypto with
      | (.error status, session) => (status, none, session)
      | (.ok frame, session) =>
          if frame.type = h2Settings then
            readHeaders crypto streamId budget headerBlock (session.answer crypto frame [])
          else if frame.type = h2Ping then
            readHeaders crypto streamId budget headerBlock
              (session.answer crypto frame frame.payload)
          else if frame.type = h2GoAway then (.error, none, session.fail "server sent GOAWAY")
          else if frame.type = h2RstStream ∧ frame.streamId = streamId then
            (.error, none, session.fail "server reset the request stream")
          else if (frame.type = h2Headers ∨ frame.type = h2Continuation) ∧
              frame.streamId = streamId then
            let headerBlock := headerBlock ++ frame.fragment
            let session :=
              { session with reqEnded := session.reqEnded || frame.has h2FlagEndStream }
            if frame.has h2FlagEndHeaders then
              let (decoded, headers, decoder) := session.decoder.decode headerBlock
              (.ok, some (if decoded then Http2Client.statusOf headers else 0),
                { session with decoder })
            else readHeaders crypto streamId budget headerBlock session
          else readHeaders crypto streamId budget headerBlock session

def beginRequest (crypto : Crypto) (method scheme authority path : CString)
    (contentType : Option CString) (body : Bytes) (session : Http2Session) :
    Status × Option Int × Http2Session :=
  let streamId := session.nextStreamId
  let session := { session with
    nextStreamId := session.nextStreamId + 2, reqStream := streamId, reqEnded := false }
  let headers :=
    Http2Client.requestHeaders method scheme path authority contentType body.length
  let flags := h2FlagEndHeaders ||| if 0 < body.length then 0 else h2FlagEndStream
  match session.writeFrame crypto h2Headers flags streamId headers with
  | (.ok, session) =>
      if 0 < body.length then
        match session.writeFrame crypto h2Data h2FlagEndStream streamId body with
        | (.ok, session) => readHeaders crypto streamId kFrameBudget [] session
        | (status, session) => (status, none, session)
      else readHeaders crypto streamId kFrameBudget [] session
  | (status, session) => (status, none, session)

/-- Gives back the flow-control credit of a DATA frame. -/
def replenish (crypto : Crypto) (frame : Http2Frame) (session : Http2Session) : Http2Session :=
  if 0 < frame.size then
    let increment : Bytes :=
      [UInt8.ofNat (frame.size >>> 24), UInt8.ofNat (frame.size >>> 16),
        UInt8.ofNat (frame.size >>> 8), UInt8.ofNat frame.size]
    ((session.writeFrame crypto h2WindowUpdate 0 session.reqStream increment).2.writeFrame crypto
      h2WindowUpdate 0 0 increment).2
  else session

/-- The frame loop of `ReadBody`. -/
def readContent (crypto : Crypto) : Nat → Http2Session → Status × Bytes × Http2Session
  | 0, session => (.error, [], session.fail "body read exceeded frame budget")
  | budget + 1, session =>
      match session.readFrame crypto with
      | (.error status, session) => (status, [], session)
      | (.ok frame, session) =>
          if frame.type = h2Settings then
            readContent crypto budget (session.answer crypto frame [])
          else if frame.type = h2Ping then
            readContent crypto budget (session.answer crypto frame frame.payload)
          else if frame.type = h2GoAway then (.error, [], session.fail "server sent GOAWAY")
          else if frame.type = h2RstStream ∧ frame.streamId = session.reqStream then
            (.error, [], session.fail "server reset the stream")
          else if frame.type = h2Data ∧ frame.streamId = session.reqStream then
            let session := session.replenish crypto frame
            (.ok, frame.content,
              { session with reqEnded := session.reqEnded || frame.has h2FlagEndStream })
          else if frame.type = h2Headers ∧ frame.streamId = session.reqStream ∧
              frame.has h2FlagEndStream then
            (.ok, [], { session with reqEnded := true })
          else readContent crypto budget session

def readBody (crypto : Crypto) (cap : Nat) (session : Http2Session) :
    Status × Bytes × Http2Session :=
  if session.reqEnded then (.ok, [], session)
  else if cap < kH2MaxFramePayload then (.badValue, [], session)
  else session.readContent crypto kFrameBudget

/-! Every frame takes octets off the connection. -/

section Shorter

variable {crypto : Crypto} {session next : Http2Session}

def Behind (next session : Http2Session) : Prop :=
  next.link.http2.Behind session.link.http2

theorem behind_readFrame {frame : Http2Frame}
    (read : session.readFrame crypto = (.ok frame, next)) : next.Behind session := by
  rw [readFrame, Http2Link.readFrame] at read
  cases result : session.link.http2.readFrame crypto kH2MaxFramePayload with
  | mk answer http2 =>
      rw [result] at read
      cases read
      exact Http2Conn.behind_readFrame result

theorem readFrame_failed {status : Status}
    (read : session.readFrame crypto = (.error status, next)) : status ≠ .ok := by
  rw [readFrame, Http2Link.readFrame] at read
  cases result : session.link.http2.readFrame crypto kH2MaxFramePayload with
  | mk answer http2 =>
      rw [result] at read
      cases read
      exact Http2Conn.readFrame_failed result

/-- What is left to be read is the same. -/
def ReadsAlike (left right : Http2Session) : Prop :=
  left.link.http2.conn.unread = right.link.http2.conn.unread ∧
    left.link.http2.live = right.link.http2.live

theorem ReadsAlike.behind {middle : Http2Session} (behind : next.Behind middle)
    (alike : middle.ReadsAlike session) : next.Behind session := by
  rw [Behind, Http2Conn.Behind, ← alike.1, ← alike.2]
  exact behind

theorem Behind.of_alike {other : Http2Session} (behind : next.Behind session)
    (alike : other.ReadsAlike next) : other.Behind session := by
  rw [Behind, Http2Conn.Behind, alike.1, alike.2]
  exact behind

theorem readsAlike_writeFrame (type flags : UInt8) (streamId : UInt32) (payload : Bytes) :
    (session.writeFrame crypto type flags streamId payload).2.ReadsAlike session := by
  rw [writeFrame, Http2Link.writeFrame]
  cases result : session.link.http2.writeFrame crypto type flags streamId payload with
  | error status => exact ⟨rfl, rfl⟩
  | ok wrote =>
      obtain ⟨http2, written⟩ := wrote
      have same := Http2Conn.reads_writeFrame result
      rw [ReadsAlike]
      dsimp only
      rw [same]
      exact ⟨rfl, rfl⟩

theorem readsAlike_answer (frame : Http2Frame) (payload : Bytes) :
    (session.answer crypto frame payload).ReadsAlike session := by
  rw [answer]
  split
  · exact ⟨rfl, rfl⟩
  · exact readsAlike_writeFrame _ _ _ _

theorem readsAlike_replenish (frame : Http2Frame) :
    (session.replenish crypto frame).ReadsAlike session := by
  rw [replenish]
  split
  · have first := @readsAlike_writeFrame crypto session h2WindowUpdate 0 session.reqStream
      [UInt8.ofNat (frame.size >>> 24), UInt8.ofNat (frame.size >>> 16),
        UInt8.ofNat (frame.size >>> 8), UInt8.ofNat frame.size]
    have second := @readsAlike_writeFrame crypto (session.writeFrame crypto h2WindowUpdate 0
      session.reqStream [UInt8.ofNat (frame.size >>> 24), UInt8.ofNat (frame.size >>> 16),
        UInt8.ofNat (frame.size >>> 8), UInt8.ofNat frame.size]).2 h2WindowUpdate 0 0
      [UInt8.ofNat (frame.size >>> 24), UInt8.ofNat (frame.size >>> 16),
        UInt8.ofNat (frame.size >>> 8), UInt8.ofNat frame.size]
    exact ⟨second.1.trans first.1, second.2.trans first.2⟩
  · exact ⟨rfl, rfl⟩

theorem behind_readContent {budget : Nat} {chunk : Bytes}
    (read : session.readContent crypto budget = (.ok, chunk, next)) : next.Behind session := by
  induction budget generalizing session with
  | zero => cases read
  | succ budget continued =>
      rw [readContent] at read
      split at read
      next result =>
        cases read
        exact (readFrame_failed result rfl).elim
      next frame middle result =>
        have taken := behind_readFrame result
        split at read
        next => exact (ReadsAlike.behind (continued read) (readsAlike_answer _ _)).trans taken
        split at read
        next => exact (ReadsAlike.behind (continued read) (readsAlike_answer _ _)).trans taken
        split at read
        next => cases read
        split at read
        next => cases read
        split at read
        next =>
          have alike := @readsAlike_replenish crypto middle frame
          cases read
          exact taken.of_alike alike
        split at read
        next =>
          cases read
          exact taken
        next => exact (continued read).trans taken

theorem behind_readBody {cap : Nat} {chunk : Bytes}
    (read : session.readBody crypto cap = (.ok, chunk, next)) (streaming : ¬ next.reqEnded) :
    next.Behind session := by
  rw [readBody] at read
  split at read
  next ended =>
    cases read
    exact (streaming ended).elim
  next =>
    split at read
    next => cases read
    next => exact behind_readContent read

end Shorter

/-- The body loop of `Request`; `BString::Append` stops at a NUL in each chunk. -/
def readWhole (crypto : Crypto) (respBody : Bytes) (session : Http2Session) :
    Status × Bytes × Http2Session :=
  match _ : session.readBody crypto kH2MaxFramePayload with
  | (.ok, chunk, next) =>
      let respBody := respBody ++ (CString.ofBytes chunk).bytes
      if next.reqEnded then (.ok, respBody, next) else readWhole crypto respBody next
  | (status, _, next) => (status, respBody, next)
termination_by (session.link.http2.conn.unread.length, session.link.http2.live.length)
decreasing_by exact behind_readBody (by assumption) (by assumption)

def request (crypto : Crypto) (method scheme authority path : CString)
    (contentType : Option CString) (body : Bytes) (session : Http2Session) :
    Status × Option (Int × Bytes) × Http2Session :=
  match session.beginRequest crypto method scheme authority path contentType body with
  | (.ok, status, session) =>
      match session.readWhole crypto [] with
      | (.ok, respBody, session) => (.ok, some (status.getD 0, respBody), session)
      | (failed, _, session) => (failed, none, session)
  | (failed, _, session) => (failed, none, session)

def register (crypto : Crypto) (host : CString) (version : UInt16) (nodePub : Key)
    (hostname authKey followup : Option CString) (session : Http2Session) :
    Status × RegisterResult × Http2Session :=
  match session.request crypto (.ofBytes (ascii "POST")) (.ofBytes (ascii "https")) host
      (.ofBytes (ascii "/machine/register")) (some (.ofBytes (ascii "application/json")))
      (Register.body version nodePub hostname authKey followup) with
  | (.ok, some (status, resp), session) => (.ok, .ofResponse status resp, session)
  | (status, _, session) => (status, {}, session)

end Http2Session

end Sotoportego.Tailscale
