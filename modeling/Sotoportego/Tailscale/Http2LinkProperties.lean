import Sotoportego.Lib.Service
import Sotoportego.Tailscale.Http2Link
import Sotoportego.Tailscale.ReassemblyProperties

/-!
# Both directions of a connection

What is read leaves alone what is written, and the other way round: calls of `ReadFrame` and
`WriteFrame` in any order give the frames that come in, and put out the frames that go out.
-/

set_option autoImplicit false

namespace Sotoportego.Tailscale

open Octets Deliveries CText WireGuard

open ControlConn (sealRecords recordChunks Carriable Seals)

/-! ## Reading leaves the sending side alone -/

/-- Two states of a connection that send alike. -/
def ControlConn.SendsAlike (left right : ControlConn) : Prop :=
  left.txKey = right.txKey ∧ left.txCounter = right.txCounter

namespace ControlConn

theorem SendsAlike.trans {first second third : ControlConn} (head : SendsAlike first second)
    (tail : SendsAlike second third) : SendsAlike first third :=
  ⟨head.1.trans tail.1, head.2.trans tail.2⟩

theorem sendsAlike_readFull (conn : ControlConn) (len : Nat) :
    SendsAlike (conn.readFull len).2.2 conn := by
  unfold readFull
  simp only
  split
  · exact ⟨rfl, rfl⟩
  · exact ⟨rfl, rfl⟩
  · exact ⟨rfl, rfl⟩

theorem sendsAlike_readRecord (crypto : Crypto) (conn : ControlConn) (cap : Nat) :
    SendsAlike (conn.readRecord crypto cap).2 conn := by
  have header := sendsAlike_readFull conn kRecordHeaderLen
  unfold readRecord
  generalize conn.readFull kRecordHeaderLen = result at *
  obtain ⟨status, octets, next⟩ := result
  cases status with
  | ok =>
      dsimp only
      split
      · exact header
      · split
        · exact header
        · split
          · exact header
          · have body := sendsAlike_readFull next
              ((octetAt octets 1).toNat <<< 8 ||| (octetAt octets 2).toNat)
            generalize next.readFull
              ((octetAt octets 1).toNat <<< 8 ||| (octetAt octets 2).toNat) = read at *
            obtain ⟨status, cipher, last⟩ := read
            cases status with
            | ok =>
                dsimp only
                split
                · exact body.trans header
                · exact body.trans header
            | wouldBlock | entryNotFound | ioError | badValue | badData | noInit | error
            | canceled => exact body.trans header
  | wouldBlock | entryNotFound | ioError | badValue | badData | noInit | error | canceled =>
      exact header

end ControlConn

namespace Http2Conn

open ControlConn (SendsAlike)

theorem sendsAlike_fillLoop (crypto : Crypto) (need : Nat) (http2 : Http2Conn) :
    SendsAlike (http2.fillLoop crypto need).2.conn http2.conn := by
  fun_induction fillLoop crypto need http2 with
  | case1 http2 enough => exact ⟨rfl, rfl⟩
  | case2 http2 short conn result =>
      have record := ControlConn.sendsAlike_readRecord crypto http2.conn http2.compact.room
      rw [result] at record
      exact record
  | case3 http2 short first more conn result continued =>
      have record := ControlConn.sendsAlike_readRecord crypto http2.conn http2.compact.room
      rw [result] at record
      exact continued.trans record
  | case4 http2 short record conn notBlocked notOpened result =>
      have record := ControlConn.sendsAlike_readRecord crypto http2.conn http2.compact.room
      rw [result] at record
      exact record

theorem sendsAlike_readRaw (crypto : Crypto) (n : Nat) (http2 : Http2Conn) :
    SendsAlike (http2.readRaw crypto n).2.2.conn http2.conn := by
  have filled : SendsAlike (http2.fill crypto n).2.conn http2.conn := by
    rw [fill]
    split
    · exact ⟨rfl, rfl⟩
    · exact sendsAlike_fillLoop crypto n http2
  rw [readRaw]
  split
  next next result =>
    rw [result] at filled
    exact filled
  next status next _ result =>
    rw [result] at filled
    exact filled

theorem sendsAlike_readFrame (crypto : Crypto) (payloadCap : Nat) (http2 : Http2Conn) :
    SendsAlike (http2.readFrame crypto payloadCap).2.conn http2.conn := by
  have header := sendsAlike_readRaw crypto kH2FrameHeaderLen http2
  unfold readFrame
  generalize http2.readRaw crypto kH2FrameHeaderLen = result at *
  obtain ⟨status, hdr, next⟩ := result
  cases status with
  | ok =>
      dsimp only
      split
      · exact header
      · split
        · have body := sendsAlike_readRaw crypto ((octetAt hdr 0).toNat <<< 16 |||
            (octetAt hdr 1).toNat <<< 8 ||| (octetAt hdr 2).toNat) next
          generalize next.readRaw crypto ((octetAt hdr 0).toNat <<< 16 |||
            (octetAt hdr 1).toNat <<< 8 ||| (octetAt hdr 2).toNat) = read at *
          obtain ⟨status, payload, last⟩ := read
          cases status with
          | ok | wouldBlock | entryNotFound | ioError | badValue | badData | noInit | error
          | canceled => exact body.trans header
        · exact header
  | wouldBlock | entryNotFound | ioError | badValue | badData | noInit | error | canceled =>
      exact header

end Http2Conn

/-! ## Where nothing more comes -/

theorem stream_eq_nil {α : Type} {stream : List (Delivery α)} (nothing : arriving stream = [])
    (quiet : pauses stream = []) : stream = [] := by
  cases stream with
  | nil => rfl
  | cons delivery rest =>
      cases delivery with
      | chunk first more => cases nothing
      | timeout => cases quiet

theorem ControlConn.readRecord_end (crypto : Crypto) {conn : ControlConn} (cap : Nat)
    (nothing : conn.unread = []) (quiet : pauses conn.tls = []) :
    conn.readRecord crypto cap = (.ended, conn) := by
  obtain ⟨tls, txKey, rxKey, txCounter, rxCounter, pending⟩ := conn
  obtain ⟨rfl, arrived⟩ := List.append_eq_nil_iff.mp nothing
  obtain rfl : tls = [] := stream_eq_nil arrived quiet
  have header : collect kRecordHeaderLen ([] : List (Delivery UInt8)) = ⟨.ended, [], []⟩ := by
    rw [collect, if_neg (by decide)]
    rfl
  rw [readRecord, readFull]
  simp only [List.take_nil, List.length_nil, Nat.sub_zero, header]
  rfl

theorem chunks_eq_nil {chunks : List Bytes} (carriable : ∀ chunk ∈ chunks, Carriable chunk)
    (nothing : chunks.flatten = []) : chunks = [] := by
  cases chunks with
  | nil => rfl
  | cons chunk more =>
      have some := (carriable chunk List.mem_cons_self).1
      rw [(List.append_eq_nil_iff.mp nothing).1] at some
      cases some

namespace Http2Conn

/-- At the end a read fails, and the next one does again. -/
theorem readFrame_end {crypto : Crypto} {http2 : Http2Conn} {chunks : List Bytes}
    (payloadCap : Nat) (ahead : http2.Ahead crypto chunks []) (quiet : pauses http2.conn.tls = []) :
    ∃ next, http2.readFrame crypto payloadCap = (.error .ioError, next) ∧
      next.Ahead crypto [] [] ∧ pauses next.conn.tls = [] := by
  obtain ⟨live, flat⟩ := List.append_eq_nil_iff.mp ahead.text_eq
  obtain rfl : chunks = [] := chunks_eq_nil ahead.carriable flat
  have nothing : http2.conn.unread = [] := (Option.some.inj ahead.sealed).symm
  have short : ¬ kH2FrameHeaderLen ≤ http2.live.length := by
    rw [live]
    decide
  have enough : ¬ kH2BufSize < kH2FrameHeaderLen := by decide
  have ended := ControlConn.readRecord_end crypto http2.compact.room nothing quiet
  refine ⟨{ http2.compact.called http2.conn [] with
      lastError := "record stream ended while reading HTTP/2" }, ?_, ⟨ahead.sealed, nofun, ?_⟩,
    quiet⟩
  · rw [readFrame, readRaw, fill, if_neg enough, fillLoop, if_neg short, ended]
  · simp [called, live]

end Http2Conn

/-! ## A link in step -/

namespace Http2Link

variable {crypto : Crypto} {first : ControlConn} {link : Http2Link} {sent : List Bytes}

/-- `text` is still to be read, without a pause, and what was put on the stream since `first`
are records of `sent`. -/
structure Carries (crypto : Crypto) (first : ControlConn) (sent : List Bytes) (text : Bytes)
    (link : Http2Link) : Prop where
  ahead : ∃ chunks, link.http2.Ahead crypto chunks text
  quiet : pauses link.http2.conn.tls = []
  seals : Seals crypto first link.http2.conn sent link.sent

theorem seals_of_alike {left right : ControlConn} {written : Bytes}
    (seals : Seals crypto first right sent written) (alike : left.SendsAlike right) :
    Seals crypto first left sent written := by
  refine ⟨alike.1.trans seals.1, ?_⟩
  rw [alike.2]
  exact seals.2

theorem not_torn {chunks : List Bytes} {stream : List (Delivery UInt8)}
    (quiet : pauses stream = []) : ¬ Http2Conn.Torn chunks stream := by
  rintro ⟨chunk, more, -, after, member, -⟩
  rw [quiet] at member
  cases member

theorem Carries.readRaw (lawful : crypto.Lawful) {front rest : Bytes}
    (carries : link.Carries crypto first sent (front ++ rest))
    (bounded : front.length ≤ kH2MaxFramePayload) :
    ∃ next, link.readRaw crypto front.length = (.ok, front, next) ∧
      next.Carries crypto first sent rest := by
  obtain ⟨chunks, ahead⟩ := carries.ahead
  have read := Http2Conn.readRaw_rawRead lawful bounded ahead
  have alike := Http2Conn.sendsAlike_readRaw crypto front.length link.http2
  rw [Http2Link.readRaw]
  generalize link.http2.readRaw crypto front.length = result at *
  cases read with
  | ok length split onward suffix waits =>
      obtain ⟨rfl, rfl⟩ := List.append_inj split length.symm
      exact ⟨_, rfl, ⟨_, onward⟩, waits.trans carries.quiet, seals_of_alike carries.seals alike⟩
  | wouldBlock onward suffix short spent =>
      rw [carries.quiet] at spent
      cases spent
  | ended short =>
      rw [List.length_append] at short
      omega
  | torn torn => exact (not_torn carries.quiet torn).elim

theorem Carries.readFrame (lawful : crypto.Lawful) {frame : WireFrame} {frames : List WireFrame}
    (carries : link.Carries crypto first sent (WireFrame.text (frame :: frames))) :
    ∃ next, link.readFrame crypto = (.ok frame.toHttp2Frame, next) ∧
      next.Carries crypto first sent (WireFrame.text frames) := by
  obtain ⟨chunks, ahead⟩ := carries.ahead
  have read := Http2Conn.readFrame_frameRead lawful (Nat.le_refl _) ahead
  have alike := Http2Conn.sendsAlike_readFrame crypto kH2MaxFramePayload link.http2
  rw [Http2Link.readFrame]
  generalize link.http2.readFrame crypto kH2MaxFramePayload = result at *
  cases read with
  | frame onward suffix waits =>
      exact ⟨_, rfl, ⟨_, onward⟩, waits.trans carries.quiet, seals_of_alike carries.seals alike⟩
  | wouldBlock onward suffix spent =>
      rw [carries.quiet] at spent
      cases spent
  | torn torn => exact (not_torn carries.quiet torn).elim
  | parted suffix member =>
      rw [carries.quiet] at member
      cases member

theorem Carries.readFrame_end (carries : link.Carries crypto first sent []) :
    ∃ next, link.readFrame crypto = (.error .ioError, next) ∧
      next.Carries crypto first sent [] := by
  obtain ⟨chunks, ahead⟩ := carries.ahead
  obtain ⟨next, read, ahead, quiet⟩ :=
    Http2Conn.readFrame_end kH2MaxFramePayload ahead carries.quiet
  have alike := Http2Conn.sendsAlike_readFrame crypto kH2MaxFramePayload link.http2
  rw [read] at alike
  rw [Http2Link.readFrame, read]
  exact ⟨_, rfl, ⟨_, ahead⟩, quiet, seals_of_alike carries.seals alike⟩

end Http2Link

/-! ## Writing leaves the receiving side alone -/

def Http2Frame.octets (frame : Http2Frame) : Bytes :=
  Http2Conn.frameHeader frame.type frame.flags frame.streamId frame.payload.length ++
    frame.payload

theorem ControlConn.writeMessage_total {crypto : Crypto} (lawful : crypto.Lawful) (data : Bytes) :
    ∀ conn : ControlConn, ∃ next written,
      conn.writeMessage crypto data = some (next, written) := by
  fun_induction recordChunks data with
  | case1 data fits =>
      intro conn
      obtain ⟨cipher, sealed, -⟩ := sealRecord_some lawful conn.txKey conn.txCounter
        (data.take kMaxPlaintextPerRecord)
      rw [writeMessage, sealed]
      simp only [Option.bind_eq_bind, Option.bind_some]
      rw [if_pos fits]
      exact ⟨_, _, rfl⟩
  | case2 data long continued =>
      intro conn
      obtain ⟨cipher, sealed, -⟩ := sealRecord_some lawful conn.txKey conn.txCounter
        (data.take kMaxPlaintextPerRecord)
      obtain ⟨next, written, onward⟩ := continued { conn with txCounter := conn.txCounter + 1 }
      rw [writeMessage, sealed]
      simp only [Option.bind_eq_bind, Option.bind_some]
      rw [if_neg long, onward]
      exact ⟨_, _, rfl⟩

namespace Http2Link

variable {crypto : Crypto} {first : ControlConn} {link : Http2Link} {sent : List Bytes}
  {text : Bytes}

theorem Carries.writeMessage (lawful : crypto.Lawful)
    (carries : link.Carries crypto first sent text) (data : Bytes) :
    ∃ next, link.writeMessage crypto data = (.ok, next) ∧
      next.Carries crypto first (sent ++ recordChunks data) text := by
  obtain ⟨conn, written, wrote⟩ :=
    ControlConn.writeMessage_total lawful data link.http2.conn
  have same := Http2Conn.reads_writeMessage wrote
  obtain ⟨chunks, ahead⟩ := carries.ahead
  rw [Http2Link.writeMessage, wrote]
  refine ⟨_, rfl, ⟨chunks, ?_, ahead.carriable, ahead.text_eq⟩, ?_,
    carries.seals.trans (ControlConn.seals_writeMessage wrote)⟩
  · show conn.Ahead crypto chunks
    rw [same]
    exact ahead.sealed
  · show pauses conn.tls = []
    rw [same]
    exact carries.quiet

theorem Carries.writeFrame (lawful : crypto.Lawful)
    (carries : link.Carries crypto first sent text) (frame : Http2Frame)
    (small : frame.payload.length ≤ kH2MaxFramePayload) :
    ∃ next, link.writeFrame crypto frame.type frame.flags frame.streamId frame.payload =
        (.ok, next) ∧
      next.Carries crypto first (sent ++ recordChunks frame.octets) text := by
  obtain ⟨next, wrote, onward⟩ := carries.writeMessage lawful frame.octets
  refine ⟨next, ?_, onward⟩
  have short : ¬ 0xffffff < frame.payload.length := by
    simp only [kH2MaxFramePayload] at small
    omega
  rw [Http2Link.writeMessage, Http2Frame.octets] at wrote
  rw [Http2Link.writeFrame, Http2Conn.writeFrame, if_neg short, if_neg (Nat.not_lt.mpr small)]
  cases result : link.http2.conn.writeMessage crypto (Http2Conn.frameHeader frame.type frame.flags
      frame.streamId frame.payload.length ++ frame.payload) with
  | none =>
      rw [result] at wrote
      cases wrote
  | some answer =>
      rw [result] at wrote
      exact wrote

theorem writeFrame_long (frame : Http2Frame) (long : kH2MaxFramePayload < frame.payload.length) :
    link.writeFrame crypto frame.type frame.flags frame.streamId frame.payload =
      (.badValue, link) := by
  have refused : link.http2.writeFrame crypto frame.type frame.flags frame.streamId frame.payload =
      .error .badValue := by
    rw [Http2Conn.writeFrame]
    split
    next => rfl
    next => rfl
  rw [Http2Link.writeFrame, refused]

end Http2Link

/-! ## A session over octets and a client over frames -/

namespace Http2Session

/-- The frames that come in are those that the client is given, the records that went out carry
`base` and the frames that it has taken, and what both remember is the same. -/
structure Mirrors (crypto : Crypto) (first : ControlConn) (base : List Bytes)
    (session : Http2Session) (client : Http2Client) : Prop where
  carries : ∃ frames : List WireFrame,
    client.incoming = frames.map (fun frame => .ok frame.toHttp2Frame) ∧
      session.link.Carries crypto first
        (base ++ client.outgoing.flatMap fun frame => recordChunks frame.octets)
        (WireFrame.text frames)
  nextStreamId : session.nextStreamId = client.nextStreamId
  reqStream : session.reqStream = client.reqStream
  reqEnded : session.reqEnded = client.reqEnded
  decoder : session.decoder = client.decoder

section Mirrors

variable {crypto : Crypto} {first : ControlConn} {base : List Bytes} {session : Http2Session}
  {client : Http2Client}

theorem Mirrors.readFrame (lawful : crypto.Lawful)
    (mirrors : session.Mirrors crypto first base client) :
    Service.Alike (Mirrors crypto first base) (session.readFrame crypto) client.readFrame := by
  obtain ⟨frames, incoming, carries⟩ := mirrors.carries
  rw [Http2Session.readFrame, Http2Client.readFrame, incoming]
  cases frames with
  | nil =>
      obtain ⟨next, read, onward⟩ := carries.readFrame_end
      rw [read]
      exact ⟨rfl, ⟨[], incoming, onward⟩, mirrors.nextStreamId, mirrors.reqStream,
        mirrors.reqEnded, mirrors.decoder⟩
  | cons frame frames =>
      obtain ⟨next, read, onward⟩ := carries.readFrame lawful
      rw [read]
      exact ⟨rfl, ⟨frames, rfl, onward⟩, mirrors.nextStreamId, mirrors.reqStream,
        mirrors.reqEnded, mirrors.decoder⟩

theorem Mirrors.writeFrame (lawful : crypto.Lawful)
    (mirrors : session.Mirrors crypto first base client) (type flags : UInt8) (streamId : UInt32)
    (payload : Bytes) :
    Service.Alike (Mirrors crypto first base)
      (session.writeFrame crypto type flags streamId payload)
      (client.writeFrame type flags streamId payload) := by
  obtain ⟨frames, incoming, carries⟩ := mirrors.carries
  rw [Http2Session.writeFrame, Http2Client.writeFrame]
  by_cases long : kH2MaxFramePayload < payload.length
  · have refused := @Http2Link.writeFrame_long crypto session.link ⟨type, flags, streamId, payload⟩
      long
    rw [if_pos long, refused]
    exact ⟨rfl, mirrors⟩
  · obtain ⟨next, wrote, onward⟩ :=
      carries.writeFrame lawful ⟨type, flags, streamId, payload⟩ (Nat.le_of_not_lt long)
    rw [if_neg long, wrote]
    refine ⟨rfl, ⟨frames, incoming, ?_⟩, mirrors.nextStreamId, mirrors.reqStream,
      mirrors.reqEnded, mirrors.decoder⟩
    rw [List.flatMap_append, List.flatMap_cons, List.flatMap_nil, List.append_nil,
      ← List.append_assoc]
    exact onward

theorem Mirrors.answer (lawful : crypto.Lawful)
    (mirrors : session.Mirrors crypto first base client) (frame : Http2Frame) (payload : Bytes) :
    (session.answer crypto frame payload).Mirrors crypto first base
      (client.answer frame payload) := by
  rw [Http2Session.answer, Http2Client.answer]
  split
  · exact mirrors
  · exact (mirrors.writeFrame lawful _ _ _ _).2

theorem Mirrors.replenish (lawful : crypto.Lawful)
    (mirrors : session.Mirrors crypto first base client) (frame : Http2Frame) :
    (session.replenish crypto frame).Mirrors crypto first base (client.replenish frame) := by
  rw [Http2Session.replenish, Http2Client.replenish, mirrors.reqStream]
  split
  · exact ((mirrors.writeFrame lawful _ _ _ _).2.writeFrame lawful _ _ _ _).2
  · exact mirrors

/-- The texts of errors are not compared. -/
theorem Mirrors.fail (mirrors : session.Mirrors crypto first base client) (what text : String) :
    (session.fail what).Mirrors crypto first base { client with lastError := text } := by
  obtain ⟨frames, incoming, ⟨chunks, ahead⟩, quiet, seals⟩ := mirrors.carries
  exact ⟨⟨frames, incoming, ⟨chunks, ahead.sealed, ahead.carriable, ahead.text_eq⟩, quiet, seals⟩,
    mirrors.nextStreamId, mirrors.reqStream, mirrors.reqEnded, mirrors.decoder⟩

/-- One status, one answer, and states that still mirror each other. -/
inductive Matches {Answer : Type} (crypto : Crypto) (first : ControlConn) (base : List Bytes) :
    Status × Answer × Http2Session → Status × Answer × Http2Client → Prop where
  | intro {status : Status} {answer : Answer} {session : Http2Session} {client : Http2Client} :
      session.Mirrors crypto first base client →
      Matches crypto first base (status, answer, session) (status, answer, client)

theorem Mirrors.readHeaders (lawful : crypto.Lawful) (streamId : UInt32) (budget : Nat)
    (headerBlock : Bytes) (mirrors : session.Mirrors crypto first base client) :
    Matches crypto first base (session.readHeaders crypto streamId budget headerBlock)
      (client.readHeaders streamId budget headerBlock) := by
  induction budget generalizing session client headerBlock with
  | zero =>
      rw [Http2Session.readHeaders, Http2Client.readHeaders]
      exact .intro (mirrors.fail _ _)
  | succ budget continued =>
      have read := mirrors.readFrame lawful
      rw [Http2Session.readHeaders, Http2Client.readHeaders]
      generalize session.readFrame crypto = left at *
      generalize client.readFrame = right at *
      obtain ⟨result, session⟩ := left
      obtain ⟨same, client⟩ := right
      obtain ⟨rfl, mirrors⟩ : result = same ∧ session.Mirrors crypto first base client := read
      cases result with
      | error status => exact .intro mirrors
      | ok frame =>
          dsimp only
          split
          next => exact continued headerBlock (mirrors.answer lawful frame [])
          split
          next => exact continued headerBlock (mirrors.answer lawful frame frame.payload)
          split
          next => exact .intro (mirrors.fail _ _)
          split
          next => exact .intro (mirrors.fail _ _)
          split
          next =>
            have onward : ({ session with
                reqEnded := session.reqEnded || frame.has h2FlagEndStream } :
                Http2Session).Mirrors crypto first base { client with
                  reqEnded := client.reqEnded || frame.has h2FlagEndStream } := by
              refine ⟨mirrors.carries, mirrors.nextStreamId, mirrors.reqStream, ?_,
                mirrors.decoder⟩
              rw [mirrors.reqEnded]
            split
            next =>
              rw [mirrors.decoder]
              exact .intro ⟨onward.carries, onward.nextStreamId, onward.reqStream,
                onward.reqEnded, rfl⟩
            next => exact continued _ onward
          next => exact continued headerBlock mirrors

theorem Mirrors.beginRequest (lawful : crypto.Lawful)
    (mirrors : session.Mirrors crypto first base client) (method scheme authority path : CString)
    (contentType : Option CString) (body : Bytes) :
    Matches crypto first base
      (session.beginRequest crypto method scheme authority path contentType body)
      (client.beginRequest method scheme authority path contentType body) := by
  have begun : ({ session with
      nextStreamId := session.nextStreamId + 2, reqStream := session.nextStreamId,
      reqEnded := false } : Http2Session).Mirrors crypto first base { client with
        nextStreamId := client.nextStreamId + 2, reqStream := client.nextStreamId,
        reqEnded := false } := by
    refine ⟨mirrors.carries, ?_, mirrors.nextStreamId, rfl, mirrors.decoder⟩
    rw [mirrors.nextStreamId]
  rw [Http2Session.beginRequest, Http2Client.beginRequest]
  rw [mirrors.nextStreamId] at begun ⊢
  generalize client.nextStreamId = streamId at *
  have wrote := begun.writeFrame lawful h2Headers
    (h2FlagEndHeaders ||| if 0 < body.length then 0 else h2FlagEndStream) streamId
    (Http2Client.requestHeaders method scheme path authority contentType body.length)
  generalize Http2Session.writeFrame crypto h2Headers _ _ _ _ = left at *
  generalize Http2Client.writeFrame h2Headers _ _ _ _ = right at *
  obtain ⟨status, session⟩ := left
  obtain ⟨same, client⟩ := right
  obtain ⟨rfl, mirrors⟩ : status = same ∧ session.Mirrors crypto first base client := wrote
  cases status with
  | ok =>
      dsimp only
      split
      next =>
        have wrote := mirrors.writeFrame lawful h2Data h2FlagEndStream streamId body
        generalize Http2Session.writeFrame crypto h2Data _ _ _ _ = left at *
        generalize Http2Client.writeFrame h2Data _ _ _ _ = right at *
        obtain ⟨status, session⟩ := left
        obtain ⟨same, client⟩ := right
        obtain ⟨rfl, mirrors⟩ : status = same ∧ session.Mirrors crypto first base client := wrote
        cases status with
        | ok => exact mirrors.readHeaders lawful streamId kFrameBudget []
        | wouldBlock | entryNotFound | ioError | badValue | badData | noInit | error | canceled =>
            exact .intro mirrors
      next => exact mirrors.readHeaders lawful streamId kFrameBudget []
  | wouldBlock | entryNotFound | ioError | badValue | badData | noInit | error | canceled =>
      exact .intro mirrors

theorem Mirrors.readContent (lawful : crypto.Lawful) (budget : Nat)
    (mirrors : session.Mirrors crypto first base client) :
    Matches crypto first base (session.readContent crypto budget) (client.readContent budget) := by
  induction budget generalizing session client with
  | zero =>
      rw [Http2Session.readContent, Http2Client.readContent]
      exact .intro (mirrors.fail _ _)
  | succ budget continued =>
      have read := mirrors.readFrame lawful
      rw [Http2Session.readContent, Http2Client.readContent]
      generalize session.readFrame crypto = left at *
      generalize client.readFrame = right at *
      obtain ⟨result, session⟩ := left
      obtain ⟨same, client⟩ := right
      obtain ⟨rfl, mirrors⟩ : result = same ∧ session.Mirrors crypto first base client := read
      cases result with
      | error status => exact .intro mirrors
      | ok frame =>
          dsimp only
          rw [mirrors.reqStream]
          split
          next => exact continued (mirrors.answer lawful frame [])
          split
          next => exact continued (mirrors.answer lawful frame frame.payload)
          split
          next => exact .intro (mirrors.fail _ _)
          split
          next => exact .intro (mirrors.fail _ _)
          split
          next =>
            have given := mirrors.replenish lawful frame
            refine .intro ⟨given.carries, given.nextStreamId, given.reqStream, ?_,
              given.decoder⟩
            dsimp only
            rw [given.reqEnded]
          split
          next =>
            exact .intro ⟨mirrors.carries, mirrors.nextStreamId, rfl, rfl, mirrors.decoder⟩
          next => exact continued mirrors

theorem Mirrors.readBody (lawful : crypto.Lawful) (cap : Nat)
    (mirrors : session.Mirrors crypto first base client) :
    Matches crypto first base (session.readBody crypto cap) (client.readBody cap) := by
  rw [Http2Session.readBody, Http2Client.readBody, mirrors.reqEnded]
  split
  next => exact .intro mirrors
  split
  next => exact .intro mirrors
  next => exact mirrors.readContent lawful kFrameBudget

theorem readWhole_ok {respBody chunk : Bytes} {next : Http2Session}
    (read : session.readBody crypto kH2MaxFramePayload = (.ok, chunk, next)) :
    session.readWhole crypto respBody =
      if next.reqEnded then (.ok, respBody ++ (CString.ofBytes chunk).bytes, next)
      else next.readWhole crypto (respBody ++ (CString.ofBytes chunk).bytes) := by
  rw [Http2Session.readWhole]
  split
  next result =>
    cases read.symm.trans result
    rfl
  next notOk result => exact (notOk (congrArg Prod.fst (result.symm.trans read))).elim

theorem readWhole_failed {respBody chunk : Bytes} {status : Status} {next : Http2Session}
    (read : session.readBody crypto kH2MaxFramePayload = (status, chunk, next))
    (failed : status ≠ .ok) : session.readWhole crypto respBody = (status, respBody, next) := by
  rw [Http2Session.readWhole]
  split
  next result => exact (failed (congrArg Prod.fst (read.symm.trans result))).elim
  next result =>
    cases read.symm.trans result
    rfl

theorem Mirrors.readWhole (lawful : crypto.Lawful) {respBody : Bytes}
    (mirrors : session.Mirrors crypto first base client) :
    Matches crypto first base (session.readWhole crypto respBody) (client.readWhole respBody) := by
  fun_induction Http2Client.readWhole respBody client generalizing session with
  | case1 respBody client chunk next read whole =>
      rename_i ended
      have body := mirrors.readBody lawful kH2MaxFramePayload
      rw [read] at body
      generalize result : session.readBody crypto kH2MaxFramePayload = left at body
      obtain ⟨mirrors⟩ := body
      rw [readWhole_ok result, if_pos (mirrors.reqEnded.trans ended)]
      exact .intro mirrors
  | case2 respBody client chunk next read whole streaming =>
      rename_i continued
      have body := mirrors.readBody lawful kH2MaxFramePayload
      rw [read] at body
      generalize result : session.readBody crypto kH2MaxFramePayload = left at body
      obtain ⟨mirrors⟩ := body
      rw [readWhole_ok result, if_neg (by rwa [mirrors.reqEnded])]
      exact continued mirrors
  | case3 respBody client status chunk next failed read =>
      have body := mirrors.readBody lawful kH2MaxFramePayload
      rw [read] at body
      generalize result : session.readBody crypto kH2MaxFramePayload = left at body
      obtain ⟨mirrors⟩ := body
      rw [readWhole_failed result failed]
      exact .intro mirrors

theorem Mirrors.request (lawful : crypto.Lawful)
    (mirrors : session.Mirrors crypto first base client) (method scheme authority path : CString)
    (contentType : Option CString) (body : Bytes) :
    Matches crypto first base
      (session.request crypto method scheme authority path contentType body)
      (client.request method scheme authority path contentType body) := by
  have begun := mirrors.beginRequest lawful method scheme authority path contentType body
  rw [Http2Session.request, Http2Client.request]
  generalize session.beginRequest crypto method scheme authority path contentType body = left at *
  generalize client.beginRequest method scheme authority path contentType body = right at *
  obtain @⟨status, answer, session, client, mirrors⟩ := begun
  cases status with
  | ok =>
      have whole := @Mirrors.readWhole crypto first base session client lawful [] mirrors
      dsimp only
      generalize session.readWhole crypto [] = left at *
      generalize client.readWhole [] = right at *
      obtain @⟨status, respBody, session, client, mirrors⟩ := whole
      cases status with
      | ok => exact .intro mirrors
      | wouldBlock | entryNotFound | ioError | badValue | badData | noInit | error | canceled =>
          exact .intro mirrors
  | wouldBlock | entryNotFound | ioError | badValue | badData | noInit | error | canceled =>
      exact .intro mirrors

theorem Mirrors.register (lawful : crypto.Lawful)
    (mirrors : session.Mirrors crypto first base client) (host : CString) (version : UInt16)
    (nodePub : Key) (hostname authKey followup : Option CString) :
    Matches crypto first base
      (session.register crypto host version nodePub hostname authKey followup)
      (Tailscale.register host version nodePub hostname authKey followup client) := by
  have whole := mirrors.request lawful (.ofBytes (ascii "POST")) (.ofBytes (ascii "https")) host
    (.ofBytes (ascii "/machine/register")) (some (.ofBytes (ascii "application/json")))
    (Register.body version nodePub hostname authKey followup)
  rw [Http2Session.register, Tailscale.register]
  generalize session.request crypto _ _ _ _ _ _ = left at *
  generalize client.request _ _ _ _ _ _ = right at *
  obtain @⟨status, answer, session, client, mirrors⟩ := whole
  cases answer with
  | none =>
      cases status with
      | ok | wouldBlock | entryNotFound | ioError | badValue | badData | noInit | error
      | canceled => exact .intro mirrors
  | some answer =>
      cases status with
      | ok | wouldBlock | entryNotFound | ioError | badValue | badData | noInit | error
      | canceled => exact .intro mirrors

end Mirrors

/-! ## Runs of requests -/

inductive Call where
  | beginRequest (method scheme authority path : CString) (contentType : Option CString)
    (body : Bytes)
  | readBody (cap : Nat)
  | request (method scheme authority path : CString) (contentType : Option CString) (body : Bytes)
  | register (host : CString) (version : UInt16) (nodePub : Key)
    (hostname authKey followup : Option CString)

/-- The status and the out-parameters of a call. -/
inductive Answer where
  | begun (status : Status) (http : Option Int)
  | read (status : Status) (chunk : Bytes)
  | whole (status : Status) (response : Option (Int × Bytes))
  | registered (status : Status) (result : RegisterResult)

def serve (crypto : Crypto) (session : Http2Session) : Call → Answer × Http2Session
  | .beginRequest method scheme authority path contentType body =>
      let (status, http, session) :=
        session.beginRequest crypto method scheme authority path contentType body
      (.begun status http, session)
  | .readBody cap =>
      let (status, chunk, session) := session.readBody crypto cap
      (.read status chunk, session)
  | .request method scheme authority path contentType body =>
      let (status, response, session) :=
        session.request crypto method scheme authority path contentType body
      (.whole status response, session)
  | .register host version nodePub hostname authKey followup =>
      let (status, result, session) :=
        session.register crypto host version nodePub hostname authKey followup
      (.registered status result, session)

def serveFrames (client : Http2Client) : Call → Answer × Http2Client
  | .beginRequest method scheme authority path contentType body =>
      let (status, http, client) :=
        client.beginRequest method scheme authority path contentType body
      (.begun status http, client)
  | .readBody cap =>
      let (status, chunk, client) := client.readBody cap
      (.read status chunk, client)
  | .request method scheme authority path contentType body =>
      let (status, response, client) :=
        client.request method scheme authority path contentType body
      (.whole status response, client)
  | .register host version nodePub hostname authKey followup =>
      let (status, result, client) :=
        Tailscale.register host version nodePub hostname authKey followup client
      (.registered status result, client)

theorem Mirrors.serve {crypto : Crypto} {first : ControlConn} {base : List Bytes}
    {session : Http2Session} {client : Http2Client} (lawful : crypto.Lawful)
    (mirrors : session.Mirrors crypto first base client) (call : Call) :
    Service.Alike (Mirrors crypto first base) (session.serve crypto call)
      (serveFrames client call) := by
  cases call with
  | beginRequest method scheme authority path contentType body =>
      have begun := mirrors.beginRequest lawful method scheme authority path contentType body
      rw [Http2Session.serve, serveFrames]
      generalize session.beginRequest crypto method scheme authority path contentType body =
        left at *
      generalize client.beginRequest method scheme authority path contentType body = right at *
      obtain ⟨mirrors⟩ := begun
      exact ⟨rfl, mirrors⟩
  | readBody cap =>
      have read := mirrors.readBody lawful cap
      rw [Http2Session.serve, serveFrames]
      generalize session.readBody crypto cap = left at *
      generalize client.readBody cap = right at *
      obtain ⟨mirrors⟩ := read
      exact ⟨rfl, mirrors⟩
  | request method scheme authority path contentType body =>
      have whole := mirrors.request lawful method scheme authority path contentType body
      rw [Http2Session.serve, serveFrames]
      generalize session.request crypto method scheme authority path contentType body = left at *
      generalize client.request method scheme authority path contentType body = right at *
      obtain ⟨mirrors⟩ := whole
      exact ⟨rfl, mirrors⟩
  | register host version nodePub hostname authKey followup =>
      have registered := mirrors.register lawful host version nodePub hostname authKey followup
      rw [Http2Session.serve, serveFrames]
      generalize session.register crypto host version nodePub hostname authKey followup =
        left at *
      generalize Tailscale.register host version nodePub hostname authKey followup client =
        right at *
      obtain ⟨mirrors⟩ := registered
      exact ⟨rfl, mirrors⟩

theorem carries_init {crypto : Crypto} {keys : NoiseTransportKeys} {chunks : List Bytes}
    {wire pending text : Bytes} {tls : List (Delivery UInt8)}
    (sealed : sealRecords crypto keys.recvKey 0 chunks = some wire)
    (carriable : ∀ chunk ∈ chunks, Carriable chunk) (same : chunks.flatten = text)
    (fits : pending.length ≤ kPendingSize) (delivered : pending ++ arriving tls = wire)
    (quiet : pauses tls = []) (last : Option Http2Session) :
    (init (.init tls keys pending) last).link.Carries crypto (.init tls keys pending) [] text := by
  have unread : (ControlConn.init tls keys pending).unread = wire := by
    rw [ControlConn.unread, ControlConn.init, if_pos fits]
    exact delivered
  exact ⟨⟨chunks, sealed.trans (congrArg some unread.symm), carriable, same⟩, quiet,
    .refl crypto _⟩

/-- A session that has not been asked anything. -/
theorem mirrors_fresh {crypto : Crypto} {first conn : ControlConn} {base : List Bytes}
    {link : Http2Link} {frames : List WireFrame}
    (carries : link.Carries crypto first base (WireFrame.text frames))
    (last : Option Http2Session) :
    ({ init conn last with link } : Http2Session).Mirrors crypto first base {
      incoming := frames.map fun frame => .ok frame.toHttp2Frame
      decoder := (last.map fun last => last.decoder).getD {} } := by
  refine ⟨⟨frames, rfl, ?_⟩, rfl, rfl, rfl, rfl⟩
  simpa using carries

/-- Over any run of requests the session on the octets of its connection gives the answers of
the client on frames. Whatever way the frames were cut into records and chunks, those that the
client has not read are those that the connection still holds, and the records that it has put on
the stream carry the frames that the client has written. -/
theorem requests_carried (crypto : Crypto) (lawful : crypto.Lawful) (frames : List WireFrame)
    (keys : NoiseTransportKeys) (chunks : List Bytes) (wire pending : Bytes)
    (tls : List (Delivery UInt8)) (sent : Sent crypto keys.recvKey frames chunks wire)
    (fits : pending.length ≤ kPendingSize) (delivered : pending ++ arriving tls = wire)
    (chunked : .timeout ∉ tls) (last : Option Http2Session) (calls : List Call) :
    let start := init (.init tls keys pending) last
    let client : Http2Client := {
      incoming := frames.map fun frame => .ok frame.toHttp2Frame
      decoder := (last.map fun last => last.decoder).getD {} }
    let session := Service.after (serve crypto) start calls
    let written := (Service.after serveFrames client calls).outgoing
    Service.answers (serve crypto) start calls = Service.answers serveFrames client calls ∧
      (∃ rest : List WireFrame, (Service.after serveFrames client calls).incoming =
          rest.map (fun frame => .ok frame.toHttp2Frame) ∧
        ∃ later, session.link.http2.Ahead crypto later (WireFrame.text rest)) ∧
      sealRecords crypto keys.sendKey 0 (written.flatMap fun frame => recordChunks frame.octets) =
        some session.link.sent := by
  intro start client session written
  obtain ⟨sealed, carriable, same⟩ := sent.sealed
  have carries :=
    carries_init sealed carriable same fits delivered (pauses_eq_nil chunked) last
  have mirrors : start.Mirrors crypto (.init tls keys pending) [] client :=
    @mirrors_fresh crypto _ (.init tls keys pending) [] start.link frames carries last
  have each : ∀ (session : Http2Session) (client : Http2Client) (call : Call), True →
      session.Mirrors crypto (.init tls keys pending) [] client →
      Service.Alike (Mirrors crypto (.init tls keys pending) []) (serve crypto session call)
        (serveFrames client call) :=
    fun _ _ call _ mirrors => mirrors.serve lawful call
  obtain ⟨alike, mirrors⟩ := Service.alike_answers each
    (Run.along_of_forall (fun _ _ _ => trivial) start) mirrors
  obtain ⟨rest, incoming, carries⟩ := mirrors.carries
  refine ⟨alike, ⟨rest, incoming, carries.ahead⟩, ?_⟩
  exact carries.seals.sealRecords

/-! A request that is answered, in records that part the header of the second frame. -/

namespace Sample

def frames : List WireFrame :=
  [⟨⟨6, 0, 0, ascii "whatever"⟩, by decide, by decide⟩, ⟨⟨1, 4, 1, [0x88]⟩, by decide, by decide⟩,
    ⟨⟨0, 1, 1, ascii "ok"⟩, by decide, by decide⟩]

def chunks : List Bytes :=
  [(WireFrame.text frames).take 15, (WireFrame.text frames).drop 15]

def keys : NoiseTransportKeys := ⟨(Transparent.pair 3).pub, (Transparent.pair 3).pub⟩

def wire : Bytes := (sealRecords Transparent.crypto keys.recvKey 0 chunks).getD []

def calls : List Call := [
  .request (.ofBytes (ascii "GET")) (.ofBytes (ascii "https")) (.ofBytes (ascii "host"))
    (.ofBytes (ascii "/key")) none [],
  .readBody kH2MaxFramePayload]

theorem sent_cut : Sent Transparent.crypto keys.recvKey frames chunks wire :=
  .cut (by decide) (by decide +kernel) (by decide +kernel)

end Sample

def Answer.response : Answer → Option (Int × Bytes)
  | .whole _ response => response
  | _ => none

theorem requests_carried_sample :
    (Service.answers (serve Transparent.crypto)
        (init (.init (putBack (Sample.wire.drop 20) []) Sample.keys (Sample.wire.take 20)) none)
        Sample.calls).map Answer.response = [some (200, ascii "ok"), none] := by
  have same := (requests_carried Transparent.crypto Transparent.lawful Sample.frames Sample.keys
    Sample.chunks Sample.wire (Sample.wire.take 20) (putBack (Sample.wire.drop 20) [])
    Sample.sent_cut (by decide +kernel) (by decide +kernel) (by decide +kernel) none
    Sample.calls).1
  rw [same]
  decide +kernel

end Http2Session

end Sotoportego.Tailscale
