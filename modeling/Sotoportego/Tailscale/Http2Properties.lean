import Sotoportego.Tailscale.ControlConnProperties
import Sotoportego.Tailscale.Http2

/-!
# Frames out of records

What is buffered and what the records ahead hold form one text. Each layer either takes
octets off its front, leaves it whole at a timeout between two records, or fails.
-/

set_option autoImplicit false

namespace Sotoportego.Tailscale

open Octets Deliveries WireGuard

open ControlConn (wireSize sealRecords recordChunks Carriable Seals)

namespace Http2Conn

/-- What is buffered and the plaintexts of the records ahead together are `text`. -/
structure Ahead (crypto : Crypto) (http2 : Http2Conn) (chunks : List Bytes) (text : Bytes) :
    Prop where
  sealed : http2.conn.Ahead crypto chunks
  carriable : ∀ chunk ∈ chunks, Carriable chunk
  text_eq : http2.live ++ chunks.flatten = text

/-- A timeout falls inside one of the records. -/
def Torn (chunks : List Bytes) (stream : List (Delivery UInt8)) : Prop :=
  ∃ chunk more, chunk :: more <:+ chunks ∧
    ∃ after ∈ pauses stream, wireSize more < after ∧ after < wireSize (chunk :: more)

theorem Torn.earlier {chunks later : List Bytes} {stream : List (Delivery UInt8)}
    (torn : Torn later stream) (suffix : later <:+ chunks) : Torn chunks stream := by
  obtain ⟨chunk, more, inside, located⟩ := torn
  exact ⟨chunk, more, inside.trans suffix, located⟩

/-! ## Filling the buffer -/

theorem room_compact {http2 : Http2Conn} {need : Nat} (short : http2.live.length < need)
    (bounded : need ≤ kH2MaxFramePayload) : kH2MaxFramePayload ≤ http2.compact.room := by
  unfold compact
  split
  next crowded =>
    simp only [room, bufLen, kH2BufSize, kH2MaxFramePayload] at *
    omega
  next sparse =>
    simp only [room, bufLen, kH2BufSize, kH2MaxFramePayload] at *
    omega

inductive Filled (crypto : Crypto) (need : Nat) (http2 : Http2Conn) (chunks : List Bytes)
    (text : Bytes) : Status × Http2Conn → Prop where
  | ok {next : Http2Conn} {later : List Bytes} :
      next.Ahead crypto later text → later <:+ chunks → need ≤ next.live.length →
      pauses next.conn.tls = pauses http2.conn.tls →
      Filled crypto need http2 chunks text (.ok, next)
  | wouldBlock {next : Http2Conn} {later : List Bytes} :
      next.Ahead crypto later text → later <:+ chunks → next.live.length < need →
      pauses http2.conn.tls = wireSize later :: pauses next.conn.tls →
      Filled crypto need http2 chunks text (.wouldBlock, next)
  | ended {next : Http2Conn} :
      text.length < need → Filled crypto need http2 chunks text (.ioError, next)
  | torn {next : Http2Conn} :
      Torn chunks http2.conn.tls → Filled crypto need http2 chunks text (.ioError, next)

theorem Filled.earlier {crypto : Crypto} {need : Nat} {http2 middle : Http2Conn}
    {chunks later : List Bytes} {text : Bytes} {result : Status × Http2Conn}
    (filled : Filled crypto need middle later text result) (suffix : later <:+ chunks)
    (waits : pauses middle.conn.tls = pauses http2.conn.tls) :
    Filled crypto need http2 chunks text result := by
  cases filled with
  | ok ahead inside enough same =>
      exact .ok ahead (inside.trans suffix) enough (same.trans waits)
  | wouldBlock ahead inside short spent =>
      exact .wouldBlock ahead (inside.trans suffix) short (waits ▸ spent)
  | ended short => exact .ended short
  | torn torn =>
      refine .torn ?_
      rw [Torn, ← waits]
      exact torn.earlier suffix

theorem recordRead_of_ahead {crypto : Crypto} (lawful : crypto.Lawful) {need : Nat}
    {http2 : Http2Conn} {chunks : List Bytes} {text : Bytes} (ahead : http2.Ahead crypto chunks text)
    (bounded : need ≤ kH2MaxFramePayload) (short : ¬ need ≤ http2.live.length) :
    ControlConn.RecordRead crypto http2.conn chunks
      (http2.conn.readRecord crypto http2.compact.room) := by
  refine ControlConn.readRecord_recordRead lawful ahead.sealed ?_ ?_
  · intro chunk member
    exact (ahead.carriable chunk member).2
  · exact Nat.le_trans (by decide) (room_compact (Nat.lt_of_not_le short) bounded)

theorem fillLoop_filled {crypto : Crypto} (lawful : crypto.Lawful) {need : Nat} {http2 : Http2Conn}
    {text : Bytes} (bounded : need ≤ kH2MaxFramePayload) :
    ∀ {chunks : List Bytes}, http2.Ahead crypto chunks text →
      Filled crypto need http2 chunks text (http2.fillLoop crypto need) := by
  fun_induction fillLoop crypto need http2 with
  | case1 http2 enough =>
      intro chunks ahead
      exact .ok ahead (List.suffix_refl _) enough rfl
  | case2 http2 short conn result =>
      intro chunks ahead
      have record := recordRead_of_ahead lawful ahead bounded short
      rw [result] at record
      cases record with
      | blocked onward spent =>
          refine .wouldBlock ⟨onward, ahead.carriable, ?_⟩ (List.suffix_refl _) ?_ spent
          · simpa [called] using ahead.text_eq
          · simpa [called] using short
  | case3 http2 short first more conn result continued =>
      intro chunks ahead
      have record := recordRead_of_ahead lawful ahead bounded short
      rw [result] at record
      cases record with
      | @opened _ later _ onward waits =>
          have next : (http2.compact.called conn (first :: more)).Ahead crypto later text := by
            refine ⟨onward,
              fun chunk member => ahead.carriable chunk (List.mem_cons_of_mem _ member), ?_⟩
            simpa [called] using ahead.text_eq
          exact (continued next).earlier (List.suffix_cons _ _) waits
  | case4 http2 short record conn notBlocked notOpened result =>
      intro chunks ahead
      have record := recordRead_of_ahead lawful ahead bounded short
      rw [result] at record
      cases record with
      | @opened chunk =>
          have some := (ahead.carriable chunk List.mem_cons_self).1
          cases chunk with
          | nil => cases some
          | cons first more => exact (notOpened first more rfl).elim
      | blocked => exact (notBlocked rfl).elim
      | ended =>
          refine .ended ?_
          rw [← ahead.text_eq, List.flatten_nil, List.append_nil]
          omega
      | torn member low high => exact .torn ⟨_, _, List.suffix_refl _, _, member, low, high⟩

theorem fill_eq_fillLoop {need : Nat} (bounded : need ≤ kH2MaxFramePayload) (crypto : Crypto)
    (http2 : Http2Conn) : http2.fill crypto need = http2.fillLoop crypto need := by
  rw [fill, if_neg]
  simp only [kH2BufSize, kH2MaxFramePayload] at *
  omega

/-- Every call so far had room for a maximal record. -/
def Roomy (http2 : Http2Conn) : Prop :=
  ∀ room ∈ http2.rooms, kMaxPlaintextPerRecord ≤ room

theorem Roomy.called {http2 : Http2Conn} (roomy : http2.Roomy) {need : Nat}
    (short : ¬ need ≤ http2.live.length) (bounded : need ≤ kH2MaxFramePayload)
    (conn : ControlConn) (plain : Bytes) : (http2.compact.called conn plain).Roomy := by
  intro room member
  simp only [Http2Conn.called, rooms_compact] at member
  cases List.mem_append.mp member with
  | inl before => exact roomy room before
  | inr now =>
      rw [List.mem_singleton.mp now]
      exact Nat.le_trans (by decide) (room_compact (Nat.lt_of_not_le short) bounded)

theorem Roomy.fillLoop {crypto : Crypto} {need : Nat} {http2 : Http2Conn} (roomy : http2.Roomy)
    (bounded : need ≤ kH2MaxFramePayload) : (http2.fillLoop crypto need).2.Roomy := by
  fun_induction Http2Conn.fillLoop crypto need http2 with
  | case1 http2 enough => exact roomy
  | case2 http2 short conn result => exact roomy.called short bounded _ _
  | case3 http2 short first more conn result continued =>
      exact continued (roomy.called short bounded _ _)
  | case4 http2 short record conn notBlocked notOpened result =>
      exact roomy.called short bounded conn []

/-! ## Taking octets out -/

inductive RawRead (crypto : Crypto) (n : Nat) (http2 : Http2Conn) (chunks : List Bytes)
    (text : Bytes) : Status × Bytes × Http2Conn → Prop where
  | ok {taken rest : Bytes} {next : Http2Conn} {later : List Bytes} :
      taken.length = n → text = taken ++ rest → next.Ahead crypto later rest →
      later <:+ chunks → pauses next.conn.tls = pauses http2.conn.tls →
      RawRead crypto n http2 chunks text (.ok, taken, next)
  | wouldBlock {next : Http2Conn} {later : List Bytes} :
      next.Ahead crypto later text → later <:+ chunks → next.live.length < n →
      pauses http2.conn.tls = wireSize later :: pauses next.conn.tls →
      RawRead crypto n http2 chunks text (.wouldBlock, [], next)
  | ended {next : Http2Conn} :
      text.length < n → RawRead crypto n http2 chunks text (.ioError, [], next)
  | torn {next : Http2Conn} :
      Torn chunks http2.conn.tls → RawRead crypto n http2 chunks text (.ioError, [], next)

theorem readRaw_rawRead {crypto : Crypto} (lawful : crypto.Lawful) {n : Nat} {http2 : Http2Conn}
    {chunks : List Bytes} {text : Bytes} (bounded : n ≤ kH2MaxFramePayload)
    (ahead : http2.Ahead crypto chunks text) :
    RawRead crypto n http2 chunks text (http2.readRaw crypto n) := by
  have filled := fillLoop_filled lawful bounded ahead
  rw [readRaw, fill_eq_fillLoop bounded]
  generalize http2.fillLoop crypto n = result at *
  cases filled with
  | @ok next later onward suffix enough waits =>
      have split : text = next.live.take n ++ (next.live.drop n ++ later.flatten) := by
        rw [← List.append_assoc, List.take_append_drop]
        exact onward.text_eq.symm
      refine .ok ?_ split ⟨onward.sealed, onward.carriable, rfl⟩ suffix waits
      rw [List.length_take]
      omega
  | wouldBlock onward suffix short spent => exact .wouldBlock onward suffix short spent
  | ended short => exact .ended short
  | torn torn => exact .torn torn

theorem Roomy.readRaw {crypto : Crypto} {n : Nat} {http2 : Http2Conn} (roomy : http2.Roomy)
    (bounded : n ≤ kH2MaxFramePayload) : (http2.readRaw crypto n).2.2.Roomy := by
  have kept : (http2.fillLoop crypto n).2.Roomy := roomy.fillLoop bounded
  rw [Http2Conn.readRaw, fill_eq_fillLoop bounded]
  split
  next next result =>
    rw [result] at kept
    exact kept
  next status next _ result =>
    rw [result] at kept
    exact kept

end Http2Conn

/-! ## Reading frames -/

/-- A frame that HTTP/2 allows under the advertised maximum. -/
structure WireFrame extends Http2Frame where
  streamId_lt : streamId < 2 ^ 31
  payload_le : payload.length ≤ kH2MaxFramePayload
  deriving DecidableEq

namespace WireFrame

def header (frame : WireFrame) : Bytes :=
  Http2Conn.frameHeader frame.type frame.flags frame.streamId frame.payload.length

def octets (frame : WireFrame) : Bytes :=
  frame.header ++ frame.payload

def text (frames : List WireFrame) : Bytes :=
  frames.flatMap octets

@[simp] theorem length_header (frame : WireFrame) : frame.header.length = kH2FrameHeaderLen := rfl

theorem text_cons (frame : WireFrame) (frames : List WireFrame) :
    text (frame :: frames) = frame.header ++ (frame.payload ++ text frames) := by
  rw [text, List.flatMap_cons, octets, List.append_assoc]
  rfl

end WireFrame

namespace Http2Conn

open WireFrame (text_cons)

inductive FrameRead (crypto : Crypto) (http2 : Http2Conn) (chunks : List Bytes) :
    List WireFrame → Except Status Http2Frame × Http2Conn → Prop where
  | frame {frame : WireFrame} {frames : List WireFrame} {next : Http2Conn} {later : List Bytes} :
      next.Ahead crypto later (WireFrame.text frames) → later <:+ chunks →
      pauses next.conn.tls = pauses http2.conn.tls →
      FrameRead crypto http2 chunks (frame :: frames) (.ok frame.toHttp2Frame, next)
  | wouldBlock {frames : List WireFrame} {next : Http2Conn} {later : List Bytes} :
      next.Ahead crypto later (WireFrame.text frames) → later <:+ chunks →
      pauses http2.conn.tls = wireSize later :: pauses next.conn.tls →
      FrameRead crypto http2 chunks frames (.error .wouldBlock, next)
  | ended {next : Http2Conn} : FrameRead crypto http2 chunks [] (.error .ioError, next)
  | torn {frames : List WireFrame} {next : Http2Conn} :
      Torn chunks http2.conn.tls → FrameRead crypto http2 chunks frames (.error .ioError, next)
  /-- A timeout between the header and the end of the payload. -/
  | parted {frame : WireFrame} {frames : List WireFrame} {next : Http2Conn} {later : List Bytes} :
      later <:+ chunks → wireSize later ∈ pauses http2.conn.tls →
      (WireFrame.text frames).length < later.flatten.length →
      later.flatten.length ≤ (WireFrame.text frames).length + frame.payload.length →
      FrameRead crypto http2 chunks (frame :: frames) (.error .ioError, next)

theorem readFrame_of_header (crypto : Crypto) {payloadCap : Nat} {http2 next : Http2Conn}
    {frame : WireFrame} (room : kH2MaxFramePayload ≤ payloadCap)
    (read : http2.readRaw crypto kH2FrameHeaderLen = (.ok, frame.header, next)) :
    http2.readFrame crypto payloadCap =
      if 0 < frame.payload.length then
        match next.readRaw crypto frame.payload.length with
        | (.ok, payload, last) =>
            (.ok ⟨frame.type, frame.flags, frame.streamId, payload⟩, last)
        | (.wouldBlock, _, last) => (.error .ioError, last)
        | (status, _, last) => (.error status, last)
      else (.ok ⟨frame.type, frame.flags, frame.streamId, []⟩, next) := by
  have small := frame.payload_le
  simp only [kH2MaxFramePayload] at room small
  have length : (octetAt frame.header 0).toNat <<< 16 ||| (octetAt frame.header 1).toNat <<< 8 |||
      (octetAt frame.header 2).toNat = frame.payload.length := join24 (by omega)
  have streamId : ((octetAt frame.header 5).toUInt32 <<< 24 |||
      (octetAt frame.header 6).toUInt32 <<< 16 ||| (octetAt frame.header 7).toUInt32 <<< 8 |||
      (octetAt frame.header 8).toUInt32) &&& 0x7fffffff = frame.streamId := join31 frame.streamId_lt
  rw [readFrame, read]
  simp only [length, streamId]
  rw [if_neg (by omega)]
  rfl

theorem readFrame_nil {crypto : Crypto} (lawful : crypto.Lawful) {http2 : Http2Conn}
    {chunks : List Bytes} (payloadCap : Nat) (ahead : http2.Ahead crypto chunks (WireFrame.text [])) :
    FrameRead crypto http2 chunks [] (http2.readFrame crypto payloadCap) := by
  have header := readRaw_rawRead lawful (by decide : kH2FrameHeaderLen ≤ _) ahead
  rw [readFrame]
  generalize http2.readRaw crypto kH2FrameHeaderLen = result at *
  cases header with
  | ok length split _ _ _ =>
      rw [(List.append_eq_nil_iff.mp split.symm).1] at length
      cases length
  | wouldBlock onward suffix _ spent => exact .wouldBlock onward suffix spent
  | ended short => exact .ended
  | torn torn => exact .torn torn

theorem readFrame_cons {crypto : Crypto} (lawful : crypto.Lawful) {http2 : Http2Conn}
    {chunks : List Bytes} {payloadCap : Nat} {frame : WireFrame} {frames : List WireFrame}
    (room : kH2MaxFramePayload ≤ payloadCap)
    (ahead : http2.Ahead crypto chunks (WireFrame.text (frame :: frames))) :
    FrameRead crypto http2 chunks (frame :: frames) (http2.readFrame crypto payloadCap) := by
  have header := readRaw_rawRead lawful (by decide : kH2FrameHeaderLen ≤ _) ahead
  cases result : http2.readRaw crypto kH2FrameHeaderLen with
  | mk status answer =>
  rw [result] at header
  cases header with
  | wouldBlock onward suffix _ spent =>
      rw [readFrame, result]
      exact .wouldBlock onward suffix spent
  | ended short =>
      rw [text_cons, List.length_append, frame.length_header] at short
      omega
  | torn torn =>
      rw [readFrame, result]
      exact .torn torn
  | @ok taken rest next later length split onward suffix waits =>
      rw [text_cons] at split
      obtain ⟨rfl, rfl⟩ := List.append_inj split (by rw [length, frame.length_header])
      rw [readFrame_of_header crypto room result]
      split
      next some =>
        have body := readRaw_rawRead lawful frame.payload_le onward
        generalize next.readRaw crypto frame.payload.length = read at *
        cases body with
        | @ok payload rest last final length split onward inside waits' =>
            obtain ⟨rfl, rfl⟩ := List.append_inj split length.symm
            exact .frame onward (inside.trans suffix) (waits'.trans waits)
        | @wouldBlock last final onward inside short spent =>
            have sizes := congrArg List.length onward.text_eq
            rw [List.length_append, List.length_append] at sizes
            have member : wireSize final ∈ pauses http2.conn.tls := by
              rw [← waits, spent]
              exact List.mem_cons_self
            exact .parted (inside.trans suffix) member (by omega) (by omega)
        | ended short =>
            rw [List.length_append] at short
            omega
        | torn torn =>
            refine .torn ?_
            rw [Torn, ← waits]
            exact torn.earlier suffix
      next empty =>
        have nothing : frame.payload = [] := List.length_eq_zero_iff.mp (by omega)
        rw [nothing, List.nil_append] at onward
        have same : (⟨frame.type, frame.flags, frame.streamId, []⟩ : Http2Frame) =
            frame.toHttp2Frame := by
          rw [← nothing]
        rw [same]
        exact .frame onward suffix waits

theorem readFrame_frameRead {crypto : Crypto} (lawful : crypto.Lawful) {http2 : Http2Conn}
    {chunks : List Bytes} {payloadCap : Nat} {frames : List WireFrame}
    (room : kH2MaxFramePayload ≤ payloadCap)
    (ahead : http2.Ahead crypto chunks (WireFrame.text frames)) :
    FrameRead crypto http2 chunks frames (http2.readFrame crypto payloadCap) := by
  cases frames with
  | nil => exact readFrame_nil lawful payloadCap ahead
  | cons frame frames => exact readFrame_cons lawful room ahead

theorem Roomy.readFrame {crypto : Crypto} (lawful : crypto.Lawful) {http2 : Http2Conn}
    {chunks : List Bytes} {payloadCap : Nat} {frames : List WireFrame} (roomy : http2.Roomy)
    (room : kH2MaxFramePayload ≤ payloadCap)
    (ahead : http2.Ahead crypto chunks (WireFrame.text frames)) :
    (http2.readFrame crypto payloadCap).2.Roomy := by
  have bounded : kH2FrameHeaderLen ≤ kH2MaxFramePayload := by decide
  have header := readRaw_rawRead lawful bounded ahead
  have kept : (http2.readRaw crypto kH2FrameHeaderLen).2.2.Roomy := roomy.readRaw bounded
  cases result : http2.readRaw crypto kH2FrameHeaderLen with
  | mk status answer =>
  rw [result] at header kept
  cases header with
  | wouldBlock onward suffix _ spent =>
      rw [Http2Conn.readFrame, result]
      exact kept
  | ended short =>
      rw [Http2Conn.readFrame, result]
      exact kept
  | torn torn =>
      rw [Http2Conn.readFrame, result]
      exact kept
  | @ok taken rest next later length split =>
      cases frames with
      | nil =>
          rw [(List.append_eq_nil_iff.mp split.symm).1] at length
          cases length
      | cons frame frames =>
          rw [text_cons] at split
          obtain ⟨rfl, -⟩ := List.append_inj split (by rw [length, frame.length_header])
          have body : (next.readRaw crypto frame.payload.length).2.2.Roomy :=
            Roomy.readRaw kept frame.payload_le
          rw [readFrame_of_header crypto room result]
          split
          next some =>
            generalize next.readRaw crypto frame.payload.length = read at *
            obtain ⟨status, payload, last⟩ := read
            cases status <;> exact body
          next empty => exact kept

end Http2Conn

end Sotoportego.Tailscale
