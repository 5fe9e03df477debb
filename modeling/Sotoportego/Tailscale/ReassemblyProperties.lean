import Sotoportego.Tailscale.Http2Properties
import Sotoportego.WireGuard.Transparent
import Mathlib.Logic.Function.Iterate

/-!
# Whole streams of frames

Frames go into a stream through `WriteFrame` or as records a server cut anywhere, and are
read back by calling `ReadFrame` until it fails for good.
-/

set_option autoImplicit false

namespace Sotoportego.Tailscale

open Octets Deliveries WireGuard

open ControlConn (wireSize wireSize_cons sealRecords recordChunks Carriable Seals)

def Http2Conn.writeFrames (crypto : Crypto) :
    Http2Conn → List WireFrame → Except Status (Http2Conn × Bytes)
  | http2, [] => .ok (http2, [])
  | http2, frame :: frames => do
      let (http2, written) ←
        http2.writeFrame crypto frame.type frame.flags frame.streamId frame.payload
      let (http2, more) ← writeFrames crypto http2 frames
      return (http2, written ++ more)

/-- The octets `wire` carry the frames in records of the plaintexts `chunks`. -/
inductive Sent (crypto : Crypto) (key : Key) (frames : List WireFrame) :
    List Bytes → Bytes → Prop where
  | written {writer last : Http2Conn} {wire : Bytes} :
      writer.conn.txKey = key → writer.conn.txCounter = 0 →
      writer.writeFrames crypto frames = .ok (last, wire) →
      Sent crypto key frames (frames.flatMap fun frame => recordChunks frame.octets) wire
  | cut {chunks : List Bytes} {wire : Bytes} :
      chunks.flatten = WireFrame.text frames → (∀ chunk ∈ chunks, Carriable chunk) →
      sealRecords crypto key 0 chunks = some wire → Sent crypto key frames chunks wire

/-- A timeout with `after` octets to go is between two records and not between the header
and the end of the payload of a frame. -/
def Retryable (frames : List WireFrame) (chunks : List Bytes) (after : Nat) : Prop :=
  ∃ later, later <:+ chunks ∧ after = wireSize later ∧
    ∀ frame rest, frame :: rest <:+ frames →
      ¬ ((WireFrame.text rest).length < later.flatten.length ∧
        later.flatten.length ≤ (WireFrame.text rest).length + frame.payload.length)

def Steady (frames : List WireFrame) (chunks : List Bytes) (stream : List (Delivery UInt8)) : Prop :=
  ∀ after ∈ pauses stream, Retryable frames chunks after

/-- A caller that retries after a would-block and gives up on any other error. -/
structure Reading where
  http2 : Http2Conn
  frames : List Http2Frame := []
  failed : Bool := false

namespace Reading

def start (tls : List (Delivery UInt8)) (keys : NoiseTransportKeys) (pending : Bytes) : Reading where
  http2 := .init (.init tls keys pending)

def step (crypto : Crypto) (payloadCap : Nat) (reading : Reading) : Reading :=
  if reading.failed then reading
  else
    match reading.http2.readFrame crypto payloadCap with
    | (.ok frame, http2) => { reading with http2, frames := reading.frames ++ [frame] }
    | (.error .wouldBlock, http2) => { reading with http2 }
    | (.error _, http2) => { reading with http2, failed := true }

def readFrames (crypto : Crypto) (payloadCap calls : Nat) (reading : Reading) : Reading :=
  (step crypto payloadCap)^[calls] reading

end Reading

/-! ## What is sent -/

theorem seals_writeFrame {crypto : Crypto} {http2 last : Http2Conn} {frame : WireFrame}
    {written : Bytes}
    (wrote : http2.writeFrame crypto frame.type frame.flags frame.streamId frame.payload =
      .ok (last, written)) :
    Seals crypto http2.conn last.conn (recordChunks frame.octets) written := by
  have small := frame.payload_le
  simp only [kH2MaxFramePayload] at small
  rw [Http2Conn.writeFrame, if_neg (by omega), if_neg (by rw [kH2MaxFramePayload]; omega)] at wrote
  split at wrote
  next conn octets result =>
    cases wrote
    exact ControlConn.seals_writeMessage result
  next result => cases wrote

theorem seals_writeFrames {crypto : Crypto} {frames : List WireFrame} :
    ∀ {http2 last : Http2Conn} {written : Bytes},
      http2.writeFrames crypto frames = .ok (last, written) →
      Seals crypto http2.conn last.conn (frames.flatMap fun frame => recordChunks frame.octets)
        written := by
  induction frames with
  | nil =>
      intro http2 last written wrote
      cases wrote
      exact .refl crypto _
  | cons frame frames continued =>
      intro http2 last written wrote
      rw [Http2Conn.writeFrames] at wrote
      cases first : http2.writeFrame crypto frame.type frame.flags frame.streamId frame.payload with
      | error status =>
          rw [first] at wrote
          cases wrote
      | ok result =>
          obtain ⟨middle, octets⟩ := result
          rw [first] at wrote
          cases rest : middle.writeFrames crypto frames with
          | error status =>
              simp only [bind, Except.bind, rest] at wrote
              cases wrote
          | ok result =>
              simp only [bind, Except.bind, rest] at wrote
              cases wrote
              exact (seals_writeFrame first).trans (continued rest)

theorem flatten_flatMap_recordChunks (frames : List WireFrame) :
    (frames.flatMap fun frame => recordChunks frame.octets).flatten = WireFrame.text frames := by
  induction frames with
  | nil => rfl
  | cons frame frames continued =>
      rw [List.flatMap_cons, List.flatten_append, continued, ControlConn.flatten_recordChunks]
      rfl

/-- Both ways of sending seal carriable chunks of the same text. -/
theorem Sent.sealed {crypto : Crypto} {key : Key} {frames : List WireFrame} {chunks : List Bytes}
    {wire : Bytes} (sent : Sent crypto key frames chunks wire) :
    sealRecords crypto key 0 chunks = some wire ∧ (∀ chunk ∈ chunks, Carriable chunk) ∧
      chunks.flatten = WireFrame.text frames := by
  cases sent with
  | written key fresh wrote =>
      have sealed := (seals_writeFrames wrote).sealRecords
      rw [key, fresh] at sealed
      refine ⟨sealed, ?_, flatten_flatMap_recordChunks frames⟩
      intro chunk member
      obtain ⟨frame, -, inside⟩ := List.mem_flatMap.mp member
      refine ControlConn.carriable_recordChunks ?_ chunk inside
      rw [WireFrame.octets, List.length_append, frame.length_header, kH2FrameHeaderLen]
      omega
  | cut same carriable sealed => exact ⟨sealed, carriable, same⟩

/-! ## Places between records -/

theorem wireSize_append (front back : List Bytes) :
    wireSize (front ++ back) = wireSize front + wireSize back := by
  simp [wireSize]

theorem wireSize_le_of_suffix {short long : List Bytes} (suffix : short <:+ long) :
    wireSize short ≤ wireSize long := by
  obtain ⟨front, rfl⟩ := suffix
  rw [wireSize_append]
  omega

/-- The octets to go determine the place. -/
theorem suffix_unique {left right chunks : List Bytes} (leftSuffix : left <:+ chunks)
    (rightSuffix : right <:+ chunks) (same : wireSize left = wireSize right) : left = right := by
  have grows : ∀ {short long : List Bytes}, short <:+ long →
      wireSize short = wireSize long → short = long := by
    intro short long suffix equal
    obtain ⟨front, rfl⟩ := suffix
    cases front with
    | nil => rfl
    | cons chunk front =>
        rw [wireSize_append, wireSize_cons] at equal
        omega
  cases List.suffix_or_suffix_of_suffix leftSuffix rightSuffix with
  | inl inside => exact grows inside same
  | inr inside => exact (grows inside same.symm).symm

/-- No place between records is inside one. -/
theorem not_inside {chunk : Bytes} {more later chunks : List Bytes}
    (record : chunk :: more <:+ chunks) (place : later <:+ chunks)
    (low : wireSize more < wireSize later) : wireSize (chunk :: more) ≤ wireSize later := by
  cases List.suffix_or_suffix_of_suffix record place with
  | inl inside => exact wireSize_le_of_suffix inside
  | inr inside =>
      cases List.suffix_cons_iff.mp inside with
      | inl same => rw [same]
      | inr within =>
          have bounded := wireSize_le_of_suffix within
          omega

section Steady

variable {frames : List WireFrame} {chunks : List Bytes} {stream other : List (Delivery UInt8)}

theorem Steady.earlier (steady : Steady frames chunks stream)
    (waits : pauses other <:+ pauses stream) : Steady frames chunks other :=
  fun after member => steady after (waits.mem member)

theorem Steady.not_torn (steady : Steady frames chunks stream) :
    ¬ Http2Conn.Torn chunks stream := by
  rintro ⟨chunk, more, record, after, member, low, high⟩
  obtain ⟨later, place, rfl, -⟩ := steady after member
  have bounded := not_inside record place low
  omega

theorem Steady.not_parted (steady : Steady frames chunks stream) {frame : WireFrame}
    {rest : List WireFrame} {later : List Bytes} (suffix : frame :: rest <:+ frames)
    (place : later <:+ chunks) (member : wireSize later ∈ pauses stream) :
    ¬ ((WireFrame.text rest).length < later.flatten.length ∧
      later.flatten.length ≤ (WireFrame.text rest).length + frame.payload.length) := by
  obtain ⟨same, place', size, outside⟩ := steady _ member
  rw [suffix_unique place place' size]
  exact outside frame rest suffix

end Steady

/-! ## One call -/

namespace Reading

variable {crypto : Crypto} {frames rest : List WireFrame} {chunks : List Bytes}
  {stream : List (Delivery UInt8)} {payloadCap : Nat} {reading : Reading}

/-- What has been returned and `rest` are all the frames, and unless reading failed, what can
still be read is the text of `rest`. -/
structure Sound (crypto : Crypto) (frames : List WireFrame) (chunks : List Bytes)
    (stream : List (Delivery UInt8)) (rest : List WireFrame) (reading : Reading) : Prop where
  returned : reading.frames ++ rest.map (·.toHttp2Frame) = frames.map (·.toHttp2Frame)
  suffix : rest <:+ frames
  roomy : reading.http2.Roomy
  ahead : reading.failed = false → ∃ later, reading.http2.Ahead crypto later (WireFrame.text rest) ∧
    later <:+ chunks ∧ pauses reading.http2.conn.tls <:+ pauses stream

/-- A call on a sound reading keeps it sound, and comes closer to the end unless it fails at a
timeout that is not retryable. -/
theorem Sound.step (lawful : crypto.Lawful) (room : kH2MaxFramePayload ≤ payloadCap)
    (sound : Sound crypto frames chunks stream rest reading) :
    ∃ rest', Sound crypto frames chunks stream rest' (reading.step crypto payloadCap) ∧
      (Steady frames chunks stream → reading.failed = false → rest ≠ [] →
        (reading.step crypto payloadCap).failed = false ∧
          rest'.length + (pauses (reading.step crypto payloadCap).http2.conn.tls).length <
            rest.length + (pauses reading.http2.conn.tls).length) := by
  cases failed : reading.failed with
  | true =>
      rw [Reading.step, if_pos failed]
      exact ⟨rest, sound, fun _ alive => by cases alive⟩
  | false =>
      obtain ⟨later, ahead, inside, waits⟩ := sound.ahead failed
      have called := Http2Conn.readFrame_frameRead lawful room ahead
      have roomy := Http2Conn.Roomy.readFrame lawful sound.roomy room ahead
      rw [Reading.step, if_neg (by rw [failed]; decide)]
      generalize reading.http2.readFrame crypto payloadCap = result at *
      cases called with
      | @frame frame rest next final onward suffix same =>
          refine ⟨rest, ⟨?_, ?_, roomy, ?_⟩, ?_⟩
          · simpa using sound.returned
          · exact (List.suffix_cons _ _).trans sound.suffix
          · intro _
            refine ⟨final, onward, suffix.trans inside, ?_⟩
            rw [same]
            exact waits
          · intro _ _ _
            refine ⟨failed, ?_⟩
            simp only [same, List.length_cons]
            omega
      | @wouldBlock _ next final onward suffix spent =>
          refine ⟨rest, ⟨sound.returned, sound.suffix, roomy, ?_⟩, ?_⟩
          · intro _
            refine ⟨final, onward, suffix.trans inside, ?_⟩
            rw [spent] at waits
            exact (List.suffix_cons _ _).trans waits
          · intro _ _ _
            refine ⟨failed, ?_⟩
            simp only [spent, List.length_cons]
            omega
      | ended =>
          refine ⟨[], ⟨sound.returned, sound.suffix, roomy, fun alive => by cases alive⟩, ?_⟩
          intro _ _ some
          exact (some rfl).elim
      | torn torn =>
          refine ⟨rest, ⟨sound.returned, sound.suffix, roomy, fun alive => by cases alive⟩, ?_⟩
          intro steady _ _
          exact ((steady.earlier waits).not_torn (torn.earlier inside)).elim
      | @parted frame rest next final suffix member low high =>
          refine ⟨_, ⟨sound.returned, sound.suffix, roomy, fun alive => by cases alive⟩, ?_⟩
          intro steady _ _
          exact ((steady.earlier waits).not_parted sound.suffix (suffix.trans inside) member
            ⟨low, high⟩).elim

/-! ## All calls -/

theorem frames_step (crypto : Crypto) (payloadCap : Nat) (reading : Reading) :
    reading.frames <+: (reading.step crypto payloadCap).frames := by
  unfold Reading.step
  split
  next => exact List.prefix_refl _
  next =>
    split
    next frame http2 _ => exact List.prefix_append _ _
    next => exact List.prefix_refl _
    next => exact List.prefix_refl _

theorem Sound.readFrames (lawful : crypto.Lawful) (room : kH2MaxFramePayload ≤ payloadCap)
    (sound : Sound crypto frames chunks stream rest reading) (calls : Nat) :
    ∃ rest', Sound crypto frames chunks stream rest' (reading.readFrames crypto payloadCap calls) := by
  induction calls generalizing reading rest with
  | zero => exact ⟨rest, sound⟩
  | succ calls continued =>
      obtain ⟨rest', next, -⟩ := sound.step lawful room
      exact continued next

theorem frames_readFrames (calls : Nat) :
    reading.frames <+: (reading.readFrames crypto payloadCap calls).frames := by
  induction calls generalizing reading with
  | zero => exact List.prefix_refl _
  | succ calls continued => exact (frames_step crypto payloadCap reading).trans continued

/-- Nothing is left to return, and nothing more is returned. -/
theorem Sound.finished (lawful : crypto.Lawful) (room : kH2MaxFramePayload ≤ payloadCap)
    (sound : Sound crypto frames chunks stream [] reading) (calls : Nat) :
    (reading.readFrames crypto payloadCap calls).frames = frames.map (·.toHttp2Frame) := by
  obtain ⟨rest, after⟩ := sound.readFrames lawful room calls
  have all : reading.frames = frames.map (·.toHttp2Frame) := by simpa using sound.returned
  have kept : reading.frames <+: (reading.readFrames crypto payloadCap calls).frames :=
    frames_readFrames calls
  rw [all, ← after.returned] at kept
  have short := kept.length_le
  rw [List.length_append] at short
  have nothing : rest.map (·.toHttp2Frame) = [] := List.length_eq_zero_iff.mp (by omega)
  rw [← after.returned, nothing, List.append_nil]

/-- Every call either returns a frame or spends a timeout. -/
theorem Sound.complete (lawful : crypto.Lawful) (room : kH2MaxFramePayload ≤ payloadCap)
    (steady : Steady frames chunks stream)
    (sound : Sound crypto frames chunks stream rest reading) (alive : reading.failed = false)
    {calls : Nat} (enough : rest.length + (pauses reading.http2.conn.tls).length ≤ calls) :
    (reading.readFrames crypto payloadCap calls).frames = frames.map (·.toHttp2Frame) := by
  induction calls generalizing reading rest with
  | zero =>
      have nothing : rest = [] := List.length_eq_zero_iff.mp (by omega)
      subst nothing
      exact sound.finished lawful room 0
  | succ calls continued =>
      by_cases nothing : rest = []
      · subst nothing
        exact sound.finished lawful room (calls + 1)
      · obtain ⟨rest', next, progress⟩ := sound.step lawful room
        obtain ⟨onward, fewer⟩ := progress steady alive nothing
        exact continued next onward (by omega)

theorem sound_start {keys : NoiseTransportKeys} {wire pending : Bytes}
    {tls : List (Delivery UInt8)} (sent : Sent crypto keys.recvKey frames chunks wire)
    (fits : pending.length ≤ kPendingSize) (delivered : pending ++ arriving tls = wire) :
    Sound crypto frames chunks tls frames (start tls keys pending) := by
  obtain ⟨sealed, carriable, same⟩ := sent.sealed
  refine ⟨rfl, List.suffix_refl _, ?_, ?_⟩
  · intro room member
    cases member
  · intro _
    refine ⟨chunks, ⟨?_, carriable, same⟩, List.suffix_refl _, List.suffix_refl _⟩
    have unread : (ControlConn.init tls keys pending).unread = wire := by
      rw [ControlConn.unread, ControlConn.init, if_pos fits]
      exact delivered
    exact sealed.trans (congrArg some unread.symm)

/-- However the records are delivered, reading returns frames in order and unmodified; until it
fails, what can still be read is the text of the others, also after a would-block; and where
every timeout is retryable, one call for each frame and timeout returns them all. -/
theorem reassembly (crypto : Crypto) (lawful : crypto.Lawful) (frames : List WireFrame)
    (keys : NoiseTransportKeys) (chunks : List Bytes) (wire pending : Bytes)
    (tls : List (Delivery UInt8)) (sent : Sent crypto keys.recvKey frames chunks wire)
    (fits : pending.length ≤ kPendingSize) (delivered : pending ++ arriving tls = wire)
    (payloadCap : Nat) (room : kH2MaxFramePayload ≤ payloadCap) (calls : Nat)
    (reading : Reading)
    (read : reading = (start tls keys pending).readFrames crypto payloadCap calls) :
    reading.frames <+: frames.map (·.toHttp2Frame) ∧
      (reading.failed = false → ∃ later,
        reading.http2.Ahead crypto later (WireFrame.text (frames.drop reading.frames.length))) ∧
      (Steady frames chunks tls → frames.length + (pauses tls).length ≤ calls →
        reading.frames = frames.map (·.toHttp2Frame)) ∧
      ∀ room ∈ reading.http2.rooms, kMaxPlaintextPerRecord ≤ room := by
  subst read
  have initially := sound_start sent fits delivered
  obtain ⟨rest, sound⟩ := initially.readFrames lawful room calls
  refine ⟨⟨_, sound.returned⟩, ?_, ?_, sound.roomy⟩
  · intro alive
    obtain ⟨later, ahead, -, -⟩ := sound.ahead alive
    refine ⟨later, ?_⟩
    obtain ⟨front, split⟩ := sound.suffix
    have counted := congrArg List.length sound.returned
    have lengths := congrArg List.length split
    simp only [List.length_append, List.length_map] at counted lengths
    have dropped :
        frames.drop (readFrames crypto payloadCap calls (start tls keys pending)).frames.length =
          rest := by
      rw [← split]
      exact List.drop_left' (by omega)
    rw [dropped]
    exact ahead
  · intro steady enough
    exact initially.complete lawful room steady rfl enough

/-! A payload of two octets and an empty frame, in records that part the second header, with
a timeout between them. -/

namespace Sample

def key : Key := (Transparent.pair 3).pub

def keys : NoiseTransportKeys := ⟨key, key⟩

def sentFrames : List WireFrame :=
  [⟨⟨0, 1, 5, [10, 11]⟩, by decide, by decide⟩, ⟨⟨4, 0, 0, []⟩, by decide, by decide⟩]

def sentChunks : List Bytes :=
  [(WireFrame.text sentFrames).take 15, (WireFrame.text sentFrames).drop 15]

def wire : Bytes := (sealRecords Transparent.crypto key 0 sentChunks).getD []

def pending : Bytes := wire.take 20

def tls : List (Delivery UInt8) :=
  putBack ((wire.drop 20).take 14) (.timeout :: putBack (wire.drop 34) [])

theorem sent_cut : Sent Transparent.crypto keys.recvKey sentFrames sentChunks wire :=
  .cut (by decide) (by decide) (by decide +kernel)

theorem steady : Steady sentFrames sentChunks tls := by
  have pause : pauses tls = [24] := by decide +kernel
  intro after member
  rw [pause] at member
  rw [List.mem_singleton.mp member]
  refine ⟨[(WireFrame.text sentFrames).drop 15], List.suffix_cons _ _, by decide, ?_⟩
  intro frame rest suffix
  have places : rest = [] ∧ frame.payload = [] ∨ 5 ≤ (WireFrame.text rest).length := by
    rw [sentFrames, List.suffix_cons_iff, List.suffix_cons_iff] at suffix
    simp only [List.cons.injEq, List.suffix_nil, reduceCtorEq, or_false] at suffix
    cases suffix with
    | inl first =>
        rw [first.2]
        exact .inr (by decide)
    | inr second =>
        rw [second.1]
        exact .inl ⟨second.2, rfl⟩
  have size : [(WireFrame.text sentFrames).drop 15].flatten.length = 5 := by decide
  rw [size]
  cases places with
  | inl last =>
      rw [last.1, last.2]
      decide
  | inr first => omega

end Sample

theorem reassembly_sample :
    ((start Sample.tls Sample.keys Sample.pending).readFrames Transparent.crypto
      kH2MaxFramePayload 3).frames = [⟨0, 1, 5, [10, 11]⟩, ⟨4, 0, 0, []⟩] :=
  (reassembly Transparent.crypto Transparent.lawful Sample.sentFrames Sample.keys Sample.sentChunks
    Sample.wire Sample.pending Sample.tls Sample.sent_cut (by decide +kernel) (by decide +kernel)
    kH2MaxFramePayload (Nat.le_refl _) 3 _ rfl).2.2.1 Sample.steady (by decide +kernel)

end Reading

end Sotoportego.Tailscale
