import Sotoportego.Lib.Run
import Sotoportego.Tailscale.Http2Client

/-!
# The decoder and the header blocks of a connection

What the server's encoder has sent is the sequence of header blocks among the frames of the
connection; the client is in step when its decoder has decoded exactly these since it was new.
-/

set_option autoImplicit false

namespace Sotoportego.Tailscale

open Octets CText

def h2PushPromise : UInt8 := 5

/-! ## The blocks among the frames -/

namespace Http2Frame

def carriesBlock (frame : Http2Frame) : Bool :=
  frame.type = h2Headers ∨ frame.type = h2PushPromise ∨ frame.type = h2Continuation

/-- What the frame adds to its header block. -/
def blockFragment (frame : Http2Frame) : Bytes :=
  if frame.type = h2PushPromise then frame.content.drop 4 else frame.fragment

/-- Both frame loops give up the stream. -/
def aborts (streamId : UInt32) (frame : Http2Frame) : Bool :=
  frame.type = h2GoAway ∨ frame.type = h2RstStream ∧ frame.streamId = streamId

theorem aborts_settings {streamId : UInt32} {frame : Http2Frame}
    (settings : frame.type = h2Settings) : frame.aborts streamId = false := by
  rw [aborts, settings]
  rfl

theorem aborts_ping {streamId : UInt32} {frame : Http2Frame} (ping : frame.type = h2Ping) :
    frame.aborts streamId = false := by
  rw [aborts, ping]
  rfl

theorem headers_kind {frame : Http2Frame}
    (kind : frame.type = h2Headers ∨ frame.type = h2Continuation) :
    frame.type ≠ h2Settings ∧ frame.type ≠ h2Ping ∧ frame.type ≠ h2GoAway ∧
      frame.type ≠ h2RstStream := by
  cases kind with
  | inl headers =>
      rw [headers]
      decide
  | inr continuation =>
      rw [continuation]
      decide

theorem aborts_other {streamId : UInt32} {frame : Http2Frame} (goes : frame.type ≠ h2GoAway)
    (kept : ¬(frame.type = h2RstStream ∧ frame.streamId = streamId)) :
    frame.aborts streamId = false :=
  decide_eq_false (not_or.mpr ⟨goes, kept⟩)

theorem not_headers {streamId : UInt32} {frame : Http2Frame} (other : frame.carriesBlock = false) :
    ¬((frame.type = h2Headers ∨ frame.type = h2Continuation) ∧ frame.streamId = streamId) := by
  have kinds := of_decide_eq_false other
  tauto

end Http2Frame

structure Blocks where
  complete : List Bytes := []
  /-- A block whose frames have not all come. -/
  pending : Option Bytes := none

namespace Blocks

def extend (blocks : Blocks) (frame : Http2Frame) (block : Bytes) : Blocks :=
  if frame.has h2FlagEndHeaders then ⟨blocks.complete ++ [block], none⟩
  else ⟨blocks.complete, some block⟩

def add (blocks : Blocks) (frame : Http2Frame) : Blocks :=
  if frame.carriesBlock then
    if frame.type = h2Continuation then
      match blocks.pending with
      | some begun => blocks.extend frame (begun ++ frame.blockFragment)
      | none => blocks
    else blocks.extend frame frame.blockFragment
  else blocks

def ofFrames (frames : List Http2Frame) : Blocks :=
  frames.foldl add {}

theorem ofFrames_concat (frames : List Http2Frame) (frame : Http2Frame) :
    ofFrames (frames ++ [frame]) = (ofFrames frames).add frame := by
  rw [ofFrames, List.foldl_append]
  rfl

theorem add_of_not_carries {blocks : Blocks} {frame : Http2Frame}
    (other : frame.carriesBlock = false) : blocks.add frame = blocks := by
  rw [add, other]
  rfl

end Blocks

/-- The decoder after these blocks, from a new one. -/
def HpackDecoder.decodeAll (blocks : List Bytes) : HpackDecoder :=
  blocks.foldl (fun decoder block => (decoder.decode block).2.2) {}

theorem HpackDecoder.decodeAll_concat (blocks : List Bytes) (block : Bytes) :
    decodeAll (blocks ++ [block]) = ((decodeAll blocks).decode block).2.2 := by
  rw [decodeAll, List.foldl_append]
  rfl

namespace Http2Client

def blocks (client : Http2Client) : Blocks := .ofFrames client.seen

/-- When every block that has begun is complete, the decoder is that of the connection's
blocks. -/
def InStep (client : Http2Client) : Prop :=
  client.blocks.pending = none →
    client.decoder = HpackDecoder.decodeAll client.blocks.complete

def Synced (client : Http2Client) : Prop :=
  client.decoder = HpackDecoder.decodeAll client.blocks.complete

theorem readFrame_cases (client : Http2Client) :
    (∃ status incoming, client.readFrame = (.error status, { client with incoming })) ∨
      ∃ frame incoming, client.incoming = .ok frame :: incoming ∧
        client.readFrame =
          (.ok frame, { client with incoming, seen := client.seen ++ [frame] }) := by
  unfold readFrame
  cases client.incoming with
  | nil => exact .inl ⟨.ioError, client.incoming, rfl⟩
  | cons result incoming =>
      cases result with
      | error status => exact .inl ⟨status, incoming, rfl⟩
      | ok frame => exact .inr ⟨frame, incoming, rfl, rfl⟩

/-! ## When the frame loops meet only the blocks that they decode -/

/-- The next block is one on the stream that `BeginRequest` waits for. -/
def Headed (streamId : UInt32) : Bool → Nat → List (Except Status Http2Frame) → Bool
  | begun, budget + 1, .ok frame :: incoming =>
      if frame.carriesBlock then
        frame.type = (if begun then h2Continuation else h2Headers) ∧ frame.streamId = streamId ∧
          (frame.has h2FlagEndHeaders ∨ Headed streamId true budget incoming)
      else frame.aborts streamId || Headed streamId begun budget incoming
  | _, _, _ => true

/-- No block comes before `ReadBody` has its DATA frame. -/
def Headless (streamId : UInt32) : Nat → List (Except Status Http2Frame) → Bool
  | budget + 1, .ok frame :: incoming =>
      !frame.carriesBlock && (frame.aborts streamId ||
        (frame.type = h2Data ∧ frame.streamId = streamId) || Headless streamId budget incoming)
  | _, _ => true

/-- No block comes during the SETTINGS exchange. -/
def Exchanged : Nat → Bool → Bool → List (Except Status Http2Frame) → Bool
  | rounds + 1, ours, theirs, .ok frame :: incoming =>
      ours && theirs || !frame.carriesBlock && (frame.type = h2GoAway ||
        Exchanged rounds (ours || (frame.type = h2Settings ∧ frame.has h2FlagAck))
          (theirs || (frame.type = h2Settings ∧ ¬ frame.has h2FlagAck)) incoming)
  | _, _, _, _ => true

/-- Between two frames of `BeginRequest`: the decoder is up to date, and what the loop holds
is the block that has begun. -/
structure Held (begun : Bool) (headerBlock : Bytes) (client : Http2Client) : Prop where
  synced : client.Synced
  pending : begun = true → client.blocks.pending = some headerBlock
  empty : begun = false → headerBlock = []

theorem Held.passed {begun : Bool} {headerBlock : Bytes} {client next : Http2Client}
    (held : client.Held begun headerBlock) (blocks : next.blocks = client.blocks)
    (decoder : next.decoder = client.decoder) : next.Held begun headerBlock where
  synced := by
    rw [Synced, blocks, decoder]
    exact held.synced
  pending := by
    rw [blocks]
    exact held.pending
  empty := held.empty

theorem Held.block {begun : Bool} {headerBlock : Bytes} {client : Http2Client}
    {frame : Http2Frame} (held : client.Held begun headerBlock)
    (carries : frame.carriesBlock = true)
    (type : frame.type = if begun then h2Continuation else h2Headers) :
    client.blocks.add frame = client.blocks.extend frame (headerBlock ++ frame.fragment) := by
  have fragment : frame.blockFragment = frame.fragment := by
    refine if_neg ?_
    rw [type]
    cases begun <;> decide
  rw [Blocks.add, if_pos carries, fragment, type]
  cases begun with
  | false =>
      rw [held.empty rfl]
      rfl
  | true =>
      rw [held.pending rfl]
      rfl

theorem Held.passFrame {begun : Bool} {headerBlock : Bytes} {client next : Http2Client}
    {frame : Http2Frame} (held : client.Held begun headerBlock)
    (other : frame.carriesBlock = false) (seen : next.seen = client.seen ++ [frame])
    (decoder : next.decoder = client.decoder) : next.Held begun headerBlock := by
  refine held.passed ?_ decoder
  rw [blocks, seen, Blocks.ofFrames_concat, Blocks.add_of_not_carries other]
  rfl

theorem synced_readHeaders {streamId : UInt32} {begun : Bool} {budget : Nat}
    {headerBlock : Bytes} {client : Http2Client} (held : client.Held begun headerBlock)
    (headed : Headed streamId begun budget client.incoming) :
    (client.readHeaders streamId budget headerBlock).2.2.Synced := by
  induction budget generalizing begun headerBlock client with
  | zero => exact held.synced
  | succ budget continued =>
      obtain ⟨status, incoming, read⟩ | ⟨frame, incoming, front, read⟩ := client.readFrame_cases
      · rw [readHeaders, read]
        exact held.synced
      · rw [front, Headed] at headed
        rw [readHeaders, read]
        simp only
        cases carries : frame.carriesBlock with
        | false =>
            rw [carries] at headed
            have passed (next : Http2Client) (seen : next.seen = client.seen ++ [frame])
                (decoder : next.decoder = client.decoder) : next.Held begun headerBlock :=
              held.passFrame carries seen decoder
            have stopped (lastError : String) : Http2Client.Held begun headerBlock
                { client with incoming, seen := client.seen ++ [frame], lastError } :=
              passed _ rfl rfl
            have rest (going : frame.aborts streamId = false) :
                Headed streamId begun budget incoming := by
              rw [going] at headed
              exact headed
            split
            next settings =>
              obtain ⟨outgoing, written⟩ := answer_written _ [] frame
              rw [written]
              exact continued (passed _ rfl rfl) (rest (Http2Frame.aborts_settings settings))
            next =>
              split
              next ping =>
                obtain ⟨outgoing, written⟩ := answer_written _ frame.payload frame
                rw [written]
                exact continued (passed _ rfl rfl) (rest (Http2Frame.aborts_ping ping))
              next =>
                split
                next => exact (stopped _).synced
                next goes =>
                  split
                  next => exact (stopped _).synced
                  next open_ =>
                    rw [if_neg (Http2Frame.not_headers carries)]
                    exact continued (passed _ rfl rfl) (rest (Http2Frame.aborts_other goes open_))
        | true =>
            rw [carries, if_pos rfl] at headed
            obtain ⟨type, stream, rest⟩ := of_decide_eq_true headed
            have extended : Blocks.ofFrames (client.seen ++ [frame]) =
                client.blocks.extend frame (headerBlock ++ frame.fragment) :=
              (Blocks.ofFrames_concat _ _).trans (held.block carries type)
            have kind : frame.type = h2Headers ∨ frame.type = h2Continuation := by
              rw [type]
              cases begun <;> decide
            obtain ⟨notSettings, notPing, notGoAway, notReset⟩ := Http2Frame.headers_kind kind
            rw [if_neg notSettings, if_neg notPing, if_neg notGoAway,
              if_neg (fun reset => notReset reset.1), if_pos ⟨kind, stream⟩]
            cases ends : frame.has h2FlagEndHeaders with
            | true =>
                rw [Blocks.extend, if_pos ends] at extended
                rw [if_pos rfl, Synced, blocks, extended, HpackDecoder.decodeAll_concat,
                  ← held.synced]
            | false =>
                rw [Blocks.extend, ends, if_neg Bool.false_ne_true] at extended
                rw [if_neg Bool.false_ne_true]
                have next : Http2Client.Held true (headerBlock ++ frame.fragment)
                    { client with
                      incoming, seen := client.seen ++ [frame],
                      reqEnded := client.reqEnded || frame.has h2FlagEndStream } :=
                  { synced := by
                      rw [Synced, blocks, extended]
                      exact held.synced
                    pending := fun _ => congrArg Blocks.pending extended
                    empty := nofun }
                exact continued next (rest.resolve_left (ends ▸ Bool.false_ne_true))

theorem Synced.passFrame {client next : Http2Client} {frame : Http2Frame}
    (synced : client.Synced) (other : frame.carriesBlock = false)
    (seen : next.seen = client.seen ++ [frame]) (decoder : next.decoder = client.decoder) :
    next.Synced := by
  rw [Synced, blocks, seen, Blocks.ofFrames_concat, Blocks.add_of_not_carries other, decoder]
  exact synced

theorem synced_readContent {streamId : UInt32} {budget : Nat} {client : Http2Client}
    (synced : client.Synced) (stream : client.reqStream = streamId)
    (headless : Headless streamId budget client.incoming) :
    (client.readContent budget).2.2.Synced := by
  induction budget generalizing client with
  | zero => exact synced
  | succ budget continued =>
      obtain ⟨status, incoming, read⟩ | ⟨frame, incoming, front, read⟩ := client.readFrame_cases
      · rw [readContent, read]
        exact synced
      · rw [front, Headless, Bool.and_eq_true, Bool.not_eq_true'] at headless
        obtain ⟨other, onward⟩ := headless
        rw [readContent, read]
        simp only
        have passed (next : Http2Client) (seen : next.seen = client.seen ++ [frame])
            (decoder : next.decoder = client.decoder) : next.Synced :=
          synced.passFrame other seen decoder
        have stopped (lastError : String) : Http2Client.Synced
            { client with incoming, seen := client.seen ++ [frame], lastError } := passed _ rfl rfl
        have rest (going : frame.aborts streamId = false)
            (noData : ¬(frame.type = h2Data ∧ frame.streamId = streamId)) :
            Headless streamId budget incoming := by
          rw [going, decide_eq_false noData] at onward
          exact onward
        split
        next settings =>
          obtain ⟨outgoing, written⟩ := answer_written _ [] frame
          rw [written]
          exact continued (passed _ rfl rfl) stream
            (rest (Http2Frame.aborts_settings settings) (by simp [settings, h2Settings, h2Data]))
        next =>
          split
          next ping =>
            obtain ⟨outgoing, written⟩ := answer_written _ frame.payload frame
            rw [written]
            exact continued (passed _ rfl rfl) stream
              (rest (Http2Frame.aborts_ping ping) (by simp [ping, h2Ping, h2Data]))
          next =>
            split
            next => exact stopped _
            next goes =>
              split
              next => exact stopped _
              next kept =>
                split
                next =>
                  obtain ⟨outgoing, written⟩ := replenish_written _ frame
                  rw [written]
                  exact passed _ rfl rfl
                next noData =>
                  split
                  next => exact passed _ rfl rfl
                  next =>
                    rw [stream] at kept noData
                    exact continued (passed _ rfl rfl) stream
                      (rest (Http2Frame.aborts_other goes kept) noData)

theorem synced_exchangeSettings {rounds : Nat} {ours theirs : Bool} {client : Http2Client}
    (synced : client.Synced) (exchanged : Exchanged rounds ours theirs client.incoming) :
    (client.exchangeSettings rounds ours theirs).2.Synced := by
  induction rounds generalizing ours theirs client with
  | zero =>
      rw [exchangeSettings]
      split
      next => exact synced
      next => exact synced
  | succ rounds continued =>
      rw [exchangeSettings]
      cases done : ours && theirs with
      | true => exact synced
      | false =>
          rw [if_neg Bool.false_ne_true]
          obtain ⟨status, incoming, read⟩ | ⟨frame, incoming, front, read⟩ :=
            client.readFrame_cases
          · rw [read]
            exact synced
          · rw [front, Exchanged, done, Bool.false_or, Bool.and_eq_true,
              Bool.not_eq_true'] at exchanged
            obtain ⟨other, onward⟩ := exchanged
            rw [read]
            simp only
            have passed (next : Http2Client) (seen : next.seen = client.seen ++ [frame])
                (decoder : next.decoder = client.decoder) : next.Synced :=
              synced.passFrame other seen decoder
            split
            next settings =>
              have notGoAway : frame.type ≠ h2GoAway := by
                rw [settings]
                decide
              rw [decide_eq_false notGoAway, Bool.false_or] at onward
              cases ack : frame.has h2FlagAck with
              | true =>
                  rw [if_pos rfl]
                  refine continued (passed _ rfl rfl) ?_
                  simpa [settings, ack] using onward
              | false =>
                  rw [if_neg Bool.false_ne_true]
                  obtain ⟨outgoing, written⟩ := writeFrame_written _ h2Settings h2FlagAck 0 []
                  rw [written]
                  refine continued (passed _ rfl rfl) ?_
                  simpa [settings, ack] using onward
            next notSettings =>
              split
              next => exact passed _ rfl rfl
              next notGoAway =>
                refine continued (passed _ rfl rfl) ?_
                simpa [notSettings, notGoAway] using onward

/-! ## Runs over connections and requests -/

inductive Call where
  /-- `_Establish` on a new connection. -/
  | connect (incoming : List (Except Status Http2Frame))
  | exchangeSettings
  | request (method scheme authority path : CString) (contentType : Option CString) (body : Bytes)
  | readBody (cap : Nat)

def call (client : Http2Client) : Call → Http2Client
  | .connect incoming => client.init incoming
  | .exchangeSettings => (client.exchangeSettings 32 false false).2
  | .request method scheme authority path contentType body =>
      (client.beginRequest method scheme authority path contentType body).2.2
  | .readBody cap => (client.readBody cap).2.2

/-- The decoder is new when a connection begins, and no call passes over a block. -/
def Decodes (client : Http2Client) : Call → Prop
  | .connect _ => client.decoder = {}
  | .exchangeSettings => Exchanged 32 false false client.incoming
  | .request method scheme authority path contentType body =>
      (requestHeaders method scheme path authority contentType body.length).length ≤
        kH2MaxFramePayload → body.length ≤ kH2MaxFramePayload →
        Headed client.nextStreamId false kFrameBudget client.incoming
  | .readBody cap =>
      client.reqEnded = false → kH2MaxFramePayload ≤ cap →
        Headless client.reqStream kFrameBudget client.incoming

instance decidableDecodes (client : Http2Client) : ∀ call, Decidable (client.Decodes call)
  | .connect _ => inferInstanceAs (Decidable (_ = _))
  | .exchangeSettings => inferInstanceAs (Decidable (_ = true))
  | .request _ _ _ _ _ _ => inferInstanceAs (Decidable (_ → _ → _ = true))
  | .readBody _ => inferInstanceAs (Decidable (_ → _ → _ = true))

/-- A new object, before its first connection. -/
def new : Http2Client where
  incoming := []

theorem synced_beginRequest {client : Http2Client} (synced : client.Synced)
    {method scheme authority path : CString} {contentType : Option CString} {body : Bytes}
    (decodes : client.Decodes (.request method scheme authority path contentType body)) :
    (client.beginRequest method scheme authority path contentType body).2.2.Synced := by
  have held (next : Http2Client) (seen : next.seen = client.seen)
      (decoder : next.decoder = client.decoder) : next.Held false [] := by
    refine Held.passed ⟨synced, nofun, fun _ => rfl⟩ ?_ decoder
    rw [blocks, seen]
    rfl
  simp only [Decodes] at decodes
  simp only [beginRequest, writeFrame]
  generalize requestHeaders method scheme path authority contentType body.length = headers at *
  by_cases large : kH2MaxFramePayload < headers.length
  · rw [if_pos large]
    exact (held _ rfl rfl).synced
  · rw [if_neg large]
    simp only
    have headed := decodes (Nat.not_lt.mp large)
    split
    next =>
      by_cases largeBody : kH2MaxFramePayload < body.length
      · rw [if_pos largeBody]
        exact (held _ rfl rfl).synced
      · rw [if_neg largeBody]
        exact synced_readHeaders (held _ rfl rfl) (headed (Nat.not_lt.mp largeBody))
    next empty =>
      exact synced_readHeaders (held _ rfl rfl) (headed (by omega))

theorem synced_readBody {client : Http2Client} (synced : client.Synced) {cap : Nat}
    (decodes : client.Decodes (.readBody cap)) : (client.readBody cap).2.2.Synced := by
  rw [readBody]
  cases ended : client.reqEnded with
  | true => exact synced
  | false =>
      rw [if_neg Bool.false_ne_true]
      split
      next => exact synced
      next roomy =>
        exact synced_readContent synced rfl (decodes ended (Nat.not_lt.mp roomy))

theorem synced_call {client : Http2Client} {event : Call} (decodes : client.Decodes event)
    (synced : client.Synced) : (client.call event).Synced := by
  cases event with
  | connect incoming => exact decodes
  | exchangeSettings => exact synced_exchangeSettings synced decodes
  | request method scheme authority path contentType body => exact synced_beginRequest synced decodes
  | readBody cap => exact synced_readBody synced decodes

theorem inStep_run {events : List Call} (decodes : Run.Along call Decodes new events) :
    (Run.run call new events).InStep := by
  have synced : (Run.run call new events).Synced :=
    Run.invariant_along (fun _ _ => synced_call) decodes rfl
  exact fun _ => synced

/-! A response that adds a header to the table, and the next connection. -/

namespace Sample

/-- A literal `a: b` that goes into the table. -/
def response (streamId : UInt32) : Http2Frame where
  type := h2Headers
  flags := h2FlagEndHeaders
  streamId
  payload := [0x40, 1, 97, 1, 98]

def get : Call :=
  .request (.ofBytes (ascii "GET")) (.ofBytes (ascii "https")) (.ofBytes (ascii "host"))
    (.ofBytes (ascii "/key")) none []

def oneConnection : List Call := [.connect [.ok (response 1), .ok (response 3)], get, get]

def twoConnections : List Call := [.connect [.ok (response 1)], get, .connect []]

def trailers : List Call :=
  [.connect [.ok (response 1), .ok (response 1)], get, .readBody kH2MaxFramePayload]

end Sample

theorem decoder_out_of_step : ¬ ∀ events, (Run.run call new events).InStep := by
  intro always
  have inStep := always Sample.twoConnections
  revert inStep
  unfold InStep
  decide +kernel

example : ¬ (Run.run call new Sample.trailers).InStep := by
  unfold InStep
  decide +kernel

theorem inStep_run_sample : (Run.run call new Sample.oneConnection).InStep :=
  inStep_run (by decide +kernel)

end Http2Client

end Sotoportego.Tailscale
