import Sotoportego.Tailscale.Http2ClientProperties

/-!
# Response bodies

The octets that `ReadBody` copies out of DATA frames with any padding, the body that its calls
add up to, and the one that `Request` puts together.
-/

set_option autoImplicit false

namespace Sotoportego.Tailscale

open Octets CText

namespace Http2Frame

/-- What a DATA frame carries: its payload without the pad length and the padding. A padding
that is as long as the payload is an error. -/
def body (frame : Http2Frame) : Option Bytes :=
  if frame.has h2FlagPadded then
    match frame.payload with
    | [] => none
    | pad :: rest =>
        if pad.toNat < frame.size then some (rest.take (rest.length - pad.toNat)) else none
  else some frame.payload

def PadFits (frame : Http2Frame) : Prop :=
  frame.has h2FlagPadded → (octetAt frame.payload 0).toNat < frame.size

theorem body_isSome_iff (frame : Http2Frame) : frame.body.isSome = true ↔ frame.PadFits := by
  rw [body, PadFits, size]
  by_cases padded : frame.has h2FlagPadded = true
  · simp only [padded, if_true, true_imp_iff]
    cases payload : frame.payload with
    | nil => simp [octetAt]
    | cons pad rest =>
        simp [octetAt]
  · simp [padded]

/-- Without a wrap the copy is the body. -/
theorem content_of_body {frame : Http2Frame} {body : Bytes} (carried : frame.body = some body)
    (sized : frame.size ≤ kH2MaxFramePayload) :
    frame.content = body ∧ frame.copied = body.length ∧ body.length ≤ frame.size := by
  have bounded : frame.size < 2 ^ 64 := Nat.lt_of_le_of_lt sized (by decide)
  rw [Http2Frame.body] at carried
  split at carried
  next padded =>
    cases payload : frame.payload with
    | nil =>
        rw [payload] at carried
        cases carried
    | cons pad rest =>
        simp only [payload] at carried
        split at carried
        next fits =>
          have size_eq : frame.size = rest.length + 1 := by
            rw [size, payload, List.length_cons]
          have first : octetAt frame.payload 0 = pad := by rw [payload]; rfl
          have stop : (frame.size + 2 ^ 64 - pad.toNat) % 2 ^ 64 = frame.size - pad.toNat := by
            omega
          have inside : frame.has h2FlagPadded = true ∧ 0 < frame.size := ⟨padded, by omega⟩
          cases carried
          rw [content, copied]
          simp only [if_pos inside, first, stop]
          refine ⟨?_, ?_, ?_⟩
          · rw [payload, List.drop_one, List.tail_cons, size_eq]
            congr 1
            omega
          · rw [List.length_take]
            split
            next => omega
            next => omega
          · rw [List.length_take]
            omega
        next => cases carried
  next plain =>
    have outside : ¬ (frame.has h2FlagPadded = true ∧ 0 < frame.size) := fun both => plain both.1
    cases carried
    rw [content, copied]
    simp only [if_neg outside, List.drop_zero, Nat.sub_zero]
    refine ⟨List.take_of_length_le (Nat.le_refl _), ?_, Nat.le_refl _⟩
    split
    next => rfl
    next empty => exact (Nat.eq_zero_of_not_pos empty).symm

/-- Neither a DATA frame of the stream nor its end. -/
def Silent (streamId : UInt32) (frame : Http2Frame) : Prop :=
  ¬ (frame.type = h2Data ∧ frame.streamId = streamId) ∧
    ¬ (frame.type = h2Headers ∧ frame.streamId = streamId ∧ frame.has h2FlagEndStream = true)

theorem silent_of_type {streamId : UInt32} {frame : Http2Frame} (data : frame.type ≠ h2Data)
    (headers : frame.type ≠ h2Headers) : frame.Silent streamId :=
  ⟨fun same => data same.1, fun same => headers same.1⟩

end Http2Frame

namespace Http2Client

/-- The frames among the results to come. -/
def coming (incoming : List (Except Status Http2Frame)) : List Http2Frame :=
  incoming.filterMap Except.toOption

/-! ## One call -/

/-- What a round of the frame loop of `ReadBody` ends with, after these frames. -/
inductive Reads (client : Http2Client) (passed : List Http2Frame) :
    Status × Bytes × Http2Client → Prop where
  | nothing {status : Status} {next : Http2Client} :
      coming client.incoming = passed ++ coming next.incoming →
      next.seen = client.seen ++ passed → next.reqStream = client.reqStream →
      next.reqEnded = client.reqEnded → Reads client passed (status, [], next)
  | data {frame : Http2Frame} {next : Http2Client} :
      frame.type = h2Data → frame.streamId = client.reqStream →
      coming client.incoming = passed ++ frame :: coming next.incoming →
      next.seen = client.seen ++ (passed ++ [frame]) → next.reqStream = client.reqStream →
      next.reqEnded = (client.reqEnded || frame.has h2FlagEndStream) →
      Reads client passed (.ok, frame.content, next)
  | trailers {frame : Http2Frame} {next : Http2Client} :
      frame.type = h2Headers → frame.streamId = client.reqStream →
      frame.has h2FlagEndStream = true →
      coming client.incoming = passed ++ frame :: coming next.incoming →
      next.seen = client.seen ++ (passed ++ [frame]) → next.reqStream = client.reqStream →
      next.reqEnded = true → Reads client passed (.ok, [], next)

/-- A frame that is passed over comes before those of the rest of the loop. -/
theorem Reads.pass {client next : Http2Client} {frame : Http2Frame} {passed : List Http2Frame}
    {result : Status × Bytes × Http2Client}
    (front : coming client.incoming = frame :: coming next.incoming)
    (seen : next.seen = client.seen ++ [frame]) (stream : next.reqStream = client.reqStream)
    (ended : next.reqEnded = client.reqEnded) (reads : Reads next passed result) :
    Reads client (frame :: passed) result := by
  cases reads with
  | nothing rest later stream' ended' =>
      refine .nothing ?_ ?_ (stream'.trans stream) (ended'.trans ended)
      · rw [front, rest, List.cons_append]
      · rw [later, seen, List.append_assoc, List.singleton_append]
  | data type same rest later stream' ended' =>
      refine .data type (same.trans stream) ?_ ?_ (stream'.trans stream) (by rw [ended', ended])
      · rw [front, rest, List.cons_append]
      · rw [later, seen, List.append_assoc, List.singleton_append, List.cons_append]
  | trailers type same ends rest later stream' ended' =>
      refine .trailers type (same.trans stream) ends ?_ ?_ (stream'.trans stream) ended'
      · rw [front, rest, List.cons_append]
      · rw [later, seen, List.append_assoc, List.singleton_append, List.cons_append]

theorem readContent_reads (budget : Nat) (client : Http2Client) :
    ∃ passed, (∀ frame ∈ passed, frame.Silent client.reqStream) ∧
      Reads client passed (client.readContent budget) := by
  induction budget generalizing client with
  | zero => exact ⟨[], nofun, .nothing rfl (List.append_nil _).symm rfl rfl⟩
  | succ budget continued =>
      cases front : client.incoming with
      | nil =>
          rw [readContent, readFrame, front]
          exact ⟨[], nofun, .nothing rfl (List.append_nil _).symm rfl rfl⟩
      | cons result incoming =>
          cases result with
          | error status =>
              rw [readContent, readFrame, front]
              refine ⟨[], nofun, .nothing ?_ (List.append_nil _).symm rfl rfl⟩
              rw [front]
              rfl
          | ok frame =>
              have head : coming client.incoming = frame :: coming incoming := by
                rw [front]
                rfl
              -- A frame that is answered or ignored leaves the rest to the next rounds.
              have onward {next : Http2Client} (silent : frame.Silent client.reqStream)
                  (rest : next.incoming = incoming) (seen : next.seen = client.seen ++ [frame])
                  (stream : next.reqStream = client.reqStream)
                  (ended : next.reqEnded = client.reqEnded) :
                  ∃ passed, (∀ frame ∈ passed, frame.Silent client.reqStream) ∧
                    Reads client passed (next.readContent budget) := by
                obtain ⟨passed, quiet, reads⟩ := continued next
                rw [stream] at quiet
                refine ⟨frame :: passed, ?_, reads.pass (by rw [head, rest]) seen stream ended⟩
                exact List.forall_mem_cons.mpr ⟨silent, quiet⟩
              -- A frame that aborts the call is the last one read.
              have stopped {lastError : String} (silent : frame.Silent client.reqStream) :
                  ∃ passed, (∀ frame ∈ passed, frame.Silent client.reqStream) ∧
                    Reads client passed (.error, [],
                      { client with incoming, seen := client.seen ++ [frame], lastError }) :=
                ⟨[frame], List.forall_mem_singleton.mpr silent, .nothing head rfl rfl rfl⟩
              rw [readContent, readFrame, front]
              simp only
              split
              next settings =>
                obtain ⟨outgoing, written⟩ := answer_written _ [] frame
                rw [written]
                refine onward (Http2Frame.silent_of_type ?_ ?_) rfl rfl rfl rfl
                · rw [settings]; decide
                · rw [settings]; decide
              next =>
                split
                next ping =>
                  obtain ⟨outgoing, written⟩ := answer_written _ frame.payload frame
                  rw [written]
                  refine onward (Http2Frame.silent_of_type ?_ ?_) rfl rfl rfl rfl
                  · rw [ping]; decide
                  · rw [ping]; decide
                next =>
                  split
                  next goAway =>
                    refine stopped (Http2Frame.silent_of_type ?_ ?_)
                    · rw [goAway]; decide
                    · rw [goAway]; decide
                  next =>
                    split
                    next reset =>
                      refine stopped (Http2Frame.silent_of_type ?_ ?_)
                      · rw [reset.1]; decide
                      · rw [reset.1]; decide
                    next =>
                      split
                      next data =>
                        obtain ⟨outgoing, written⟩ := replenish_written _ frame
                        rw [written]
                        exact ⟨[], nofun, .data data.1 data.2 head rfl rfl rfl⟩
                      next noData =>
                        split
                        next trailers =>
                          exact ⟨[], nofun,
                            .trailers trailers.1 trailers.2.1 trailers.2.2 head rfl rfl rfl⟩
                        next noEnd => exact onward ⟨noData, noEnd⟩ rfl rfl rfl rfl

theorem readBody_reads (cap : Nat) (client : Http2Client) :
    ∃ passed, (∀ frame ∈ passed, frame.Silent client.reqStream) ∧
      Reads client passed (client.readBody cap) := by
  rw [readBody]
  split
  next =>
    exact ⟨[], fun _ member => absurd member List.not_mem_nil,
      .nothing rfl (List.append_nil _).symm rfl rfl⟩
  next =>
    split
    next =>
      exact ⟨[], fun _ member => absurd member List.not_mem_nil,
        .nothing rfl (List.append_nil _).symm rfl rfl⟩
    next => exact readContent_reads kFrameBudget client

/-- The call returns with this DATA frame of the request stream. -/
structure Takes (client : Http2Client) (cap : Nat) (frame : Http2Frame) : Prop where
  data : frame.type = h2Data
  stream : frame.streamId = client.reqStream
  last : ∃ passed, (client.readBody cap).2.2.seen = client.seen ++ (passed ++ [frame])

/-- The call returns what the frame carries, or an error when it carries nothing; and it copies
no more than the frame has and the caller offers. -/
structure Copies (client : Http2Client) (cap : Nat) (frame : Http2Frame) : Prop where
  body : match frame.body with
    | some body => (client.readBody cap).1 = .ok ∧ (client.readBody cap).2.1 = body ∧
        frame.copied = body.length
    | none => (client.readBody cap).1 ≠ .ok
  inside : frame.copied ≤ frame.size
  capped : frame.copied ≤ cap

def Delivers (client : Http2Client) (cap : Nat) : Prop :=
  ∀ frame, client.Takes cap frame → client.Copies cap frame

def PadsFit (client : Http2Client) (cap : Nat) : Prop :=
  ∀ frame, client.Takes cap frame → frame.PadFits

/-- No frame is longer than `ReadFrame` lets through. -/
def Sized (client : Http2Client) : Prop :=
  ∀ frame ∈ coming client.incoming, frame.size ≤ kH2MaxFramePayload

section Calls

variable {client : Http2Client} {cap : Nat}

/-- A call that reads anything has room for a whole frame. -/
theorem Takes.reads {frame : Http2Frame} (takes : client.Takes cap frame) :
    kH2MaxFramePayload ≤ cap ∧ frame ∈ coming client.incoming ∧
      (client.readBody cap).1 = .ok ∧ (client.readBody cap).2.1 = frame.content := by
  obtain ⟨data, stream, before, last⟩ := takes
  have room : kH2MaxFramePayload ≤ cap := by
    by_contra small
    rw [readBody] at last
    split at last
    next =>
      have same := congrArg List.length last
      simp at same
    next =>
      rw [if_pos (Nat.lt_of_not_le small)] at last
      have same := congrArg List.length last
      simp at same
  obtain ⟨passed, quiet, reads⟩ := readBody_reads cap client
  refine ⟨room, ?_⟩
  generalize client.readBody cap = result at last reads
  cases reads with
  | nothing _ seen =>
      have same := List.append_cancel_left (seen.symm.trans last)
      have silent := quiet frame (by rw [same]; simp)
      exact absurd ⟨data, stream⟩ silent.1
  | data _ _ front seen =>
      have same := List.append_cancel_left (seen.symm.trans last)
      obtain ⟨-, equal⟩ := List.append_inj' same rfl
      cases equal
      refine ⟨?_, rfl, rfl⟩
      rw [front]
      simp
  | trailers headers _ _ _ seen =>
      have same := List.append_cancel_left (seen.symm.trans last)
      obtain ⟨-, equal⟩ := List.append_inj' same rfl
      cases equal
      rw [headers] at data
      exact absurd data (by decide)

theorem Takes.copies_iff {frame : Http2Frame} (takes : client.Takes cap frame)
    (sized : client.Sized) : client.Copies cap frame ↔ frame.PadFits := by
  obtain ⟨room, member, ok, content⟩ := takes.reads
  rw [← frame.body_isSome_iff]
  constructor
  · intro copies
    have body := copies.body
    cases carried : frame.body with
    | some body => rfl
    | none =>
        rw [carried] at body
        exact absurd ok body
  · intro carries
    obtain ⟨body, carried⟩ := Option.isSome_iff_exists.mp carries
    obtain ⟨same, copied, short⟩ := frame.content_of_body carried (sized frame member)
    refine ⟨?_, by omega, ?_⟩
    · rw [carried]
      exact ⟨ok, content.trans same, copied⟩
    · have bounded := sized frame member
      omega

theorem delivers_iff (sized : client.Sized) : client.Delivers cap ↔ client.PadsFit cap :=
  forall₂_congr fun _ takes => takes.copies_iff sized

end Calls

/-! ## A whole body -/

/-- The body that the frames carry on a stream, up to the end of the stream. -/
def streamBody (streamId : UInt32) : List Http2Frame → Bytes
  | [] => []
  | frame :: frames =>
      if frame.type = h2Data ∧ frame.streamId = streamId then
        frame.body.getD [] ++ if frame.has h2FlagEndStream then [] else streamBody streamId frames
      else if frame.type = h2Headers ∧ frame.streamId = streamId ∧ frame.has h2FlagEndStream then []
      else streamBody streamId frames

theorem streamBody_silent {streamId : UInt32} {passed : List Http2Frame}
    (quiet : ∀ frame ∈ passed, frame.Silent streamId) (frames : List Http2Frame) :
    streamBody streamId (passed ++ frames) = streamBody streamId frames := by
  induction passed with
  | nil => rfl
  | cons frame passed continued =>
      obtain ⟨noData, noEnd⟩ := quiet frame List.mem_cons_self
      rw [List.cons_append, streamBody, if_neg noData, if_neg noEnd,
        continued fun later member => quiet later (List.mem_cons_of_mem _ member)]

/-- What the server has still to say on the request stream. -/
def unread (client : Http2Client) : Bytes :=
  if client.reqEnded then [] else streamBody client.reqStream (coming client.incoming)

def afterBody (client : Http2Client) (cap : Nat) : Http2Client :=
  (client.readBody cap).2.2

/-- The chunks of a sequence of calls. -/
def delivered : Http2Client → List Nat → Bytes
  | _, [] => []
  | client, cap :: caps => (client.readBody cap).2.1 ++ delivered (client.afterBody cap) caps

/-- A call brings no frames. -/
theorem coming_afterBody {client : Http2Client} {cap : Nat} {frame : Http2Frame}
    (member : frame ∈ coming (client.afterBody cap).incoming) : frame ∈ coming client.incoming := by
  obtain ⟨passed, _, reads⟩ := readBody_reads cap client
  rw [afterBody] at member
  generalize client.readBody cap = result at reads member
  cases reads with
  | nothing front =>
      rw [front]
      exact List.mem_append_right _ member
  | data _ _ front =>
      rw [front]
      exact List.mem_append_right _ (List.mem_cons_of_mem _ member)
  | trailers _ _ _ front =>
      rw [front]
      exact List.mem_append_right _ (List.mem_cons_of_mem _ member)

theorem sized_afterBody {client : Http2Client} (sized : client.Sized) (cap : Nat) :
    (client.afterBody cap).Sized :=
  fun frame member => sized frame (coming_afterBody member)

/-- What holds of all frames to come holds of those that the calls return with. -/
theorem takes_along {holds : Http2Frame → Prop} {client : Http2Client}
    (every : ∀ frame ∈ coming client.incoming, holds frame) (caps : List Nat) :
    Run.Along afterBody (fun client cap => ∀ frame, client.Takes cap frame → holds frame) client
      caps := by
  induction caps generalizing client with
  | nil => trivial
  | cons cap caps continued =>
      exact ⟨fun frame takes => every frame takes.reads.2.1,
        continued fun frame member => every frame (coming_afterBody member)⟩

/-- One call takes its chunk off the front of the body. -/
theorem unread_afterBody {client : Http2Client} (sized : client.Sized) {cap : Nat}
    (fits : client.PadsFit cap) :
    (client.readBody cap).2.1 ++ (client.afterBody cap).unread = client.unread := by
  by_cases ended : client.reqEnded = true
  · rw [afterBody, readBody, if_pos ended, List.nil_append]
  · obtain ⟨passed, quiet, reads⟩ := readBody_reads cap client
    have whole : client.unread = streamBody client.reqStream (coming client.incoming) :=
      if_neg ended
    have taken {frame : Http2Frame} (data : frame.type = h2Data)
        (stream : frame.streamId = client.reqStream)
        (seen : (client.readBody cap).2.2.seen = client.seen ++ (passed ++ [frame])) :
        frame.body.getD [] = frame.content := by
      have takes : client.Takes cap frame := ⟨data, stream, passed, seen⟩
      obtain ⟨body, carried⟩ :=
        Option.isSome_iff_exists.mp (frame.body_isSome_iff.mpr (fits frame takes))
      rw [carried, (frame.content_of_body carried (sized frame takes.reads.2.1)).1]
      rfl
    rw [whole, afterBody]
    generalize client.readBody cap = result at reads taken
    cases reads with
    | nothing front _ stream still =>
        rw [front, streamBody_silent quiet, List.nil_append, unread, still, if_neg ended, stream]
    | @data frame next data same front seen stream after =>
        rw [front, streamBody_silent quiet, streamBody, if_pos ⟨data, same⟩, taken data same seen,
          unread, after, Bool.eq_false_iff.mpr ended, Bool.false_or, stream]
    | trailers headers same ends front _ _ after =>
        have noData {frame : Http2Frame} (headers : frame.type = h2Headers) :
            ¬ (frame.type = h2Data ∧ frame.streamId = client.reqStream) := by
          rw [headers]
          exact fun both => absurd both.1 (by decide)
        rw [front, streamBody_silent quiet, streamBody, if_neg (noData headers),
          if_pos ⟨headers, same, ends⟩, unread, if_pos after]
        rfl

theorem delivered_unread {client : Http2Client} (sized : client.Sized) {caps : List Nat}
    (fits : Run.Along afterBody PadsFit client caps) :
    delivered client caps ++ (Run.run afterBody client caps).unread = client.unread := by
  induction caps generalizing client with
  | nil => rfl
  | cons cap caps continued =>
      rw [delivered, Run.run_cons, List.append_assoc,
        continued (sized_afterBody sized cap) fits.2, unread_afterBody sized fits.1]

/-- Each call delivers its frame, and the chunks add up to the body of the server. -/
structure Delivery (client : Http2Client) (caps : List Nat) : Prop where
  calls : Run.Along afterBody Delivers client caps
  begins : delivered client caps <+: client.unread
  whole : (Run.run afterBody client caps).reqEnded = true → delivered client caps = client.unread

section Bodies

variable {client : Http2Client}

theorem along_delivers_iff (sized : client.Sized) (caps : List Nat) :
    Run.Along afterBody Delivers client caps ↔ Run.Along afterBody PadsFit client caps :=
  @Run.along_iff _ _ afterBody Delivers Sized PadsFit
    (fun _ cap _ sized => sized_afterBody sized cap) (fun _ _ sized => delivers_iff sized) _ _
    sized

theorem delivery_iff (sized : client.Sized) (caps : List Nat) :
    Delivery client caps ↔ Run.Along afterBody PadsFit client caps := by
  have each := along_delivers_iff sized caps
  refine ⟨fun delivery => each.mp delivery.calls, fun fits => ?_⟩
  have split := delivered_unread sized fits
  refine ⟨each.mpr fits, ⟨_, split⟩, fun ended => ?_⟩
  rw [unread, if_pos ended, List.append_nil] at split
  exact split

/-! ## The body of a request -/

/-- What `Append` takes of the chunks. -/
def appended : Http2Client → List Nat → Bytes
  | _, [] => []
  | client, cap :: caps =>
      (CString.ofBytes (client.readBody cap).2.1).bytes ++ appended (client.afterBody cap) caps

/-- The chunk of a call holds no NUL. -/
def Clear (client : Http2Client) (cap : Nat) : Prop := 0 ∉ (client.readBody cap).2.1

/-- The frame that the call returns with carries no NUL. -/
def Unbroken (client : Http2Client) (cap : Nat) : Prop :=
  ∀ frame, client.Takes cap frame → 0 ∉ frame.body.getD []

/-- So many calls of the body loop of `Request`, whose buffer has room for any frame. -/
def loopCaps (count : Nat) : List Nat := List.replicate count kH2MaxFramePayload

/-- The calls of the body loop deliver their frames, and it puts the chunks together to the
body of the server. -/
structure Assembled (client : Http2Client) (whole : Bytes) : Prop where
  calls : ∀ count, Run.Along afterBody Delivers client (loopCaps count)
  whole : whole = client.unread

theorem ofBytes_eq_iff {octets : Bytes} : (CString.ofBytes octets).bytes = octets ↔ 0 ∉ octets := by
  constructor
  · intro same nul
    exact (CString.ofBytes octets).no_nul (same.symm ▸ nul)
  · intro plain
    refine List.takeWhile_eq_self_iff.mpr fun octet member => decide_eq_true ?_
    rintro rfl
    exact plain member

theorem appended_le (client : Http2Client) (caps : List Nat) :
    (appended client caps).length ≤ (delivered client caps).length := by
  induction caps generalizing client with
  | nil => exact Nat.le_refl _
  | cons cap caps continued =>
      rw [appended, delivered, List.length_append, List.length_append]
      exact Nat.add_le_add (List.takeWhile_prefix _).length_le (continued _)

/-- `Append` loses octets as soon as one chunk holds a NUL. -/
theorem appended_eq_delivered_iff {caps : List Nat} :
    appended client caps = delivered client caps ↔ Run.Along afterBody Clear client caps := by
  induction caps generalizing client with
  | nil => exact iff_of_true rfl trivial
  | cons cap caps continued =>
      rw [appended, delivered, Run.Along, Clear, ← ofBytes_eq_iff, ← continued]
      constructor
      · intro same
        have front : (CString.ofBytes (client.readBody cap).2.1).bytes.length ≤
            (client.readBody cap).2.1.length := (List.takeWhile_prefix _).length_le
        have rest := appended_le (client.afterBody cap) caps
        have total := congrArg List.length same
        rw [List.length_append, List.length_append] at total
        exact List.append_inj same (by omega)
      · rintro ⟨first, rest⟩
        rw [first, rest]

/-- With fitting padding, the chunk of a call is what its frame carries. -/
theorem clear_iff (sized : client.Sized) {cap : Nat} (fits : client.PadsFit cap) :
    client.Clear cap ↔ client.Unbroken cap := by
  have carried {frame : Http2Frame} (takes : client.Takes cap frame) :
      frame.body.getD [] = (client.readBody cap).2.1 := by
    obtain ⟨body, carried⟩ :=
      Option.isSome_iff_exists.mp (frame.body_isSome_iff.mpr (fits frame takes))
    obtain ⟨-, member, -, content⟩ := takes.reads
    rw [carried, content, (frame.content_of_body carried (sized frame member)).1]
    rfl
  constructor
  · intro clear frame takes
    rw [carried takes]
    exact clear
  · intro unbroken
    obtain ⟨passed, _, reads⟩ := readBody_reads cap client
    have taken {frame : Http2Frame} (data : frame.type = h2Data)
        (stream : frame.streamId = client.reqStream)
        (seen : (client.readBody cap).2.2.seen = client.seen ++ (passed ++ [frame])) :
        0 ∉ (client.readBody cap).2.1 := by
      have takes : client.Takes cap frame := ⟨data, stream, passed, seen⟩
      rw [← carried takes]
      exact unbroken frame takes
    rw [Clear]
    generalize client.readBody cap = result at reads taken ⊢
    cases reads with
    | nothing => exact List.not_mem_nil
    | data type same front seen => exact taken type same seen
    | trailers => exact List.not_mem_nil

theorem along_clear_iff (sized : client.Sized) {caps : List Nat}
    (fits : Run.Along afterBody PadsFit client caps) :
    Run.Along afterBody Clear client caps ↔ Run.Along afterBody Unbroken client caps := by
  induction caps generalizing client with
  | nil => exact Iff.rfl
  | cons cap caps continued =>
      exact and_congr (clear_iff sized fits.1) (continued (sized_afterBody sized cap) fits.2)

/-- The body loop appends the chunks of its calls, the last of which finds the end. -/
theorem readWhole_appended {respBody whole : Bytes} {last : Http2Client}
    (read : client.readWhole respBody = (.ok, whole, last)) :
    ∃ count, whole = respBody ++ appended client (loopCaps count) ∧
      (Run.run afterBody client (loopCaps count)).reqEnded = true := by
  generalize left : client.incoming.length = size
  induction size using Nat.strong_induction_on generalizing client respBody with
  | _ size continued =>
      cases result : client.readBody kH2MaxFramePayload with
      | mk status rest =>
          obtain ⟨chunk, next⟩ := rest
          by_cases failed : status ≠ .ok
          · rw [readWhole_failed result failed] at read
            exact (failed (congrArg Prod.fst read)).elim
          · obtain rfl := not_not.mp failed
            rw [readWhole_ok result] at read
            by_cases ended : next.reqEnded = true
            · rw [if_pos ended, Prod.mk.injEq, Prod.mk.injEq] at read
              refine ⟨1, ?_, ?_⟩
              · rw [← read.2.1, loopCaps, List.replicate_one, appended, appended, result,
                  List.append_nil]
              · rw [loopCaps, List.replicate_one, Run.run_cons, Run.run_nil, afterBody, result]
                exact ended
            · rw [if_neg ended] at read
              have shorter := left ▸ readBody_shorter result ended
              obtain ⟨count, whole, done⟩ := continued _ shorter read rfl
              refine ⟨count + 1, ?_, ?_⟩
              · rw [whole, loopCaps, loopCaps, List.replicate_succ, appended, afterBody, result,
                  ← List.append_assoc]
              · rw [loopCaps, List.replicate_succ, Run.run_cons, afterBody, result]
                exact done

/-- What holds of calls at the end of the stream holds of all calls when it does of those that
come to the end. -/
theorem along_loopCaps {allowed : Http2Client → Nat → Prop}
    (still : ∀ client cap, client.reqEnded = true → allowed client cap) {count : Nat}
    (ended : (Run.run afterBody client (loopCaps count)).reqEnded = true)
    (along : Run.Along afterBody allowed client (loopCaps count)) (further : Nat) :
    Run.Along afterBody allowed client (loopCaps further) := by
  have idle (more : Nat) (client : Http2Client) (ended : client.reqEnded = true) :
      Run.Along afterBody allowed client (loopCaps more) := by
    induction more with
    | zero => trivial
    | succ more continued =>
        refine ⟨still client _ ended, ?_⟩
        rw [afterBody, readBody_ended ended]
        exact continued
  obtain small | large := Nat.le_total further count
  · obtain ⟨more, rfl⟩ := Nat.exists_eq_add_of_le small
    rw [loopCaps, List.replicate_add] at along
    exact along.earlier
  · obtain ⟨more, rfl⟩ := Nat.exists_eq_add_of_le large
    rw [loopCaps, List.replicate_add]
    exact Run.along_append.mpr ⟨along, idle more _ ended⟩

/-- The octets that `Append` takes are the body of the server when no chunk holds a NUL. -/
theorem assembled_iff (sized : client.Sized) {whole : Bytes} {last : Http2Client}
    (read : client.readWhole [] = (.ok, whole, last)) :
    Assembled client whole ↔ ∀ count,
      Run.Along afterBody (fun client cap => client.PadsFit cap ∧ client.Unbroken cap) client
        (loopCaps count) := by
  obtain ⟨count, gathered, ended⟩ := readWhole_appended read
  rw [List.nil_append] at gathered
  have body (calls : Run.Along afterBody Delivers client (loopCaps count)) :
      delivered client (loopCaps count) = client.unread :=
    ((delivery_iff sized _).mpr ((along_delivers_iff sized _).mp calls)).whole ended
  -- The two conditions on a call, taken apart, and the second read off its chunk.
  have padded {caps : List Nat} (along : Run.Along afterBody
      (fun client cap => client.PadsFit cap ∧ client.Unbroken cap) client caps) :
      Run.Along afterBody PadsFit client caps := along.imp fun _ _ => And.left
  have clear {caps : List Nat} (fits : Run.Along afterBody PadsFit client caps) :
      Run.Along afterBody Clear client caps ↔ Run.Along afterBody Unbroken client caps :=
    along_clear_iff sized fits
  constructor
  · intro assembled more
    have fits := (along_delivers_iff sized _).mp (assembled.calls more)
    refine fits.and ((clear fits).mp ?_)
    refine along_loopCaps (fun client cap ended => ?_) ended ?_ more
    · rw [Clear, readBody_ended ended]
      exact List.not_mem_nil
    · rw [← appended_eq_delivered_iff, body (assembled.calls count), ← gathered]
      exact assembled.whole
  · intro every
    have calls (more : Nat) := (along_delivers_iff sized _).mpr (padded (every more))
    have unbroken := (every count).imp fun _ _ => And.right
    refine ⟨calls, ?_⟩
    rw [gathered, appended_eq_delivered_iff.mpr ((clear (padded (every count))).mpr unbroken)]
    exact body (calls count)

/-- The header loop brings no frames. -/
theorem coming_readHeaders {client : Http2Client} {streamId : UInt32} {budget : Nat}
    {headerBlock : Bytes} {frame : Http2Frame}
    (member : frame ∈ coming (client.readHeaders streamId budget headerBlock).2.2.incoming) :
    frame ∈ coming client.incoming := by
  induction budget generalizing client headerBlock with
  | zero => exact member
  | succ budget continued =>
      cases front : client.incoming with
      | nil =>
          rw [readHeaders, readFrame, front] at member
          rwa [front] at member
      | cons result incoming =>
          cases result with
          | error status =>
              rw [readHeaders, readFrame, front] at member
              exact member
          | ok first =>
              have later (earlier : frame ∈ coming incoming) :
                  frame ∈ coming (.ok first :: incoming) := List.mem_cons_of_mem first earlier
              rw [readHeaders, readFrame, front] at member
              simp only at member
              split at member
              next =>
                obtain ⟨outgoing, written⟩ := answer_written
                  { client with incoming, seen := client.seen ++ [first] } [] first
                rw [written] at member
                exact later (continued member)
              split at member
              next =>
                obtain ⟨outgoing, written⟩ := answer_written
                  { client with incoming, seen := client.seen ++ [first] } first.payload first
                rw [written] at member
                exact later (continued member)
              split at member
              next => exact later member
              split at member
              next => exact later member
              split at member
              next =>
                split at member
                next => exact later member
                next => exact later (continued member)
              next => exact later (continued member)

theorem sized_beginRequest (sized : client.Sized) (method scheme authority path : CString)
    (contentType : Option CString) (body : Bytes) :
    (client.beginRequest method scheme authority path contentType body).2.2.Sized := by
  intro frame member
  refine sized frame ?_
  simp only [beginRequest, writeFrame] at member
  generalize requestHeaders method scheme path authority contentType body.length = headers at member
  by_cases large : kH2MaxFramePayload < headers.length
  · rw [if_pos large] at member
    exact member
  · rw [if_neg large] at member
    simp only at member
    split at member
    next =>
      by_cases largeBody : kH2MaxFramePayload < body.length
      · rw [if_pos largeBody] at member
        exact member
      · rw [if_neg largeBody] at member
        have earlier := coming_readHeaders member
        exact earlier
    next =>
      have earlier := coming_readHeaders member
      exact earlier

/-- For the calls of `ReadBody` the condition is on the padding alone; `Request` also needs that
no frame carries a NUL. -/
theorem body_delivered_iff (client : Http2Client) (sized : client.Sized) :
    (∀ caps, Delivery client caps ↔ Run.Along afterBody PadsFit client caps) ∧
      ∀ method scheme authority path contentType body status whole last,
        client.request method scheme authority path contentType body =
            (.ok, some (status, whole), last) →
          (Assembled (client.beginRequest method scheme authority path contentType body).2.2 whole ↔
            ∀ count, Run.Along afterBody
              (fun client cap => client.PadsFit cap ∧ client.Unbroken cap)
              (client.beginRequest method scheme authority path contentType body).2.2
              (loopCaps count)) := by
  refine ⟨delivery_iff sized, ?_⟩
  intro method scheme authority path contentType body status whole last answered
  have begun := sized_beginRequest sized method scheme authority path contentType body
  rw [request] at answered
  generalize client.beginRequest method scheme authority path contentType body = result at *
  obtain ⟨begin_, number, next⟩ := result
  cases begin_ with
  | ok =>
      dsimp only at answered
      generalize read : next.readWhole [] = result at answered
      obtain ⟨end_, respBody, final⟩ := result
      cases end_ with
      | ok =>
          cases answered
          exact assembled_iff begun read
      | _ => cases answered
  | _ => cases answered

end Bodies

namespace Sample

def dataFrame (flags : UInt8) (payload : Bytes) : Http2Frame where
  type := h2Data
  flags := flags
  streamId := 1
  payload := payload

/-- A response whose headers have been read. -/
def responding (frames : List Http2Frame) : Http2Client where
  incoming := frames.map .ok
  reqStream := 1
  reqEnded := false

/-- Two octets of padding, and then the end of the stream. -/
def padded : Http2Client :=
  responding [dataFrame h2FlagPadded [2, 104, 105, 0, 0], dataFrame h2FlagEndStream [33]]

/-- A status of 200, and the same body. -/
def answering : Http2Client where
  incoming :=
    .ok { type := h2Headers, flags := h2FlagEndHeaders, streamId := 1, payload := [0x88] } ::
      padded.incoming

def asked : Status × Option Int × Http2Client :=
  answering.beginRequest (.ofBytes (ascii "GET")) (.ofBytes (ascii "https"))
    (.ofBytes (ascii "host")) (.ofBytes (ascii "/key")) none []

/-- After the response headers. -/
def begun : Http2Client := asked.2.2

/-- A pad length and nothing that it could count. -/
def overlong : Http2Frame := dataFrame h2FlagPadded [255]

end Sample

theorem Sample.begun_readWhole :
    Sample.begun.readWhole [] = (.ok, [104, 105, 33],
      (Sample.begun.afterBody 16384).afterBody 16384) := by
  have first : Sample.begun.readBody 16384 = (.ok, [104, 105], Sample.begun.afterBody 16384) :=
    Prod.ext (by decide +kernel) (Prod.ext (by decide +kernel) rfl)
  have second : (Sample.begun.afterBody 16384).readBody 16384 =
      (.ok, [33], (Sample.begun.afterBody 16384).afterBody 16384) :=
    Prod.ext (by decide +kernel) (Prod.ext (by decide +kernel) rfl)
  have going : (Sample.begun.afterBody 16384).reqEnded = false := by decide +kernel
  have ended : ((Sample.begun.afterBody 16384).afterBody 16384).reqEnded = true := by decide +kernel
  have chunks : (CString.ofBytes [104, 105]).bytes = [104, 105] ∧
      (CString.ofBytes [33]).bytes = [33] := by decide
  rw [readWhole_ok first, going, if_neg Bool.false_ne_true, readWhole_ok second, if_pos ended,
    chunks.1, chunks.2]
  rfl

theorem body_delivered_iff_sample :
    Delivery Sample.padded [16384, 16384] ∧ Assembled Sample.begun [104, 105, 33] := by
  have sized : ∀ frame ∈ coming Sample.answering.incoming, frame.size ≤ kH2MaxFramePayload := by
    decide +kernel
  have frames : ∀ frame ∈ coming Sample.padded.incoming,
      (frame.has h2FlagPadded = true → (octetAt frame.payload 0).toNat < frame.size) ∧
        0 ∉ frame.body.getD [] := by
    decide +kernel
  have rest : Sample.begun.incoming = Sample.padded.incoming := rfl
  have every (caps : List Nat) : Run.Along afterBody
      (fun client cap => client.PadsFit cap ∧ client.Unbroken cap) Sample.begun caps := by
    refine (takes_along ?_ caps).and (takes_along ?_ caps)
    · exact fun frame member => (frames frame (rest ▸ member)).1
    · exact fun frame member => (frames frame (rest ▸ member)).2
  have asked : Sample.asked = (.ok, some 200, Sample.begun) :=
    Prod.ext (by decide +kernel) (Prod.ext (by decide +kernel) rfl)
  have answered : Sample.answering.request (.ofBytes (ascii "GET")) (.ofBytes (ascii "https"))
      (.ofBytes (ascii "host")) (.ofBytes (ascii "/key")) none [] =
        (.ok, some (200, [104, 105, 33]), (Sample.begun.afterBody 16384).afterBody 16384) := by
    rw [request, ← Sample.asked, asked]
    simp only [Sample.begun_readWhole]
    rfl
  constructor
  · refine ((body_delivered_iff Sample.padded fun frame member => ?_).1 _).mpr ?_
    · exact sized frame (List.mem_cons_of_mem _ member)
    · exact takes_along (fun frame member => (frames frame member).1) _
  · exact ((body_delivered_iff Sample.answering sized).2 _ _ _ _ _ _ _ _ _ answered).mpr
      fun count => every _

/-- A frame that carries a NUL fits, and `Request` keeps what stands before it. -/
example : appended (Sample.responding [Sample.dataFrame h2FlagEndStream [104, 0, 105]]) [16384] =
    [104] := by
  decide +kernel

/-- The length of the copy wraps around to 2^64 - 255. -/
theorem overlong_padding_overruns : ¬ ∀ (client : Http2Client) (caps : List Nat),
    client.Sized → Delivery client caps := by
  intro claim
  have sized : (Sample.responding [Sample.overlong]).Sized := by
    change ∀ frame ∈ coming (Sample.responding [Sample.overlong]).incoming, _
    decide +kernel
  have takes : (Sample.responding [Sample.overlong]).Takes 16384 Sample.overlong :=
    ⟨rfl, rfl, [], by decide +kernel⟩
  have copies := (claim _ [16384] sized).calls.1 Sample.overlong takes
  have wrapped : Sample.overlong.copied = 2 ^ 64 - 255 := by decide +kernel
  have bounded := copies.capped
  omega

end Http2Client

end Sotoportego.Tailscale
