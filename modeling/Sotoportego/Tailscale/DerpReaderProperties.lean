import Sotoportego.Lib.Run
import Sotoportego.Tailscale.DerpProperties
import Sotoportego.Tailscale.DerpReader

/-!
# What the reader thread drops, and when it tries again

A relayed packet that does not fit the buffer of the loop looks like a lost connection. The
delays between reconnects depend on the last successful one only.
-/

set_option autoImplicit false

namespace Sotoportego.Tailscale

open Octets CText Deliveries


namespace DerpFrame

/-- What `RecvPacket` makes of a frame. -/
def received (cap : Nat) (frame : DerpFrame) : DerpClient.Received :=
  if frame.type = derpRecvPacket then
    if frame.payload.length < 32 then .failed
    else if cap < frame.payload.length - 32 then .failed
    else .packet (slice 32 frame.payload 0) (frame.payload.drop 32)
  else .control

/-- The relayed packet of a frame, if it has at most 2048 octets. -/
def packet (frame : DerpFrame) : Option Bytes :=
  if frame.type = derpRecvPacket ∧ 32 ≤ frame.payload.length ∧ frame.payload.length ≤ 32 + 2048 then
    some (frame.payload.drop 32)
  else none

/-- Not a relayed packet, or one that is not empty and has at most 2048 octets. -/
def Harmless (frame : DerpFrame) : Prop :=
  frame.type = derpRecvPacket → 32 < frame.payload.length ∧ frame.payload.length ≤ 32 + 2048

/-- The three kinds of frames. -/
theorem received_cases (frame : DerpFrame) :
    (frame.type = derpRecvPacket ∧
      ¬ (32 ≤ frame.payload.length ∧ frame.payload.length ≤ 32 + 2048) ∧
      frame.received 2048 = .failed ∧ frame.packet = none) ∨
    (frame.type ≠ derpRecvPacket ∧ frame.received 2048 = .control ∧ frame.packet = none) ∨
    (32 ≤ frame.payload.length ∧ frame.payload.length ≤ 32 + 2048 ∧
      frame.packet = some (frame.payload.drop 32) ∧
      ∃ src, frame.received 2048 = .packet src (frame.payload.drop 32)) := by
  rw [received, packet]
  by_cases relayed : frame.type = derpRecvPacket
  · rw [if_pos relayed]
    by_cases short : frame.payload.length < 32
    · rw [if_pos short, if_neg (by omega)]
      exact .inl ⟨relayed, by omega, rfl, rfl⟩
    · by_cases large : 2048 < frame.payload.length - 32
      · rw [if_neg short, if_pos large, if_neg (by omega)]
        exact .inl ⟨relayed, by omega, rfl, rfl⟩
      · have fits : 32 ≤ frame.payload.length ∧ frame.payload.length ≤ 32 + 2048 := by omega
        rw [if_neg short, if_neg large, if_pos ⟨relayed, fits⟩]
        exact .inr (.inr ⟨fits.1, fits.2, rfl, _, rfl⟩)
  · rw [if_neg relayed, if_neg fun fits => relayed fits.1]
    exact .inr (.inl ⟨relayed, rfl, rfl⟩)

end DerpFrame

namespace DerpClient

theorem recvPacket_cons (cap : Nat) {client : DerpClient} {frame : DerpFrame}
    {frames : List DerpFrame} (small : frame.payload.length ≤ kDerpMaxFrame)
    (carried : client.coming = DerpFrame.text (frame :: frames)) (going : client.Going) :
    ∃ next, client.recvPacket cap = (frame.received cap, next) ∧ next.coming = DerpFrame.text frames ∧
      next.Going := by
  obtain ⟨next, read, onward, still⟩ := readFrame_cons small carried going
  rw [recvPacket, read, DerpFrame.received]
  dsimp only
  by_cases relayed : frame.type = derpRecvPacket
  · rw [if_pos relayed, if_pos relayed]
    refine ⟨next, ?_, onward, still⟩
    split_ifs <;> rfl
  · rw [if_neg relayed, if_neg relayed]
    split
    next =>
      rw [writeFrame]
      split
      next => exact ⟨next, rfl, onward, still⟩
      next => exact ⟨_, rfl, onward, still⟩
    next => exact ⟨next, rfl, onward, still⟩

end DerpClient

namespace DerpReader

open Run

variable {relay : DerpRelay}

/-- A loop that is not asked to stop and reads an intact connection. -/
structure Intact (frames : List DerpFrame) (reader : DerpReader) : Prop where
  running : reader.running = true
  carried : reader.derp.coming = DerpFrame.text frames
  going : reader.derp.Going

/-! ## Packets -/

theorem step_received {reader : DerpReader} {turn : Turn} {derp : DerpClient}
    {received : DerpClient.Received} (running : reader.running = true)
    (calm : turn.stopAtTop = false) (got : reader.derp.recvPacket 2048 = (received, derp)) :
    reader.step relay turn =
      { reader with derp, returned := reader.returned ++ [received.value] }.react relay turn
        received := by
  rw [step, if_neg (not_not_intro running), calm, if_neg Bool.false_ne_true, got]

theorem derpReconnect_kept (relay : DerpRelay) (turn : Turn) (reader : DerpReader) :
    ∃ derp derpUp, (reader.derpReconnect relay turn).2 = { reader with derp, derpUp } := by
  rw [derpReconnect]
  split
  next => exact ⟨_, _, rfl⟩
  next => split <;> exact ⟨_, _, rfl⟩

/-- A drop stops the thread, or waits and leaves the logs of packets alone. -/
theorem dropped_cases (relay : DerpRelay) (turn : Turn) (reader : DerpReader) :
    let waited := reader.backoff.nextDelay true (turn.droppedAt - reader.connectedAt)
    reader.dropped relay turn = { reader with running := false } ∨
      ∃ derp derpUp connectedAt running, reader.dropped relay turn =
        { reader with
          derp, derpUp, connectedAt, running
          backoff := waited.2, delays := reader.delays ++ [waited.1] } := by
  intro waited
  rw [dropped]
  split
  next => exact .inl rfl
  next =>
    right
    obtain ⟨derp, derpUp, kept⟩ := derpReconnect_kept relay turn
      { reader.derpMarkDown with
        backoff := waited.2, delays := reader.derpMarkDown.delays ++ [waited.1] }
    dsimp only
    split
    next =>
      split
      next next result =>
        rw [show next = _ from (congrArg Prod.snd result).symm.trans kept]
        exact ⟨_, _, _, _, rfl⟩
      next next result =>
        rw [show next = _ from (congrArg Prod.snd result).symm.trans kept]
        exact ⟨_, _, _, _, rfl⟩
    next => exact ⟨_, _, _, _, rfl⟩

theorem dropped_returned (turn : Turn) (reader : DerpReader) :
    (reader.dropped relay turn).returned = reader.returned := by
  rcases dropped_cases relay turn reader with stopped | ⟨_, _, _, _, waited⟩
  · rw [stopped]
  · rw [waited]

theorem react_returned (turn : Turn) (reader : DerpReader) (received : DerpClient.Received) :
    (reader.react relay turn received).returned = reader.returned := by
  cases received with
  | failed => exact dropped_returned turn reader
  | control => rfl
  | packet src out =>
      rw [react]
      split <;> rfl

theorem step_returned (reader : DerpReader) (turn : Turn) :
    reader.returned <+: (reader.step relay turn).returned := by
  rw [step]
  split_ifs
  · exact List.prefix_rfl
  · rw [react_returned]
    exact List.prefix_append _ _
  · exact List.prefix_rfl

theorem run_returned (turns : List Turn) (reader : DerpReader) :
    reader.returned <+: (run (step relay) reader turns).returned := by
  induction turns generalizing reader with
  | nil => exact List.prefix_rfl
  | cons turn turns continued => exact (step_returned reader turn).trans (continued _)

/-- What the loop gives to `_HandleWireGuardPacket` for a frame. -/
def handedFor (frame : DerpFrame) : List Bytes :=
  (frame.packet.filter fun out => out ≠ []).toList

section Frames

variable (relay) {reader : DerpReader} {turn : Turn} {frame : DerpFrame} {frames : List DerpFrame}

theorem step_kept (intact : Intact (frame :: frames) reader)
    (small : frame.payload.length ≤ kDerpMaxFrame) (calm : turn.stopAtTop = false)
    (accepted : frame.received 2048 ≠ .failed) :
    Intact frames (reader.step relay turn) ∧
      (reader.step relay turn).returned =
        reader.returned ++ [(frame.received 2048).value] ∧
      (reader.step relay turn).handed = reader.handed ++ handedFor frame := by
  obtain ⟨derp, got, onward, still⟩ :=
    DerpClient.recvPacket_cons 2048 small intact.carried intact.going
  rw [step_received intact.running calm got]
  rw [handedFor]
  rcases frame.received_cases with ⟨-, -, failed, -⟩ | ⟨-, control, none⟩ | ⟨-, -, some, src, packet⟩
  · exact (accepted failed).elim
  · rw [control, none]
    exact ⟨⟨intact.running, onward, still⟩, rfl, (List.append_nil _).symm⟩
  · rw [packet, some, react, Option.filter_some]
    by_cases empty : frame.payload.drop 32 = []
    · rw [if_neg (by rw [empty]; exact Nat.lt_irrefl 0), if_neg (by simp [empty])]
      exact ⟨⟨intact.running, onward, still⟩, rfl, (List.append_nil _).symm⟩
    · rw [if_pos (List.length_pos_iff.mpr empty), if_pos (by simp [empty])]
      exact ⟨⟨intact.running, onward, still⟩, rfl, rfl⟩

theorem step_refused (intact : Intact (frame :: frames) reader)
    (small : frame.payload.length ≤ kDerpMaxFrame) (calm : turn.stopAtTop = false)
    (refused : frame.received 2048 = .failed) : -1 ∈ (reader.step relay turn).returned := by
  obtain ⟨derp, got, -, -⟩ := DerpClient.recvPacket_cons 2048 small intact.carried intact.going
  rw [step_received intact.running calm got, react_returned, refused]
  exact List.mem_append_right _ List.mem_cons_self

end Frames

theorem run_kept (relay : DerpRelay) {frames : List DerpFrame}
    (small : ∀ frame ∈ frames, frame.payload.length ≤ kDerpMaxFrame)
    (accepted : ∀ frame ∈ frames, frame.received 2048 ≠ .failed) :
    ∀ {turns : List Turn} {reader : DerpReader}, Intact frames reader →
      turns.length = frames.length → (∀ turn ∈ turns, turn.stopAtTop = false) →
      (run (step relay) reader turns).returned =
        reader.returned ++ frames.map (fun frame => (frame.received 2048).value) ∧
      (run (step relay) reader turns).handed = reader.handed ++ frames.flatMap handedFor := by
  induction frames with
  | nil =>
      intro turns reader _ length _
      cases List.eq_nil_of_length_eq_zero length
      exact ⟨(List.append_nil _).symm, (List.append_nil _).symm⟩
  | cons frame frames continued =>
      intro turns reader intact length calm
      cases turns with
      | nil => cases length
      | cons turn turns =>
          obtain ⟨kept, returned, handed⟩ := step_kept relay intact
            (small frame List.mem_cons_self) (calm turn List.mem_cons_self)
            (accepted frame List.mem_cons_self)
          obtain ⟨lastReturned, lastHanded⟩ :=
            continued (fun other member => small other (List.mem_cons_of_mem _ member))
              (fun other member => accepted other (List.mem_cons_of_mem _ member)) kept
              (Nat.succ.inj length) fun other member => calm other (List.mem_cons_of_mem _ member)
          rw [run_cons, lastReturned, lastHanded, returned, handed, List.append_assoc,
            List.append_assoc]
          exact ⟨rfl, rfl⟩

theorem run_refused (relay : DerpRelay) {frames : List DerpFrame}
    (small : ∀ frame ∈ frames, frame.payload.length ≤ kDerpMaxFrame)
    (refused : ∃ frame ∈ frames, frame.received 2048 = .failed) :
    ∀ {turns : List Turn} {reader : DerpReader}, Intact frames reader →
      turns.length = frames.length → (∀ turn ∈ turns, turn.stopAtTop = false) →
      -1 ∈ (run (step relay) reader turns).returned := by
  induction frames with
  | nil =>
      obtain ⟨frame, member, -⟩ := refused
      cases member
  | cons frame frames continued =>
      intro turns reader intact length calm
      cases turns with
      | nil => cases length
      | cons turn turns =>
          have smallFrame := small frame List.mem_cons_self
          have calmTurn := calm turn List.mem_cons_self
          rw [run_cons]
          by_cases here : frame.received 2048 = .failed
          · exact (run_returned turns _).subset (step_refused relay intact smallFrame calmTurn here)
          · obtain ⟨kept, -, -⟩ := step_kept relay intact smallFrame calmTurn here
            refine continued (fun other member => small other (List.mem_cons_of_mem _ member)) ?_
              kept (Nat.succ.inj length)
              fun other member => calm other (List.mem_cons_of_mem _ member)
            obtain ⟨other, member, failed⟩ := refused
            cases List.mem_cons.mp member with
            | inl same => exact absurd (same ▸ failed) here
            | inr later => exact ⟨other, later, failed⟩

/-- The packets of at most 2048 octets that the relay delivers. -/
def packets (frames : List DerpFrame) : List Bytes :=
  frames.filterMap DerpFrame.packet

theorem handedFor_harmless {frame : DerpFrame} (harmless : frame.Harmless) :
    handedFor frame = frame.packet.toList := by
  rw [handedFor]
  rcases frame.received_cases with ⟨-, -, -, none⟩ | ⟨-, -, none⟩ | ⟨-, -, some, -⟩
  · rw [none]
    rfl
  · rw [none]
    rfl
  · have relayed : frame.type = derpRecvPacket := by
      rw [DerpFrame.packet] at some
      split at some
      next fits => exact fits.1
      next => cases some
    have length := (harmless relayed).1
    have filled : frame.payload.drop 32 ≠ [] := by
      rw [ne_eq, List.drop_eq_nil_iff]
      omega
    rw [some, Option.filter_some, if_pos (by simpa using filled)]

theorem relay_kept_iff (relay : DerpRelay) (frames : List DerpFrame)
    (small : ∀ frame ∈ frames, frame.payload.length ≤ 65535) (reader : DerpReader)
    (carried : reader.derp.coming = DerpFrame.text frames) (going : reader.derp.Going)
    (turns : List Turn) (calls : turns.length = frames.length) (calm : ∀ turn ∈ turns, turn.stopAtTop = false) :
    let last := run (step relay) { reader with running := true, returned := [], handed := [] } turns
    ((∀ value ∈ last.returned, 0 ≤ value) ∧ last.handed = packets frames) ↔
      ∀ frame ∈ frames, frame.Harmless := by
  intro last
  have intact : Intact frames { reader with running := true, returned := [], handed := [] } :=
    ⟨rfl, carried, going⟩
  constructor
  · rintro ⟨values, handed⟩ frame member relayed
    have accepted : ∀ frame ∈ frames, frame.received 2048 ≠ .failed := by
      intro other inside failed
      have negative := run_refused relay small ⟨other, inside, failed⟩ intact calls calm
      exact absurd (values _ negative) (by decide)
    have lastHanded := (run_kept relay small accepted intact calls calm).2
    rcases frame.received_cases with ⟨-, -, failed, -⟩ | ⟨other, -⟩ | ⟨low, high, some, -⟩
    · exact (accepted frame member failed).elim
    · exact (other relayed).elim
    · refine ⟨Nat.lt_of_le_of_ne low ?_, high⟩
      -- An empty packet is one of the packets and never handed.
      intro empty
      have none : frame.payload.drop 32 = [] := List.drop_eq_nil_iff.mpr (Nat.le_of_eq empty.symm)
      have listed : [] ∈ packets frames :=
        List.mem_filterMap.mpr ⟨frame, member, some.trans (none ▸ rfl)⟩
      rw [← handed, lastHanded, List.nil_append] at listed
      obtain ⟨other, -, inside⟩ := List.mem_flatMap.mp listed
      have kept := Option.mem_toList.mp inside
      simp at kept
  · intro harmless
    have accepted : ∀ frame ∈ frames, frame.received 2048 ≠ .failed := by
      intro frame member failed
      rcases frame.received_cases with ⟨relayed, unfit, -⟩ | ⟨-, control, -⟩ | ⟨-, -, -, src, packet⟩
      · have fits := harmless frame member relayed
        exact unfit ⟨Nat.le_of_lt fits.1, fits.2⟩
      · exact absurd (control.symm.trans failed) (by simp)
      · exact absurd (packet.symm.trans failed) (by simp)
    obtain ⟨returned, handed⟩ := run_kept relay small accepted intact calls calm
    constructor
    · intro value member
      rw [returned, List.nil_append] at member
      obtain ⟨frame, inside, rfl⟩ := List.mem_map.mp member
      cases got : frame.received 2048 with
      | failed => exact (accepted frame inside got).elim
      | control => exact Int.le_refl 0
      | packet src out => exact Int.natCast_nonneg _
    · rw [handed, List.nil_append, packets, List.filterMap_eq_flatMap_toList]
      exact List.flatMap_congr fun frame member => handedFor_harmless (harmless frame member)

namespace Sample

def derp1 : DerpRelay where
  box := ⟨fun _ _ _ plain => some plain, fun _ _ _ cipher => some cipher⟩
  host := .ofBytes (ascii "derp1")
  nodePriv := .zero 32
  nodePub := .zero 32

def frames : List DerpFrame := [⟨derpPing, [1, 2]⟩, ⟨derpRecvPacket, List.replicate 33 7⟩]

/-- All frames in one delivery. -/
def reader (frames : List DerpFrame) : DerpReader where
  derp := { tls := some (putBack (DerpFrame.text frames) []) }
  connectedAt := 0

/-- A turn in which the relay cannot be reached. -/
def unreachable (droppedAt : Int) : Turn where
  droppedAt
  dial := .error (.error, ascii "TCP connect")
  reconnectedAt := 0

theorem reader_carries (frames : List DerpFrame) :
    (reader frames).derp.coming = DerpFrame.text frames := by
  have arrives : arriving (putBack (DerpFrame.text frames) []) = DerpFrame.text frames ++ [] :=
    arriving_putBack _ _
  rw [List.append_nil] at arrives
  exact arrives

/-- A packet one octet larger than the buffer of the loop. -/
def oversize : DerpFrame := ⟨derpRecvPacket, List.replicate 2081 0⟩

end Sample

theorem relay_kept_iff_sample :
    let last := run (step Sample.derp1)
      { Sample.reader Sample.frames with running := true, returned := [], handed := [] }
      [Sample.unreachable 0, Sample.unreachable 0]
    ((∀ value ∈ last.returned, 0 ≤ value) ∧ last.handed = packets Sample.frames) ↔
      ∀ frame ∈ Sample.frames, frame.Harmless :=
  relay_kept_iff Sample.derp1 Sample.frames (by decide) (Sample.reader Sample.frames)
    (Sample.reader_carries _) List.not_mem_nil [Sample.unreachable 0, Sample.unreachable 0] rfl
    (by decide)

theorem oversize_packet_drops :
    ¬ ∀ value ∈ (run (step Sample.derp1) (Sample.reader [Sample.oversize])
      [Sample.unreachable 0]).returned, 0 ≤ value := by
  have length : Sample.oversize.payload.length = 2081 := List.length_replicate
  have small : ∀ frame ∈ [Sample.oversize], frame.payload.length ≤ kDerpMaxFrame := by
    intro frame member
    rw [List.mem_singleton.mp member, length]
    decide
  have refused : Sample.oversize.received 2048 = .failed := by
    rw [DerpFrame.received, length]
    rfl
  have intact : Intact [Sample.oversize] (Sample.reader [Sample.oversize]) :=
    ⟨rfl, Sample.reader_carries _, List.not_mem_nil⟩
  intro values
  exact absurd (values _ (run_refused Sample.derp1 small ⟨_, List.mem_cons_self, refused⟩ intact
    rfl (by decide))) (by decide)

end DerpReader

end Sotoportego.Tailscale
