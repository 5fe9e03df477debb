import Sotoportego.Lib.Run
import Sotoportego.WireGuard.Backend
import Sotoportego.WireGuard.ReplayProperties

/-!
# The two copies of the receive window

`_ReplayValidate` of `WGPeer` and of `WireGuardBackend`, called with any sequence of counters
after a reset: which calls are answered with `true`, and that no expression wraps.
-/

set_option autoImplicit false

namespace Sotoportego.WireGuard

def WGPeer.replayValidate (peer : WGPeer) (counter : UInt64) : WGPeer × Bool :=
  let (replay, fresh) := peer.replay.validate counter
  ({ peer with replay }, fresh)

namespace Backend

def replayReset (backend : Backend) : Backend :=
  { backend with replay := {} }

def replayValidate (backend : Backend) (counter : UInt64) : Backend × Bool :=
  let (replay, fresh) := backend.replay.validate counter
  ({ backend with replay }, fresh)

end Backend

namespace ReplayWindow

/-! ## Sequences of calls -/

section Calls

variable {State : Type} (validate : State → UInt64 → State × Bool)

/-- The object after these calls. -/
def called (state : State) (counters : List UInt64) : State :=
  Run.run (fun state counter => (validate state counter).1) state counters

/-- The counters that were answered with `true`. -/
def accepted : State → List UInt64 → List UInt64
  | _, [] => []
  | state, counter :: counters =>
      (if (validate state counter).2 = true then [counter] else []) ++
        accepted (validate state counter).1 counters

/-- The object holds a window, and the call changes nothing else. -/
structure Carries (window : State → ReplayWindow) : Prop where
  answer : ∀ state counter, (validate state counter).2 = ((window state).validate counter).2
  next : ∀ state counter, window (validate state counter).1 = ((window state).validate counter).1
  frame : ∀ state counter, ((window state).validate counter).1 = window state →
    (validate state counter).1 = state

end Calls

/-- Every expression over unsigned words has its value as a number. -/
structure Exact (window : ReplayWindow) (counter : UInt64) : Prop where
  next : (counter + 1).toNat = counter.toNat + 1
  oldest : (kReplayWindow + (counter + 1)).toNat = 8128 + (counter.toNat + 1)
  blocks : window.counter < counter + 1 →
    (((counter + 1) >>> 6) - (window.counter >>> 6)).toNat =
      (counter.toNat + 1) / 64 - window.counter.toNat / 64
  slots : ∀ step ≤ kReplayBlocks,
    (step + (window.counter >>> 6)).toNat = step.toNat + window.counter.toNat / 64
  bit : ((1 : UInt64) <<< ((counter + 1) &&& (kReplayBits - 1))).toNat =
    2 ^ ((counter.toNat + 1) % 64)

/-- The window as a set of counters, from a state after a reset. -/
structure Specified {State : Type} (validate : State → UInt64 → State × Bool)
    (window : State → ReplayWindow) (start : State) : Prop where
  answered : ∀ earlier counter,
    (validate (called validate start earlier) counter).2 = true ↔
      counter.toNat < 2 ^ 64 - 1 - 2 ^ 13 - 1 ∧ counter ∉ accepted validate start earlier ∧
        ∀ seen ∈ accepted validate start earlier, seen.toNat ≤ counter.toNat + 8128
  unchanged : ∀ earlier counter,
    (validate (called validate start earlier) counter).2 = false →
      (validate (called validate start earlier) counter).1 = called validate start earlier
  exact : ∀ earlier counter, counter < kRejectAfterMessages →
    Exact (window (called validate start earlier)) counter

theorem exact_of_live (window : ReplayWindow) {counter : UInt64}
    (live : counter < kRejectAfterMessages) : Exact window counter := by
  have limit : kRejectAfterMessages.toNat = 2 ^ 64 - 8194 := by decide
  have size : kReplayWindow.toNat = 8128 := by decide
  have bounded := UInt64.lt_iff_toNat_lt.mp live
  have next_eq : (counter + 1).toNat = counter.toNat + 1 := by
    rw [UInt64.toNat_add, UInt64.toNat_one]
    omega
  refine ⟨next_eq, ?_, ?_, ?_, ?_⟩
  · rw [UInt64.toNat_add, next_eq, size]
    omega
  · intro newer
    have ordered := UInt64.lt_iff_toNat_lt.mp newer
    have above : window.counter >>> 6 ≤ (counter + 1) >>> 6 := by
      rw [UInt64.le_iff_toNat_le, toNat_shiftRight_six, toNat_shiftRight_six]
      exact Nat.div_le_div_right (Nat.le_of_lt ordered)
    rw [UInt64.toNat_sub_of_le _ _ above, toNat_shiftRight_six, toNat_shiftRight_six, next_eq]
  · intro step few
    have whole : kReplayBlocks.toNat = 128 := rfl
    have small := UInt64.le_iff_toNat_le.mp few
    have top := window.counter.toNat_lt
    rw [UInt64.toNat_add, toNat_shiftRight_six]
    omega
  · rw [toNat_replayBit, next_eq]

/-! ## The window and the accepted counters -/

/-- The ring holds the accepted counters plus one, and its top is the greatest of them. -/
structure Records (window : ReplayWindow) (counters : List UInt64) : Prop where
  tracks : window.ring.Tracks 128 64 {number | ∃ counter ∈ counters, number = counter.toNat + 1}
  attained : window.ring.top = 0 ∨ ∃ counter ∈ counters, window.ring.top = counter.toNat + 1

theorem records_reset : Records {} [] := by
  have empty : {number | ∃ counter ∈ ([] : List UInt64), number = counter.toNat + 1} = ∅ := by
    simp
  refine ⟨?_, .inl rfl⟩
  rw [empty]
  refine SlidingWindow.Ring.tracks_empty _ fun block position => ?_
  split
  · simp
  · rfl

theorem records_validate {window : ReplayWindow} {counters : List UInt64}
    (records : Records window counters) (counter : UInt64) :
    Records (window.validate counter).1
      (counters ++ if (window.validate counter).2 = true then [counter] else []) := by
  obtain ⟨-, tracks, attained⟩ := validate_tracks records.tracks records.attained counter
  have grown : {number | ∃ seen ∈ counters ++
        (if (window.validate counter).2 = true then [counter] else []), number = seen.toNat + 1} =
      {number | number ∈ {number | ∃ seen ∈ counters, number = seen.toNat + 1} ∨
        (number = counter.toNat + 1 ∧ (window.validate counter).2 = true)} := by
    ext number
    cases (window.validate counter).2 with
    | false => simp
    | true => simp [or_and_right, exists_or]
  refine ⟨?_, attained.imp id ?_⟩
  · rw [grown]
    exact tracks
  · rintro (⟨seen, member, top⟩ | ⟨top, fresh⟩)
    · exact ⟨seen, List.mem_append_left _ member, top⟩
    · rw [if_pos fresh]
      exact ⟨counter, by simp, top⟩

/-- What the recorded counters say of the next one. -/
theorem validate_iff {window : ReplayWindow} {counters : List UInt64}
    (records : Records window counters) (counter : UInt64) :
    (window.validate counter).2 = true ↔
      counter.toNat < 2 ^ 64 - 1 - 2 ^ 13 - 1 ∧ counter ∉ counters ∧
        ∀ seen ∈ counters, seen.toNat ≤ counter.toNat + 8128 := by
  obtain ⟨fresh_iff, -, -⟩ := validate_tracks records.tracks records.attained counter
  have limit : kRejectAfterMessages.toNat = 2 ^ 64 - 1 - 2 ^ 13 - 1 := by decide
  have unseen : (counter.toNat + 1 ∉ {number | ∃ seen ∈ counters, number = seen.toNat + 1}) ↔
      counter ∉ counters := by
    refine not_congr ⟨?_, fun member => ⟨counter, member, rfl⟩⟩
    rintro ⟨seen, member, same⟩
    rw [UInt64.toNat_inj.mp (Nat.succ_injective same)]
    exact member
  have within : window.ring.top ≤ 8128 + (counter.toNat + 1) ↔
      ∀ seen ∈ counters, seen.toNat ≤ counter.toNat + 8128 := by
    constructor
    · intro inside seen member
      have below := records.tracks.below _ ⟨seen, member, rfl⟩
      omega
    · intro inside
      cases records.attained with
      | inl nothing => omega
      | inr greatest =>
          obtain ⟨seen, member, top⟩ := greatest
          have below := inside seen member
          omega
  rw [fresh_iff, UInt64.lt_iff_toNat_lt, limit, unseen, within]

section Copies

variable {State : Type} {validate : State → UInt64 → State × Bool} {window : State → ReplayWindow}

theorem Carries.records (carries : Carries validate window) {state : State}
    {before : List UInt64} (records : Records (window state) before) (counters : List UInt64) :
    Records (window (called validate state counters))
      (before ++ accepted validate state counters) := by
  induction counters generalizing state before with
  | nil =>
      rw [accepted, List.append_nil]
      exact records
  | cons counter counters continued =>
      have stepped := records_validate records counter
      rw [← carries.answer, ← carries.next] at stepped
      rw [accepted, ← List.append_assoc]
      exact continued stepped

theorem Carries.specified (carries : Carries validate window) {start : State}
    (reset : window start = {}) : Specified validate window start := by
  have recorded (earlier : List UInt64) : Records (window (called validate start earlier))
      (accepted validate start earlier) :=
    @Carries.records _ _ _ carries _ [] (reset ▸ records_reset) earlier
  refine ⟨?_, ?_, fun earlier counter live => exact_of_live _ live⟩
  · intro earlier counter
    rw [carries.answer]
    exact validate_iff (recorded earlier) counter
  · intro earlier counter refused
    rw [carries.answer] at refused
    exact carries.frame _ _ (validate_refused (recorded earlier).tracks refused)

end Copies

theorem carries_wgPeer : Carries WGPeer.replayValidate WGPeer.replay where
  answer _ _ := rfl
  next _ _ := rfl
  frame peer counter still := by
    rw [WGPeer.replayValidate]
    simp only [still]

theorem carries_backend : Carries Backend.replayValidate Backend.replay where
  answer _ _ := rfl
  next _ _ := rfl
  frame backend counter still := by
    rw [Backend.replayValidate]
    simp only [still]

/-- Both copies answer any sequence of counters as the set of counters accepted before says. -/
theorem copies_specified :
    (∀ peer : WGPeer, Specified WGPeer.replayValidate WGPeer.replay peer.resetReplay) ∧
      ∀ backend : Backend,
        Specified Backend.replayValidate Backend.replay backend.replayReset :=
  ⟨fun _ => carries_wgPeer.specified rfl, fun _ => carries_backend.specified rfl⟩

end ReplayWindow

end Sotoportego.WireGuard
