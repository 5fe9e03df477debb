import Sotoportego.OpenVPN.OwnershipProperties

/-!
# Which messages report a drop

A backend reports DISCONNECTED where its reader exits, where a poll is cancelled, and where
openvpn announces its exit while it still runs.
-/

set_option autoImplicit false

namespace Sotoportego.OpenVPN

open Octets CText
open Edits (Edit)
open Server (Status VPNProfile)
open Tailscale (KernelRoute VPNState)

/-- A report of DISCONNECTED. -/
def Effect.drops : Effect → Bool
  | .notify state _ => state = .disconnected
  | _ => false

def Reaction.drops (reaction : Reaction) : Nat := reaction.effects.countP Effect.drops

/-- A thread or a poll will end the session. -/
def OpenVPNBackend.live (backend : OpenVPNBackend) : Bool := backend.reader || backend.mgmtPoll

variable {backend : OpenVPNBackend}

theorem drops_andThen (reaction : Reaction) (next : OpenVPNBackend → Reaction) :
    (reaction.andThen next).drops = reaction.drops + (next reaction.backend).drops :=
  List.countP_append

theorem drops_none {reaction : Reaction}
    (none : ∀ effect ∈ reaction.effects, effect.drops = false) : reaction.drops = 0 := by
  refine List.countP_eq_zero.mpr fun effect member => ?_
  rw [none effect member]
  decide

theorem drops_setState {state : VPNState} (other : state ≠ .disconnected) (detail : Option Bytes) :
    (backend.setState state detail).drops = 0 :=
  drops_none fun _ member => List.mem_singleton.mp member ▸ decide_eq_false other

theorem not_drops_route {edits : List (Edit KernelRoute)} :
    ∀ effect ∈ edits.map Effect.route, effect.drops = false := by
  intro effect member
  obtain ⟨edit, -, rfl⟩ := List.mem_map.mp member
  rfl

theorem drops_installRoutes (server : CString) (meanwhile : List Bytes) :
    (backend.installRoutes server meanwhile).drops = 0 := by
  unfold OpenVPNBackend.installRoutes
  split_ifs <;> rfl

theorem drops_refreshTunRoute (meanwhile : List Bytes) :
    (backend.refreshTunRoute meanwhile).drops = 0 := by
  unfold OpenVPNBackend.refreshTunRoute
  split_ifs <;> rfl

theorem drops_tunnelUp (event : OpenVPNEvent) (meanwhile : Meanwhile) :
    (backend.tunnelUp event meanwhile).drops = 0 := by
  have addresses (backend : OpenVPNBackend) :
      backend.ifconfigUp.countP Effect.drops = 0 := by
    unfold OpenVPNBackend.ifconfigUp
    split_ifs <;> rfl
  unfold OpenVPNBackend.tunnelUp OpenVPNBackend.fixRoutes
  rw [drops_andThen, Reaction.drops, addresses, Nat.zero_add]
  split_ifs
  · exact drops_refreshTunRoute meanwhile.beforeRecord
  · exact drops_installRoutes _ meanwhile.beforeRecord

/-- openvpn announces its exit, and no error is shown already. -/
def Exiting (backend : OpenVPNBackend) (event : OpenVPNEvent) : Prop :=
  event.type = .state ∧ event.mappedState = .disconnected ∧ backend.state ≠ .error

theorem drops_event {event : OpenVPNEvent} (meanwhile : Meanwhile)
    (stays : ¬ Exiting backend event) : (backend.handleManagementEvent event meanwhile).drops = 0 := by
  have error : VPNState.error ≠ .disconnected := by decide
  unfold OpenVPNBackend.handleManagementEvent
  split
  · next state =>
    unfold OpenVPNBackend.handleState
    split_ifs with shown connected
    · rfl
    · rw [drops_andThen, drops_tunnelUp, drops_setState (by decide)]
    · refine drops_setState (fun same => ?_) _
      exact stays ⟨state, same, fun error => shown ⟨same, error⟩⟩
  · rfl
  · split_ifs
    · exact drops_setState (by decide) _
    · rfl
  · exact drops_setState error _
  · exact drops_setState error _
  · split_ifs <;> rfl
  · split_ifs <;> rfl
  · rfl

/-! ## Teardown -/

theorem drops_cleanup : backend.cleanup.drops = 0 := by
  have stop : backend.stopAll.drops = 0 := by
    refine drops_none fun effect member => ?_
    obtain closed | reaped := List.mem_append.mp member
    · obtain ⟨fd, -, rfl⟩ := List.mem_map.mp closed
      rfl
    · obtain ⟨pid, -, rfl⟩ := List.mem_map.mp reaped
      rfl
  have remove (backend : OpenVPNBackend) : backend.removeRoutes.drops = 0 := by
    unfold OpenVPNBackend.removeRoutes
    split_ifs
    · refine drops_none fun effect member => ?_
      obtain route | unlink := List.mem_append.mp member
      · exact not_drops_route effect route
      · rw [List.mem_singleton.mp unlink]
        rfl
    · rfl
  have drop (backend : OpenVPNBackend) : backend.dropSlot.drops = 0 := by
    unfold Reaction.drops OpenVPNBackend.dropSlot
    dsimp only
    rw [List.countP_append]
    split_ifs <;> rfl
  rw [OpenVPNBackend.cleanup, drops_andThen, drops_andThen, stop, remove, drop]

theorem live_cleanup : backend.cleanup.backend.live = false := by
  have holdings := (@inert_removeRoutes backend.stopAll.backend).holdings
  simp only [OpenVPNBackend.holdings, Holdings.mk.injEq] at holdings
  obtain ⟨-, -, -, -, reader, poll⟩ := holdings
  have threads : backend.cleanup.backend.live =
      backend.stopAll.backend.removeRoutes.backend.live := rfl
  rw [threads, OpenVPNBackend.live, reader, poll]
  rfl

theorem state_cleanup : backend.cleanup.backend.state = backend.state := state_removeRoutes _

theorem fail_spec (detail : String) :
    (backend.fail detail).drops = 0 ∧ (backend.fail detail).backend.live = false := by
  refine ⟨?_, live_cleanup⟩
  rw [OpenVPNBackend.fail, drops_andThen, drops_cleanup, drops_setState (by decide)]

theorem andThen_congr {reaction : Reaction} {next other : OpenVPNBackend → Reaction}
    (same : next reaction.backend = other reaction.backend) :
    reaction.andThen next = reaction.andThen other := by
  unfold Reaction.andThen
  rw [same]

theorem readerExited_error (shown : backend.state = .error) :
    backend.readerExited.drops = 0 ∧ backend.readerExited.backend.live = false := by
  have quiet : backend.readerExited = backend.cleanup.andThen OpenVPNBackend.quiet := by
    refine andThen_congr (if_neg ?_)
    rw [state_cleanup, shown]
    exact not_not.mpr rfl
  rw [quiet, drops_andThen, drops_cleanup]
  exact ⟨rfl, live_cleanup⟩

/-- The one report of a session that shows no error. -/
theorem readerExited_dropped (going : backend.state ≠ .error) :
    backend.readerExited.drops = 1 ∧ backend.readerExited.backend.live = false := by
  have dropped : backend.readerExited =
      backend.cleanup.andThen fun cleaned => cleaned.setState .disconnected none := by
    refine andThen_congr (if_pos ?_)
    rw [state_cleanup]
    exact going
  rw [dropped, drops_andThen, drops_cleanup]
  exact ⟨rfl, live_cleanup⟩

/-! ## The poll -/

/-- Nothing comes to life, and what polls is as it was. -/
structure Reaction.Tame (backend : OpenVPNBackend) (reaction : Reaction) : Prop where
  live : reaction.backend.live = true → backend.live = true
  polling : reaction.backend.mgmtPoll = true → backend.mgmtPoll = true ∧
    reaction.backend.reader = backend.reader ∧ reaction.backend.state = backend.state

theorem mgmtPoll_of_ended (ended : backend.live = false) : backend.mgmtPoll = false := by
  rw [OpenVPNBackend.live, Bool.or_eq_false_iff] at ended
  exact ended.2

theorem tame_of_ended {reaction : Reaction} (ended : reaction.backend.live = false) :
    reaction.Tame backend := by
  refine ⟨fun live => absurd (ended.symm.trans live) (by decide), fun polls => ?_⟩
  exact absurd ((mgmtPoll_of_ended ended).symm.trans polls) (by decide)

theorem tame_of_inert {reaction : Reaction} (inert : reaction.Inert backend)
    (state : backend.mgmtPoll = true → reaction.backend.state = backend.state) :
    reaction.Tame backend := by
  have holdings := inert.holdings
  simp only [OpenVPNBackend.holdings, Holdings.mk.injEq] at holdings
  obtain ⟨-, -, -, -, reader, poll⟩ := holdings
  refine ⟨fun live => ?_, fun polls => ?_⟩
  · rw [OpenVPNBackend.live, reader, poll] at live
    exact live
  · rw [poll] at polls
    exact ⟨polls, reader, state polls⟩

theorem drops_onMgmtConnected (readerStarts : Bool) :
    (backend.onMgmtConnected readerStarts).drops = 0 := by
  have greeted : (⟨backend, backend.greeting⟩ : Reaction).drops = 0 := by
    refine drops_none fun effect member => ?_
    obtain ⟨line, -, sent⟩ := List.mem_flatMap.mp member
    obtain ⟨fd, -, rfl⟩ := List.mem_map.mp sent
    rfl
  unfold OpenVPNBackend.onMgmtConnected OpenVPNBackend.startReader
  rw [drops_andThen, greeted, Nat.zero_add]
  split_ifs
  · rfl
  · exact (fail_spec _).1

theorem polling_onMgmtConnected (idle : backend.mgmtPoll = false) (readerStarts : Bool) :
    (backend.onMgmtConnected readerStarts).backend.mgmtPoll = false := by
  unfold OpenVPNBackend.onMgmtConnected OpenVPNBackend.startReader Reaction.andThen
  dsimp only
  split_ifs
  · exact idle
  · exact mgmtPoll_of_ended (fail_spec _).2

/-- A poll that is not cancelled reports no drop. -/
structure Polled (backend : OpenVPNBackend) (reaction : Reaction) : Prop where
  tame : reaction.Tame backend
  drops : reaction.drops = 0 ∨ backend.mgmtPoll = true ∧ backend.stopRequested = true
  stopRequested : reaction.backend.mgmtPoll = true →
    reaction.backend.stopRequested = backend.stopRequested

theorem polled_of_ended {reaction : Reaction} (ended : reaction.backend.live = false)
    (drops : reaction.drops = 0 ∨ backend.mgmtPoll = true ∧ backend.stopRequested = true) :
    Polled backend reaction := by
  refine ⟨tame_of_ended ended, drops, fun polls => ?_⟩
  exact absurd ((mgmtPoll_of_ended ended).symm.trans polls) (by decide)

theorem polled_tryMgmtConnect (probe : Probe) : Polled backend (backend.tryMgmtConnect probe) := by
  unfold OpenVPNBackend.tryMgmtConnect
  split_ifs with polls cancelled reaped
  · exact polled_of_ended live_cleanup (.inr ⟨polls, cancelled⟩)
  · refine polled_of_ended (fail_spec "openvpn exited before management was ready").2 (.inl ?_)
    have reaps : (⟨{ backend with pid := none }, backend.pid.toList.map .reap⟩ : Reaction).drops =
        0 := by
      refine drops_none fun effect member => ?_
      obtain ⟨pid, -, rfl⟩ := List.mem_map.mp member
      rfl
    rw [drops_andThen, reaps, (fail_spec _).1]
  · cases probe.fd with
    | some fd =>
        have opened : (⟨{ backend with socket := some fd, mgmtPoll := false }, [.openSocket fd]⟩ :
          Reaction).drops = 0 := rfl
        have ended := @polling_onMgmtConnected
          { backend with socket := some fd, mgmtPoll := false } rfl probe.readerStarts
        refine ⟨⟨fun _ => ?_, fun polls => ?_⟩, .inl ?_, fun polls => ?_⟩
        · rw [OpenVPNBackend.live, polls, Bool.or_true]
        · exact absurd (ended.symm.trans polls) (by decide)
        · rw [drops_andThen, opened, drops_onMgmtConnected]
        · exact absurd (ended.symm.trans polls) (by decide)
    | none =>
        dsimp only
        split_ifs
        · exact polled_of_ended (fail_spec _).2 (.inl (fail_spec _).1)
        · exact ⟨⟨id, fun polls => ⟨polls, rfl, rfl⟩⟩, .inl rfl, fun _ => rfl⟩
  · exact ⟨tame_of_inert inert_quiet fun _ => rfl, .inl rfl, fun _ => rfl⟩

/-! ## `Connect` -/

/-- A `Connect` past its guards: what polls is a session that has begun. -/
structure Begun (status : Status) (reaction : Reaction) : Prop where
  drops : reaction.drops = 0
  reader : reaction.backend.reader = false
  polling : reaction.backend.mgmtPoll = true → status = .ok () ∧
    reaction.backend.state = .connecting ∧ reaction.backend.stopRequested = false

theorem begun_of_ended {status : Status} {reaction : Reaction} (drops : reaction.drops = 0)
    (ended : reaction.backend.live = false) : Begun status reaction := by
  refine ⟨drops, ?_, fun polls => ?_⟩
  · rw [OpenVPNBackend.live, Bool.or_eq_false_iff] at ended
    exact ended.1
  · exact absurd ((mgmtPoll_of_ended ended).symm.trans polls) (by decide)

theorem begun_andThen {status : Status} {reaction : Reaction} {next : OpenVPNBackend → Reaction}
    (drops : reaction.drops = 0) (begun : Begun status (next reaction.backend)) :
    Begun status (reaction.andThen next) := by
  refine ⟨?_, begun.reader, begun.polling⟩
  rw [drops_andThen, drops, begun.drops]

theorem begun_spawned {launch : Launch} {running : Bool} {status : Status}
    (idle : backend.live = false) (connecting : backend.state = .connecting)
    (going : backend.stopRequested = false) (answer : running = true → status = .ok ()) :
    Begun status (backend.spawned launch running) := by
  have idle' := idle
  rw [OpenVPNBackend.live, Bool.or_eq_false_iff] at idle
  unfold OpenVPNBackend.spawned OpenVPNBackend.beginMgmtConnect
  cases running with
  | false => exact begun_of_ended (drops_setState (by decide) _) idle'
  | true =>
      cases launch.pollStarts with
      | true => exact ⟨rfl, idle.1, fun _ => ⟨answer rfl, connecting, going⟩⟩
      | false => exact begun_of_ended (fail_spec _).1 (fail_spec _).2

theorem drops_probeFreeSlot (comesUp : Nat → Bool) :
    (probeFreeSlot comesUp).2.countP Effect.drops = 0 := by
  have deletes (slots : List Nat) :
      (slots.map fun slot => Effect.tunDelete (tunName slot)).countP Effect.drops = 0 := by
    refine List.countP_eq_zero.mpr fun effect member => ?_
    obtain ⟨slot, -, rfl⟩ := List.mem_map.mp member
    exact Bool.false_ne_true
  unfold probeFreeSlot
  split
  · exact deletes _
  · rw [List.countP_append, deletes]
    rfl

theorem spawnOpenVPN_spec (launch : Launch) :
    (backend.spawnOpenVPN launch).2.drops = 0 ∧
      (backend.spawnOpenVPN launch).2.backend.live = backend.live ∧
      (backend.spawnOpenVPN launch).2.backend.state = backend.state ∧
      (backend.spawnOpenVPN launch).2.backend.stopRequested = backend.stopRequested := by
  unfold OpenVPNBackend.spawnOpenVPN
  cases launch.passwordFile with
  | none => exact ⟨rfl, rfl, rfl, rfl⟩
  | some unique =>
      cases launch.pid with
      | none => exact ⟨rfl, rfl, rfl, rfl⟩
      | some pid => exact ⟨rfl, rfl, rfl, rfl⟩

theorem begun_start (launch : Launch) (idle : backend.live = false)
    (connecting : backend.state = .connecting) (going : backend.stopRequested = false) :
    Begun (backend.start launch).1 (backend.start launch).2 := by
  have probed := drops_probeFreeSlot launch.comesUp
  unfold OpenVPNBackend.start
  cases found : probeFreeSlot launch.comesUp with
  | mk picked effects =>
      rw [found] at probed
      cases picked with
      | none =>
          have silent : (⟨backend.withoutSlot, effects⟩ : Reaction).drops = 0 := probed
          dsimp only
          apply begun_andThen silent
          exact begun_of_ended (@drops_setState backend.withoutSlot .error (by decide) _) idle
      | some slot =>
          obtain ⟨silent, live, state, stop⟩ := @spawnOpenVPN_spec (backend.withSlot slot) launch
          dsimp only
          generalize (backend.withSlot slot).spawnOpenVPN launch = result at *
          obtain ⟨running, launched⟩ := result
          refine begun_andThen ?_ (begun_spawned (live.trans idle) (state.trans connecting)
            (stop.trans going) fun running => if_pos running)
          rw [Reaction.drops, List.countP_append, probed, Nat.zero_add]
          exact silent

/-- A `Connect` with nothing alive. -/
theorem connect_spec (profile : VPNProfile) (launch : Launch) (idle : backend.live = false) :
    Begun (backend.connect profile launch).1 (backend.connect profile launch).2 := by
  unfold OpenVPNBackend.connect
  split_ifs
  · exact begun_of_ended rfl idle
  · exact begun_of_ended (drops_setState (by decide) _) idle
  · have begun := @begun_start ((backend.requested profile).setState .connecting none).backend
      launch idle rfl rfl
    exact @begun_andThen _ ((backend.requested profile).setState .connecting none)
      (fun ready => (ready.start launch).2) rfl begun

/-! ## The other messages -/

theorem disconnect_spec : backend.disconnect.Tame backend ∧ backend.disconnect.drops = 0 := by
  obtain ⟨inert, state⟩ := inert_disconnect backend
  refine ⟨tame_of_inert inert fun _ => state, ?_⟩
  unfold OpenVPNBackend.disconnect
  split_ifs
  · rfl
  · refine drops_none fun effect member => ?_
    obtain ⟨fd, -, rfl⟩ := List.mem_map.mp member
    rfl
  · refine drops_none fun effect member => ?_
    obtain ⟨pid, -, rfl⟩ := List.mem_map.mp member
    rfl

theorem stopRequested_scanLogLine (line : Bytes) :
    (backend.scanLogLine line).stopRequested = backend.stopRequested := by
  unfold OpenVPNBackend.scanLogLine
  split <;> split <;> first | rfl | (split <;> rfl)

end Sotoportego.OpenVPN
