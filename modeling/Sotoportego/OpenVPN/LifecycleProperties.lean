import Sotoportego.OpenVPN.DropProperties

/-!
# An OpenVPN session holds what its threads use

Between two messages of the looper a backend that neither polls nor reads has no child, no
socket, no tun slot, no password file, no stderr thread and no routes.
-/

set_option autoImplicit false

namespace Sotoportego.OpenVPN

open Octets CText
open Server (VPNProfile)
open Tailscale (VPNState)

/-- The stderr thread and the routes end with the session. -/
def Quiet (backend : OpenVPNBackend) : Prop :=
  backend.live = false → backend.stderrReader = false ∧ backend.routesInstalled = false

section Quiet

variable {backend next : OpenVPNBackend}

theorem quiet_of_live (live : backend.live = true) : Quiet backend := by
  intro ended
  exact absurd (live.symm.trans ended) (by decide)

theorem Quiet.congr (quiet : Quiet backend) (live : next.live = backend.live)
    (thread : next.stderrReader = backend.stderrReader)
    (routes : next.routesInstalled = backend.routesInstalled) : Quiet next := by
  intro ended
  rw [thread, routes]
  exact quiet (live.symm.trans ended)

theorem stderrReader_removeRoutes :
    backend.removeRoutes.backend.stderrReader = backend.stderrReader := by
  unfold OpenVPNBackend.removeRoutes
  split_ifs <;> rfl

theorem quiet_cleanup : Quiet backend.cleanup.backend := fun _ =>
  ⟨stderrReader_removeRoutes, routesInstalled_removeRoutes⟩

theorem quiet_fail (detail : String) : Quiet (backend.fail detail).backend := quiet_cleanup

theorem scanLogLine_flags (line : Bytes) :
    (backend.scanLogLine line).live = backend.live ∧
      (backend.scanLogLine line).stderrReader = backend.stderrReader ∧
      (backend.scanLogLine line).routesInstalled = backend.routesInstalled := by
  unfold OpenVPNBackend.scanLogLine
  split <;> split <;> first | exact ⟨rfl, rfl, rfl⟩ | (split <;> exact ⟨rfl, rfl, rfl⟩)

/-! ### `Connect` -/

theorem spawnOpenVPN_flags (launch : Launch) :
    (backend.spawnOpenVPN launch).2.backend.stderrReader = backend.stderrReader ∧
      (backend.spawnOpenVPN launch).2.backend.routesInstalled = backend.routesInstalled := by
  unfold OpenVPNBackend.spawnOpenVPN
  split
  · exact ⟨rfl, rfl⟩
  · dsimp only
    split <;> exact ⟨rfl, rfl⟩

theorem quiet_spawned (quiet : Quiet backend) (launch : Launch) (running : Bool) :
    Quiet (backend.spawned launch running).backend := by
  unfold OpenVPNBackend.spawned OpenVPNBackend.beginMgmtConnect
  cases running with
  | false => exact quiet.congr rfl rfl rfl
  | true =>
      cases launch.pollStarts with
      | false => exact quiet_fail _
      | true => exact quiet_of_live (Bool.or_true _)

theorem quiet_start (quiet : Quiet backend) (launch : Launch) :
    Quiet (backend.start launch).2.backend := by
  unfold OpenVPNBackend.start
  split
  · exact quiet.congr rfl rfl rfl
  · next slot probed found =>
    obtain ⟨-, live, -⟩ := @spawnOpenVPN_spec (backend.withSlot slot) launch
    obtain ⟨thread, routes⟩ := @spawnOpenVPN_flags (backend.withSlot slot) launch
    have ready : Quiet ((backend.withSlot slot).spawnOpenVPN launch).2.backend :=
      quiet.congr live thread routes
    exact quiet_spawned ready launch _

theorem quiet_connect (quiet : Quiet backend) (profile : VPNProfile) (launch : Launch) :
    Quiet (backend.connect profile launch).2.backend := by
  unfold OpenVPNBackend.connect
  split_ifs
  · exact quiet
  · exact quiet.congr rfl rfl rfl
  · have connecting : Quiet ((backend.requested profile).setState .connecting none).backend :=
      quiet.congr rfl rfl rfl
    exact quiet_start connecting launch

/-! ### The other messages -/

/-- A quiet backend is left quiet, and neither a thread nor a poll starts. -/
structure Winds (backend next : OpenVPNBackend) : Prop where
  quiet : Quiet next
  live : next.live = true → backend.live = true
  polling : next.mgmtPoll = true → backend.mgmtPoll = true

theorem winds_same (quiet : Quiet backend) (holdings : next.holdings = backend.holdings)
    (thread : next.stderrReader = backend.stderrReader)
    (routes : next.routesInstalled = backend.routesInstalled) : Winds backend next := by
  simp only [OpenVPNBackend.holdings, Holdings.mk.injEq] at holdings
  obtain ⟨-, -, -, -, reader, poll⟩ := holdings
  have live : next.live = backend.live := by
    rw [OpenVPNBackend.live, OpenVPNBackend.live, reader, poll]
  exact ⟨quiet.congr live thread routes, fun alive => live.symm.trans alive,
    fun polls => poll.symm.trans polls⟩

theorem winds_setCredentials (quiet : Quiet backend) (user pass : CString) :
    Winds backend (backend.setCredentials user pass) :=
  winds_same quiet rfl rfl rfl

theorem winds_disconnect (quiet : Quiet backend) : Winds backend backend.disconnect.backend := by
  refine winds_same quiet (inert_disconnect backend).1.holdings ?_ ?_
  · unfold OpenVPNBackend.disconnect
    split_ifs <;> rfl
  · unfold OpenVPNBackend.disconnect
    split_ifs <;> rfl

theorem quiet_tryMgmtConnect (quiet : Quiet backend) (probe : Probe) :
    Quiet (backend.tryMgmtConnect probe).backend := by
  unfold OpenVPNBackend.tryMgmtConnect
  split_ifs with polls cancelled reaped
  · exact quiet_cleanup
  · exact quiet_fail "openvpn exited before management was ready"
  · cases probe.fd with
    | some fd =>
        unfold OpenVPNBackend.onMgmtConnected OpenVPNBackend.startReader Reaction.andThen
        dsimp only
        split_ifs
        · exact quiet_of_live (Bool.true_or _)
        · exact quiet_fail _
    | none =>
        dsimp only
        split_ifs
        · exact quiet_fail _
        · exact quiet_of_live ((congrArg (backend.reader || ·) polls).trans (Bool.or_true _))
  · exact quiet

theorem winds_readerExited : Winds backend backend.readerExited.backend := by
  have ended : backend.readerExited.backend.live = false := by
    by_cases shown : backend.state = .error
    · exact (readerExited_error shown).2
    · exact (readerExited_dropped shown).2
  have quiet : Quiet backend.readerExited.backend := by
    unfold OpenVPNBackend.readerExited Reaction.andThen
    dsimp only
    split_ifs <;> exact quiet_cleanup
  refine ⟨quiet, fun live => ?_, fun polls => ?_⟩
  · exact absurd (ended.symm.trans live) (by decide)
  · exact absurd ((mgmtPoll_of_ended ended).symm.trans polls) (by decide)

end Quiet

/-! ## The backend and its system -/

/-- The child, the threads, the tun slot and the routes of a session. -/
def Holds (host : Host) : Prop :=
  host.backend.live = true ∨ host.backend.stderrReader = true ∨
    host.backend.routesInstalled = true ∨ ¬ Unheld host.system

instance (host : Host) : Decidable (Holds host) := inferInstanceAs (Decidable (_ ∨ _ ∨ _ ∨ _))

structure Orderly (host : Host) : Prop where
  sound : Sound host
  quiet : Quiet host.backend

variable {host : Host}

/-- A session holds something as long as a thread or a poll will end it. -/
theorem Orderly.holds (orderly : Orderly host) (holds : Holds host) : host.backend.live = true := by
  rw [← Bool.not_eq_false]
  intro ended
  obtain ⟨silent, removed⟩ := orderly.quiet ended
  have threads := ended
  rw [OpenVPNBackend.live, Bool.or_eq_false_iff] at threads
  obtain alive | reads | installed | held := holds
  · exact absurd (ended.symm.trans alive) (by decide)
  · exact absurd (silent.symm.trans reads) (by decide)
  · exact absurd (removed.symm.trans installed) (by decide)
  · exact held (unheld_of_settled orderly.sound.owned orderly.sound.settled threads.2 threads.1)

theorem orderly_connect (orderly : Orderly host) {profile : VPNProfile} {launch : Launch}
    (calm : Calm host (.connect profile launch)) :
    Orderly (host.step (.connect profile launch)) :=
  ⟨(sound_connect orderly.sound calm).2, quiet_connect orderly.quiet profile launch⟩

/-- What the backend takes up by itself, or when it is told to stop, starts nothing. -/
theorem winds_react {action : Action} (orderly : Orderly host) (possible : Possible host action)
    (other : ∀ profile launch, action ≠ .connect profile launch) :
    Winds host.backend (host.backend.react action).backend := by
  cases action with
  | connect profile launch => exact absurd rfl (other profile launch)
  | setCredentials user pass => exact winds_setCredentials orderly.quiet user pass
  | disconnect => exact winds_disconnect orderly.quiet
  | tryMgmtConnect probe =>
      have tame := (@polled_tryMgmtConnect host.backend probe).tame
      exact ⟨quiet_tryMgmtConnect orderly.quiet probe, tame.live,
        fun polls => (tame.polling polls).1⟩
  | event event meanwhile =>
      have holdings := (@inert_handleManagementEvent host.backend event.posted meanwhile).holdings
      simp only [OpenVPNBackend.holdings, Holdings.mk.injEq] at holdings
      obtain ⟨-, -, -, -, reader, poll⟩ := holdings
      have reads := reader.trans possible
      refine ⟨quiet_of_live ?_, fun _ => ?_, fun polls => poll.symm.trans polls⟩
      · exact (congrArg (· || _) reads).trans (Bool.true_or _)
      · exact (congrArg (· || _) possible).trans (Bool.true_or _)
  | scan line =>
      obtain ⟨-, thread, routes⟩ := @scanLogLine_flags host.backend line
      exact winds_same orderly.quiet (holdings_scanLogLine line) thread routes
  | readerExited => exact winds_readerExited

theorem orderly_react {action : Action} (orderly : Orderly host) (possible : Possible host action)
    (other : ∀ profile launch, action ≠ .connect profile launch) : Orderly (host.step action) := by
  have calm : Calm host action := by
    cases action <;> first | trivial | exact absurd rfl (other _ _)
  exact ⟨(sound_step orderly.sound possible calm).2, (winds_react orderly possible other).quiet⟩

theorem orderly_booted (table : List Tailscale.KernelRoute) (sessionFile : SessionFile) :
    Orderly (booted table sessionFile) :=
  ⟨sound_booted table sessionFile, fun _ => ⟨rfl, rfl⟩⟩

end Sotoportego.OpenVPN
