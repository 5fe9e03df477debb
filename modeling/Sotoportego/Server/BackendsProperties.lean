import Sotoportego.Lib.Handover
import Sotoportego.OpenVPN.LifecycleProperties
import Sotoportego.Server.Backends
import Sotoportego.Server.HostProperties
import Sotoportego.Tailscale.LifecycleProperties

/-!
# One live backend

The server looks at the visible state of the active backend alone. What runs belongs to the
backend of the latest connect, as long as no connect for another finds a thread of it that its
visible state has given up.
-/

set_option autoImplicit false

namespace Sotoportego.Server

open Octets CText
open OpenVPN (Launch)
open Tailscale (KernelRoute VPNState)

/-! ## The backends -/

namespace Trio

/-- The thread, or the poll, that ends the session of a backend. -/
def runs (trio : Trio) : Instance → Bool
  | .openVPN => trio.openVPN.backend.live
  | .wireGuard => trio.wireGuard.reader
  | .tailscale => trio.tailscale.backend.worker

/-- A child or threads, tun slots or routes. -/
def Holds (trio : Trio) : Instance → Prop
  | .openVPN => OpenVPN.Holds trio.openVPN
  | .wireGuard => trio.wireGuard.Holds
  | .tailscale => trio.tailscale.Holds

def Exclusive (trio : Trio) : Prop :=
  ∀ first second, trio.Holds first → trio.Holds second → first = second

structure Settled (trio : Trio) : Prop where
  openVPN : OpenVPN.Orderly trio.openVPN
  wireGuard : trio.wireGuard.Settled
  tailscale : trio.tailscale.Settled

/-- What openvpn must be spared: `Calm`. -/
def Calls (trio : Trio) (profile : VPNProfile) (answers : Answers) : Instance → Prop
  | .openVPN => OpenVPN.Calm trio.openVPN (.connect profile answers.launch)
  | .wireGuard | .tailscale => True

/-- No reader of OpenVPN and no worker of Tailscale runs, unless it is of this backend. -/
structure Vacated (trio : Trio) (which : Instance) : Prop where
  reader : which ≠ .openVPN → trio.openVPN.backend.reader = false
  worker : which ≠ .tailscale → trio.tailscale.backend.worker = false

instance (trio : Trio) (profile : VPNProfile) (answers : Answers) :
    ∀ which, Decidable (trio.Calls profile answers which)
  | .openVPN =>
      inferInstanceAs
        (Decidable (OpenVPN.Calm trio.openVPN (.connect profile answers.launch)))
  | .wireGuard | .tailscale => inferInstanceAs (Decidable True)

variable {trio : Trio} {which : Instance}

theorem Settled.runs (settled : trio.Settled) (holds : trio.Holds which) :
    trio.runs which = true := by
  cases which with
  | openVPN => exact settled.openVPN.holds holds
  | wireGuard => exact settled.wireGuard.holds holds
  | tailscale => exact settled.tailscale.holds holds

/-- Of two settled trios, only one backend may differ. -/
structure Affects (which : Instance) (trio next : Trio) : Prop where
  settled : next.Settled
  openVPN : which ≠ .openVPN → next.openVPN = trio.openVPN
  wireGuard : which ≠ .wireGuard → next.wireGuard = trio.wireGuard
  tailscale : which ≠ .tailscale → next.tailscale = trio.tailscale

theorem affects_none (settled : trio.Settled) (which : Instance) : Affects which trio trio :=
  ⟨settled, fun _ => rfl, fun _ => rfl, fun _ => rfl⟩

theorem Affects.trans {second third : Trio} (early : Affects which trio second)
    (late : Affects which second third) : Affects which trio third where
  settled := late.settled
  openVPN other := (late.openVPN other).trans (early.openVPN other)
  wireGuard other := (late.wireGuard other).trans (early.wireGuard other)
  tailscale other := (late.tailscale other).trans (early.tailscale other)

theorem Affects.runs {next : Trio} (affects : Affects which trio next) {other : Instance}
    (different : other ≠ which) : next.runs other = trio.runs other := by
  cases other with
  | openVPN => exact congrArg (fun host => host.backend.live) (affects.openVPN different.symm)
  | wireGuard => exact congrArg (fun host => host.reader) (affects.wireGuard different.symm)
  | tailscale =>
      exact congrArg (fun host => host.backend.worker) (affects.tailscale different.symm)

theorem affects_connect (settled : trio.Settled) {profile : VPNProfile} {answers : Answers}
    (calls : trio.Calls profile answers which) :
    Affects which trio (trio.connect profile answers which).2 := by
  cases which with
  | openVPN =>
      have next := OpenVPN.orderly_connect settled.openVPN calls
      exact ⟨⟨next, settled.wireGuard, settled.tailscale⟩, fun other => absurd rfl other,
        fun _ => rfl, fun _ => rfl⟩
  | wireGuard =>
      have next := WireGuard.WireGuardBackend.settled_connect settled.wireGuard profile
        answers.start
      exact ⟨⟨settled.openVPN, next, settled.tailscale⟩, fun _ => rfl,
        fun other => absurd rfl other, fun _ => rfl⟩
  | tailscale =>
      have next := Tailscale.TailscaleHost.settled_connect settled.tailscale profile
        answers.enrolment
      exact ⟨⟨settled.openVPN, settled.wireGuard, next⟩, fun _ => rfl, fun _ => rfl,
        fun other => absurd rfl other⟩

/-- No backend starts anything. -/
structure Winds (trio next : Trio) : Prop where
  settled : next.Settled
  runs : ∀ which, next.runs which = true → trio.runs which = true
  polling : next.openVPN.backend.mgmtPoll = true → trio.openVPN.backend.mgmtPoll = true

theorem winds_none (settled : trio.Settled) : Winds trio trio :=
  ⟨settled, fun _ => id, id⟩

theorem winds_openVPN (settled : trio.Settled) {action : OpenVPN.Action}
    (possible : OpenVPN.Possible trio.openVPN action)
    (other : ∀ profile launch, action ≠ .connect profile launch) :
    Winds trio { trio with openVPN := trio.openVPN.step action } := by
  have winds := OpenVPN.winds_react settled.openVPN possible other
  have next := OpenVPN.orderly_react settled.openVPN possible other
  refine ⟨⟨next, settled.wireGuard, settled.tailscale⟩, fun which => ?_, winds.polling⟩
  cases which with
  | openVPN => exact winds.live
  | wireGuard | tailscale => exact id

theorem winds_wireGuard (settled : trio.Settled) {next : WireGuard.WireGuardBackend}
    (winds : WireGuard.WireGuardBackend.Winds trio.wireGuard next) :
    Winds trio { trio with wireGuard := next } := by
  refine ⟨⟨settled.openVPN, winds.settled, settled.tailscale⟩, fun which => ?_, id⟩
  cases which with
  | wireGuard => exact winds.reader
  | openVPN | tailscale => exact id

theorem winds_tailscale (settled : trio.Settled) {next : Tailscale.TailscaleHost}
    (winds : Tailscale.TailscaleHost.Winds trio.tailscale next) :
    Winds trio { trio with tailscale := next } := by
  refine ⟨⟨settled.openVPN, settled.wireGuard, winds.settled⟩, fun which => ?_, id⟩
  cases which with
  | tailscale => exact winds.worker
  | openVPN | wireGuard => exact id

theorem winds_disconnect (settled : trio.Settled) (which : Instance) :
    Winds trio (trio.disconnect which) := by
  cases which with
  | openVPN => exact winds_openVPN settled trivial fun _ _ same => nomatch same
  | wireGuard =>
      exact winds_wireGuard settled
        (WireGuard.WireGuardBackend.winds_disconnect settled.wireGuard)
  | tailscale =>
      exact winds_tailscale settled
        (Tailscale.TailscaleHost.winds_disconnect settled.tailscale)

/-- Credentials change nothing that runs, nor what `Calm` asks of a `Connect`. -/
theorem setCredentials_spec (settled : trio.Settled) (user pass : CString) (which : Instance) :
    Affects which trio (trio.setCredentials user pass which) ∧
      (∀ other, (trio.setCredentials user pass which).runs other = trio.runs other) ∧
      ∀ profile answers, trio.Calls profile answers which →
        (trio.setCredentials user pass which).Calls profile answers which := by
  cases which with
  | openVPN =>
      have next : OpenVPN.Orderly (trio.openVPN.step (.setCredentials user pass)) :=
        OpenVPN.orderly_react settled.openVPN trivial fun _ _ same => nomatch same
      refine ⟨⟨⟨next, settled.wireGuard, settled.tailscale⟩, fun other => absurd rfl other,
        fun _ => rfl, fun _ => rfl⟩, fun other => ?_, fun _ _ calls => calls⟩
      cases other <;> rfl
  | wireGuard => exact ⟨affects_none settled .wireGuard, fun _ => rfl, fun _ _ calls => calls⟩
  | tailscale => exact ⟨affects_none settled .tailscale, fun _ => rfl, fun _ _ calls => calls⟩

end Trio

/-! ## The daemon -/

namespace Daemon

/-- The backend of the connect that retries repeat. -/
def owner (daemon : Daemon Trio) : Instance := daemon.retryProfile.backendType.served

def handover (daemon : Daemon Trio) : Handover Instance where
  owner := daemon.owner
  holders := {which | daemon.backends.runs which = true}

/-- What polls, or reads for WireGuard, shows a live state and is the active backend. -/
structure Attended (daemon : Daemon Trio) : Prop where
  settled : daemon.backends.Settled
  polling : daemon.backends.openVPN.backend.mgmtPoll = true → daemon.server.backend = .openVPN
  reading : daemon.backends.wireGuard.reader = true → daemon.server.backend = .wireGuard

/-- A step of the daemon is one of the handover. -/
structure Refines (daemon next : Daemon Trio) : Prop where
  attended : next.Attended
  allowed : Handover.Allowed daemon.handover next.handover

/-- Neither the active backend nor the connect that retries repeat has changed. -/
structure Steady (server next : SotoportegoServer) : Prop where
  backend : next.backend = server.backend
  reconnectProfile : next.reconnectProfile = server.reconnectProfile

variable {daemon next : Daemon Trio}

theorem owner_of_profile
    (same : next.server.reconnectProfile = daemon.server.reconnectProfile) :
    next.owner = daemon.owner := by
  rw [owner, owner, retryProfile, retryProfile, same]

theorem refines_winds (attended : daemon.Attended)
    (winds : Trio.Winds daemon.backends next.backends)
    (steady : Steady daemon.server next.server) : Refines daemon next := by
  refine ⟨⟨winds.settled, fun polls => ?_, fun reads => ?_⟩, fun which runs => .inr ⟨?_, ?_⟩⟩
  · exact steady.backend.trans (attended.polling (winds.polling polls))
  · exact steady.backend.trans (attended.reading (winds.runs .wireGuard reads))
  · exact winds.runs which runs
  · exact owner_of_profile steady.reconnectProfile

theorem refines_steady (attended : daemon.Attended) (same : next.backends = daemon.backends)
    (steady : Steady daemon.server next.server) : Refines daemon next := by
  have winds : Trio.Winds daemon.backends next.backends := by
    rw [same]
    exact Trio.winds_none attended.settled
  exact refines_winds attended winds steady

/-- The live check sees a poll, and a reader of WireGuard. -/
theorem Attended.still (attended : daemon.Attended)
    (terminal : ¬ liveState (daemon.state threeBackends)) :
    daemon.backends.openVPN.backend.mgmtPoll = false ∧
      daemon.backends.wireGuard.reader = false := by
  constructor
  · rw [Bool.eq_false_iff]
    intro polls
    have shown : daemon.state threeBackends = daemon.backends.openVPN.backend.state :=
      congrArg daemon.backends.state (attended.polling polls)
    obtain ⟨-, -, connecting, -⟩ := attended.settled.openVPN.sound.settled.polling polls
    rw [shown, connecting] at terminal
    exact terminal rfl
  · rw [Bool.eq_false_iff]
    intro reads
    have shown : daemon.state threeBackends = daemon.backends.wireGuard.state :=
      congrArg daemon.backends.state (attended.reading reads)
    obtain ⟨connected, sound⟩ := attended.settled.wireGuard.reading reads
    rw [shown, liveState, decide_eq_true connected, decide_eq_true sound] at terminal
    exact terminal rfl

/-! ### `Connect` -/

/-- A `Connect` where no other backend runs. -/
theorem attended_connected {trio : Trio} {which : Instance}
    (affects : Trio.Affects which trio next.backends)
    (vacant : ∀ other, other ≠ which → trio.runs other = false)
    (active : next.server.backend = which) (owner : next.owner = which) :
    next.Attended ∧ Handover.Owned next.handover := by
  have idle (other : Instance) (different : other ≠ which) : next.backends.runs other = false :=
    (affects.runs different).trans (vacant other different)
  refine ⟨⟨affects.settled, fun polls => ?_, fun reads => ?_⟩, fun other runs => ?_⟩
  · rw [active]
    by_contra other
    have ended := OpenVPN.mgmtPoll_of_ended (idle .openVPN (Ne.symm other))
    exact absurd (ended.symm.trans polls) (by decide)
  · rw [active]
    by_contra other
    exact absurd ((idle .wireGuard (Ne.symm other)).symm.trans reads) (by decide)
  · by_contra different
    have elsewhere : other ≠ which := fun same => different (same.trans owner.symm)
    exact absurd ((idle other elsewhere).symm.trans runs) (by decide)

theorem credentials_spec (settled : daemon.backends.Settled) (user pass : CString) :
    Trio.Affects daemon.server.backend daemon.backends
        (daemon.setCredentials threeBackends user pass).backends ∧
      (∀ other, (daemon.setCredentials threeBackends user pass).backends.runs other =
        daemon.backends.runs other) ∧
      ∀ profile answers, daemon.backends.Calls profile answers daemon.server.backend →
        (daemon.setCredentials threeBackends user pass).backends.Calls profile answers
          daemon.server.backend := by
  unfold Daemon.setCredentials
  split_ifs
  · exact ⟨Trio.affects_none settled _, fun _ => rfl, fun _ _ calls => calls⟩
  · exact Trio.setCredentials_spec settled user pass daemon.server.backend

/-- Credentials and `Connect`, on the backend that is active. -/
theorem affects_connectBackend (settled : daemon.backends.Settled) (user pass : CString)
    {profile : VPNProfile} {answers : Answers}
    (calls : daemon.backends.Calls profile answers daemon.server.backend) :
    Trio.Affects daemon.server.backend daemon.backends
      ((daemon.setCredentials threeBackends user pass).backends.connect profile answers
        daemon.server.backend).2 := by
  obtain ⟨affects, -, kept⟩ := credentials_spec settled user pass
  exact affects.trans (Trio.affects_connect affects.settled (kept profile answers calls))

theorem refines_connected (connected : next.Attended ∧ Handover.Owned next.handover) :
    Refines daemon next :=
  ⟨connected.1, fun which runs => .inl (connected.2 which runs)⟩

/-- Past both checks of `_HandleConnect`, with the backend selected. -/
theorem attended_launch {request : ConnectRequest} {answers : Answers}
    (settled : daemon.backends.Settled)
    (selected : daemon.server.backend = request.unarchived.backendType.served)
    (vacant : ∀ other, other ≠ daemon.server.backend → daemon.backends.runs other = false)
    (calls : daemon.backends.Calls request.keyed answers daemon.server.backend) :
    (daemon.launch threeBackends request answers).daemon.Attended ∧
      Handover.Owned (daemon.launch threeBackends request answers).daemon.handover := by
  have server := @server_armed Trio Answers threeBackends daemon request
  have affects := affects_connectBackend settled request.user request.pass calls
  have active : (daemon.armed threeBackends request).server.backend = daemon.server.backend := by
    rw [server]
    rfl
  have owner : (daemon.armed threeBackends request).owner = daemon.server.backend := by
    rw [selected, Daemon.owner, retryProfile, server]
    rfl
  have called : ((daemon.armed threeBackends request).connectBackend threeBackends request.keyed
      answers).2.backends = ((daemon.setCredentials threeBackends request.user
        request.pass).backends.connect request.keyed answers daemon.server.backend).2 := by
    unfold connectBackend
    rw [active]
    rfl
  rw [← called] at affects
  unfold Daemon.launch answered
  dsimp only
  split
  · exact attended_connected affects vacant active owner
  · exact attended_connected affects vacant active owner

theorem Attended.vacant (attended : daemon.Attended)
    (terminal : ¬ liveState (daemon.state threeBackends)) {which : Instance}
    (vacated : daemon.backends.Vacated which) (other : Instance) (different : other ≠ which) :
    daemon.backends.runs other = false := by
  obtain ⟨unpolled, unread⟩ := attended.still terminal
  cases other with
  | openVPN =>
      have silent := vacated.reader different.symm
      have threads : daemon.backends.runs .openVPN =
          (daemon.backends.openVPN.backend.reader || daemon.backends.openVPN.backend.mgmtPoll) := rfl
      rw [threads, silent, unpolled]
      rfl
  | wireGuard => exact unread
  | tailscale => exact vacated.worker different.symm

theorem refines_handleConnect {request : ConnectRequest} {readable : Bool} {answers : Answers}
    (attended : daemon.Attended)
    (considerate : ¬ liveState (daemon.state threeBackends) → ¬ request.BadPath readable →
      daemon.backends.Vacated request.unarchived.backendType.served ∧
        daemon.backends.Calls request.keyed answers request.unarchived.backendType.served) :
    Refines daemon (daemon.handleConnect threeBackends request readable answers).daemon := by
  unfold handleConnect
  split_ifs with live bad
  · exact refines_steady attended rfl ⟨rfl, rfl⟩
  · obtain ⟨unpolled, unread⟩ := attended.still live
    refine ⟨⟨attended.settled, fun polls => ?_, fun reads => ?_⟩, fun which runs => ?_⟩
    · exact absurd (unpolled.symm.trans polls) (by decide)
    · exact absurd (unread.symm.trans reads) (by decide)
    · exact .inr ⟨runs, rfl⟩
  · obtain ⟨vacated, calls⟩ := considerate live bad
    exact refines_connected (@attended_launch (daemon.select request.unarchived.backendType)
      request answers attended.settled rfl (attended.vacant live vacated) calls)

theorem refines_handleConnectVPNGate {request : VPNGateRequest} {staged : CString}
    {readable : Bool} {answers : Answers} (attended : daemon.Attended)
    (considerate : ∀ host, request.host = some host → request.configBase64 ≠ none →
      staged ≠ .empty → ¬ liveState (daemon.state threeBackends) → pathOk staged readable →
      daemon.backends.Vacated .openVPN ∧
        daemon.backends.Calls (request.connect host staged).keyed answers .openVPN) :
    Refines daemon
      (daemon.handleConnectVPNGate threeBackends request staged readable answers).daemon := by
  unfold handleConnectVPNGate
  split
  · next host config named given =>
    dsimp only
    split_ifs with missing
    · exact refines_steady attended rfl ⟨rfl, rfl⟩
    · have recorded : (daemon.withHost host).Attended :=
        ⟨attended.settled, attended.polling, attended.reading⟩
      have served : (request.connect host staged).unarchived.backendType.served = .openVPN := by
        rw [unarchived_gate]
        rfl
      have refines := @refines_handleConnect (daemon.withHost host) (request.connect host staged)
        readable answers recorded fun idle fine => by
          rw [badPath_gate, not_not] at fine
          rw [served]
          exact considerate host named (by simp [given]) missing idle fine
      exact ⟨refines.attended, refines.allowed⟩
  · exact refines_steady attended rfl ⟨rfl, rfl⟩

/-! ### The other messages -/

theorem refines_handleDisconnect (attended : daemon.Attended) :
    Refines daemon (daemon.handleDisconnect threeBackends).daemon := by
  have winds := Trio.winds_disconnect attended.settled daemon.server.backend
  unfold handleDisconnect
  dsimp only
  split_ifs
  · exact refines_winds attended winds ⟨rfl, rfl⟩
  · exact refines_winds attended winds ⟨rfl, rfl⟩

theorem steady_startReconnectCountdown (server : SotoportegoServer) (timerStarts : Bool) :
    Steady server (server.startReconnectCountdown timerStarts).server := by
  unfold SotoportegoServer.startReconnectCountdown
  split_ifs <;> exact ⟨rfl, rfl⟩

theorem steady_takeState (daemon : Daemon Trio) (state : VPNState) :
    Steady daemon.server (daemon.takeState state).daemon.server ∧
      (daemon.takeState state).daemon.backends = daemon.backends := by
  unfold takeState
  dsimp only
  split_ifs <;> exact ⟨⟨rfl, rfl⟩, rfl⟩

theorem Steady.trans {server second third : SotoportegoServer} (early : Steady server second)
    (late : Steady second third) : Steady server third :=
  ⟨late.backend.trans early.backend, late.reconnectProfile.trans early.reconnectProfile⟩

theorem refines_handleStatus (attended : daemon.Attended) (state : VPNState)
    (detail : Option Bytes) (timerStarts : Bool) :
    Refines daemon (daemon.handleStatus state detail timerStarts).daemon := by
  have counted : Steady daemon.server (daemon.server.dropped state timerStarts).server := by
    unfold SotoportegoServer.dropped
    split_ifs
    · exact steady_startReconnectCountdown daemon.server timerStarts
    · exact ⟨rfl, rfl⟩
  obtain ⟨taken, same⟩ := steady_takeState
    (daemon.withServer (daemon.server.dropped state timerStarts).server)
    ((daemon.server.dropped state timerStarts).told state)
  exact refines_steady attended same (counted.trans taken)

/-- A retry repeats the latest connect, on the backend that owns what runs. -/
theorem refines_attemptReconnect {answers : Answers} {timerStarts : Bool}
    (attended : daemon.Attended) (owned : Handover.Owned daemon.handover)
    (calls : daemon.backends.Calls daemon.retryProfile answers daemon.owner) :
    Refines daemon (daemon.attemptReconnect threeBackends answers timerStarts).daemon := by
  have vacant (other : Instance) (different : other ≠ daemon.owner) :
      daemon.backends.runs other = false := by
    rw [Bool.eq_false_iff]
    exact fun runs => different (owned other runs)
  have affects : Trio.Affects daemon.owner daemon.backends
      (((daemon.select daemon.retryProfile.backendType).setCredentials threeBackends
        daemon.server.reconnectUser daemon.server.reconnectPass).backends.connect
          daemon.retryProfile answers daemon.owner).2 :=
    @affects_connectBackend (daemon.select daemon.retryProfile.backendType)
      attended.settled daemon.server.reconnectUser daemon.server.reconnectPass
      daemon.retryProfile answers calls
  have server : (daemon.readied threeBackends).server =
      (daemon.select daemon.retryProfile.backendType).server := server_setCredentials _ _
  have called : ((daemon.readied threeBackends).connectBackend threeBackends daemon.retryProfile
      answers).2.backends =
        (((daemon.select daemon.retryProfile.backendType).setCredentials threeBackends
          daemon.server.reconnectUser daemon.server.reconnectPass).backends.connect
            daemon.retryProfile answers daemon.owner).2 := by
    unfold connectBackend
    rw [server]
    rfl
  have active : (daemon.readied threeBackends).server.backend = daemon.owner := by
    rw [server]
    rfl
  have owner : (daemon.readied threeBackends).owner = daemon.owner := by
    rw [Daemon.owner, retryProfile, server]
    rfl
  rw [← called] at affects
  unfold attemptReconnect retried
  dsimp only
  split
  · exact refines_connected (attended_connected affects vacant active owner)
  · have steady := steady_startReconnectCountdown (daemon.readied threeBackends).server timerStarts
    exact refines_connected (attended_connected affects vacant (steady.backend.trans active)
      ((owner_of_profile steady.reconnectProfile).trans owner))

/-- The tick that ends a countdown. -/
def Fires (daemon : Daemon Trio) : Prop :=
  daemon.server.reconnectTimer = true ∧ daemon.server.userInitiatedDisconnect = false ∧
    daemon.server.reconnectSecondsLeft ≤ 1

theorem refines_handleReconnectTick {answers : Answers} {timerStarts : Bool}
    (attended : daemon.Attended) (owned : Handover.Owned daemon.handover)
    (calls : daemon.Fires → daemon.backends.Calls daemon.retryProfile answers daemon.owner) :
    Refines daemon (daemon.handleReconnectTick threeBackends answers timerStarts).daemon := by
  unfold handleReconnectTick
  split_ifs with idle counting
  · exact refines_steady attended rfl ⟨rfl, rfl⟩
  · exact refines_steady attended rfl ⟨rfl, rfl⟩
  · simp only [not_or, Bool.not_eq_true, Bool.not_eq_false] at idle
    have fires : daemon.Fires := ⟨idle.1, idle.2, Nat.le_of_not_lt counting⟩
    have stilled : (daemon.withServer daemon.server.cancelReconnect).Attended :=
      ⟨attended.settled, attended.polling, attended.reading⟩
    have refines := @refines_attemptReconnect
      (daemon.withServer daemon.server.cancelReconnect) answers timerStarts stilled owned
      (calls fires)
    exact ⟨refines.attended, refines.allowed⟩

/-! ## Runs -/

/-- The backend gets its requests from the server, and messages of a reader need one. -/
def Possible (daemon : Daemon Trio) : Turn → Prop
  | .openVPN (.connect _ _) | .openVPN (.setCredentials _ _) | .openVPN .disconnect => False
  | .openVPN action => OpenVPN.Possible daemon.backends.openVPN action
  | _ => True

instance (daemon : Daemon Trio) : ∀ turn, Decidable (daemon.Possible turn)
  | .openVPN (.connect _ _) | .openVPN (.setCredentials _ _) | .openVPN .disconnect =>
      inferInstanceAs (Decidable False)
  | .openVPN (.event _ _) | .openVPN .readerExited => inferInstanceAs (Decidable (_ = true))
  | .openVPN (.tryMgmtConnect _) | .openVPN (.scan _) | .message _ | .wireGuard _ | .tailscale _ =>
      inferInstanceAs (Decidable True)

/-- A user who connects finds no thread of another backend that is still to end, no openvpn is
started over a reader or without being spawned, and a tun slot of Tailscale takes its address. -/
def Considerate (daemon : Daemon Trio) : Turn → Prop
  | .message (.connect request readable answers) =>
      ¬ liveState (daemon.state threeBackends) → ¬ request.BadPath readable →
        daemon.backends.Vacated request.unarchived.backendType.served ∧
          daemon.backends.Calls request.keyed answers request.unarchived.backendType.served
  | .message (.connectVPNGate request staged readable answers) =>
      ∀ host, request.host = some host → request.configBase64 ≠ none → staged ≠ .empty →
        ¬ liveState (daemon.state threeBackends) → pathOk staged readable →
        daemon.backends.Vacated .openVPN ∧
          daemon.backends.Calls (request.connect host staged).keyed answers .openVPN
  | .message (.reconnectTick answers _) =>
      daemon.Fires → daemon.backends.Calls daemon.retryProfile answers daemon.owner
  | .tailscale event => daemon.backends.tailscale.Careful event
  | _ => True

theorem refines_message {message : Message Answers} (attended : daemon.Attended)
    (owned : Handover.Owned daemon.handover)
    (considerate : daemon.Considerate (.message message)) :
    Refines daemon (daemon.turn (.message message)) := by
  cases message with
  | connect request readable answers => exact refines_handleConnect attended considerate
  | disconnect => exact refines_handleDisconnect attended
  | connectVPNGate request staged readable answers =>
      exact refines_handleConnectVPNGate attended considerate
  | statusUpdate state detail timerStarts =>
      exact refines_handleStatus attended state detail timerStarts
  | reconnectTick answers timerStarts =>
      exact refines_handleReconnectTick attended owned considerate
  | homeGeoResult changed =>
      have same : (daemon.turn (.message (.homeGeoResult changed))) = daemon := by
        cases changed <;> rfl
      rw [same]
      exact refines_steady attended rfl ⟨rfl, rfl⟩
  | countryResult known =>
      have same : (daemon.turn (.message (.countryResult known))) = daemon := by
        unfold turn handle
        dsimp only
        split_ifs <;> rfl
      rw [same]
      exact refines_steady attended rfl ⟨rfl, rfl⟩

theorem refines_turn {turn : Turn} (possible : daemon.Possible turn)
    (considerate : daemon.Considerate turn) (attended : daemon.Attended)
    (owned : Handover.Owned daemon.handover) : Refines daemon (daemon.turn turn) := by
  have settled := attended.settled
  cases turn with
  | message message => exact refines_message attended owned considerate
  | openVPN action =>
      have own : OpenVPN.Possible daemon.backends.openVPN action ∧
          ∀ profile launch, action ≠ .connect profile launch := by
        cases action with
        | connect | setCredentials | disconnect => cases possible
        | tryMgmtConnect | event | scan | readerExited =>
            exact ⟨possible, fun _ _ same => nomatch same⟩
      exact refines_winds attended (Trio.winds_openVPN settled own.1 own.2) ⟨rfl, rfl⟩
  | wireGuard message =>
      have winds := WireGuard.WireGuardBackend.winds_receive settled.wireGuard message
      exact refines_winds attended (Trio.winds_wireGuard settled winds) ⟨rfl, rfl⟩
  | tailscale event =>
      have winds := Tailscale.TailscaleHost.winds_step settled.tailscale considerate
      exact refines_winds attended (Trio.winds_tailscale settled winds) ⟨rfl, rfl⟩

end Daemon

/-- The daemon when it starts. -/
def booted (table : List KernelRoute) (sessionFile : OpenVPN.SessionFile)
    (resolvConf resolvBackup : Option Bytes) : Daemon Trio where
  server := {}
  backends :=
    { openVPN := OpenVPN.booted table sessionFile
      wireGuard := { network := { table, resolvConf, resolvBackup } } }

section Booted

variable (table : List KernelRoute) (sessionFile : OpenVPN.SessionFile)
  (resolvConf resolvBackup : Option Bytes)

theorem attended_booted :
    (booted table sessionFile resolvConf resolvBackup).Attended ∧
      Handover.Owned (booted table sessionFile resolvConf resolvBackup).handover := by
  refine ⟨⟨⟨OpenVPN.orderly_booted table sessionFile, ?_, ?_⟩, ?_, ?_⟩, ?_⟩
  · exact ⟨rfl, (fun reads => nomatch reads), fun _ => ⟨rfl, rfl⟩⟩
  · exact ⟨⟨rfl, rfl⟩, ⟨fun _ => ⟨rfl, rfl⟩, fun _ => ⟨rfl, rfl⟩⟩, fun _ => ⟨rfl, rfl, rfl, rfl⟩⟩
  · exact fun polls => nomatch polls
  · exact fun reads => nomatch reads
  · intro which runs
    cases which <;> cases runs

theorem one_backend_live (turns : List Turn)
    (possible : Run.Along Daemon.turn Daemon.Possible
      (booted table sessionFile resolvConf resolvBackup) turns)
    (considerate : Run.Along Daemon.turn Daemon.Considerate
      (booted table sessionFile resolvConf resolvBackup) turns) :
    (Run.run Daemon.turn (booted table sessionFile resolvConf resolvBackup)
      turns).backends.Exclusive := by
  obtain ⟨attended, owned⟩ := attended_booted table sessionFile resolvConf resolvBackup
  have refines (daemon : Daemon Trio) (turn : Turn)
      (allowed : daemon.Possible turn ∧ daemon.Considerate turn) (attended : daemon.Attended)
      (owned : Handover.Owned daemon.handover) : (daemon.turn turn).Attended ∧
        Handover.Allowed daemon.handover (daemon.turn turn).handover := by
    obtain ⟨kept, passed⟩ := Daemon.refines_turn allowed.1 allowed.2 attended owned
    exact ⟨kept, passed⟩
  obtain ⟨kept, last⟩ := Handover.owned_run refines (possible.and considerate) attended owned
  intro first second holds also
  exact last.exclusive (kept.settled.runs holds) (kept.settled.runs also)

end Booted

/-! The user turns from OpenVPN to WireGuard, after openvpn has exited or while it does. -/

namespace Sample

def key : CString := .ofBytes (ascii "AAAAAAAAAAAAAAAAAAAAAAAAAAAAAAAAAAAAAAAAAAA=")

def raised : WireGuard.Start where
  config := some
    { privateKey := key
      address := .ofBytes (ascii "10.2.0.2/32")
      peer :=
        { publicKey := key
          endpointHost := .ofBytes (ascii "198.51.100.1")
          endpointPort := 51820
          allowedIPs := .ofBytes (ascii "10.0.0.0/8") } }
  comesUp slot := slot ≠ 0
  assigned := true
  resolved := some (.ofBytes (ascii "198.51.100.1"))
  socket := true
  connected := true
  tunOpens := true
  readerStarts := true

def answers : Answers where
  launch := OpenVPN.Sample.launch 100 "aaaaaa"
  start := raised
  enrolment := { identity := .ok (.zero 32), workerStarts := true }

def home : ConnectRequest where
  profile := some (VPNProfile.archive
    { backendType := .wireguard
      name := .ofBytes (ascii "home")
      configPath := .ofBytes (ascii "/boot/home/home.conf") })

def work : ConnectRequest where
  profile := some OpenVPN.Sample.profile.archive

def dialled : List Turn :=
  [.message (.connect work true answers), .message (.statusUpdate .connecting none true),
    .openVPN (.tryMgmtConnect OpenVPN.Sample.reached), .openVPN OpenVPN.Sample.exiting,
    .message (.statusUpdate .disconnected none true)]

def switched : List Turn :=
  dialled ++ [.openVPN .readerExited, .message (.connect home true answers),
    .wireGuard (.connected [])]

def hurried : List Turn := dialled ++ [.message (.connect home true answers)]

end Sample

theorem one_backend_live_sample :
    ((Run.run Daemon.turn (booted [] .absent none none) Sample.switched).backends.runs .wireGuard =
        true) ∧
      (Run.run Daemon.turn (booted [] .absent none none) Sample.switched).backends.Exclusive := by
  refine ⟨by decide +kernel, one_backend_live [] .absent none none Sample.switched
    (by decide +kernel) ⟨fun _ _ => ⟨⟨?_, ?_⟩, ?_⟩, trivial, trivial, trivial, trivial, trivial,
      fun _ _ => ⟨⟨?_, ?_⟩, ?_⟩, trivial, trivial⟩⟩
  all_goals decide +kernel

theorem exiting_lets_second_backend :
    Run.Along Daemon.turn Daemon.Possible (booted [] .absent none none) Sample.hurried ∧
      ¬ (Run.run Daemon.turn (booted [] .absent none none)
        Sample.hurried).backends.Exclusive := by
  refine ⟨by decide +kernel, fun exclusive => ?_⟩
  have same := exclusive .openVPN .wireGuard (.inl (by decide +kernel)) (.inl (by decide +kernel))
  cases same

end Sotoportego.Server
