import Sotoportego.Server.ReconnectProperties

/-!
# The connected host

`fConnectedHost` names the VPN Gate server of the session that stands. The record below
follows the connects from their acts alone.
-/

set_option autoImplicit false

namespace Sotoportego.Server

open Octets CText
open Tailscale (VPNState)

/-- What the connects have come to. A host is there for a connect of VPN Gate. -/
structure Record where
  /-- Of the connect that retries repeat. -/
  armed : Option CString := none
  /-- A backend has accepted that connect. -/
  begun : Bool := false
  /-- Of the latest connect that a backend has accepted. -/
  accepted : Option (Option CString) := none
  /-- Its session or its countdown has not ended. -/
  standing : Bool := false

namespace Record

variable (record : Record)

def begin : Record :=
  { record with begun := true, accepted := some record.armed, standing := true }

def fail : Record := { record with standing := false }

def answer : Status → Record
  | .ok () => record.begin
  | .error _ => record.fail

/-- `host` is the host that the request names. -/
def note (host : Option CString) (record : Record) : Act → Record
  | .armReconnect => { record with armed := host, begun := false, standing := false }
  | .connect _ _ status | .reconnect _ _ status => record.answer status
  | .raiseAttempt true => { record with standing := record.begun }
  | .enter state _ => { record with standing := record.standing && liveState state }
  | _ => record

def noted (host : Option CString) (record : Record) (acts : List Act) : Record :=
  acts.foldl (note host) record

end Record

def Message.gateHost {Answer : Type} : Message Answer → Option CString
  | .connectVPNGate request _ _ _ => request.host
  | _ => none

/-- A daemon and the record of its connects. -/
structure HostWatch (Backends : Type) where
  daemon : Daemon Backends
  record : Record := {}

namespace HostWatch

variable {Backends Answer : Type} (api : VPNBackends Backends Answer)

def started (backends : Backends) : HostWatch Backends where
  daemon := { server := {}, backends }

def step (watch : HostWatch Backends) : Event Backends Answer → HostWatch Backends
  | .message message =>
      ⟨(watch.daemon.handle api message).daemon,
        watch.record.noted message.gateHost (watch.daemon.handle api message).acts⟩
  | .backends backends => { watch with daemon := { watch.daemon with backends } }

end HostWatch

/-! ## Requests that go wrong -/

section Requests

variable {Backends Answer : Type} (api : VPNBackends Backends Answer) (daemon : Daemon Backends)

/-- The profile's path is refused. -/
def ConnectRequest.BadPath (request : ConnectRequest) (readable : Bool) : Prop :=
  request.unarchived.backendType.needsConfigFile ∧ ¬ pathOk request.unarchived.configPath readable

/-- How the backend answers a connect that has passed the checks. -/
def Daemon.launchStatus (request : ConnectRequest) (answer : Answer) : Status :=
  (((daemon.select request.unarchived.backendType).armed api request).connectBackend api
    request.keyed answer).1

/-- How the backend answers a retry. -/
def Daemon.retryStatus (answer : Answer) : Status :=
  (((daemon.withServer daemon.server.cancelReconnect).readied api).connectBackend api
    daemon.retryProfile answer).1

/-- A connect is refused before it reaches a backend. -/
def Refused : Message Answer → Prop
  | .connect request readable _ => liveState (daemon.state api) ∨ request.BadPath readable
  | .connectVPNGate request staged readable _ =>
      request.host ≠ none ∧ request.configBase64 ≠ none ∧
        (staged = .empty ∨ liveState (daemon.state api) ∨ ¬ pathOk staged readable)
  | _ => False

/-- The last retry cannot start, and no countdown follows. -/
def GivesUp (answer : Answer) (timerStarts : Bool) : Prop :=
  daemon.server.reconnectTimer = true ∧ daemon.server.userInitiatedDisconnect = false ∧
    daemon.server.reconnectSecondsLeft ≤ 1 ∧ daemon.retryStatus api answer ≠ .ok () ∧
    ¬ (daemon.server.reconnectArmed ∧ daemon.server.reconnectAttempt < kReconnectMaxAttempts ∧
      timerStarts)

/-- While a host is recorded, no connect or retry touches the record without need. -/
def Careful : Message Answer → Prop
  | .connect request readable answer =>
      daemon.server.connectedHost = .empty ∨ liveState (daemon.state api) ∨
        (¬ request.BadPath readable ∧ daemon.launchStatus api request answer ≠ .ok ())
  | .connectVPNGate request staged readable _ =>
      ∀ host, request.host = some host → request.configBase64 ≠ none →
        if staged = .empty then daemon.server.connectedHost = .empty
        else if liveState (daemon.state api) then host = daemon.server.connectedHost
        else pathOk staged readable ∨ daemon.server.connectedHost = .empty
  | .reconnectTick answer timerStarts =>
      daemon.server.connectedHost = .empty ∨ ¬ GivesUp api daemon answer timerStarts
  | _ => True

end Requests

/-! ## Handlers -/

section Handlers

variable {Backends Answer : Type} {api : VPNBackends Backends Answer} {daemon : Daemon Backends}
  {record : Record}

/-- A recorded host is that of the latest accepted connect, which stands. -/
def Recorded (server : SotoportegoServer) (record : Record) : Prop :=
  server.connectedHost ≠ .empty →
    record.accepted = some (some server.connectedHost) ∧ record.standing = true

/-- And retries repeat that connect. -/
structure Backed (server : SotoportegoServer) (record : Record) : Prop where
  recorded : Recorded server record
  repeated : server.connectedHost ≠ .empty →
    record.armed = some server.connectedHost ∧ record.begun = true

theorem backed_of_empty {server : SotoportegoServer} (empty : server.connectedHost = .empty) :
    Backed server record :=
  ⟨fun full => absurd empty full, fun full => absurd empty full⟩

theorem backed_begin {server : SotoportegoServer}
    (armed : server.connectedHost ≠ .empty → record.armed = some server.connectedHost) :
    Backed server record.begin :=
  ⟨fun full => ⟨congrArg some (armed full), rfl⟩, fun full => ⟨armed full, rfl⟩⟩

theorem Backed.of_host {server next : SotoportegoServer} (backed : Backed server record)
    (same : next.connectedHost = server.connectedHost) : Backed next record := by
  constructor
  · unfold Recorded
    rw [same]
    exact backed.recorded
  · rw [same]
    exact backed.repeated

theorem server_armed (request : ConnectRequest) :
    (daemon.armed api request).server =
      daemon.server.armReconnect request.profile request.user request.pass := by
  unfold Daemon.armed
  dsimp only [Daemon.withServer]
  rw [server_setCredentials]

theorem backed_launch {request : ConnectRequest} {answer : Answer} (host : Option CString)
    (asked : ((daemon.armed api request).connectBackend api request.keyed answer).1 = .ok () →
      daemon.server.connectedHost ≠ .empty → host = some daemon.server.connectedHost) :
    Backed (daemon.launch api request answer).daemon.server
      (record.noted host (daemon.launch api request answer).acts) := by
  unfold Daemon.launch
  dsimp only
  cases called : ((daemon.armed api request).connectBackend api request.keyed answer).1 with
  | ok done =>
      refine (@backed_begin { record with armed := host, begun := false, standing := false }
        (daemon.armed api request).server fun full => ?_).of_host rfl
      rw [server_armed] at full ⊢
      exact asked called full
  | error fault => exact backed_of_empty rfl

/-- A connect that is not of VPN Gate, or one that is and has its host recorded. -/
theorem backed_handleConnect {request : ConnectRequest} {readable : Bool} {answer : Answer}
    (host : Option CString) (backed : liveState (daemon.state api) → Backed daemon.server record)
    (asked : ¬ liveState (daemon.state api) → ¬ request.BadPath readable →
      daemon.launchStatus api request answer = .ok () → daemon.server.connectedHost ≠ .empty →
      host = some daemon.server.connectedHost) :
    Backed (daemon.handleConnect api request readable answer).daemon.server
      (record.noted host (daemon.handleConnect api request readable answer).acts) := by
  unfold Daemon.handleConnect
  split_ifs with live bad
  · exact backed live
  · exact backed_of_empty rfl
  · exact backed_launch host (asked live bad)

theorem unarchived_gate (request : VPNGateRequest) (host staged : CString) :
    (request.connect host staged).unarchived = gateProfile host request.countryLong staged :=
  VPNProfile.unarchive_archive _

theorem badPath_gate {request : VPNGateRequest} {host staged : CString} {readable : Bool} :
    (request.connect host staged).BadPath readable ↔ ¬ pathOk staged readable := by
  rw [ConnectRequest.BadPath, unarchived_gate]
  exact and_iff_right rfl

theorem backed_handleConnectVPNGate {request : VPNGateRequest} {staged : CString}
    {readable : Bool} {answer : Answer} (backed : Backed daemon.server record)
    (careful : Careful api daemon (.connectVPNGate request staged readable answer)) :
    Backed (daemon.handleConnectVPNGate api request staged readable answer).daemon.server
      (record.noted request.host
        (daemon.handleConnectVPNGate api request staged readable answer).acts) := by
  unfold Daemon.handleConnectVPNGate
  split
  · next host config named given =>
    dsimp only
    have kept := careful host named (by rw [given]; exact Option.some_ne_none config)
    split_ifs with missing
    · exact backed_of_empty rfl
    · rw [if_neg missing] at kept
      refine backed_handleConnect request.host (fun live => ?_) fun _ _ _ _ => named
      have live : liveState (daemon.state api) := live
      rw [if_pos live] at kept
      exact backed.of_host kept
  · exact backed

theorem backed_handleDisconnect (host : Option CString) (backed : Backed daemon.server record) :
    Backed (daemon.handleDisconnect api).daemon.server
      (record.noted host (daemon.handleDisconnect api).acts) := by
  unfold Daemon.handleDisconnect
  dsimp only
  split_ifs
  · exact backed_of_empty rfl
  · exact backed.of_host rfl

theorem backed_startReconnectCountdown {server : SotoportegoServer} (host : Option CString)
    (timerStarts : Bool) (backed : Backed server record) :
    Backed (server.startReconnectCountdown timerStarts).server
      (record.noted host (server.startReconnectCountdown timerStarts).acts) := by
  unfold SotoportegoServer.startReconnectCountdown
  split_ifs
  · exact backed
  · exact ⟨fun full => ⟨(backed.recorded full).1, (backed.repeated full).2⟩, backed.repeated⟩
  · exact ⟨backed.recorded, backed.repeated⟩

theorem connectedHost_startReconnectCountdown (server : SotoportegoServer) (timerStarts : Bool) :
    (server.startReconnectCountdown timerStarts).server.connectedHost = server.connectedHost := by
  unfold SotoportegoServer.startReconnectCountdown
  split_ifs <;> rfl

theorem startReconnectCountdown_running {server : SotoportegoServer}
    (going : ¬ server.userInitiatedDisconnect) (armed : server.reconnectArmed)
    (below : server.reconnectAttempt < kReconnectMaxAttempts) :
    server.startReconnectCountdown true =
      ⟨{ server.raised with reconnectTimer := true }, true, [.raiseAttempt true]⟩ := by
  have allowed : ¬ (server.userInitiatedDisconnect ∨ ¬ server.reconnectArmed ∨
      kReconnectMaxAttempts ≤ server.reconnectAttempt) := by
    rintro (stopped | unarmed | spent)
    · exact going stopped
    · exact unarmed armed
    · exact Nat.not_le_of_lt below spent
  rw [SotoportegoServer.startReconnectCountdown, if_neg allowed, if_pos rfl]

theorem backed_takeState (host : Option CString) (state : VPNState)
    (backed : Backed daemon.server record) :
    Backed (daemon.takeState state).daemon.server
      (record.noted host (daemon.takeState state).acts) := by
  have entered (changed : Bool) : Backed (daemon.server.entered state)
      (record.noted host [.enter state changed]) := by
    by_cases live : liveState state
    · have same : (daemon.server.entered state).connectedHost = daemon.server.connectedHost :=
        if_pos live
      refine Backed.of_host ⟨fun full => ?_, backed.repeated⟩ same
      obtain ⟨accepted, standing⟩ := backed.recorded full
      exact ⟨accepted, by simp [Record.noted, Record.note, standing, live]⟩
    · exact backed_of_empty (if_neg live)
  unfold Daemon.takeState
  dsimp only
  split_ifs
  · exact entered false
  · exact (entered true).of_host rfl
  · exact entered true

theorem backed_handleStatus (host : Option CString) (state : VPNState) (detail : Option Bytes)
    (timerStarts : Bool) (backed : Backed daemon.server record) :
    Backed (daemon.handleStatus state detail timerStarts).daemon.server
      (record.noted host (daemon.handleStatus state detail timerStarts).acts) := by
  have dropped : Backed (daemon.server.dropped state timerStarts).server
      (record.noted host (daemon.server.dropped state timerStarts).acts) := by
    unfold SotoportegoServer.dropped
    split_ifs
    · exact backed_startReconnectCountdown host timerStarts backed
    · exact backed
  have taken := @backed_takeState _
    (daemon.withServer (daemon.server.dropped state timerStarts).server) _ host
    ((daemon.server.dropped state timerStarts).told state) dropped
  unfold Daemon.handleStatus
  dsimp only
  rw [List.cons_append, List.cons_append, Record.noted, List.foldl_cons, List.foldl_append,
    List.foldl_append]
  exact taken

theorem backed_attemptReconnect {server : SotoportegoServer} {answer : Answer}
    {timerStarts : Bool} (host : Option CString) (backed : Backed server record)
    (cancelled : daemon.server = server.cancelReconnect)
    (resumes : server.connectedHost = .empty ∨
      ((daemon.readied api).connectBackend api daemon.retryProfile answer).1 = .ok () ∨
      (¬ server.userInitiatedDisconnect ∧ server.reconnectArmed ∧
        server.reconnectAttempt < kReconnectMaxAttempts ∧ timerStarts)) :
    Backed (daemon.attemptReconnect api answer timerStarts).daemon.server
      (record.noted host (daemon.attemptReconnect api answer timerStarts).acts) := by
  have readied : (daemon.readied api).server = { server.cancelReconnect with
      backend := daemon.retryProfile.backendType.served } := by
    rw [Daemon.readied, server_setCredentials, ← cancelled]
    rfl
  have kept : (daemon.readied api).server.connectedHost = server.connectedHost := by
    rw [readied]
    rfl
  unfold Daemon.attemptReconnect
  dsimp only
  cases called : ((daemon.readied api).connectBackend api daemon.retryProfile answer).1 with
  | ok done =>
      refine (@backed_begin record (daemon.readied api).server fun full => ?_).of_host rfl
      rw [kept] at full ⊢
      exact (backed.repeated full).1
  | error fault =>
      obtain empty | accepted | ⟨going, armed, below, rfl⟩ := resumes
      · refine backed_of_empty ?_
        rw [Daemon.retried, ← empty, ← kept]
        exact connectedHost_startReconnectCountdown _ timerStarts
      · rw [called] at accepted
        cases accepted
      · have countdown : (daemon.readied api).server.startReconnectCountdown true =
            ⟨{ (daemon.readied api).server.raised with reconnectTimer := true }, true,
              [.raiseAttempt true]⟩ := by
          refine startReconnectCountdown_running ?_ ?_ ?_ <;> rw [readied]
          · exact going
          · exact armed
          · exact below
        have resumed : Backed server
            (record.noted host [.reconnect (daemon.readied api).server.backend daemon.retryProfile
              (.error fault), .raiseAttempt true]) :=
          ⟨fun full => ⟨(backed.recorded full).1, (backed.repeated full).2⟩, backed.repeated⟩
        rw [Daemon.retried, Daemon.connectBackend, countdown]
        exact resumed.of_host kept

theorem backed_handleReconnectTick {answer : Answer} {timerStarts : Bool}
    (host : Option CString) (backed : Backed daemon.server record)
    (careful : Careful api daemon (.reconnectTick answer timerStarts)) :
    Backed (daemon.handleReconnectTick api answer timerStarts).daemon.server
      (record.noted host (daemon.handleReconnectTick api answer timerStarts).acts) := by
  unfold Daemon.handleReconnectTick
  split_ifs with ignored more
  · exact backed
  · exact backed.of_host rfl
  · simp only [not_or, Bool.not_eq_true, Bool.not_eq_false] at ignored
    refine backed_attemptReconnect host backed rfl (careful.imp_right fun persists => ?_)
    by_contra stops
    rw [not_or] at stops
    refine persists ⟨ignored.1, ignored.2, Nat.le_of_not_lt more, stops.1, fun resumes => ?_⟩
    exact stops.2 ⟨by simp [ignored.2], resumes⟩

theorem backed_handle {message : Message Answer} (backed : Backed daemon.server record)
    (careful : Careful api daemon message) :
    Backed (daemon.handle api message).daemon.server
      (record.noted message.gateHost (daemon.handle api message).acts) := by
  cases message with
  | connect request readable answer =>
      refine backed_handleConnect none (fun _ => backed) fun idle fine accepted full => ?_
      obtain empty | live | ⟨_, refused⟩ := careful
      · exact absurd empty full
      · exact absurd live idle
      · exact absurd accepted refused
  | disconnect => exact backed_handleDisconnect none backed
  | connectVPNGate request staged readable answer =>
      exact backed_handleConnectVPNGate backed careful
  | statusUpdate state detail timerStarts =>
      exact backed_handleStatus none state detail timerStarts backed
  | reconnectTick answer timerStarts => exact backed_handleReconnectTick none backed careful
  | homeGeoResult changed =>
      unfold Daemon.handle
      dsimp only
      split_ifs
      · exact backed
      · exact backed
  | countryResult known =>
      unfold Daemon.handle
      dsimp only
      split_ifs
      · exact backed
      · exact backed

/-! ## Refusals -/

theorem connectedHost_live {request : ConnectRequest} {readable : Bool} {answer : Answer}
    (live : liveState (daemon.state api)) :
    (daemon.handleConnect api request readable answer).daemon.server.connectedHost =
      daemon.server.connectedHost := by
  rw [Daemon.handleConnect, if_pos live]
  rfl

theorem connectedHost_badPath {request : ConnectRequest} {readable : Bool} {answer : Answer}
    (idle : ¬ liveState (daemon.state api)) (bad : request.BadPath readable) :
    (daemon.handleConnect api request readable answer).daemon.server.connectedHost = .empty := by
  unfold ConnectRequest.BadPath at bad
  simp only [Daemon.handleConnect, if_neg idle, if_pos bad]
  rfl

/-- A refusal leaves the record of the host. -/
theorem kept_refused {message : Message Answer} (careful : Careful api daemon message)
    (refused : Refused api daemon message) :
    (daemon.handle api message).daemon.server.connectedHost = daemon.server.connectedHost := by
  cases message with
  | connect request readable answer =>
      by_cases live : liveState (daemon.state api)
      · exact connectedHost_live live
      · have bad := refused.resolve_left live
        obtain empty | live' | ⟨fine, _⟩ := careful
        · exact (connectedHost_badPath live bad).trans empty.symm
        · exact absurd live' live
        · exact absurd bad fine
  | connectVPNGate request staged readable answer =>
      obtain ⟨named, given, refused⟩ := refused
      obtain ⟨host, named⟩ := Option.ne_none_iff_exists'.mp named
      obtain ⟨config, config_given⟩ := Option.ne_none_iff_exists'.mp given
      have kept := careful host named given
      unfold Daemon.handle Daemon.handleConnectVPNGate
      simp only [named, config_given]
      split_ifs with missing
      · rw [if_pos missing] at kept
        exact kept.symm
      · rw [if_neg missing] at kept
        by_cases live : liveState (daemon.state api)
        · rw [if_pos live] at kept
          exact (@connectedHost_live _ _ api (daemon.withHost host) _ _ _ live).trans kept
        · rw [if_neg live] at kept
          have bad := (refused.resolve_left missing).resolve_left live
          have cleared := @connectedHost_badPath _ _ api (daemon.withHost host)
            (request.connect host staged) readable answer live (badPath_gate.mpr bad)
          exact cleared.trans (kept.resolve_left bad).symm
  | disconnect | statusUpdate | reconnectTick | homeGeoResult | countryResult => cases refused

end Handlers

/-! ## Runs -/

section Runs

variable {Backends Answer : Type} {api : VPNBackends Backends Answer}

/-- The condition on a step of the run. -/
def CarefulStep (api : VPNBackends Backends Answer) (watch : HostWatch Backends) :
    Event Backends Answer → Prop
  | .message message => Careful api watch.daemon message
  | .backends _ => True

/-- A refused request leaves the record of the host. -/
def RefusalKeeps (api : VPNBackends Backends Answer) (watch : HostWatch Backends) :
    Event Backends Answer → Prop
  | .message message => Refused api watch.daemon message →
      (watch.step api (.message message)).daemon.server.connectedHost =
        watch.daemon.server.connectedHost
  | .backends _ => True

theorem backed_step {watch : HostWatch Backends} {event : Event Backends Answer}
    (careful : CarefulStep api watch event) (backed : Backed watch.daemon.server watch.record) :
    Backed (watch.step api event).daemon.server (watch.step api event).record := by
  cases event with
  | message message => exact backed_handle backed careful
  | backends backends => exact backed

theorem refusal_keeps {watch : HostWatch Backends} {event : Event Backends Answer}
    (careful : CarefulStep api watch event) : RefusalKeeps api watch event := by
  cases event with
  | message message => exact kept_refused careful
  | backends backends => trivial

/-- After the events a recorded host is that of the standing session, and no refused request
among them has changed it. -/
def KeepsHost (api : VPNBackends Backends Answer) (backends : Backends)
    (events : List (Event Backends Answer)) : Prop :=
  Recorded (Run.run (HostWatch.step api) (HostWatch.started backends) events).daemon.server
      (Run.run (HostWatch.step api) (HostWatch.started backends) events).record ∧
    Run.Along (HostWatch.step api) (RefusalKeeps api) (HostWatch.started backends) events

theorem host_kept (backends : Backends) (events : List (Event Backends Answer))
    (careful : Run.Along (HostWatch.step api) (CarefulStep api) (HostWatch.started backends)
      events) : KeepsHost api backends events := by
  have start : Backed (HostWatch.started backends).daemon.server
      (HostWatch.started backends).record := backed_of_empty rfl
  have preserved (watch : HostWatch Backends) (event : Event Backends Answer)
      (careful : CarefulStep api watch event) (backed : Backed watch.daemon.server watch.record) :
      Backed (watch.step api event).daemon.server (watch.step api event).record :=
    backed_step careful backed
  exact ⟨(Run.invariant_along preserved careful start).recorded,
    careful.imp fun _ _ careful => refusal_keeps careful⟩

end Runs

/-! ## Samples -/

namespace Sample

/-- A backend that connects as it is told, while it is idle. -/
def backends : VPNBackends VPNState Status where
  state := fun _ state => state
  setCredentials := fun _ _ _ state => state
  connect := fun _ _ answer state =>
    if liveState state then (.error .notAllowed, state)
    else match answer with
      | .ok () => (.ok (), .connecting)
      | .error fault => (.error fault, .error)
  disconnect := fun _ _ => .disconnected

def staged : CString := .ofBytes (ascii "/cache/gate.ovpn")

def gate : VPNGateRequest where
  host := some (.ofBytes (ascii "gate"))
  configBase64 := some (.ofBytes (ascii "cmVtb3Rl"))

def tailnet : ConnectRequest where
  profile := some { backendType := .tailscale : VPNProfile }.archive

/-- A session of VPN Gate drops and is retried. -/
def retried : List (Event VPNState Status) :=
  [.message (.connectVPNGate gate staged true (.ok ())),
    .message (.statusUpdate .connecting none true),
    .backends .disconnected,
    .message (.statusUpdate .disconnected none true),
    .message (.reconnectTick (.ok ()) true)]

/-- A VPN Gate request arrives while another session is live. -/
def overwritten : List (Event VPNState Status) :=
  [.message (.connect tailnet true (.ok ())),
    .message (.connectVPNGate gate staged true (.ok ()))]

end Sample

theorem host_kept_sample :
    (Run.run (HostWatch.step Sample.backends) (HostWatch.started .disconnected)
        Sample.retried).daemon.server.connectedHost = .ofBytes (ascii "gate") ∧
      KeepsHost Sample.backends .disconnected Sample.retried := by
  refine ⟨by decide +kernel, @host_kept _ _ Sample.backends .disconnected Sample.retried
    ⟨fun host _ _ => ?_, trivial, trivial, trivial, .inr fun gives => ?_, trivial⟩⟩
  · rw [if_neg (by decide), if_neg (by decide)]
    exact .inr rfl
  · exact absurd gives.2.2.1 (by decide +kernel)

/-- A request that is refused leaves its host on the session of another. -/
theorem refused_host_stays : ¬ KeepsHost Sample.backends .disconnected Sample.overwritten := by
  intro kept
  have other := (kept.1 (by decide +kernel)).1
  revert other
  decide +kernel

end Sotoportego.Server
