import Sotoportego.Lib.RetryBudget
import Sotoportego.Server.Server

/-!
# Automatic reconnects

Whatever the backends do, the countdown keeps to a budget of retries: a user `Disconnect`
ends them, and each retry was paid for when its countdown began.
-/

set_option autoImplicit false

namespace Sotoportego.Server

open Octets CText
open Tailscale (VPNState)

/-- What an act means for the budget of retries. -/
def Act.budget : Act → RetryBudget.Event
  | .armReconnect => .renew
  | .disconnect _ => .stop
  | .connect _ _ _ => .call
  | .raiseAttempt timerStarts => if timerStarts then .schedule else .spend
  | .reconnect _ _ _ => .fire
  | .enter state changed => if changed ∧ state = .connected then .settle else .other
  | _ => .other

def SotoportegoServer.budget (server : SotoportegoServer) : RetryBudget.State where
  stopped := server.userInitiatedDisconnect
  spent := server.reconnectAttempt
  scheduled := server.reconnectTimer

/-- A running countdown has a second left. -/
def Ticking (server : SotoportegoServer) : Prop :=
  server.reconnectTimer = true → 1 ≤ server.reconnectSecondsLeft

/-- The acts of a handler are within the budget and account for the change of it. -/
structure Paced (server next : SotoportegoServer) (acts : List Act) : Prop where
  allowed : Run.Along RetryBudget.step (RetryBudget.Allowed kReconnectMaxAttempts) server.budget
    (acts.map Act.budget)
  reached : Run.run RetryBudget.step server.budget (acts.map Act.budget) = next.budget
  ticking : Ticking server → Ticking next

section Handlers

variable {Backends Answer : Type} {api : VPNBackends Backends Answer} {daemon : Daemon Backends}
  {server next : SotoportegoServer}

theorem Paced.trans {last : SotoportegoServer} {acts later : List Act}
    (first : Paced server next acts) (second : Paced next last later) :
    Paced server last (acts ++ later) := by
  refine ⟨?_, ?_, fun ticking => second.ticking (first.ticking ticking)⟩
  · rw [List.map_append, Run.along_append, first.reached]
    exact ⟨first.allowed, second.allowed⟩
  · rw [List.map_append, Run.run_append, first.reached]
    exact second.reached

/-- The fields of the countdown are all that matters. -/
theorem Paced.of_budget {acts : List Act} {before : SotoportegoServer}
    (paced : Paced before next acts) (same : before.budget = server.budget)
    (seconds : before.reconnectSecondsLeft = server.reconnectSecondsLeft) :
    Paced server next acts := by
  have timer : before.reconnectTimer = server.reconnectTimer :=
    congrArg RetryBudget.State.scheduled same
  refine ⟨same ▸ paced.allowed, same ▸ paced.reached, fun ticking => paced.ticking ?_⟩
  intro running
  rw [seconds]
  exact ticking (timer ▸ running)

/-- The fields of the countdown stay. -/
theorem paced_other {acts : List Act} (others : ∀ act ∈ acts, act.budget = .other)
    (same : next.budget = server.budget)
    (seconds : next.reconnectSecondsLeft = server.reconnectSecondsLeft) :
    Paced server next acts := by
  have timer : next.reconnectTimer = server.reconnectTimer := congrArg RetryBudget.State.scheduled same
  refine ⟨?_, ?_, fun ticking running => ?_⟩
  · induction acts with
    | nil => trivial
    | cons act acts continued =>
        rw [List.map_cons, others act List.mem_cons_self]
        exact ⟨trivial, continued fun later member => others later (List.mem_cons_of_mem _ member)⟩
  · rw [same]
    induction acts with
    | nil => rfl
    | cons act acts continued =>
        rw [List.map_cons, others act List.mem_cons_self]
        exact continued fun later member => others later (List.mem_cons_of_mem _ member)
  · rw [seconds]
    exact ticking (timer ▸ running)

theorem one_le_reconnectDelaySeconds (attempt : Nat) : 1 ≤ reconnectDelaySeconds attempt := by
  have grows (delay : Nat) (positive : 1 ≤ delay) : 1 ≤ doubleDelay delay := by
    unfold doubleDelay
    split_ifs <;> omega
  have positive (count : Nat) : 1 ≤ doubleDelay^[count] 5 := by
    induction count with
    | zero => decide
    | succ count continued =>
        rw [Function.iterate_succ_apply']
        exact grows _ continued
  exact Nat.le_min.mpr ⟨positive _, by decide⟩

theorem paced_startReconnectCountdown (timerStarts : Bool) :
    Paced server (server.startReconnectCountdown timerStarts).server
      (server.startReconnectCountdown timerStarts).acts := by
  unfold SotoportegoServer.startReconnectCountdown
  split_ifs with spent starts
  · exact paced_other (fun _ member => nomatch member) rfl rfl
  · simp only [not_or] at spent
    exact ⟨⟨Nat.lt_of_not_le spent.2.2, trivial⟩, rfl,
      fun _ _ => one_le_reconnectDelaySeconds (server.reconnectAttempt + 1)⟩
  · simp only [not_or] at spent
    exact ⟨⟨Nat.lt_of_not_le spent.2.2, trivial⟩, rfl, fun _ running => nomatch running⟩

theorem paced_reply (detail : String) :
    Paced daemon.server (daemon.refuse api detail).daemon.server (daemon.refuse api detail).acts :=
  paced_other (fun _ member => List.mem_singleton.mp member ▸ rfl) rfl rfl

theorem server_setCredentials (user pass : CString) :
    (daemon.setCredentials api user pass).server = daemon.server := by
  unfold Daemon.setCredentials
  split_ifs <;> rfl

theorem paced_answered (status : Status) :
    Paced daemon.server (daemon.answered api status).daemon.server
      (daemon.answered api status).acts := by
  cases status with
  | ok done => exact paced_other (fun _ member => nomatch member) rfl rfl
  | error fault => exact paced_other (fun _ member => List.mem_singleton.mp member ▸ rfl) rfl rfl

theorem paced_launch (request : ConnectRequest) (answer : Answer) :
    Paced daemon.server (daemon.launch api request answer).daemon.server
      (daemon.launch api request answer).acts := by
  have server := @server_setCredentials _ _ api daemon request.user request.pass
  have armed : (daemon.armed api request).server =
      daemon.server.armReconnect request.profile request.user request.pass := by
    unfold Daemon.armed
    dsimp only [Daemon.withServer]
    rw [server]
  have begins : Paced daemon.server (daemon.armed api request).server
      [.armReconnect, .connect (daemon.armed api request).server.backend request.keyed
        ((daemon.armed api request).connectBackend api request.keyed answer).1] := by
    rw [armed]
    exact ⟨⟨trivial, rfl, trivial⟩, rfl, fun _ running => nomatch running⟩
  exact begins.trans (@paced_answered _ _ api
    ((daemon.armed api request).connectBackend api request.keyed answer).2 _)

theorem paced_handleConnect (request : ConnectRequest) (readable : Bool) (answer : Answer) :
    Paced daemon.server (daemon.handleConnect api request readable answer).daemon.server
      (daemon.handleConnect api request readable answer).acts := by
  unfold Daemon.handleConnect
  split_ifs
  · exact paced_reply _
  · exact paced_other (fun _ member => List.mem_singleton.mp member ▸ rfl) rfl rfl
  · exact (@paced_launch _ _ api (daemon.select request.unarchived.backendType) request
      answer).of_budget rfl rfl

theorem paced_handleConnectVPNGate (request : VPNGateRequest) (staged : CString)
    (readable : Bool) (answer : Answer) :
    Paced daemon.server (daemon.handleConnectVPNGate api request staged readable answer).daemon.server
      (daemon.handleConnectVPNGate api request staged readable answer).acts := by
  unfold Daemon.handleConnectVPNGate
  split
  · next host _ _ _ =>
    dsimp only
    split_ifs
    · exact paced_other (fun _ member => List.mem_singleton.mp member ▸ rfl) rfl rfl
    · exact (@paced_handleConnect _ _ api (daemon.withHost host) _ readable
        answer).of_budget rfl rfl
  · exact paced_other (fun _ member => nomatch member) rfl rfl

theorem paced_handleDisconnect :
    Paced daemon.server (daemon.handleDisconnect api).daemon.server
      (daemon.handleDisconnect api).acts := by
  have stops : Paced daemon.server daemon.server.stopped [.disconnect daemon.server.backend] :=
    ⟨⟨trivial, trivial⟩, rfl, fun _ running => nomatch running⟩
  unfold Daemon.handleDisconnect
  dsimp only
  split_ifs
  · refine stops.trans (paced_other (fun act member => ?_) rfl rfl)
    simp only [List.mem_cons, List.not_mem_nil, or_false] at member
    obtain rfl | rfl := member
    · rfl
    · rw [Act.budget, if_neg fun connected => nomatch connected.2]
  · exact stops

theorem paced_takeState (state : VPNState) :
    Paced daemon.server (daemon.takeState state).daemon.server (daemon.takeState state).acts := by
  unfold Daemon.takeState
  dsimp only
  split_ifs with same connected
  · exact paced_other (fun _ member => List.mem_singleton.mp member ▸ rfl) rfl rfl
  · subst connected
    exact ⟨⟨trivial, trivial⟩, rfl, id⟩
  · refine paced_other (fun act member => ?_) rfl rfl
    rw [List.mem_singleton.mp member, Act.budget, if_neg fun settled => connected settled.2]

theorem paced_dropped (state : VPNState) (timerStarts : Bool) :
    Paced server (server.dropped state timerStarts).server
      (server.dropped state timerStarts).acts := by
  unfold SotoportegoServer.dropped
  split_ifs
  · exact paced_startReconnectCountdown timerStarts
  · exact paced_other (fun _ member => nomatch member) rfl rfl

theorem paced_handleStatus (state : VPNState) (detail : Option Bytes) (timerStarts : Bool) :
    Paced daemon.server (daemon.handleStatus state detail timerStarts).daemon.server
      (daemon.handleStatus state detail timerStarts).acts := by
  have arrives : Paced daemon.server daemon.server [.status state] :=
    paced_other (fun _ member => List.mem_singleton.mp member ▸ rfl) rfl rfl
  have taken := @paced_takeState _
    (daemon.withServer (daemon.server.dropped state timerStarts).server)
    ((daemon.server.dropped state timerStarts).told state)
  refine ((arrives.trans (paced_dropped state timerStarts)).trans taken).trans ?_
  exact paced_other (fun _ member => List.mem_singleton.mp member ▸ rfl) rfl rfl

theorem paced_retried (status : Status) (timerStarts : Bool) :
    Paced daemon.server (daemon.retried status timerStarts).daemon.server
      (daemon.retried status timerStarts).acts := by
  cases status with
  | ok done => exact paced_other (fun _ member => nomatch member) rfl rfl
  | error fault =>
      refine (paced_startReconnectCountdown timerStarts).trans
        (paced_other (fun act member => ?_) rfl rfl)
      split_ifs at member
      · rw [List.mem_singleton.mp member]
        rfl
      · cases member

/-- The countdown is over before the retry begins. -/
theorem paced_attemptReconnect {server : SotoportegoServer} (answer : Answer) (timerStarts : Bool)
    (going : server.userInitiatedDisconnect = false) (running : server.reconnectTimer = true)
    (cancelled : daemon.server = server.cancelReconnect) :
    Paced server (daemon.attemptReconnect api answer timerStarts).daemon.server
      (daemon.attemptReconnect api answer timerStarts).acts := by
  have readied : (daemon.readied api).server = { server.cancelReconnect with
      backend := daemon.retryProfile.backendType.served } := by
    rw [Daemon.readied, server_setCredentials, ← cancelled]
    rfl
  have fires : Paced server (daemon.readied api).server
      [.reconnect (daemon.readied api).server.backend daemon.retryProfile
        ((daemon.readied api).connectBackend api daemon.retryProfile answer).1] := by
    refine ⟨⟨⟨going, running⟩, trivial⟩, ?_, fun _ later => ?_⟩
    · rw [readied]
      rfl
    · rw [readied] at later
      cases later
  exact fires.trans (@paced_retried _
    ((daemon.readied api).connectBackend api daemon.retryProfile answer).2 _ _)

theorem paced_handleReconnectTick (answer : Answer) (timerStarts : Bool) :
    Paced daemon.server (daemon.handleReconnectTick api answer timerStarts).daemon.server
      (daemon.handleReconnectTick api answer timerStarts).acts := by
  unfold Daemon.handleReconnectTick
  split_ifs with ignored more
  · exact paced_other (fun _ member => nomatch member) rfl rfl
  · refine ⟨⟨trivial, trivial⟩, rfl, fun _ _ => ?_⟩
    exact Nat.le_sub_of_add_le more
  · simp only [not_or, Bool.not_eq_true, Bool.not_eq_false] at ignored
    exact @paced_attemptReconnect _ _ api (daemon.withServer daemon.server.cancelReconnect)
      daemon.server answer timerStarts ignored.2 ignored.1 rfl

theorem paced_handle (message : Message Answer) :
    Paced daemon.server (daemon.handle api message).daemon.server
      (daemon.handle api message).acts := by
  cases message with
  | connect request readable answer => exact paced_handleConnect request readable answer
  | disconnect => exact paced_handleDisconnect
  | connectVPNGate request staged readable answer =>
      exact paced_handleConnectVPNGate request staged readable answer
  | statusUpdate state detail timerStarts => exact paced_handleStatus state detail timerStarts
  | reconnectTick answer timerStarts => exact paced_handleReconnectTick answer timerStarts
  | homeGeoResult changed =>
      unfold Daemon.handle
      dsimp only
      split_ifs
      · exact paced_other (fun _ member => List.mem_singleton.mp member ▸ rfl) rfl rfl
      · exact paced_other (fun _ member => nomatch member) rfl rfl
  | countryResult known =>
      unfold Daemon.handle
      dsimp only
      split_ifs
      · exact paced_other (fun _ member => List.mem_singleton.mp member ▸ rfl) rfl rfl
      · exact paced_other (fun _ member => nomatch member) rfl rfl

end Handlers

/-! ## Successes -/

section Successes

variable {Backends Answer : Type} {api : VPNBackends Backends Answer} {daemon : Daemon Backends}
  {server : SotoportegoServer}

/-- The session is reported to be up for the first time. -/
def Act.succeeds (act : Act) : Prop := act = .enter .connected true

theorem not_succeeds_retried (status : Status) (timerStarts : Bool) :
    ∀ act ∈ (daemon.retried status timerStarts).acts, ¬ act.succeeds := by
  cases status with
  | ok done => exact fun _ member => nomatch member
  | error fault =>
      simp only [Daemon.retried, SotoportegoServer.startReconnectCountdown,
        SotoportegoServer.broadcastReconnecting]
      split_ifs <;> simp [Act.succeeds]

theorem not_succeeds_handleConnect (request : ConnectRequest) (readable : Bool)
    (answer : Answer) :
    ∀ act ∈ (daemon.handleConnect api request readable answer).acts, ¬ act.succeeds := by
  simp only [Daemon.handleConnect, Daemon.launch, Daemon.refuse, Daemon.answered]
  split_ifs
  · simp [Act.succeeds]
  · simp [Act.succeeds]
  · split <;> simp [Act.succeeds]

theorem not_succeeds_handleReconnectTick (answer : Answer) (timerStarts : Bool) :
    ∀ act ∈ (daemon.handleReconnectTick api answer timerStarts).acts, ¬ act.succeeds := by
  simp only [Daemon.handleReconnectTick]
  split_ifs
  · exact fun _ member => nomatch member
  · simp [SotoportegoServer.broadcastReconnecting, Act.succeeds]
  · intro act member
    obtain rfl | later := List.mem_cons.mp member
    · exact fun succeeds => nomatch succeeds
    · exact not_succeeds_retried _ _ act later

theorem not_succeeds_takeState {state : VPNState} (other : state ≠ .connected) :
    ∀ act ∈ (daemon.takeState state).acts, ¬ act.succeeds := by
  simp only [Daemon.takeState]
  split_ifs <;> simp [Act.succeeds, other]

theorem not_succeeds_handleStatus {state : VPNState} (other : state ≠ .connected)
    (detail : Option Bytes) (timerStarts : Bool) :
    ∀ act ∈ (daemon.handleStatus state detail timerStarts).acts, ¬ act.succeeds := by
  have told : (daemon.server.dropped state timerStarts).told state ≠ .connected := by
    unfold SotoportegoServer.Countdown.told
    split_ifs
    · decide
    · exact other
  have counted : ∀ act ∈ (daemon.server.dropped state timerStarts).acts, ¬ act.succeeds := by
    simp only [SotoportegoServer.dropped, SotoportegoServer.startReconnectCountdown]
    split_ifs <;> simp [Act.succeeds]
  intro act member
  simp only [Daemon.handleStatus, List.cons_append, List.append_assoc, List.mem_cons,
    List.mem_append, List.not_mem_nil, or_false] at member
  obtain rfl | early | taken | rfl := member
  · exact fun succeeds => nomatch succeeds
  · exact counted act early
  · exact not_succeeds_takeState told act taken
  · exact fun succeeds => nomatch succeeds

/-- Nothing but a report of it makes a session succeed. -/
theorem not_succeeds_handle {message : Message Answer}
    (other : ∀ detail timerStarts, message ≠ .statusUpdate .connected detail timerStarts) :
    ∀ act ∈ (daemon.handle api message).acts, ¬ act.succeeds := by
  cases message with
  | connect request readable answer => exact not_succeeds_handleConnect request readable answer
  | disconnect =>
      simp only [Daemon.handle, Daemon.handleDisconnect]
      split_ifs <;> simp [Act.succeeds]
  | connectVPNGate request staged readable answer =>
      simp only [Daemon.handle, Daemon.handleConnectVPNGate]
      split
      · split_ifs
        · simp [Daemon.refuse, Act.succeeds]
        · exact not_succeeds_handleConnect _ _ _
      · exact fun _ member => nomatch member
  | statusUpdate state detail timerStarts =>
      exact not_succeeds_handleStatus (fun connected => other detail timerStarts (connected ▸ rfl))
        detail timerStarts
  | reconnectTick answer timerStarts => exact not_succeeds_handleReconnectTick answer timerStarts
  | homeGeoResult changed =>
      simp only [Daemon.handle, Daemon.broadcastStatus]
      split_ifs <;> simp [Act.succeeds]
  | countryResult known =>
      simp only [Daemon.handle, Daemon.broadcastStatus]
      split_ifs <;> simp [Act.succeeds]

/-- What a report of CONNECTED does. -/
theorem acts_handleStatus_connected (detail : Option Bytes) (timerStarts : Bool) :
    ∃ changed host, (daemon.handleStatus .connected detail timerStarts).acts =
      [.status .connected, .enter .connected changed, .broadcast .connected detail host] := by
  have taken : ∃ changed, (daemon.takeState .connected).acts = [.enter .connected changed] := by
    unfold Daemon.takeState
    dsimp only
    rw [if_pos rfl]
    split_ifs
    · exact ⟨false, rfl⟩
    · exact ⟨true, rfl⟩
  obtain ⟨changed, taken⟩ := taken
  refine ⟨changed, (daemon.takeState .connected).daemon.server.connectedHost, ?_⟩
  have acts : (daemon.handleStatus .connected detail timerStarts).acts =
      .status .connected :: (daemon.takeState .connected).acts ++
        [.broadcast .connected detail (daemon.takeState .connected).daemon.server.connectedHost] :=
    rfl
  rw [acts, taken]
  rfl

theorem settle_of_budget {act : Act} (settles : act.budget = .settle) : act.succeeds := by
  cases act with
  | enter state changed =>
      rw [Act.budget] at settles
      split_ifs at settles with connected
      rw [connected.1, connected.2]
      rfl
  | raiseAttempt timerStarts => cases timerStarts <;> cases settles
  | _ => cases settles

theorem settle_notMem {acts : List Act} (quiet : ∀ act ∈ acts, ¬ act.succeeds) :
    .settle ∉ acts.map Act.budget := by
  intro member
  obtain ⟨act, listed, settles⟩ := List.mem_map.mp member
  exact quiet act listed (settle_of_budget settles)

/-- A report of CONNECTED finds no countdown. -/
def Punctual (server : SotoportegoServer) : Message Answer → Prop
  | .statusUpdate .connected _ _ => server.reconnectTimer = false
  | _ => True

theorem timely_handle {message : Message Answer} (punctual : Punctual daemon.server message) :
    Run.Along RetryBudget.step RetryBudget.Timely daemon.server.budget
      ((daemon.handle api message).acts.map Act.budget) := by
  by_cases success : ∃ detail timerStarts, message = .statusUpdate .connected detail timerStarts
  · obtain ⟨detail, timerStarts, rfl⟩ := success
    obtain ⟨changed, host, acts⟩ := @acts_handleStatus_connected _ daemon detail timerStarts
    rw [Daemon.handle, acts]
    cases changed with
    | false => exact ⟨trivial, trivial, trivial, trivial⟩
    | true => exact ⟨trivial, punctual, trivial, trivial⟩
  · refine RetryBudget.timely_of_notMem (settle_notMem (not_succeeds_handle ?_))
    intro detail timerStarts same
    exact success ⟨detail, timerStarts, same⟩

/-- A success is taken from a report. -/
def Reported (earlier : List Act) (act : Act) : Prop :=
  act.succeeds → earlier.getLast? = some (.status .connected)

theorem reported_handle {log : List Act} (message : Message Answer)
    (reported : Run.Logged Reported log) :
    Run.Logged Reported (log ++ (daemon.handle api message).acts) := by
  rw [Run.logged_append]
  refine ⟨reported, ?_⟩
  by_cases success : ∃ detail timerStarts, message = .statusUpdate .connected detail timerStarts
  · obtain ⟨detail, timerStarts, rfl⟩ := success
    obtain ⟨changed, host, acts⟩ := @acts_handleStatus_connected _ daemon detail timerStarts
    rw [Daemon.handle, acts]
    exact ⟨(fun succeeds => nomatch succeeds), (fun _ => List.getLast?_concat),
      (fun succeeds => nomatch succeeds), trivial⟩
  · refine Run.along_of_forall (fun act member _ succeeds => absurd succeeds ?_) log
    exact not_succeeds_handle (fun detail timerStarts same => success ⟨detail, timerStarts, same⟩)
      act member

end Successes

/-! ## Runs -/

section Runs

variable {Backends Answer : Type} {api : VPNBackends Backends Answer}

/-- The daemon after some events, and its log. -/
def Watch.reached (api : VPNBackends Backends Answer) (backends : Backends)
    (events : List (Event Backends Answer)) : Watch Backends :=
  Run.run (Watch.step api) (Watch.started backends) events

/-- The log accounts for the countdown, and for each success. -/
structure Accounted (watch : Watch Backends) : Prop where
  paced : Paced {} watch.daemon.server watch.log
  reported : Run.Logged Reported watch.log

theorem accounted_started (backends : Backends) : Accounted (Watch.started backends) where
  paced := paced_other (fun _ member => nomatch member) rfl rfl
  reported := trivial

theorem accounted_step {watch : Watch Backends} (accounted : Accounted watch)
    (event : Event Backends Answer) : Accounted (watch.step api event) := by
  cases event with
  | message message =>
      exact ⟨accounted.paced.trans (paced_handle message),
        reported_handle message accounted.reported⟩
  | backends backends => exact ⟨accounted.paced, accounted.reported⟩

theorem accounted_reached (backends : Backends) (events : List (Event Backends Answer)) :
    Accounted (Watch.reached api backends events) := by
  have preserved (watch : Watch Backends) (event : Event Backends Answer) (_ : True)
      (accounted : Accounted watch) : Accounted (watch.step api event) :=
    accounted_step accounted event
  exact Run.invariant_run preserved (fun _ _ => trivial) (accounted_started backends)

/-- CONNECTED is never reported while a countdown is pending. -/
def Undisturbed (watch : Watch Backends) : Event Backends Answer → Prop
  | .message message => Punctual watch.daemon.server message
  | .backends _ => True

theorem timely_run {watch : Watch Backends} {events : List (Event Backends Answer)}
    (accounted : Accounted watch)
    (before : Run.Along RetryBudget.step RetryBudget.Timely ({} : SotoportegoServer).budget
      (watch.log.map Act.budget))
    (undisturbed : Run.Along (Watch.step api) Undisturbed watch events) :
    Run.Along RetryBudget.step RetryBudget.Timely ({} : SotoportegoServer).budget
      ((Run.run (Watch.step api) watch events).log.map Act.budget) := by
  induction events generalizing watch with
  | nil => exact before
  | cons event events continued =>
      refine continued (accounted_step accounted event) ?_ undisturbed.2
      cases event with
      | message message =>
          rw [Watch.step, List.map_append, Run.along_append, accounted.paced.reached]
          exact ⟨before, timely_handle undisturbed.1⟩
      | backends backends => exact before

/-! ## The claims of the countdown -/

/-- A `Connect` of a backend. -/
def Act.begins : Act → Prop
  | .connect _ _ _ | .reconnect _ _ _ => True
  | _ => False

def Act.automatic : Act → Bool
  | .reconnect _ _ _ => true
  | _ => false

theorem renew_of_budget {act : Act} (renews : act.budget = .renew) : act = .armReconnect := by
  cases act with
  | armReconnect => rfl
  | enter state changed =>
      rw [Act.budget] at renews
      split_ifs at renews
  | raiseAttempt timerStarts => cases timerStarts <;> cases renews
  | _ => cases renews

theorem schedule_of_budget {act : Act} (schedules : act.budget = .schedule) :
    act = .raiseAttempt true := by
  cases act with
  | enter state changed =>
      rw [Act.budget] at schedules
      split_ifs at schedules
  | raiseAttempt timerStarts =>
      cases timerStarts with
      | true => rfl
      | false => cases schedules
  | _ => cases schedules

theorem begins_budget {act : Act} (begins : act.begins) :
    act.budget = .call ∨ act.budget = .fire := by
  cases act with
  | connect backend profile status => exact .inl rfl
  | reconnect backend profile status => exact .inr rfl
  | _ => cases begins

theorem renew_notMem {acts : List Act} (kept : .armReconnect ∉ acts) :
    .renew ∉ acts.map Act.budget := by
  intro member
  obtain ⟨act, listed, renews⟩ := List.mem_map.mp member
  exact kept (renew_of_budget renews ▸ listed)

theorem count_fire (acts : List Act) :
    (acts.map Act.budget).count .fire = acts.countP Act.automatic := by
  rw [List.count, List.countP_map]
  refine List.countP_congr fun act _ => ?_
  cases act with
  | enter state changed =>
      simp only [Function.comp_apply, Act.budget, Act.automatic]
      split_ifs <;> simp
  | raiseAttempt timerStarts => cases timerStarts <;> simp [Act.budget, Act.automatic]
  | _ => simp [Act.budget, Act.automatic]

variable {watch : Watch Backends}

/-- A stop ends the sessions that nobody asks for. -/
theorem Accounted.armed {before between after : List Act} {stopped : Instance} {act : Act}
    (accounted : Accounted watch)
    (log : watch.log = before ++ .disconnect stopped :: between ++ act :: after)
    (begins : act.begins) : .armReconnect ∈ between := by
  have allowed := accounted.paced.allowed
  rw [log, List.map_append, List.map_append, List.map_cons, List.map_cons] at allowed
  obtain ⟨armed, member, renews⟩ :=
    List.mem_map.mp (RetryBudget.renewed allowed (begins_budget begins))
  exact renew_of_budget renews ▸ member

theorem Accounted.automatic_le {before segment after : List Act} (accounted : Accounted watch)
    (timely : Run.Along RetryBudget.step RetryBudget.Timely ({} : SotoportegoServer).budget
      (watch.log.map Act.budget))
    (log : watch.log = before ++ segment ++ after) (unarmed : .armReconnect ∉ segment)
    (failing : .enter .connected true ∉ segment) :
    segment.countP Act.automatic ≤ kReconnectMaxAttempts := by
  have allowed := accounted.paced.allowed
  rw [log, List.map_append, List.map_append] at allowed timely
  have paid : RetryBudget.Paid ({} : SotoportegoServer).budget := by
    intro running
    cases running
  rw [← count_fire]
  refine RetryBudget.fires_le_limit (Nat.zero_le _) paid allowed timely
    (renew_notMem unarmed) (settle_notMem fun act member succeeds => ?_)
  exact failing (succeeds ▸ member)

/-- A success after the start of the countdown was reported after it. -/
theorem Accounted.reported_since {before after : List Act} (accounted : Accounted watch)
    (log : watch.log = before ++ .raiseAttempt true :: after)
    (silent : .status .connected ∉ after) : ∀ act ∈ after, ¬ act.succeeds := by
  intro act member succeeds
  obtain ⟨early, late, rfl⟩ := List.append_of_mem member
  have reported := accounted.reported
  rw [log, ← List.cons_append, ← List.append_assoc] at reported
  have last := (Run.along_append.mp reported).2.1 succeeds
  rw [Run.run_concat, List.nil_append] at last
  cases early using List.reverseRecOn with
  | nil =>
      rw [List.getLast?_concat] at last
      cases last
  | append_singleton early status =>
      rw [← List.cons_append, ← List.append_assoc, List.getLast?_concat] at last
      cases last
      exact silent (List.mem_append_left _ (List.mem_append_right _ List.mem_cons_self))

theorem Accounted.within (accounted : Accounted watch)
    (running : watch.daemon.server.reconnectTimer = true) :
    ∃ before after, watch.log = before ++ .raiseAttempt true :: after ∧
      .raiseAttempt true ∉ after ∧ (.status .connected ∉ after →
        1 ≤ watch.daemon.server.reconnectAttempt ∧
          watch.daemon.server.reconnectAttempt ≤ kReconnectMaxAttempts) := by
  have reached := accounted.paced.reached
  have scheduled : (Run.run RetryBudget.step ({} : SotoportegoServer).budget
      (watch.log.map Act.budget)).scheduled = true := by
    rw [reached]
    exact running
  obtain ⟨before, after, split, last, paid⟩ := RetryBudget.scheduled_since rfl scheduled
  obtain ⟨early, rest, log, _, mapped⟩ := List.map_eq_append_iff.mp split
  obtain ⟨act, late, rfl, schedules, rfl⟩ := List.map_eq_cons_iff.mp mapped
  rw [schedule_of_budget schedules] at log
  refine ⟨early, late, log, fun member => last (List.mem_map_of_mem member), fun silent => ?_⟩
  have spent := paid (settle_notMem (accounted.reported_since log silent))
  have top := RetryBudget.spent_le (Nat.zero_le _) accounted.paced.allowed
  rw [reached] at spent top
  exact ⟨spent, top⟩

/-- Reconnects stop at a user `Disconnect`, keep to the budget, and count within it. -/
theorem reconnects_bounded (backends : Backends) (events : List (Event Backends Answer)) :
    (∀ before stopped between act after,
      (Watch.reached api backends events).log =
        before ++ .disconnect stopped :: between ++ act :: after →
      act.begins → .armReconnect ∈ between) ∧
    (Run.Along (Watch.step api) Undisturbed (Watch.started backends) events →
      ∀ before segment after,
        (Watch.reached api backends events).log = before ++ segment ++ after →
        .armReconnect ∉ segment → .enter .connected true ∉ segment →
        segment.countP Act.automatic ≤ kReconnectMaxAttempts) ∧
    ((Watch.reached api backends events).daemon.server.reconnectTimer = true →
      1 ≤ (Watch.reached api backends events).daemon.server.reconnectSecondsLeft ∧
      ∃ before after, (Watch.reached api backends events).log =
          before ++ .raiseAttempt true :: after ∧ .raiseAttempt true ∉ after ∧
        (.status .connected ∉ after →
          1 ≤ (Watch.reached api backends events).daemon.server.reconnectAttempt ∧
            (Watch.reached api backends events).daemon.server.reconnectAttempt ≤
              kReconnectMaxAttempts)) := by
  have accounted := @accounted_reached _ _ api backends events
  refine ⟨?_, ?_, ?_⟩
  · intro before stopped between act after log begins
    exact accounted.armed log begins
  · intro undisturbed before segment after log unarmed failing
    have timely := timely_run (accounted_started backends) trivial undisturbed
    exact accounted.automatic_le timely log unarmed failing
  · intro running
    exact ⟨accounted.paced.ticking (fun idle => nomatch idle) running, accounted.within running⟩

end Runs

end Sotoportego.Server
