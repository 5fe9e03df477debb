import Sotoportego.OpenVPN.DropProperties
import Sotoportego.Server.HostProperties
import Sotoportego.Server.Reports

/-!
# Reports and retries

The server counts reports, not sessions. Where each session ends by one report, the count is
that of the drops, and a countdown runs only while no session does.
-/

set_option autoImplicit false

namespace Sotoportego.Server

open Octets CText
open OpenVPN (Effect Host Launch OpenVPNBackend Reaction)
open Tailscale (VPNState)

/-! ## The queue -/

/-- The sessions of the DISCONNECTED reports in the queue. -/
def dropsIn (queue : List Report) : List Nat :=
  (queue.filter fun report => report.state = .disconnected).map Report.session

def Mailbox.drops (mailbox : Mailbox) : List Nat := dropsIn mailbox.queue

def Mailbox.live (mailbox : Mailbox) : Bool := mailbox.host.backend.live

theorem dropsIn_append (first second : List Report) :
    dropsIn (first ++ second) = dropsIn first ++ dropsIn second := by
  rw [dropsIn, List.filter_append, List.map_append]
  rfl

theorem dropsIn_reportsOf (session : Nat) (effects : List Effect) :
    dropsIn (reportsOf session effects) = List.replicate (effects.countP Effect.drops) session := by
  induction effects with
  | nil => rfl
  | cons effect effects continued =>
      by_cases drops : effect.drops
      · obtain ⟨state, detail, rfl⟩ : ∃ state detail, effect = .notify state detail := by
          cases effect <;> first | exact ⟨_, _, rfl⟩ | cases drops
        obtain rfl : state = .disconnected := of_decide_eq_true drops
        rw [List.countP_cons_of_pos drops, List.replicate_succ, ← continued]
        rfl
      · rw [List.countP_cons_of_neg drops, ← continued]
        cases effect with
        | notify state detail =>
            have other : state ≠ .disconnected := fun same => drops (decide_eq_true same)
            exact congrArg (List.map Report.session) (List.filter_cons_of_neg (by simp [other]))
        | _ => rfl

theorem drops_react (mailbox : Mailbox) (action : OpenVPN.Action) :
    (mailbox.react action).drops = mailbox.drops ++
      List.replicate (mailbox.host.backend.react action).drops (mailbox.sessionAfter action) := by
  rw [Mailbox.drops, Mailbox.react, dropsIn_append, dropsIn_reportsOf]
  rfl

/-! ## The balance -/

/-- A session is retried once: while the user has not stepped in, a running countdown, a live
session and a waiting report of its end exclude each other. -/
structure Balanced (server : SotoportegoServer) (mailbox : Mailbox) (raises : List Nat)
    (due : Option Nat) : Prop where
  known : ∀ session ∈ raises, session ≤ mailbox.session
  once : raises.Nodup
  fresh : mailbox.live = true → mailbox.session ∉ raises
  polling : mailbox.host.backend.mgmtPoll = true → mailbox.host.backend.reader = false ∧
    mailbox.host.backend.state = .connecting ∧
    (mailbox.host.backend.stopRequested = true → server.userInitiatedDisconnect = true)
  counting : server.reconnectTimer = true → server.userInitiatedDisconnect = false ∧
    mailbox.live = false ∧ mailbox.drops = []
  ended : server.userInitiatedDisconnect = false → mailbox.drops = [] ∨
    mailbox.drops = [mailbox.session] ∧ mailbox.live = false ∧ mailbox.session ∉ raises
  due : ∀ session, due = some session → server.retries = true ∧ mailbox.drops = [session]

/-- The server stays as far as the balance goes, or its count starts anew. -/
structure Continues (server next : SotoportegoServer) : Prop where
  timer : next.reconnectTimer = server.reconnectTimer
  asked : next.userInitiatedDisconnect = server.userInitiatedDisconnect
  armed : next.reconnectArmed = server.reconnectArmed
  attempt : next.reconnectAttempt ≤ server.reconnectAttempt

section Balance

variable {server next : SotoportegoServer} {mailbox : Mailbox} {raises : List Nat}
  {due : Option Nat}

theorem retries_iff : server.retries = true ↔ server.userInitiatedDisconnect = false ∧
    server.reconnectArmed = true ∧ server.reconnectAttempt < kReconnectMaxAttempts := by
  simp [SotoportegoServer.retries, and_assoc]

theorem Balanced.continues (balanced : Balanced server mailbox raises due)
    (continues : Continues server next) : Balanced next mailbox raises due := by
  obtain ⟨timer, asked, armed, attempt⟩ := continues
  refine ⟨balanced.known, balanced.once, balanced.fresh, ?_, ?_, ?_, fun session same => ?_⟩
  · rw [asked]
    exact balanced.polling
  · rw [timer, asked]
    exact balanced.counting
  · rw [asked]
    exact balanced.ended
  · obtain ⟨retries, drops⟩ := balanced.due session same
    rw [retries_iff] at retries ⊢
    rw [asked, armed]
    exact ⟨⟨retries.1, retries.2.1, Nat.lt_of_le_of_lt attempt retries.2.2⟩, drops⟩

/-- What starts nothing and reports no drop, or reports it to a server that does not retry. -/
theorem Balanced.tame {action : OpenVPN.Action} (balanced : Balanced server mailbox raises due)
    (session : mailbox.sessionAfter action = mailbox.session)
    (tame : (mailbox.host.backend.react action).Tame mailbox.host.backend)
    (drops : (mailbox.host.backend.react action).drops = 0 ∨
      server.userInitiatedDisconnect = true)
    (stops : (mailbox.react action).host.backend.mgmtPoll = true →
      (mailbox.react action).host.backend.stopRequested = true →
      mailbox.host.backend.stopRequested = true ∨ server.userInitiatedDisconnect = true) :
    Balanced server (mailbox.react action) raises due := by
  have live : (mailbox.react action).live = true → mailbox.live = true := tame.live
  have same : (mailbox.react action).session = mailbox.session := session
  refine ⟨?_, balanced.once, ?_, fun polls => ?_, fun running => ?_, fun going => ?_,
    fun waiting owed => ?_⟩
  · rw [same]
    exact balanced.known
  · rw [same]
    exact fun alive => balanced.fresh (live alive)
  · obtain ⟨polled, reader, state⟩ := tame.polling polls
    obtain ⟨silent, connecting, asked⟩ := balanced.polling polled
    refine ⟨reader.trans silent, state.trans connecting, fun stopped => ?_⟩
    exact (stops polls stopped).elim asked id
  · obtain ⟨going, idle, empty⟩ := balanced.counting running
    have none := drops.resolve_right (by rw [going]; decide)
    refine ⟨going, ?_, ?_⟩
    · exact Bool.eq_false_iff.mpr fun alive => absurd (idle.symm.trans (live alive)) (by decide)
    · rw [drops_react, none, empty]
      rfl
  · have none := drops.resolve_right (by rw [going]; decide)
    rw [drops_react, none, same, List.replicate_zero, List.append_nil]
    refine (balanced.ended going).imp_right fun ended => ⟨ended.1, ?_, ended.2.2⟩
    exact Bool.eq_false_iff.mpr fun alive => absurd (ended.2.1.symm.trans (live alive)) (by decide)
  · obtain ⟨retries, waits⟩ := balanced.due waiting owed
    have none := drops.resolve_right (by rw [(retries_iff.mp retries).1]; decide)
    rw [drops_react, none, List.replicate_zero, List.append_nil]
    exact ⟨retries, waits⟩

theorem balanced_of_vacant (known : ∀ session ∈ raises, session ≤ mailbox.session)
    (once : raises.Nodup) (idle : mailbox.live = false) (empty : mailbox.drops = [])
    (going : server.reconnectTimer = true → server.userInitiatedDisconnect = false) :
    Balanced server mailbox raises none where
  known := known
  once := once
  fresh alive := absurd (idle.symm.trans alive) (by decide)
  polling polls := absurd ((OpenVPN.mgmtPoll_of_ended idle).symm.trans polls) (by decide)
  counting running := ⟨going running, idle, empty⟩
  ended _ := .inl empty
  due _ owed := nomatch owed

theorem Balanced.vacant (balanced : Balanced server mailbox raises due)
    (idle : mailbox.live = false) (empty : mailbox.drops = [])
    (going : next.reconnectTimer = true → next.userInitiatedDisconnect = false) :
    Balanced next mailbox raises none :=
  balanced_of_vacant balanced.known balanced.once idle empty going

theorem Balanced.stopped (balanced : Balanced server mailbox raises due) :
    Balanced server.stopped mailbox raises none where
  known := balanced.known
  once := balanced.once
  fresh := balanced.fresh
  polling polls := by
    obtain ⟨reader, state, -⟩ := balanced.polling polls
    exact ⟨reader, state, fun _ => rfl⟩
  counting running := nomatch running
  ended going := nomatch going
  due _ owed := nomatch owed

/-! ### `Connect` -/

theorem drops_connect (profile : VPNProfile) (launch : Launch) (idle : mailbox.live = false) :
    (mailbox.react (.connect profile launch)).drops = mailbox.drops := by
  rw [drops_react]
  have none := (OpenVPN.connect_spec profile launch idle).drops
  exact (congrArg (mailbox.drops ++ List.replicate · _) none).trans (List.append_nil _)

/-- With nothing alive and no report of an end, a session begins on its own account. -/
theorem Balanced.connected (balanced : Balanced server mailbox raises due)
    (idle : mailbox.live = false) (empty : mailbox.drops = [])
    (still : server.reconnectTimer = false) (profile : VPNProfile) (launch : Launch) :
    Balanced server (mailbox.react (.connect profile launch)) raises none := by
  have begun := OpenVPN.connect_spec profile launch idle
  have polling (polls : (mailbox.react (.connect profile launch)).host.backend.mgmtPoll = true) :=
    begun.polling polls
  have later : mailbox.session ≤ (mailbox.react (.connect profile launch)).session := by
    have steps : (mailbox.react (.connect profile launch)).session =
        mailbox.sessionAfter (.connect profile launch) := rfl
    rw [steps, Mailbox.sessionAfter]
    split
    · exact Nat.le_succ _
    · exact Nat.le_refl _
  refine ⟨fun session member => Nat.le_trans (balanced.known session member) later, balanced.once,
    fun alive member => ?_, fun polls => ?_, fun running => ?_, fun _ => .inl ?_,
    fun _ owed => nomatch owed⟩
  · have polls : (mailbox.react (.connect profile launch)).host.backend.mgmtPoll = true := by
      have alive : (mailbox.host.backend.connect profile launch).2.backend.live = true := alive
      rw [OpenVPNBackend.live, begun.reader, Bool.false_or] at alive
      exact alive
    have next : (mailbox.react (.connect profile launch)).session = mailbox.session + 1 := by
      have steps : (mailbox.react (.connect profile launch)).session =
          mailbox.sessionAfter (.connect profile launch) := rfl
      rw [steps, Mailbox.sessionAfter, (polling polls).1]
    rw [next] at member
    exact absurd (balanced.known _ member) (Nat.not_succ_le_self _)
  · obtain ⟨-, state, going⟩ := polling polls
    exact ⟨begun.reader, state, fun stopped => absurd (going.symm.trans stopped) (by decide)⟩
  · exact absurd (still.symm.trans running) (by decide)
  · rw [drops_connect profile launch idle, empty]

/-- A `Connect` that is refused leaves nothing alive. -/
theorem live_refused {profile : VPNProfile} {launch : Launch} {fault : Fault}
    (idle : mailbox.live = false)
    (refused : (mailbox.host.backend.connect profile launch).1 = .error fault) :
    (mailbox.react (.connect profile launch)).live = false := by
  have begun := OpenVPN.connect_spec profile launch idle
  have live : (mailbox.react (.connect profile launch)).live =
      (mailbox.host.backend.connect profile launch).2.backend.live := rfl
  rw [live, OpenVPNBackend.live, begun.reader, Bool.false_or, Bool.eq_false_iff]
  intro polls
  rw [refused] at begun
  cases (begun.polling polls).1

theorem Balanced.setCredentials (balanced : Balanced server mailbox raises due)
    (user pass : CString) :
    Balanced server (mailbox.react (.setCredentials user pass)) raises due :=
  balanced.tame rfl ⟨id, fun polls => ⟨polls, rfl, rfl⟩⟩ (.inl rfl) fun _ stopped => .inl stopped

/-! ### The end of a session -/

theorem Balanced.readerExited (balanced : Balanced server mailbox raises due)
    (reading : mailbox.host.backend.reader = true)
    (orderly : server.retries = true → mailbox.session ∉ raises →
      mailbox.host.backend.state ≠ .error) :
    Balanced server (mailbox.react .readerExited) raises
      (if server.retries ∧ mailbox.session ∉ raises then some mailbox.session else due) := by
  have alive : mailbox.live = true := by
    rw [Mailbox.live, OpenVPNBackend.live, reading, Bool.true_or]
  have fresh := balanced.fresh alive
  have still : server.reconnectTimer = false := by
    rw [Bool.eq_false_iff]
    intro running
    exact absurd (alive.symm.trans (balanced.counting running).2.1) (by decide)
  have idle : (mailbox.react .readerExited).live = false := by
    have live : (mailbox.react .readerExited).live =
        mailbox.host.backend.readerExited.backend.live := rfl
    rw [live]
    by_cases shown : mailbox.host.backend.state = .error
    · exact (OpenVPN.readerExited_error shown).2
    · exact (OpenVPN.readerExited_dropped shown).2
  have before (going : server.userInitiatedDisconnect = false) : mailbox.drops = [] := by
    obtain empty | ended := balanced.ended going
    · exact empty
    · exact absurd (alive.symm.trans ended.2.1) (by decide)
  have after (going : server.userInitiatedDisconnect = false) :
      (mailbox.react .readerExited).drops =
        List.replicate mailbox.host.backend.readerExited.drops mailbox.session := by
    rw [drops_react, before going]
    rfl
  refine ⟨balanced.known, balanced.once, fun alive => absurd (idle.symm.trans alive) (by decide),
    fun polls => ?_, fun running => absurd (still.symm.trans running) (by decide), fun going => ?_,
    fun session owed => ?_⟩
  · exact absurd ((OpenVPN.mgmtPoll_of_ended idle).symm.trans polls) (by decide)
  · rw [after going]
    by_cases shown : mailbox.host.backend.state = .error
    · rw [(OpenVPN.readerExited_error shown).1]
      exact .inl rfl
    · rw [(OpenVPN.readerExited_dropped shown).1]
      exact .inr ⟨rfl, idle, fresh⟩
  · split_ifs at owed with drops
    · cases owed
      refine ⟨drops.1, ?_⟩
      rw [after (retries_iff.mp drops.1).1,
        (OpenVPN.readerExited_dropped (orderly drops.1 drops.2)).1]
      rfl
    · obtain ⟨retries, waits⟩ := balanced.due session owed
      exact absurd ⟨retries, fresh⟩ drops

end Balance

/-! ## Handlers -/

section Handlers

variable {daemon : Daemon Mailbox} {raises : List Nat} {due : Option Nat}

/-- What becomes due after a request. -/
def dueWith (due : Option Nat) (acts : List Act) : Option Nat :=
  if acts.any Act.asks then none else due

/-- The balance after a handler. -/
def Keeps (handled : Handled Mailbox) (raises : List Nat) (due : Option Nat) : Prop :=
  Balanced handled.daemon.server handled.daemon.backends raises (dueWith due handled.acts)

theorem balanced_setCredentials (balanced : Balanced daemon.server daemon.backends raises due)
    (user pass : CString) :
    Balanced daemon.server (daemon.setCredentials openVPNOnly user pass).backends raises due ∧
      (daemon.setCredentials openVPNOnly user pass).backends.live = daemon.backends.live ∧
      (daemon.setCredentials openVPNOnly user pass).backends.drops = daemon.backends.drops := by
  unfold Daemon.setCredentials
  split_ifs
  · exact ⟨balanced, rfl, rfl⟩
  · refine ⟨balanced.setCredentials user pass, rfl, ?_⟩
    have drops := drops_react daemon.backends (.setCredentials user pass)
    exact drops.trans (List.append_nil _)

theorem keeps_launch {request : ConnectRequest} {launch : Launch}
    (balanced : Balanced daemon.server daemon.backends raises due)
    (idle : daemon.backends.live = false) (empty : daemon.backends.drops = []) :
    Keeps (daemon.launch openVPNOnly request launch) raises due := by
  obtain ⟨ready, live, drops⟩ := balanced_setCredentials balanced request.user request.pass
  have armed : (daemon.armed openVPNOnly request).server =
      daemon.server.armReconnect request.profile request.user request.pass := server_armed request
  have vacant : Balanced (daemon.armed openVPNOnly request).server
      (daemon.armed openVPNOnly request).backends raises none := by
    refine ready.vacant (live.trans idle) (drops.trans empty) fun running => ?_
    rw [armed] at running
    cases running
  have still : (daemon.armed openVPNOnly request).server.reconnectTimer = false := by
    rw [armed]
    rfl
  have connected := vacant.connected (live.trans idle) (drops.trans empty) still request.keyed launch
  unfold Daemon.launch
  dsimp only
  cases ((daemon.armed openVPNOnly request).connectBackend openVPNOnly request.keyed launch).1 with
  | ok done => exact connected
  | error fault => exact connected.continues ⟨rfl, rfl, rfl, Nat.le_refl _⟩

/-- A backend that shows no live state does not poll. -/
theorem live_of_reader (balanced : Balanced daemon.server daemon.backends raises due)
    (terminal : ¬ liveState (daemon.state openVPNOnly))
    (reader : daemon.backends.host.backend.reader = false) : daemon.backends.live = false := by
  rw [Mailbox.live, OpenVPNBackend.live, reader, Bool.false_or, Bool.eq_false_iff]
  intro polls
  have connecting : daemon.state openVPNOnly = .connecting := (balanced.polling polls).2.1
  rw [connecting] at terminal
  exact terminal rfl

/-- No reader runs, and no report of an end is on its way. -/
def Vacated (mailbox : Mailbox) : Prop :=
  mailbox.host.backend.reader = false ∧ mailbox.drops = []

theorem keeps_handleConnect {request : ConnectRequest} {readable : Bool} {launch : Launch}
    (balanced : Balanced daemon.server daemon.backends raises due)
    (orderly : ¬ liveState (daemon.state openVPNOnly) → ¬ request.BadPath readable →
      Vacated daemon.backends) :
    Keeps (daemon.handleConnect openVPNOnly request readable launch) raises due := by
  unfold Daemon.handleConnect
  split_ifs with live bad
  · exact balanced
  · exact balanced.continues ⟨rfl, rfl, rfl, Nat.le_refl _⟩
  · obtain ⟨reader, empty⟩ := orderly live bad
    have selected : Balanced (daemon.select request.unarchived.backendType).server
        daemon.backends raises due := balanced.continues ⟨rfl, rfl, rfl, Nat.le_refl _⟩
    exact @keeps_launch (daemon.select request.unarchived.backendType) _ _ _ _ selected
      (@live_of_reader daemon _ _ balanced live reader) empty

theorem keeps_handleConnectVPNGate {request : VPNGateRequest} {staged : CString}
    {readable : Bool} {launch : Launch}
    (balanced : Balanced daemon.server daemon.backends raises due)
    (orderly : request.host ≠ none → request.configBase64 ≠ none → staged ≠ .empty →
      ¬ liveState (daemon.state openVPNOnly) → pathOk staged readable →
      Vacated daemon.backends) :
    Keeps (daemon.handleConnectVPNGate openVPNOnly request staged readable launch) raises due := by
  unfold Daemon.handleConnectVPNGate
  split
  · next host config named given =>
    dsimp only
    split_ifs with missing
    · exact balanced.continues ⟨rfl, rfl, rfl, Nat.le_refl _⟩
    · have recorded : Balanced (daemon.withHost host).server daemon.backends raises due :=
        balanced.continues ⟨rfl, rfl, rfl, Nat.le_refl _⟩
      refine @keeps_handleConnect (daemon.withHost host) _ _ _ _ _ recorded fun idle fine => ?_
      refine orderly (by simp [named]) (by simp [given]) missing idle ?_
      rw [badPath_gate, not_not] at fine
      exact fine
  · exact balanced

theorem keeps_handleDisconnect (balanced : Balanced daemon.server daemon.backends raises due) :
    Keeps (daemon.handleDisconnect openVPNOnly) raises due := by
  have stopped : Balanced daemon.server.stopped (daemon.backends.react .disconnect) raises none := by
    have tame := @OpenVPN.disconnect_spec daemon.backends.host.backend
    exact balanced.stopped.tame rfl tame.1 (.inl tame.2) fun _ _ => .inr rfl
  unfold Daemon.handleDisconnect
  dsimp only
  split_ifs
  · exact stopped.continues ⟨rfl, rfl, rfl, Nat.le_refl _⟩
  · exact stopped

theorem countdown_going {server : SotoportegoServer} (timerStarts : Bool)
    (going : server.reconnectTimer = true → server.userInitiatedDisconnect = false)
    (running : (server.startReconnectCountdown timerStarts).server.reconnectTimer = true) :
    (server.startReconnectCountdown timerStarts).server.userInitiatedDisconnect = false := by
  unfold SotoportegoServer.startReconnectCountdown at running ⊢
  split_ifs at running ⊢ with spent starts
  · exact going running
  · simp only [not_or, Bool.not_eq_true] at spent
    exact spent.1
  · cases running

theorem keeps_attemptReconnect {launch : Launch} {timerStarts : Bool}
    (balanced : Balanced daemon.server daemon.backends raises none)
    (still : daemon.server.reconnectTimer = false) (idle : daemon.backends.live = false)
    (empty : daemon.backends.drops = []) :
    Keeps (daemon.attemptReconnect openVPNOnly launch timerStarts) raises none := by
  have selected : Balanced (daemon.select daemon.retryProfile.backendType).server
      daemon.backends raises none := balanced.continues ⟨rfl, rfl, rfl, Nat.le_refl _⟩
  obtain ⟨ready, live, drops⟩ := @balanced_setCredentials
    (daemon.select daemon.retryProfile.backendType) _ _ selected daemon.server.reconnectUser
    daemon.server.reconnectPass
  have server : (daemon.readied openVPNOnly).server =
      (daemon.select daemon.retryProfile.backendType).server := server_setCredentials _ _
  have readied : Balanced (daemon.readied openVPNOnly).server
      (daemon.readied openVPNOnly).backends raises none := by
    rw [server]
    exact ready
  have resting : (daemon.readied openVPNOnly).server.reconnectTimer = false := by
    rw [server]
    exact still
  have vacant := live.trans idle
  have connected := readied.connected vacant (drops.trans empty) resting daemon.retryProfile launch
  have drained := (drops_connect daemon.retryProfile launch vacant).trans (drops.trans empty)
  unfold Daemon.attemptReconnect
  dsimp only
  cases called : ((daemon.readied openVPNOnly).connectBackend openVPNOnly daemon.retryProfile
      launch).1 with
  | ok done => exact connected
  | error fault =>
      have emptied := connected.vacant (live_refused vacant called) drained
        (countdown_going timerStarts fun running => absurd (resting.symm.trans running) (by decide))
      rw [Keeps, dueWith]
      split_ifs
      · exact emptied
      · exact emptied

theorem keeps_handleReconnectTick {launch : Launch} {timerStarts : Bool}
    (balanced : Balanced daemon.server daemon.backends raises due) :
    Keeps (daemon.handleReconnectTick openVPNOnly launch timerStarts) raises due := by
  unfold Daemon.handleReconnectTick
  split_ifs with ignored more
  · exact balanced
  · exact balanced.continues ⟨rfl, rfl, rfl, Nat.le_refl _⟩
  · simp only [not_or, Bool.not_eq_true, Bool.not_eq_false] at ignored
    obtain ⟨-, idle, empty⟩ := balanced.counting ignored.1
    have settled : due = none := by
      rw [Option.eq_none_iff_forall_ne_some]
      intro session owed
      have waits := (balanced.due session owed).2
      rw [empty] at waits
      cases waits
    rw [settled]
    exact @keeps_attemptReconnect (daemon.withServer daemon.server.cancelReconnect) _ _ _
      (balanced.vacant idle empty fun running => nomatch running) rfl idle empty

theorem keeps_takeState {server : SotoportegoServer} (state : VPNState)
    (balanced : Balanced server daemon.backends raises due) :
    Balanced ((daemon.withServer server).takeState state).daemon.server
      ((daemon.withServer server).takeState state).daemon.backends raises due := by
  unfold Daemon.takeState
  dsimp only
  split_ifs
  · exact balanced.continues ⟨rfl, rfl, rfl, Nat.le_refl _⟩
  · exact balanced.continues ⟨rfl, rfl, rfl, Nat.zero_le _⟩
  · exact balanced.continues ⟨rfl, rfl, rfl, Nat.le_refl _⟩

theorem raises_takeState (state : VPNState) :
    (daemon.takeState state).acts.any Act.raises = false := by
  unfold Daemon.takeState
  dsimp only
  split_ifs <;> rfl

theorem raises_handleStatus (state : VPNState) (detail : Option Bytes) (timerStarts : Bool) :
    (daemon.handleStatus state detail timerStarts).acts.any Act.raises =
      (daemon.server.dropped state timerStarts).acts.any Act.raises := by
  unfold Daemon.handleStatus
  dsimp only
  rw [List.cons_append, List.cons_append, List.any_cons, List.any_append, List.any_append,
    raises_takeState]
  simp [Act.raises]

/-! ### Reports -/

theorem startReconnectCountdown_retries {server : SotoportegoServer} (timerStarts : Bool)
    (retries : server.retries = true) :
    (server.startReconnectCountdown timerStarts).acts = [.raiseAttempt timerStarts] := by
  obtain ⟨going, armed, below⟩ := retries_iff.mp retries
  unfold SotoportegoServer.startReconnectCountdown
  rw [if_neg (by simp [going, armed, below])]
  cases timerStarts <;> rfl

theorem startReconnectCountdown_refused {server : SotoportegoServer} (timerStarts : Bool)
    (refused : ¬ server.retries = true) :
    server.startReconnectCountdown timerStarts = ⟨server, false, []⟩ := by
  refine if_pos ?_
  by_contra allowed
  simp only [not_or, Bool.not_eq_true, Bool.not_eq_false, Nat.not_le] at allowed
  exact refused (retries_iff.mpr allowed)

section Taken

variable {server : SotoportegoServer} {mailbox : Mailbox} {report : Report} {queue : List Report}

theorem drops_other (waiting : mailbox.queue = report :: queue)
    (other : report.state ≠ .disconnected) : mailbox.drops = dropsIn queue := by
  rw [Mailbox.drops, waiting]
  exact congrArg (List.map Report.session) (List.filter_cons_of_neg (by simp [other]))

theorem drops_drop (waiting : mailbox.queue = report :: queue)
    (drop : report.state = .disconnected) : mailbox.drops = report.session :: dropsIn queue := by
  rw [Mailbox.drops, waiting]
  exact congrArg (List.map Report.session) (List.filter_cons_of_pos (by simp [drop]))

theorem Balanced.taken_other (balanced : Balanced server mailbox raises due)
    (waiting : mailbox.queue = report :: queue) (other : report.state ≠ .disconnected) :
    Balanced server { mailbox with queue } raises due := by
  have same : ({ mailbox with queue } : Mailbox).drops = mailbox.drops :=
    (drops_other waiting other).symm
  refine ⟨balanced.known, balanced.once, balanced.fresh, balanced.polling, ?_, ?_, ?_⟩
  · rw [same]
    exact balanced.counting
  · rw [same]
    exact balanced.ended
  · rw [same]
    exact balanced.due

/-- The report of a drop that is not retried. -/
theorem Balanced.taken_refused (balanced : Balanced server mailbox raises due)
    (waiting : mailbox.queue = report :: queue) (drop : report.state = .disconnected)
    (refused : ¬ server.retries = true) : Balanced server { mailbox with queue } raises due := by
  have drops := drops_drop waiting drop
  refine ⟨balanced.known, balanced.once, balanced.fresh, balanced.polling, fun running => ?_,
    fun going => .inl ?_, fun session owed => ?_⟩
  · have empty := (balanced.counting running).2.2
    rw [drops] at empty
    cases empty
  · obtain empty | ended := balanced.ended going
    · rw [drops] at empty
      cases empty
    · rw [drops] at ended
      exact (List.cons.inj ended.1).2
  · exact absurd (balanced.due session owed).1 refused

/-- The report of a drop that is: it is the last of its session. -/
theorem Balanced.taken_retried (balanced : Balanced server mailbox raises due)
    (waiting : mailbox.queue = report :: queue) (drop : report.state = .disconnected)
    (retries : server.retries = true) (timerStarts : Bool) :
    Balanced (server.startReconnectCountdown timerStarts).server { mailbox with queue }
        (report.session :: raises) none ∧ (due ≠ none → due = some report.session) := by
  have drops := drops_drop waiting drop
  have going := (retries_iff.mp retries).1
  obtain empty | ⟨ended, idle, fresh⟩ := balanced.ended going
  · rw [drops] at empty
    cases empty
  · rw [drops] at ended
    obtain ⟨session, rest⟩ := List.cons.inj ended
    refine ⟨balanced_of_vacant ?_ ?_ idle rest (countdown_going timerStarts fun _ => going),
      fun owes => ?_⟩
    · intro other member
      obtain rfl | member := List.mem_cons.mp member
      · exact Nat.le_of_eq session
      · exact balanced.known other member
    · rw [session]
      exact List.nodup_cons.mpr ⟨fresh, balanced.once⟩
    · obtain ⟨waiting, owed⟩ := Option.ne_none_iff_exists'.mp owes
      have waits := (balanced.due waiting owed).2
      rw [drops, rest] at waits
      rw [owed, (List.cons.inj waits).1]

end Taken

end Handlers

/-! ## Runs -/

namespace Desk

variable {desk : Desk}

/-- Who sends the message: the server takes reports off the queue, the backend gets its
requests from the server, and messages of a reader need one. -/
def Possible (desk : Desk) : Occurrence → Prop
  | .request (.statusUpdate _ _ _) => False
  | .request _ => True
  | .backend (.connect _ _) | .backend (.setCredentials _ _) | .backend .disconnect => False
  | .backend action => OpenVPN.Possible desk.daemon.backends.host action
  | .report _ => True

instance (desk : Desk) : ∀ occurrence, Decidable (desk.Possible occurrence)
  | .request (.statusUpdate _ _ _) => inferInstanceAs (Decidable False)
  | .request (.connect _ _ _) | .request .disconnect | .request (.connectVPNGate _ _ _ _)
  | .request (.reconnectTick _ _) | .request (.homeGeoResult _) | .request (.countryResult _)
  | .report _ | .backend (.tryMgmtConnect _) | .backend (.scan _) =>
      inferInstanceAs (Decidable True)
  | .backend (.connect _ _) | .backend (.setCredentials _ _) | .backend .disconnect =>
      inferInstanceAs (Decidable False)
  | .backend (.event _ _) | .backend .readerExited => inferInstanceAs (Decidable (_ = true))

/-- A fresh status does not tell of a drop while a countdown runs. -/
def Informed (desk : Desk) : Prop :=
  desk.daemon.server.reconnectTimer = true → desk.daemon.state openVPNOnly ≠ .disconnected

/-- openvpn announces its exit only when asked to exit, a session that drops shows no error, the
user connects when the session before is over and reported, and no lookup ends in a countdown. -/
def Orderly (desk : Desk) : Occurrence → Prop
  | .request (.connect request readable _) =>
      ¬ liveState (desk.daemon.state openVPNOnly) → ¬ request.BadPath readable →
        Vacated desk.daemon.backends
  | .request (.connectVPNGate request staged readable _) =>
      request.host ≠ none → request.configBase64 ≠ none → staged ≠ .empty →
        ¬ liveState (desk.daemon.state openVPNOnly) → pathOk staged readable →
        Vacated desk.daemon.backends
  | .request (.homeGeoResult changed) => changed = true → desk.Informed
  | .request (.countryResult known) =>
      desk.daemon.server.lastState = .connected ∧ known = true → desk.Informed
  | .backend (.event event _) => OpenVPN.Exiting desk.daemon.backends.host.backend event →
      desk.daemon.server.userInitiatedDisconnect = true
  | .backend .readerExited => desk.daemon.server.retries = true →
      desk.daemon.backends.session ∉ desk.raises →
        desk.daemon.backends.host.backend.state ≠ .error
  | _ => True

/-- The balance of a desk. -/
def Even (desk : Desk) : Prop :=
  Balanced desk.daemon.server desk.daemon.backends desk.raises desk.due

theorem even_request {message : Message Launch} (even : desk.Even)
    (possible : desk.Possible (.request message)) (orderly : desk.Orderly (.request message)) :
    (desk.step (.request message)).Even := by
  cases message with
  | connect request readable launch => exact keeps_handleConnect even orderly
  | disconnect => exact keeps_handleDisconnect even
  | connectVPNGate request staged readable launch => exact keeps_handleConnectVPNGate even orderly
  | statusUpdate state detail timerStarts => cases possible
  | reconnectTick launch timerStarts => exact keeps_handleReconnectTick even
  | homeGeoResult changed => cases changed <;> exact even
  | countryResult known =>
      have kept : Keeps (desk.daemon.handle openVPNOnly (.countryResult known)) desk.raises
          desk.due := by
        unfold Daemon.handle
        dsimp only
        split_ifs
        · exact even
        · exact even
      exact kept

theorem even_backend {action : OpenVPN.Action} (even : desk.Even)
    (possible : desk.Possible (.backend action)) (orderly : desk.Orderly (.backend action)) :
    (desk.step (.backend action)).Even := by
  cases action with
  | connect | setCredentials | disconnect => cases possible
  | tryMgmtConnect probe =>
      have polled := @OpenVPN.polled_tryMgmtConnect desk.daemon.backends.host.backend probe
      refine Balanced.tame even rfl polled.tame (polled.drops.imp_right fun cancelled => ?_)
        fun polls stopped => .inl ?_
      · exact (even.polling cancelled.1).2.2 cancelled.2
      · exact (polled.stopRequested polls).symm.trans stopped
  | event event meanwhile =>
      have inert := @OpenVPN.inert_handleManagementEvent desk.daemon.backends.host.backend
        event.posted meanwhile
      have reading : desk.daemon.backends.host.backend.reader = true := possible
      have idle : ¬ desk.daemon.backends.host.backend.mgmtPoll = true := fun polls =>
        absurd (reading.symm.trans (even.polling polls).1) (by decide)
      refine Balanced.tame even rfl (OpenVPN.tame_of_inert inert fun polls => absurd polls idle) ?_
        fun polls _ => absurd ?_ idle
      · by_cases exiting : OpenVPN.Exiting desk.daemon.backends.host.backend event
        · exact .inr (orderly exiting)
        · exact .inl (OpenVPN.drops_event meanwhile exiting)
      · exact (congrArg OpenVPN.Holdings.mgmtPoll inert.holdings).symm.trans polls
  | scan line =>
      have inert : (desk.daemon.backends.host.backend.scanLogLine line).quiet.Inert
          desk.daemon.backends.host.backend :=
        ⟨OpenVPN.holdings_scanLogLine line, fun _ member => nomatch member⟩
      refine Balanced.tame even rfl (OpenVPN.tame_of_inert inert fun _ =>
        OpenVPN.state_scanLogLine _ line) (.inl rfl) fun _ stopped => .inl ?_
      exact (OpenVPN.stopRequested_scanLogLine line).symm.trans stopped
  | readerExited => exact Balanced.readerExited even possible orderly

theorem handled_report {report : Report} {queue : List Report}
    (waiting : desk.daemon.backends.queue = report :: queue) (timerStarts : Bool) :
    desk.handled (.report timerStarts) =
      (desk.withMailbox { desk.daemon.backends with queue }).handleStatus report.state
        report.detail timerStarts := by
  unfold handled
  rw [waiting]

theorem even_report (timerStarts : Bool) (even : desk.Even) :
    (desk.step (.report timerStarts)).Even := by
  cases waiting : desk.daemon.backends.queue with
  | nil =>
      have same : desk.step (.report timerStarts) = desk := by
        simp [step, handled, raisesAfter, dueAfter, waiting]
      rw [same]
      exact even
  | cons report queue =>
      have raising := @raises_handleStatus (desk.withMailbox { desk.daemon.backends with queue })
        report.state report.detail timerStarts
      unfold step Even raisesAfter dueAfter
      rw [handled_report waiting, waiting, raising]
      refine keeps_takeState _ ?_
      by_cases drop : report.state = .disconnected
      · have counted : (desk.withMailbox { desk.daemon.backends with queue }).server.dropped
            report.state timerStarts = desk.daemon.server.startReconnectCountdown timerStarts :=
          if_pos drop
        rw [counted]
        by_cases retries : desk.daemon.server.retries = true
        · obtain ⟨balanced, mine⟩ := Balanced.taken_retried even waiting drop retries timerStarts
          rw [startReconnectCountdown_retries timerStarts retries]
          have cleared : (if desk.due = some report.session then none else desk.due) = none := by
            split_ifs with own
            · rfl
            · by_contra owes
              exact own (mine owes)
          simp only [List.any_cons, Act.raises, Bool.true_or, if_true, true_and, List.head?_cons,
            Option.map_some, cleared]
          exact balanced
        · rw [startReconnectCountdown_refused timerStarts retries]
          exact Balanced.taken_refused even waiting drop retries
      · have counted : (desk.withMailbox { desk.daemon.backends with queue }).server.dropped
            report.state timerStarts = ⟨desk.daemon.server, false, []⟩ := if_neg drop
        rw [counted]
        exact Balanced.taken_other even waiting drop

/-! ### What is told of a drop -/

/-- Clients are told of DISCONNECTED with no countdown pending. -/
def Frank (desk : Desk) (occurrence : Occurrence) : Prop :=
  ∀ detail host, .broadcast .disconnected detail host ∈ (desk.handled occurrence).acts →
    (desk.step occurrence).daemon.server.reconnectTimer = false

theorem silent_handleConnect {daemon : Daemon Mailbox} {request : ConnectRequest}
    {readable : Bool} {launch : Launch} {state : VPNState} {detail : Option Bytes}
    {host : CString} :
    .broadcast state detail host ∉
      (daemon.handleConnect openVPNOnly request readable launch).acts := by
  simp only [Daemon.handleConnect, Daemon.launch, Daemon.refuse, Daemon.answered]
  split_ifs
  · simp
  · simp
  · split <;> simp

theorem silent_handleConnectVPNGate {daemon : Daemon Mailbox} {request : VPNGateRequest}
    {staged : CString} {readable : Bool} {launch : Launch} {state : VPNState}
    {detail : Option Bytes} {host : CString} :
    .broadcast state detail host ∉
      (daemon.handleConnectVPNGate openVPNOnly request staged readable launch).acts := by
  unfold Daemon.handleConnectVPNGate
  split
  · dsimp only
    split_ifs
    · simp [Daemon.refuse]
    · exact silent_handleConnect
  · exact List.not_mem_nil

theorem reconnecting_retried {daemon : Daemon Mailbox} {status : Status} {timerStarts : Bool}
    {state : VPNState} {detail : Option Bytes} {host : CString}
    (told : .broadcast state detail host ∈ (daemon.retried status timerStarts).acts) :
    state = .reconnecting := by
  have counted : .broadcast state detail host ∉
      (daemon.server.startReconnectCountdown timerStarts).acts := by
    unfold SotoportegoServer.startReconnectCountdown
    split_ifs <;> simp
  cases status with
  | ok done => cases told
  | error fault =>
      have told := (List.mem_append.mp told).resolve_left counted
      split_ifs at told
      · cases List.mem_singleton.mp told
        rfl
      · cases told

theorem reconnecting_handleReconnectTick {daemon : Daemon Mailbox} {launch : Launch}
    {timerStarts : Bool} {state : VPNState} {detail : Option Bytes} {host : CString}
    (told : .broadcast state detail host ∈
      (daemon.handleReconnectTick openVPNOnly launch timerStarts).acts) :
    state = .reconnecting := by
  simp only [Daemon.handleReconnectTick, Daemon.attemptReconnect] at told
  split_ifs at told
  · cases told
  · cases List.mem_singleton.mp told
    rfl
  · obtain same | told := List.mem_cons.mp told
    · cases same
    · exact reconnecting_retried told

/-- A fresh status tells of a drop only to a desk without a countdown. -/
theorem idle_of_informed {detail : Option Bytes} {host : CString} (informed : desk.Informed)
    (told : .broadcast .disconnected detail host ∈
      (desk.daemon.broadcastStatus openVPNOnly).acts) :
    desk.daemon.server.reconnectTimer = false := by
  have shown := (Act.broadcast.inj (List.mem_singleton.mp told)).1
  rw [Bool.eq_false_iff]
  intro running
  exact informed running shown.symm

theorem frank_request {message : Message Launch}
    (possible : desk.Possible (.request message)) (orderly : desk.Orderly (.request message)) :
    desk.Frank (.request message) := by
  intro detail host told
  cases message with
  | connect request readable launch => exact absurd told silent_handleConnect
  | disconnect =>
      unfold step handled Daemon.handle Daemon.handleDisconnect
      dsimp only
      split_ifs <;> rfl
  | connectVPNGate request staged readable launch =>
      exact absurd told silent_handleConnectVPNGate
  | statusUpdate state detail timerStarts => cases possible
  | reconnectTick launch timerStarts => cases reconnecting_handleReconnectTick told
  | homeGeoResult changed =>
      cases changed with
      | false => cases told
      | true => exact idle_of_informed (orderly rfl) told
  | countryResult known =>
      unfold step handled Daemon.handle at *
      dsimp only at *
      split_ifs at told ⊢ with answered
      · exact idle_of_informed (orderly answered) told
      · cases told

theorem silent_takeState {daemon : Daemon Mailbox} {state shown : VPNState} {detail : Option Bytes}
    {host : CString} : .broadcast shown detail host ∉ (daemon.takeState state).acts := by
  unfold Daemon.takeState
  dsimp only
  split_ifs <;> simp

theorem timer_takeState {daemon : Daemon Mailbox} (state : VPNState) :
    (daemon.takeState state).daemon.server.reconnectTimer = daemon.server.reconnectTimer := by
  unfold Daemon.takeState
  dsimp only
  split_ifs <;> rfl

theorem timer_startReconnectCountdown {server : SotoportegoServer} {timerStarts : Bool}
    (idle : server.reconnectTimer = false)
    (silent : (server.startReconnectCountdown timerStarts).running = false) :
    (server.startReconnectCountdown timerStarts).server.reconnectTimer = false := by
  unfold SotoportegoServer.startReconnectCountdown at silent ⊢
  split_ifs at silent ⊢
  · exact idle
  · rfl

theorem quiet_of_told {countdown : SotoportegoServer.Countdown} {state : VPNState}
    (told : countdown.told state = .disconnected) :
    countdown.running = false ∧ state = .disconnected := by
  unfold SotoportegoServer.Countdown.told at told
  split_ifs at told with running
  exact ⟨Bool.eq_false_iff.mpr running, told⟩

/-- A drop that is told as such starts no countdown, and ends none. -/
theorem frank_handleStatus {daemon : Daemon Mailbox} {state : VPNState}
    {detail shown : Option Bytes} {host : CString} {timerStarts : Bool}
    (idle : state = .disconnected → daemon.server.reconnectTimer = false)
    (told : .broadcast .disconnected shown host ∈
      (daemon.handleStatus state detail timerStarts).acts) :
    (daemon.handleStatus state detail timerStarts).daemon.server.reconnectTimer = false := by
  have counted : .broadcast .disconnected shown host ∉
      (daemon.server.dropped state timerStarts).acts := by
    unfold SotoportegoServer.dropped SotoportegoServer.startReconnectCountdown
    split_ifs <;> simp
  have same : (daemon.server.dropped state timerStarts).told state = .disconnected := by
    unfold Daemon.handleStatus at told
    simp only [List.cons_append, List.append_assoc, List.mem_cons, List.mem_append,
      List.not_mem_nil, or_false, reduceCtorEq, false_or, counted, silent_takeState] at told
    exact (Act.broadcast.inj told).1.symm
  have kept : (daemon.handleStatus state detail timerStarts).daemon.server.reconnectTimer =
      (daemon.server.dropped state timerStarts).server.reconnectTimer := timer_takeState _
  obtain ⟨silent, drop⟩ := quiet_of_told same
  rw [kept]
  rw [SotoportegoServer.dropped, if_pos drop] at silent ⊢
  exact timer_startReconnectCountdown (idle drop) silent

theorem frank_report (timerStarts : Bool) (even : desk.Even) :
    desk.Frank (.report timerStarts) := by
  intro detail host told
  cases waiting : desk.daemon.backends.queue with
  | nil =>
      unfold handled at told
      rw [waiting] at told
      cases told
  | cons report queue =>
      unfold step
      rw [handled_report waiting] at *
      refine frank_handleStatus (fun drop => ?_) told
      rw [Bool.eq_false_iff]
      intro running
      have empty := (even.counting running).2.2
      rw [drops_drop waiting drop] at empty
      cases empty

theorem even_step {occurrence : Occurrence} (even : desk.Even)
    (possible : desk.Possible occurrence) (orderly : desk.Orderly occurrence) :
    (desk.step occurrence).Even ∧ desk.Frank occurrence := by
  cases occurrence with
  | request message =>
      exact ⟨even_request even possible orderly, frank_request possible orderly⟩
  | backend action => exact ⟨even_backend even possible orderly, fun _ _ told => nomatch told⟩
  | report timerStarts => exact ⟨even_report timerStarts even, frank_report timerStarts even⟩

theorem even_run {occurrences : List Occurrence} (even : desk.Even)
    (possible : Run.Along step Possible desk occurrences)
    (orderly : Run.Along step Orderly desk occurrences) :
    (Run.run step desk occurrences).Even ∧ Run.Along step Frank desk occurrences :=
  And.symm (Run.along_invariant (fun _ _ met even => And.symm (even_step even met.1 met.2))
    (possible.and orderly) even)

/-- No session has raised the attempt twice, and one whose raise is due has its report on the
way. -/
def Accounted (desk : Desk) : Prop :=
  desk.raises.Nodup ∧ ∀ session, desk.due = some session → session ∈ desk.daemon.backends.drops

end Desk

/-- Each drop is retried once, and DISCONNECTED is told with no countdown pending. -/
def CountsSessions (host : Host) (occurrences : List Occurrence) : Prop :=
  (Run.run Desk.step (Desk.started host) occurrences).Accounted ∧
    Run.Along Desk.step Desk.Frank (Desk.started host) occurrences

theorem drops_counted (table : List Tailscale.KernelRoute) (sessionFile : OpenVPN.SessionFile)
    (occurrences : List Occurrence)
    (possible : Run.Along Desk.step Desk.Possible
      (Desk.started (OpenVPN.booted table sessionFile)) occurrences)
    (orderly : Run.Along Desk.step Desk.Orderly
      (Desk.started (OpenVPN.booted table sessionFile)) occurrences) :
    CountsSessions (OpenVPN.booted table sessionFile) occurrences := by
  have start : (Desk.started (OpenVPN.booted table sessionFile)).Even :=
    balanced_of_vacant (fun _ member => nomatch member) List.nodup_nil rfl rfl
      fun running => nomatch running
  obtain ⟨even, frank⟩ := Desk.even_run start possible orderly
  refine ⟨⟨even.once, fun session owed => ?_⟩, frank⟩
  rw [(even.due session owed).2]
  exact List.mem_singleton_self session

/-! openvpn dies at once, or announces its exit first. -/

namespace Sample

def office : ConnectRequest where
  profile := some OpenVPN.Sample.profile.archive

def connected : List Occurrence :=
  [.request (.connect office true (OpenVPN.Sample.launch 100 "aaaaaa")),
    .backend (.tryMgmtConnect OpenVPN.Sample.reached), .report true]

def died : List Occurrence := connected ++ [.backend .readerExited, .report true]

def announced : List Occurrence :=
  connected ++ [.backend OpenVPN.Sample.exiting, .report true, .backend .readerExited, .report true]

end Sample

theorem drops_counted_sample :
    (Run.run Desk.step (Desk.started (OpenVPN.booted [] .absent)) Sample.died).raises = [1] ∧
      CountsSessions (OpenVPN.booted [] .absent) Sample.died := by
  refine ⟨by decide +kernel, drops_counted [] .absent Sample.died (by decide +kernel)
    ⟨fun _ _ => ⟨rfl, rfl⟩, trivial, trivial, fun _ _ => ?_, trivial, trivial⟩⟩
  decide +kernel

theorem exit_counted_twice :
    Run.Along Desk.step Desk.Possible (Desk.started (OpenVPN.booted [] .absent))
        Sample.announced ∧
      ¬ CountsSessions (OpenVPN.booted [] .absent) Sample.announced :=
  ⟨by decide +kernel, fun counted => absurd counted.1.1 (by decide +kernel)⟩

end Sotoportego.Server
