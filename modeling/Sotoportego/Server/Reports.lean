import Sotoportego.OpenVPN.Backend
import Sotoportego.Server.Server

/-!
# The server and its OpenVPN backend

Without the other backends every profile goes to `fOpenVPN`. What the backend posts waits in
the queue of the looper, with the session it is about.
-/

set_option autoImplicit false

namespace Sotoportego.Server

open Octets CText
open OpenVPN (Effect Host Launch)
open Tailscale (VPNState)

/-- A status update on its way. -/
structure Report where
  session : Nat
  state : VPNState
  detail : Option Bytes

/-- The backend, the sessions it has begun, and its reports that the server has not taken. -/
structure Mailbox where
  host : Host := {}
  session : Nat := 0
  queue : List Report := []

/-- The reports among the effects of a session. -/
def reportsOf (session : Nat) (effects : List Effect) : List Report :=
  effects.filterMap fun effect =>
    match effect with
    | .notify state detail => some ⟨session, state, detail⟩
    | _ => none

namespace Mailbox

variable (mailbox : Mailbox)

/-- A session begins where `Connect` spawns openvpn. -/
def sessionAfter : OpenVPN.Action → Nat
  | .connect profile launch =>
      match (mailbox.host.backend.connect profile launch).1 with
      | .ok () => mailbox.session + 1
      | .error _ => mailbox.session
  | _ => mailbox.session

def react (action : OpenVPN.Action) : Mailbox where
  host := mailbox.host.step action
  session := mailbox.sessionAfter action
  queue := mailbox.queue ++
    reportsOf (mailbox.sessionAfter action) (mailbox.host.backend.react action).effects

end Mailbox

/-- Whatever the server selects, it is the OpenVPN backend. -/
def openVPNOnly : VPNBackends Mailbox Launch where
  state := fun _ mailbox => mailbox.host.backend.state
  setCredentials := fun _ user pass mailbox => mailbox.react (.setCredentials user pass)
  connect := fun _ profile launch mailbox =>
    ((mailbox.host.backend.connect profile launch).1, mailbox.react (.connect profile launch))
  disconnect := fun _ mailbox => mailbox.react .disconnect

/-- What `_StartReconnectCountdown` asks for. -/
def SotoportegoServer.retries (server : SotoportegoServer) : Bool :=
  !server.userInitiatedDisconnect && server.reconnectArmed &&
    server.reconnectAttempt < kReconnectMaxAttempts

/-- What the looper takes up next. -/
inductive Occurrence where
  /-- A message that no backend has posted to the server. -/
  | request (message : Message Launch)
  | backend (action : OpenVPN.Action)
  /-- The oldest report. -/
  | report (timerStarts : Bool)

/-- The daemon, and the account of its sessions. -/
structure Desk where
  daemon : Daemon Mailbox
  /-- The sessions whose reports have raised `fReconnectAttempt`. -/
  raises : List Nat := []
  /-- The session that has dropped and whose raise is due, unless the user steps in. -/
  due : Option Nat := none

namespace Desk

variable (desk : Desk)

def started (host : Host) : Desk where
  daemon := { server := {}, backends := { host } }

def withMailbox (mailbox : Mailbox) : Daemon Mailbox := { desk.daemon with backends := mailbox }

def handled : Occurrence → Handled Mailbox
  | .request message => desk.daemon.handle openVPNOnly message
  | .backend action => ⟨desk.withMailbox (desk.daemon.backends.react action), []⟩
  | .report timerStarts =>
      match desk.daemon.backends.queue with
      | [] => ⟨desk.daemon, []⟩
      | report :: queue =>
          (desk.withMailbox { desk.daemon.backends with queue }).handleStatus report.state
            report.detail timerStarts

end Desk

/-- The user takes over, with a request to end the session or with another. -/
def Act.asks : Act → Bool
  | .disconnect _ | .armReconnect => true
  | _ => false

def Act.raises : Act → Bool
  | .raiseAttempt _ => true
  | _ => false

namespace Desk

variable (desk : Desk)

/-- The sessions that have raised the attempt, after a report of one. -/
def raisesAfter (acts : List Act) : Occurrence → List Nat
  | .report _ =>
      if acts.any Act.raises then
        (desk.daemon.backends.queue.head?.map Report.session).toList ++ desk.raises
      else desk.raises
  | _ => desk.raises

/-- A reader that exits unasked, while retries are left, ends its session by a drop. -/
def dueAfter (acts : List Act) : Occurrence → Option Nat
  | .request _ => if acts.any Act.asks then none else desk.due
  | .backend .readerExited =>
      if desk.daemon.server.retries ∧ desk.daemon.backends.session ∉ desk.raises then
        some desk.daemon.backends.session
      else desk.due
  | .backend _ => desk.due
  | .report _ =>
      if acts.any Act.raises ∧ desk.due = desk.daemon.backends.queue.head?.map Report.session then
        none
      else desk.due

def step (occurrence : Occurrence) : Desk where
  daemon := (desk.handled occurrence).daemon
  raises := desk.raisesAfter (desk.handled occurrence).acts occurrence
  due := desk.dueAfter (desk.handled occurrence).acts occurrence

end Desk

end Sotoportego.Server
