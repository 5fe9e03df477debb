import Sotoportego.Server.Server
import Sotoportego.Tailscale.Lifecycle

/-!
# The server and its three backends

One backend of each type on the looper of the server. What happens next is a message to the
server, a message to a backend, or what a thread of a backend does in between.
-/

set_option autoImplicit false

namespace Sotoportego.Server

open CText
open OpenVPN (Launch)
open Tailscale (Enrolment HostEvent TailscaleHost VPNState)
open WireGuard (ReaderMessage Start WireGuardBackend)

/-- How the system answers a `Connect`, whichever backend it is of. -/
structure Answers where
  launch : Launch
  start : Start
  enrolment : Enrolment

structure Trio where
  openVPN : OpenVPN.Host
  wireGuard : WireGuardBackend
  tailscale : TailscaleHost := {}

namespace Trio

variable (trio : Trio)

def state : Instance → VPNState
  | .openVPN => trio.openVPN.backend.state
  | .wireGuard => trio.wireGuard.state
  | .tailscale => trio.tailscale.backend.state

/-- Of the three, OpenVPN alone takes credentials. -/
def setCredentials (user pass : CString) : Instance → Trio
  | .openVPN => { trio with openVPN := trio.openVPN.step (.setCredentials user pass) }
  | .wireGuard | .tailscale => trio

def connect (profile : VPNProfile) (answers : Answers) : Instance → Status × Trio
  | .openVPN =>
      ((trio.openVPN.backend.connect profile answers.launch).1,
        { trio with openVPN := trio.openVPN.step (.connect profile answers.launch) })
  | .wireGuard =>
      ((trio.wireGuard.connect profile answers.start).1,
        { trio with wireGuard := (trio.wireGuard.connect profile answers.start).2 })
  | .tailscale =>
      ((trio.tailscale.connect profile answers.enrolment).1,
        { trio with tailscale := (trio.tailscale.connect profile answers.enrolment).2 })

def disconnect : Instance → Trio
  | .openVPN => { trio with openVPN := trio.openVPN.step .disconnect }
  | .wireGuard => { trio with wireGuard := trio.wireGuard.disconnect }
  | .tailscale => { trio with tailscale := trio.tailscale.disconnect }

end Trio

def threeBackends : VPNBackends Trio Answers where
  state := fun which trio => trio.state which
  setCredentials := fun which user pass trio => trio.setCredentials user pass which
  connect := fun which profile answers trio => trio.connect profile answers which
  disconnect := fun which trio => trio.disconnect which

inductive Turn where
  | message (message : Message Answers)
  | openVPN (action : OpenVPN.Action)
  | wireGuard (message : ReaderMessage)
  | tailscale (event : HostEvent)

namespace Daemon

variable (daemon : Daemon Trio)

def withTrio (backends : Trio) : Daemon Trio := { daemon with backends }

def turn : Turn → Daemon Trio
  | .message message => (daemon.handle threeBackends message).daemon
  | .openVPN action =>
      daemon.withTrio { daemon.backends with openVPN := daemon.backends.openVPN.step action }
  | .wireGuard message =>
      daemon.withTrio
        { daemon.backends with wireGuard := daemon.backends.wireGuard.receive message }
  | .tailscale event =>
      daemon.withTrio { daemon.backends with tailscale := daemon.backends.tailscale.step event }

end Daemon

end Sotoportego.Server
