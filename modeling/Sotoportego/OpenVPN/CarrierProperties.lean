import Sotoportego.OpenVPN.RestoreProperties

/-!
# The route of the carrier

The server is pinned when the routes go up. A later `CONNECTED` may come from another
`remote` of the configuration, and then the tunnel carries its own carrier.
-/

set_option autoImplicit false

namespace Sotoportego.OpenVPN

open Octets CText
open Edits (Edit)
open Tailscale (KernelRoute)
open Tailscale.Routing (pin defaultVia)

/-- The remote address of the latest `CONNECTED` of a run. -/
def latestServer (actions : List Action) : Option CString :=
  actions.foldl (fun latest action => action.server.or latest) none

def PointsAt (table : List KernelRoute) (interface : CString) : Prop :=
  ∃ route ∈ table, route.isDefault = true ∧ route.iface = interface

instance (table : List KernelRoute) (interface : CString) : Decidable (PointsAt table interface) :=
  inferInstanceAs (Decidable (∃ route ∈ table, _))

/-- With the default route over the tun, the server has a route of its own. -/
def CarrierPinned (host : Host) (server : Option CString) : Prop :=
  host.backend.tunInterface ≠ .empty → PointsAt host.system.table host.backend.tunInterface →
    ∃ remote ∈ server,
      pin host.backend.origGatewayIface host.backend.origGateway remote ∈ host.system.table

/-- Wherever the run has come so far. -/
def CarrierKept (start : Host) (actions : List Action) : Prop :=
  ∀ made, made <+: actions → CarrierPinned (Run.run Host.step start made) (latestServer made)

instance (host : Host) (server : Option CString) : Decidable (CarrierPinned host server) :=
  inferInstanceAs (Decidable (_ → _ → ∃ remote ∈ server, _))

/-- A `CONNECTED` with the routes up names the server that is pinned, and no `Connect` takes
another slot that the table already points at. -/
def Steady (host : Host) : Action → Prop
  | .event event _ => host.backend.routesInstalled = true →
      ∀ remote ∈ event.posted.server, remote = host.backend.installedServerIP
  | .connect profile launch => Accepts host.backend profile → launch.slot ≠ .empty →
      launch.slot ≠ host.backend.tunInterface → ¬ PointsAt host.system.table launch.slot
  | _ => True

instance (host : Host) : ∀ action, Decidable (Steady host action)
  | .event _ _ => inferInstanceAs (Decidable (_ → ∀ remote ∈ _, _))
  | .connect _ _ => inferInstanceAs (Decidable (_ → _ → _ → _))
  | .readerExited | .setCredentials _ _ | .disconnect | .tryMgmtConnect _ | .scan _ =>
      inferInstanceAs (Decidable True)

/-- The pin is the one of the latest server, or the table does not point at the tun. -/
structure Carried (host : Host) (server : Option CString) : Prop where
  anchored : Anchored host.backend
  pinned : host.backend.routesInstalled = true →
    server = some host.backend.installedServerIP ∧
      pin host.backend.origGatewayIface host.backend.origGateway host.backend.installedServerIP ∈
        host.system.table
  unpointed : host.backend.routesInstalled = false → host.backend.tunInterface ≠ .empty →
    ¬ PointsAt host.system.table host.backend.tunInterface

section Carrier

variable {host : Host} {server : Option CString}

theorem Carried.carrierPinned (carried : Carried host server) : CarrierPinned host server := by
  intro slot points
  cases installed : host.backend.routesInstalled with
  | true =>
      obtain ⟨latest, member⟩ := carried.pinned installed
      exact ⟨_, latest, member⟩
  | false => exact absurd points (carried.unpointed installed slot)

/-- The table and the routes stay as they are. -/
theorem Carried.still {reaction : Reaction} {latest : Option CString}
    (carried : Carried host server) (journal : reaction.journal = [])
    (kept : KeptRoutes host.backend reaction.backend)
    (same : host.backend.routesInstalled = true → latest = server)
    (unpointed : host.backend.routesInstalled = false → reaction.backend.tunInterface ≠ .empty →
      ¬ PointsAt host.system.table reaction.backend.tunInterface) :
    Carried (host.after reaction) latest := by
  have table := table_after host reaction
  rw [journal, Run.run_nil] at table
  have backend : (host.after reaction).backend = reaction.backend := rfl
  constructor <;> rw [backend]
  · intro up
    have before := carried.anchored (kept.routesInstalled.symm.trans up)
    rw [(kept.gateway before).1]
    exact before
  · intro up
    have installed := kept.routesInstalled.symm.trans up
    obtain ⟨gateway, iface⟩ := kept.gateway (carried.anchored installed)
    rw [table, kept.installedServerIP, gateway, iface, same installed]
    exact carried.pinned installed
  · intro down slot
    rw [table]
    exact unpointed (kept.routesInstalled.symm.trans down) slot

theorem Carried.dropped {reaction : Reaction} (dropped : Dropped reaction.backend)
    (latest : Option CString) : Carried (host.after reaction) latest := by
  have up : (host.after reaction).backend.routesInstalled ≠ true := by
    rw [← Bool.eq_false_iff]
    exact dropped.routesInstalled
  exact ⟨fun installed => absurd installed up, fun installed => absurd installed up,
    fun _ slot => absurd dropped.slot slot⟩

theorem carried_move {reaction : Reaction} {named : Option CString} {meanwhile : Meanwhile}
    (carried : Carried host server) (move : Move named meanwhile host.backend reaction)
    (slot : reaction.backend.tunInterface = host.backend.tunInterface)
    (steady : host.backend.routesInstalled = true →
      ∀ remote ∈ named, remote = host.backend.installedServerIP) :
    Carried (host.after reaction) (named.or server) := by
  have latest (installed : host.backend.routesInstalled = true) : named.or server = server := by
    cases named with
    | none => rfl
    | some remote =>
        rw [Option.some_or, (carried.pinned installed).1]
        exact congrArg some (steady installed remote rfl)
  have table := table_after host reaction
  have backend : (host.after reaction).backend = reaction.backend := rfl
  cases move with
  | still journal kept =>
      refine carried.still journal kept latest fun down present => ?_
      rw [slot] at present ⊢
      exact carried.unpointed down present
  | installs scanned kept same _ _ down remote aimed informed steered journal =>
      rw [journal] at table
      constructor <;> rw [backend]
      · intro _
        rw [steered.origGateway]
        exact informed.gateway
      · intro _
        rw [steered.installedServerIP, steered.origGateway, steered.origGatewayIface, aimed, table]
        exact ⟨rfl, (table_installed _).mpr (.inr (.inl rfl))⟩
      · intro up
        exact absurd (up.symm.trans steered.routesInstalled) (by decide)
  | refreshes scanned kept same _ _ up _ known moved steered journal =>
      rw [journal] at table
      obtain ⟨gateway, iface⟩ := kept.gateway (carried.anchored up)
      constructor <;> rw [backend]
      · intro _
        rw [steered.origGateway, gateway]
        exact carried.anchored up
      · intro _
        rw [steered.installedServerIP, steered.origGateway, steered.origGatewayIface, gateway,
          iface, kept.installedServerIP, latest up, table]
        obtain ⟨current, member⟩ := carried.pinned up
        exact ⟨current, pin_refreshed member⟩
      · intro down
        exact absurd (down.symm.trans steered.routesInstalled) (by decide)

theorem server_of_connect {profile : Server.VPNProfile} {launch : Launch} :
    (Action.connect profile launch).server.or server = server :=
  Option.none_or

theorem carried_step {action : Action} (carried : Carried host server)
    (steady : Steady host action) : Carried (host.step action) (action.server.or server) := by
  have turn := @turn_react host.backend action carried.anchored
  cases turn with
  | moves move slot =>
      refine carried_move carried move slot fun installed remote named => ?_
      cases action with
      | event event meanwhile => exact steady installed remote named
      | connect | setCredentials | disconnect | tryMgmtConnect | scan | readerExited => cases named
  | tears journal dropped => exact .dropped dropped _
  | opens profile launch request accepted journal kept slot =>
      subst request
      refine carried.still journal kept (fun _ => server_of_connect) fun down present => ?_
      rw [slot] at present ⊢
      by_cases again : launch.slot = host.backend.tunInterface
      · rw [again] at present ⊢
        exact carried.unpointed down present
      · exact steady accepted present again
  | collapses profile launch request accepted slotted kept slot journal dropped =>
      exact .dropped dropped _

theorem carried_run {actions : List Action} (carried : Carried host server)
    (steady : Run.Along Host.step Steady host actions) :
    Carried (Run.run Host.step host actions)
      (actions.foldl (fun latest action => action.server.or latest) server) := by
  induction actions generalizing host server with
  | nil => exact carried
  | cons action actions continued => exact continued (carried_step carried steady.1) steady.2

end Carrier

theorem carrier_pinned (table : List KernelRoute) (sessionFile : SessionFile)
    (actions : List Action)
    (steady : Run.Along Host.step Steady (booted table sessionFile) actions) :
    CarrierKept (booted table sessionFile) actions := by
  rintro made ⟨rest, rfl⟩
  have initial : Carried (booted table sessionFile) none :=
    ⟨fun up => (nomatch up), fun up => (nomatch up), fun _ slot => absurd rfl slot⟩
  exact (carried_run initial steady.earlier).carrierPinned

/-! openvpn gives up on the first `remote` and comes back over the second. -/

namespace Sample

def failedOver (server : String) : List Action :=
  session 100 "aaaaaa" ++
    [.scan gatewayLine, .scan (pushLine "10.8.0.1"), connected "203.0.113.7" {},
      connected server { beforeRoutes := [pushLine "10.9.0.1"] }]

end Sample

theorem carrier_pinned_sample :
    CarrierKept (booted [Sample.lan, Sample.wifi] .absent) (Sample.failedOver "203.0.113.7") :=
  carrier_pinned [Sample.lan, Sample.wifi] .absent (Sample.failedOver "203.0.113.7")
    (by decide +kernel)

theorem fail_over_unpinned :
    Run.Along Host.step Possible (booted [Sample.lan, Sample.wifi] .absent)
        (Sample.failedOver "203.0.113.9") ∧
      ¬ CarrierKept (booted [Sample.lan, Sample.wifi] .absent)
        (Sample.failedOver "203.0.113.9") := by
  refine ⟨by decide +kernel, fun kept => ?_⟩
  have unpinned : ¬ CarrierPinned (Run.run Host.step (booted [Sample.lan, Sample.wifi] .absent)
      (Sample.failedOver "203.0.113.9")) (latestServer (Sample.failedOver "203.0.113.9")) := by
    decide +kernel
  exact unpinned (kept _ (List.prefix_refl _))

end Sotoportego.OpenVPN
