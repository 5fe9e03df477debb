import Sotoportego.OpenVPN.RouteProperties

/-!
# From the first line to the teardown

The first gateway that the scan reads stays until the teardown, so the routes that are taken
down are the ones that were put up, however often the tunnel moves in between.
-/

set_option autoImplicit false

namespace Sotoportego.OpenVPN

open Octets CText
open Tailscale (KernelRoute)
open Tailscale.Routing (pin defaultVia)

/-- No host route to a server stands in the table. -/
def Unpinned (table : List KernelRoute) (server : CString) : Prop :=
  ∀ route ∈ table, route.mask = Tailscale.text "255.255.255.255" → route.destination ≠ server

instance (table : List KernelRoute) (server : CString) : Decidable (Unpinned table server) :=
  inferInstanceAs (Decidable (∀ route ∈ table, _ → _))

/-- The default route that the scan keeps: the first that a line tells of. -/
def logged (lines : List Bytes) : Option (CString × CString) :=
  (lines.filterMap routeGateway).find? fun route => route.1 ≠ .empty

def OpenVPNBackend.harvested (backend : OpenVPNBackend) : Option (CString × CString) :=
  if backend.origGateway = .empty then none
  else some (backend.origGateway, backend.origGatewayIface)

/-- The lines that are scanned in the course of a message. -/
def Action.lines : Action → List Bytes
  | .scan line => [line]
  | .event update meanwhile =>
      match update.type with
      | .state =>
          if update.mappedState = .connected then meanwhile.beforeRoutes ++ meanwhile.beforeRecord
          else []
      | .log | .info => if update.posted.message = [] then [] else [update.posted.message]
      | _ => []
  | _ => []

section Session

variable {backend : OpenVPNBackend}

theorem logged_append (first second : List Bytes) :
    logged (first ++ second) = (logged first).or (logged second) := by
  rw [logged, logged, logged, List.filterMap_append, List.find?_append]

theorem logged_single (line : Bytes) :
    logged [line] = (routeGateway line).bind fun route =>
      if route.1 = .empty then none else some route := by
  have single : [line].filterMap routeGateway = (routeGateway line).toList := by
    cases told : routeGateway line with
    | none => rw [List.filterMap_cons_none told]; rfl
    | some route => rw [List.filterMap_cons_some told]; rfl
  rw [logged, single]
  cases routeGateway line with
  | none => rfl
  | some route => by_cases empty : route.1 = .empty <;> simp [empty]

theorem harvested_scanLogLine (line : Bytes) :
    (backend.scanLogLine line).harvested = backend.harvested.or (logged [line]) := by
  have peerApart (harvested : OpenVPNBackend) (peer : CString) :
      { harvested with tunPeer := peer }.harvested = harvested.harvested := rfl
  rw [logged_single]
  unfold OpenVPNBackend.scanLogLine
  by_cases absent : backend.origGateway = .empty
  · rw [if_pos absent]
    have none : backend.harvested = none := if_pos absent
    rw [none, Option.none_or]
    cases routeGateway line <;> cases pushedPeer line <;>
      simp [OpenVPNBackend.harvested, absent]
  · rw [if_neg absent]
    have some : backend.harvested = some (backend.origGateway, backend.origGatewayIface) :=
      if_neg absent
    rw [some, Option.some_or]
    cases pushedPeer line <;> exact some

theorem harvested_scanLines (lines : List Bytes) :
    (backend.scanLines lines).harvested = backend.harvested.or (logged lines) := by
  induction lines generalizing backend with
  | nil => exact (Option.or_none).symm
  | cons line lines continued =>
      have first : backend.scanLines (line :: lines) = (backend.scanLogLine line).scanLines lines :=
        rfl
      have parts := logged_append [line] lines
      rw [List.singleton_append] at parts
      rw [first, continued, harvested_scanLogLine, parts, Option.or_assoc]

theorem harvested_installRoutes (server : CString) (meanwhile : List Bytes) :
    (backend.installRoutes server meanwhile).backend.harvested =
      backend.harvested.or (logged meanwhile) := by
  unfold OpenVPNBackend.installRoutes
  split_ifs <;> exact harvested_scanLines meanwhile

theorem harvested_refreshTunRoute (meanwhile : List Bytes) :
    (backend.refreshTunRoute meanwhile).backend.harvested =
      backend.harvested.or (logged meanwhile) := by
  unfold OpenVPNBackend.refreshTunRoute
  split_ifs <;> exact harvested_scanLines meanwhile

theorem harvested_tunnelUp (event : OpenVPNEvent) (meanwhile : Meanwhile) :
    (backend.tunnelUp event meanwhile).backend.harvested =
      backend.harvested.or (logged (meanwhile.beforeRoutes ++ meanwhile.beforeRecord)) := by
  have early := @harvested_scanLines (backend.addressed event) meanwhile.beforeRoutes
  have addressed : (backend.addressed event).harvested = backend.harvested := rfl
  rw [logged_append, ← Option.or_assoc, ← addressed, ← early]
  unfold OpenVPNBackend.tunnelUp OpenVPNBackend.fixRoutes Reaction.andThen
  dsimp only
  split_ifs
  · exact harvested_refreshTunRoute meanwhile.beforeRecord
  · exact harvested_installRoutes _ meanwhile.beforeRecord

theorem harvested_event (event : OpenVPNEvent) (meanwhile : Meanwhile) :
    (backend.handleManagementEvent event.posted meanwhile).backend.harvested =
      backend.harvested.or (logged (Action.event event meanwhile).lines) := by
  have still : backend.harvested = backend.harvested.or (logged []) := Option.or_none.symm
  have type : event.posted.type = event.type := rfl
  have mapped : event.posted.mappedState = event.mappedState := rfl
  unfold OpenVPNBackend.handleManagementEvent Action.lines
  rw [type]
  cases kind : event.type <;> simp only [kind]
  case state =>
    unfold OpenVPNBackend.handleState
    rw [mapped]
    split_ifs with ended connected connected
    · rw [connected] at ended
      cases ended.1
    · exact still
    · exact harvested_tunnelUp event.posted meanwhile
    · exact still
  case log | info =>
    split_ifs
    · exact still
    · exact harvested_scanLogLine event.posted.message
  case passwordRequest => split_ifs <;> exact still
  all_goals exact still

/-- Every line that the session scans counts, in the order of the run. -/
theorem harvested_step {action : Action} (within : action.inSession = true) :
    (backend.react action).backend.harvested = backend.harvested.or (logged action.lines) := by
  have still : backend.harvested = backend.harvested.or (logged []) := Option.or_none.symm
  cases action with
  | connect profile launch => cases within
  | tryMgmtConnect probe => cases within
  | readerExited => cases within
  | setCredentials user pass => exact still
  | disconnect =>
      have gateway : backend.disconnect.backend.harvested = backend.harvested := by
        unfold OpenVPNBackend.disconnect
        split_ifs <;> rfl
      exact gateway.trans still
  | event event meanwhile => exact harvested_event event meanwhile
  | scan line => exact harvested_scanLogLine line

/-- What the session has harvested, or will, names the default route of the table. -/
def Truthful (table : List KernelRoute) (backend : OpenVPNBackend) (rest : List Bytes) : Prop :=
  ∀ route ∈ backend.harvested.or (logged rest), TheDefault table route.2 route.1

theorem mem_unpinned {table : List KernelRoute} {iface gateway server : CString}
    (unpinned : Unpinned table server) : pin iface gateway server ∉ table :=
  fun member => unpinned _ member rfl rfl

theorem routed_session {table : List KernelRoute} {host : Host} {actions : List Action}
    (routed : Routed table host) (slot : host.backend.tunInterface ≠ .empty)
    (within : ∀ action ∈ actions, action.inSession = true)
    (truthful : Truthful table host.backend (actions.flatMap Action.lines))
    (unpinned : ∀ action ∈ actions, ∀ server ∈ action.server, Unpinned table server) :
    Routed table (Run.run Host.step host actions) := by
  induction actions generalizing host with
  | nil => exact routed
  | cons action actions continued =>
      have first := within action List.mem_cons_self
      obtain ⟨move, same⟩ := move_react routed.anchored first
      have harvest := @harvested_step host.backend action first
      have later : Truthful table (host.step action).backend (actions.flatMap Action.lines) := by
        intro route told
        refine truthful route ?_
        rw [List.flatMap_cons, logged_append, ← Option.or_assoc, ← harvest]
        exact told
      rw [Run.run_cons]
      refine continued (routed_move routed move same (fun _ => slot)
          fun _ known server named => ⟨?_, ?_⟩)
        (fun empty => slot (same.symm.trans empty))
        (fun other member => within other (List.mem_cons_of_mem _ member)) later
        fun other member => unpinned other (List.mem_cons_of_mem _ member)
      · have harvested : (host.step action).backend.harvested =
            some ((host.step action).backend.origGateway,
              (host.step action).backend.origGatewayIface) := if_neg known
        have told := later ((host.step action).backend.origGateway,
          (host.step action).backend.origGatewayIface)
        rw [harvested, Option.some_or] at told
        exact told rfl
      · exact mem_unpinned (unpinned action List.mem_cons_self server named)

theorem routes_restored (host : Host) (actions : List Action)
    (down : host.backend.routesInstalled = false)
    (unharvested : host.backend.origGateway = .empty)
    (slot : host.backend.tunInterface ≠ .empty)
    (within : ∀ action ∈ actions, action.inSession = true)
    (default : ∀ route ∈ logged (actions.flatMap Action.lines),
      TheDefault host.system.table route.2 route.1)
    (unpinned : ∀ action ∈ actions, ∀ server ∈ action.server, Unpinned host.system.table server) :
    let last := Run.run Host.step host actions
    SameRoutes (last.after last.backend.cleanup).system.table host.system.table := by
  have routed : Routed host.system.table host :=
    ⟨fun _ _ => Iff.rfl, fun up => absurd (up.symm.trans down) (by decide)⟩
  have truthful : Truthful host.system.table host.backend (actions.flatMap Action.lines) := by
    have none : host.backend.harvested = none := if_pos unharvested
    rw [Truthful, none, Option.none_or]
    exact default
  have final := routed_session routed slot within truthful unpinned
  obtain ⟨journal, dropped⟩ := @cleanup_journal (Run.run Host.step host actions).backend
  exact (routed_dropped final journal dropped).down dropped.routesInstalled

end Session

/-! A soft restart over the tunnel: openvpn logs the tun as the gateway, and moves on to
another server and another peer. -/

namespace Sample

def lan : KernelRoute where
  iface := Tailscale.text "/dev/net/iprowifi4965/0"
  destination := Tailscale.text "192.168.188.0"
  gateway := .empty
  mask := Tailscale.text "255.255.255.0"

def wifi : KernelRoute :=
  defaultVia (Tailscale.text "/dev/net/iprowifi4965/0") (Tailscale.text "192.168.188.1")

def connected (server : String) (meanwhile : Meanwhile) : Action :=
  .event (parseLine (ascii (">STATE:1767225600,CONNECTED,SUCCESS,10.8.0.6," ++ server ++
    ",1194,,"))) meanwhile

def gatewayLine : Bytes := ascii "ROUTE_GATEWAY 192.168.188.1 IFACE=/dev/net/iprowifi4965/0"

def pushLine (peer : String) : Bytes :=
  ascii ("PUSH: Received control message: 'PUSH_REPLY,route-gateway " ++ peer ++ ",topology subnet'")

def launched : Host :=
  Run.run Host.step (booted [lan, wifi] .absent) (session 100 "aaaaaa")

def restarted : List Action :=
  [.scan gatewayLine, .scan (pushLine "10.8.0.1"), connected "203.0.113.7" {},
    .scan (ascii "ROUTE_GATEWAY 10.8.0.1 IFACE=tun/0"),
    connected "203.0.113.9" { beforeRoutes := [pushLine "10.9.0.1"] }]

end Sample

theorem routes_restored_sample :
    let last := Run.run Host.step Sample.launched Sample.restarted
    SameRoutes (last.after last.backend.cleanup).system.table Sample.launched.system.table :=
  routes_restored Sample.launched Sample.restarted (by decide +kernel) (by decide +kernel)
    (by decide +kernel) (by decide +kernel) (by decide +kernel) (by decide +kernel)

end Sotoportego.OpenVPN
