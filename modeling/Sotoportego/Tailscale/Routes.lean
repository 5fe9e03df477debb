import Sotoportego.Lib.Edits
import Sotoportego.Tailscale.DataPlane

/-!
# Routes onto the tun

Which routes the allowed ranges of the peers call for, and the `route` commands with which
the backend installs them and turns the default route towards an exit node and back.
-/

set_option autoImplicit false

namespace Sotoportego.Tailscale

open Octets CText
open Edits (Edit collect difference)

def text (literal : String) : CString := .ofBytes (ascii literal)

/-! ## Subnet routes -/

structure SubnetRoute where
  net : CString
  mask : CString
  deriving DecidableEq

structure AllowedRoute where
  net : CString
  mask : CString
  isDefault : Bool

def trim (source : CString) : CString :=
  .ofBytes (((source.bytes.dropWhile isSpace).reverse.dropWhile isSpace).reverse)

/-- The netmask of a width, in dotted form. -/
def netmask (width : Nat) : CString :=
  let value := 2 ^ 32 - 2 ^ (32 - width)
  let field (shift : Nat) : Bytes := ascii (toString (value / 2 ^ shift % 256))
  .ofBytes (field 24 ++ [46] ++ field 16 ++ [46] ++ field 8 ++ [46] ++ field 0)

/-- One entry of an AllowedIPs list. Entries with a colon are IPv6 and are skipped. -/
def parseAllowedToken (segment : Bytes) : Option AllowedRoute :=
  let token := trim (.ofBytes segment)
  if token = .empty ∨ 58 ∈ token.bytes then none
  else
    let width :=
      if 47 ∈ token.bytes then atoi (.ofBytes (token.bytes.dropWhile (· ≠ 47)).tail) else 32
    let net := trim (.ofBytes (token.bytes.takeWhile (· ≠ 47)))
    if net = .empty ∨ width < 0 ∨ width > 32 then none
    else
      some {
        net
        mask := netmask width.toNat
        isDefault := net = text "0.0.0.0" && width = 0 }

def parseAllowedIPs (allowed : Bytes) : List AllowedRoute :=
  (allowed.splitOn 44).filterMap parseAllowedToken

/-- The default route is left to the exit node, and the tailnet range is on-link. -/
def subnetRoute (allowed : AllowedRoute) : Option SubnetRoute :=
  if allowed.isDefault then none
  else
    match TSPeerSet.parseIpv4 allowed.net with
    | none => none
    | some net =>
        if net &&& 0xFFC00000 = 0x64400000 then none
        else some { net := allowed.net, mask := allowed.mask }

def computeSubnetRoutes (allowedIPs : List Bytes) : List SubnetRoute :=
  collect (allowedIPs.flatMap fun allowed => (parseAllowedIPs allowed).filterMap subnetRoute)

/-! ## Exit node -/

/-- The distinct IPv4 addresses among the candidates. -/
def computeExitCarveouts (underlayIPs : List CString) : List CString :=
  collect (underlayIPs.filter fun ip => ip ≠ .empty && (TSPeerSet.parseIpv4 ip).isSome)

/-- A row of the kernel table, as the `route` command names it. -/
structure KernelRoute where
  iface : CString
  destination : CString
  gateway : CString
  mask : CString
  deriving DecidableEq

def looksLikeIpv4 (source : CString) : Bool :=
  source.bytes.all (fun octet => octet = 46 || isDigit octet) && source.bytes.count 46 = 3

def KernelRoute.isDefault (route : KernelRoute) : Bool :=
  route.destination = text "0.0.0.0" && route.mask = text "0.0.0.0"

/-- Gateway and interface of the first default route with a next hop. -/
def defaultGateway (table : List KernelRoute) : Option (CString × CString) :=
  (table.find? fun route =>
    route.isDefault && looksLikeIpv4 route.gateway && route.gateway ≠ text "0.0.0.0").map
      fun route => (route.gateway, route.iface)

/-- What the backend remembers of the routes it made. -/
structure Routing where
  tunInterface : CString := .empty
  tunSelfIP : CString := .empty
  installedRoutes : List SubnetRoute := []
  controlHost : CString := .empty
  derpHost : CString := .empty
  desiredExitNode : CString := .empty
  activeExitNode : CString := .empty
  exitOrigGateway : CString := .empty
  exitOrigGatewayIface : CString := .empty
  exitDefaultReplaced : Bool := false
  exitCarveouts : List CString := []

/-- The addresses a host name has at the moment. -/
abbrev Resolver := CString → List CString

def resolveAllIpv4 (resolver : Resolver) (host : CString) : List CString :=
  if host = .empty then [] else resolver host

/-- The address part of an endpoint: all of it when no colon follows an address. -/
def endpointIP (endpoint : Bytes) : CString :=
  match splitPort endpoint with
  | some (host, _) => .ofBytes (if host = [] then endpoint else host)
  | none => .ofBytes endpoint

def exitCapable (peer : ManagedPeer) : Bool :=
  peer.allowedIPs.any fun cidr => CString.ofBytes cidr = text "0.0.0.0/0"

namespace Routing

variable (routing : Routing)

/-- The interface comes with the tailnet address, once. -/
def bringUpTun (iface selfIPv4 : CString) : Routing :=
  if routing.tunInterface ≠ .empty ∨ selfIPv4 = .empty then routing
  else { routing with tunInterface := iface, tunSelfIP := selfIPv4 }

/-! ### Subnet routes -/

/-- The edits are of routes through our own address on the tun. -/
def syncRoutes (set : TSPeerSet) : Routing × List (Edit SubnetRoute) :=
  if routing.tunInterface = .empty ∨ routing.tunSelfIP = .empty then (routing, [])
  else
    let desired := computeSubnetRoutes (set.peers.flatMap ManagedPeer.allowedIPs)
    ({ routing with installedRoutes := desired },
      (difference desired routing.installedRoutes).map .add ++
        (difference routing.installedRoutes desired).map .delete)

def teardownRoutes : Routing × List (Edit SubnetRoute) :=
  ({ routing with installedRoutes := [] }, routing.installedRoutes.map .delete)

/-! ### Exit node -/

def setExitNode (id : CString) : Routing :=
  { routing with desiredExitNode := id }

/-- A host route that keeps an underlay address on the carrier. -/
def pin (iface gateway ip : CString) : KernelRoute :=
  { iface, destination := ip, gateway, mask := text "255.255.255.255" }

def defaultVia (iface gateway : CString) : KernelRoute :=
  { iface, destination := text "0.0.0.0", gateway, mask := text "0.0.0.0" }

def exitUnderlayIPs (set : TSPeerSet) (resolver : Resolver) (nodeKeyHex : CString) : List CString :=
  resolveAllIpv4 resolver routing.controlHost ++ resolveAllIpv4 resolver routing.derpHost ++
    match (set.find nodeKeyHex).bind fun position => set.peers[position]? with
    | none => []
    | some peer =>
        (peer.endpoints.map endpointIP ++
          if peer.path.mode = .direct ∧ peer.path.endpoint ≠ [] then [endpointIP peer.path.endpoint]
          else []).filter (· ≠ .empty)

def enableExitNode (set : TSPeerSet) (resolver : Resolver) (table : List KernelRoute)
    (nodeKeyHex : CString) : Routing × List (Edit KernelRoute) :=
  if routing.tunInterface = .empty ∨ routing.tunSelfIP = .empty then (routing, [])
  else
    match (set.find nodeKeyHex).bind fun position => set.peers[position]? with
    | none => (routing, [])
    | some peer =>
        if exitCapable peer = false then (routing, [])
        else
          match defaultGateway table with
          | none => (routing, [])
          | some (gw, iface) =>
              let carve := computeExitCarveouts (routing.exitUnderlayIPs set resolver nodeKeyHex)
              ({ routing with
                  exitOrigGateway := gw
                  exitOrigGatewayIface := iface
                  exitDefaultReplaced := true
                  exitCarveouts := carve
                  activeExitNode := nodeKeyHex },
                (carve.map (pin iface gw)).map .add ++
                  [.delete (defaultVia iface gw),
                    .add (defaultVia routing.tunInterface routing.tunSelfIP)])

def disableExitNode : Routing × List (Edit KernelRoute) :=
  if routing.activeExitNode = .empty then (routing, [])
  else
    let swap : List (Edit KernelRoute) :=
      if routing.exitDefaultReplaced then
        .delete (defaultVia routing.tunInterface routing.tunSelfIP) ::
          if routing.exitOrigGateway ≠ .empty then
            [.add (defaultVia routing.exitOrigGatewayIface routing.exitOrigGateway)]
          else []
      else []
    ({ routing with
        exitCarveouts := []
        exitOrigGateway := .empty
        exitOrigGatewayIface := .empty
        exitDefaultReplaced := false
        activeExitNode := .empty },
      swap ++ (routing.exitCarveouts.map
        (pin routing.exitOrigGatewayIface routing.exitOrigGateway)).map .delete)

/-- Pins follow the underlay addresses; the default route is left alone. -/
def reconcileExitCarveouts (set : TSPeerSet) (resolver : Resolver) :
    Routing × List (Edit KernelRoute) :=
  if routing.activeExitNode = .empty ∨ routing.exitOrigGateway = .empty then (routing, [])
  else
    let desired := computeExitCarveouts
      (routing.exitUnderlayIPs set resolver routing.activeExitNode)
    let toAdd := difference desired routing.exitCarveouts
    let toRemove := difference routing.exitCarveouts desired
    let pinned := pin routing.exitOrigGatewayIface routing.exitOrigGateway
    if toAdd = [] ∧ toRemove = [] then (routing, [])
    else
      ({ routing with exitCarveouts := desired },
        (toAdd.map pinned).map .add ++ (toRemove.map pinned).map .delete)

/-- The table is read by `enableExitNode` after the edits of `disableExitNode` took effect. -/
def syncExitNode (set : TSPeerSet) (resolver : Resolver) (table : List KernelRoute) :
    Routing × List (Edit KernelRoute) :=
  if routing.desiredExitNode ≠ routing.activeExitNode then
    let disabled :=
      if routing.activeExitNode ≠ .empty then routing.disableExitNode else (routing, [])
    if routing.desiredExitNode ≠ .empty then
      let enabled := disabled.1.enableExitNode set resolver (Edits.run disabled.2 table)
        routing.desiredExitNode
      (enabled.1, disabled.2 ++ enabled.2)
    else disabled
  else if routing.activeExitNode ≠ .empty then routing.reconcileExitCarveouts set resolver
  else (routing, [])

/-- The edits of the exit node and those of the subnet routes. -/
def teardownTun : Routing × List (Edit KernelRoute) × List (Edit SubnetRoute) :=
  if routing.tunInterface = .empty then (routing, [], [])
  else
    let disabled := routing.disableExitNode
    let cleared := disabled.1.teardownRoutes
    ({ cleared.1 with tunInterface := .empty, tunSelfIP := .empty }, disabled.2, cleared.2)

end Routing

end Sotoportego.Tailscale
