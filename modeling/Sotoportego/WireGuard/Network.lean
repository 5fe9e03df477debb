import Sotoportego.Tailscale.Routes

/-!
# Routes and resolver of a WireGuard session

`_InstallRoutes`, `_RemoveRoutes`, `_ApplyDns`, `_RestoreDns` and `_Cleanup` on the kernel's
table and on `resolv.conf`, where every command and file operation that can succeed does.
-/

set_option autoImplicit false

namespace Sotoportego.WireGuard

open Octets CText
open Edits (Edit)
open Tailscale (AllowedRoute KernelRoute parseAllowedIPs defaultGateway trim)
open Tailscale.Routing (pin defaultVia)

/-- What a `Connect` gets from the profile, the tun slot and the resolved endpoint. -/
structure NetworkSession where
  allowedIPs : Bytes
  dns : Bytes
  tunInterface : CString
  tunSelfIP : CString
  endpointIP : CString

/-- The backend's fields, and the system around it. -/
structure NetworkHost where
  allowedIPs : Bytes := []
  dns : Bytes := []
  tunInterface : CString := .empty
  tunSelfIP : CString := .empty
  endpointIP : CString := .empty
  origGateway : CString := .empty
  origGatewayIface : CString := .empty
  replacedDefault : Bool := false
  routesInstalled : Bool := false
  table : List KernelRoute
  resolvConf : Option Bytes
  resolvBackup : Option Bytes := none

/-- The first entry of a DNS list that is not IPv6. -/
def nameserver (dns : Bytes) : Option CString :=
  ((dns.splitOn 44).map fun segment => trim (.ofBytes segment)).find? fun token =>
    token ≠ .empty ∧ 58 ∉ token.bytes

def resolvContent (ns : CString) : Bytes :=
  ascii "# Set by Sotoportego for the WireGuard tunnel\nnameserver " ++ ns.bytes ++ ascii "\n"

namespace NetworkHost

variable (host : NetworkHost)

/-- A file that is not there cannot be renamed. -/
def applyDns : NetworkHost :=
  match nameserver host.dns with
  | none => host
  | some ns =>
      let kept :=
        if host.resolvBackup.isSome then host
        else { host with resolvBackup := host.resolvConf, resolvConf := none }
      { kept with resolvConf := some (resolvContent ns) }

def restoreDns : NetworkHost :=
  match host.resolvBackup with
  | none => host
  | some original => { host with resolvConf := some original, resolvBackup := none }

/-- The ranges go over the tun, with its own address as the next hop. -/
def tunnelRoutes : List KernelRoute :=
  (parseAllowedIPs host.allowedIPs).map fun cidr =>
    { iface := host.tunInterface
      destination := cidr.net
      gateway := host.tunSelfIP
      mask := cidr.mask }

def anyDefault : Bool :=
  (parseAllowedIPs host.allowedIPs).any AllowedRoute.isDefault

def carrierPin : List KernelRoute :=
  if host.endpointIP ≠ .empty ∧ host.origGateway ≠ .empty then
    [pin host.origGatewayIface host.origGateway host.endpointIP]
  else []

/-- `_InstallRoutes` from the endpoint pin on. -/
def steer : NetworkHost :=
  let swap := host.anyDefault && host.origGateway ≠ .empty
  let drop : List (Edit KernelRoute) :=
    if swap then [.delete (defaultVia host.origGatewayIface host.origGateway)] else []
  let steered := { host with
    table := Edits.run (host.carrierPin.map .add ++ drop ++ host.tunnelRoutes.map .add) host.table
    replacedDefault := swap
    routesInstalled := true }
  if swap then steered.applyDns else steered

def installRoutes : NetworkHost :=
  if host.routesInstalled then host
  else if parseAllowedIPs host.allowedIPs = [] then host
  else
    let cleared := { host with
      origGateway := .empty, origGatewayIface := .empty, replacedDefault := false }
    match defaultGateway host.table with
    | none => if host.anyDefault then cleared else cleared.steer
    | some (gateway, iface) =>
        { cleared with origGateway := gateway, origGatewayIface := iface }.steer

def removeRoutes : NetworkHost :=
  if ¬ host.routesInstalled then host
  else
    let restored := host.restoreDns
    let swap : List (Edit KernelRoute) :=
      if host.replacedDefault && host.origGateway ≠ .empty then
        [.add (defaultVia host.origGatewayIface host.origGateway)]
      else []
    { restored with
      table := Edits.run (host.tunnelRoutes.map .delete ++ swap ++ host.carrierPin.map .delete)
        host.table
      routesInstalled := false
      replacedDefault := false }

/-- The interface goes with its slot. -/
def cleanup : NetworkHost :=
  { host.removeRoutes with tunInterface := .empty }

def connect (session : NetworkSession) : NetworkHost :=
  { host with
    allowedIPs := session.allowedIPs
    dns := session.dns
    tunInterface := session.tunInterface
    tunSelfIP := session.tunSelfIP
    endpointIP := session.endpointIP }

/-- A session that reaches `CONNECTED` and is torn down. -/
def session (session : NetworkSession) : NetworkHost :=
  (host.connect session).installRoutes.cleanup

end NetworkHost

end Sotoportego.WireGuard
