import Sotoportego.Tailscale.ExitNodeProperties
import Sotoportego.WireGuard.Network

/-!
# What a session leaves behind

Teardown computes the routes again from the configuration and trusts the backup file. What
it leaves is the table and the resolver file from before, with two exceptions.
-/

set_option autoImplicit false

namespace Sotoportego.WireGuard

open Octets CText
open Edits (Edit)
open Tailscale (AllowedRoute KernelRoute parseAllowedIPs defaultGateway)
open Tailscale.Routing (pin defaultVia)

namespace NetworkHost

/-- The table, read as a set, and the resolver file are the same. -/
structure Restored (before after : NetworkHost) : Prop where
  table : ∀ route, route ∈ after.table ↔ route ∈ before.table
  resolvConf : after.resolvConf = before.resolvConf

/-- No session is up, and none has left a backup. -/
structure Idle (host : NetworkHost) : Prop where
  routesInstalled : host.routesInstalled = false
  resolvBackup : host.resolvBackup = none

/-- No host route equals the endpoint pin. -/
def Unpinned (host : NetworkHost) (session : NetworkSession) : Prop :=
  ∀ gateway iface, defaultGateway host.table = some (gateway, iface) →
    pin iface gateway session.endpointIP ∉ host.table

/-- A full tunnel with a nameserver finds a resolver file, and no tunnel route was in the
table, unless it is the default route that the session replaces. -/
structure Reversible (host : NetworkHost) (session : NetworkSession) : Prop where
  resolver : (host.connect session).anyDefault = true → (defaultGateway host.table).isSome = true →
    (nameserver session.dns).isSome = true → host.resolvConf.isSome = true
  routes : ∀ route ∈ (host.connect session).tunnelRoutes, route ∈ host.table →
    (host.connect session).anyDefault = true ∧
      ∀ via ∈ defaultGateway host.table, route = defaultVia via.2 via.1

/-! ## Install and remove -/

section Steer

variable (host : NetworkHost)

/-- A default route is taken down and put back. -/
def swaps : Bool :=
  host.anyDefault && host.origGateway ≠ .empty

theorem applyDns_kept : ∃ resolvConf resolvBackup,
    host.applyDns = { host with resolvConf, resolvBackup } := by
  rw [applyDns]
  split
  next => exact ⟨_, _, rfl⟩
  next =>
    dsimp only
    split
    next => exact ⟨_, _, rfl⟩
    next => exact ⟨_, _, rfl⟩

/-- The backup is the only trace of the file from before. -/
theorem restoreDns_applyDns {host : NetworkHost} (fresh : host.resolvBackup = none) :
    host.applyDns.restoreDns.resolvBackup = none ∧
      (host.applyDns.restoreDns.resolvConf = host.resolvConf ↔
        ((nameserver host.dns).isSome = true → host.resolvConf.isSome = true)) := by
  rw [applyDns]
  split
  next none =>
    have same : host.restoreDns = host := by rw [restoreDns, fresh]
    rw [same, none]
    exact ⟨fresh, fun _ absent => (Bool.false_ne_true absent).elim, fun _ => rfl⟩
  next ns some =>
    rw [fresh, some]
    cases before : host.resolvConf with
    | none => simp [restoreDns]
    | some original => simp [restoreDns]

/-- Before the resolver is pointed at the tunnel. -/
def steered : NetworkHost :=
  { host with
    table := Edits.run (host.carrierPin.map .add ++
      (if host.swaps then [.delete (defaultVia host.origGatewayIface host.origGateway)] else []) ++
      host.tunnelRoutes.map .add) host.table
    replacedDefault := host.swaps
    routesInstalled := true }

theorem steer_eq : host.steer = if host.swaps then host.steered.applyDns else host.steered := rfl

theorem mem_steered (route : KernelRoute) : route ∈ host.steered.table ↔
    (route ∈ host.table ∨ route ∈ host.carrierPin) ∧
      ¬ (host.swaps = true ∧ route = defaultVia host.origGatewayIface host.origGateway) ∨
    route ∈ host.tunnelRoutes := by
  rw [steered, Edits.run_append, Edits.run_append, Edits.mem_run_add]
  cases host.swaps with
  | false => simp
  | true =>
      rw [if_pos rfl, Edits.run_cons, Edits.run_nil, Edits.mem_apply_delete, Edits.mem_run_add]
      simp

/-- `_RemoveRoutes` on the table, for a session that is up. -/
def unrouted : List KernelRoute :=
  Edits.run (host.tunnelRoutes.map .delete ++
    (if host.replacedDefault && host.origGateway ≠ .empty then
      [.add (defaultVia host.origGatewayIface host.origGateway)] else []) ++
    host.carrierPin.map .delete) host.table

theorem removeRoutes_eq {host : NetworkHost} (up : host.routesInstalled = true) :
    host.removeRoutes =
      { host.restoreDns with
        table := host.unrouted, routesInstalled := false, replacedDefault := false } := by
  rw [removeRoutes, if_neg (not_not_intro up)]
  rfl

theorem mem_unrouted (route : KernelRoute) : route ∈ host.unrouted ↔
    (route ∈ host.table ∧ route ∉ host.tunnelRoutes ∨
      (host.replacedDefault && host.origGateway ≠ .empty) = true ∧
        route = defaultVia host.origGatewayIface host.origGateway) ∧ route ∉ host.carrierPin := by
  rw [unrouted, Edits.run_append, Edits.run_append, Edits.mem_run_delete]
  cases (host.replacedDefault && host.origGateway ≠ .empty) with
  | false => simp
  | true =>
      rw [if_pos rfl, Edits.run_cons, Edits.run_nil, Edits.mem_apply_add, Edits.mem_run_delete]
      simp

/-- The pins and the tunnel routes are gone and a default route that was swapped is back. -/
theorem mem_steered_unrouted (route : KernelRoute) : route ∈ host.steered.unrouted ↔
    (route ∈ host.table ∧ route ∉ host.tunnelRoutes ∨
      host.swaps = true ∧ route = defaultVia host.origGatewayIface host.origGateway) ∧
      route ∉ host.carrierPin := by
  have swapped : (host.steered.replacedDefault && host.steered.origGateway ≠ .empty) =
      host.swaps := by
    have same : (host.steered.replacedDefault && host.steered.origGateway ≠ .empty) =
      (host.swaps && host.origGateway ≠ .empty) := rfl
    rw [same, swaps, Bool.and_assoc, Bool.and_self]
  have routes : host.steered.tunnelRoutes = host.tunnelRoutes := rfl
  have pins : host.steered.carrierPin = host.carrierPin := rfl
  have via : defaultVia host.steered.origGatewayIface host.steered.origGateway =
    defaultVia host.origGatewayIface host.origGateway := rfl
  rw [mem_unrouted, swapped, routes, pins, via, mem_steered]
  tauto

theorem restored_steer {host : NetworkHost} (fresh : host.resolvBackup = none) :
    (∀ route, route ∈ host.steer.removeRoutes.table ↔
      (route ∈ host.table ∧ route ∉ host.tunnelRoutes ∨
        host.swaps = true ∧ route = defaultVia host.origGatewayIface host.origGateway) ∧
        route ∉ host.carrierPin) ∧
    (host.steer.removeRoutes.resolvConf = host.resolvConf ↔
      (host.swaps = true → (nameserver host.dns).isSome = true → host.resolvConf.isSome = true)) ∧
    Idle host.steer.removeRoutes := by
  rw [steer_eq]
  have none : host.steered.resolvBackup = none := fresh
  cases swapped : host.swaps with
  | false =>
      have same : host.steered.restoreDns = host.steered := by rw [restoreDns, none]
      rw [if_neg Bool.false_ne_true, removeRoutes_eq rfl, same]
      refine ⟨fun route => ?_, ⟨fun _ absent => (Bool.false_ne_true absent).elim, fun _ => rfl⟩,
        rfl, fresh⟩
      have table := host.mem_steered_unrouted route
      rw [swapped] at table
      exact table
  | true =>
      obtain ⟨conf, backup, kept⟩ := applyDns_kept host.steered
      obtain ⟨gone, conf'⟩ := restoreDns_applyDns none
      have up : host.steered.applyDns.routesInstalled = true := by rw [kept]; rfl
      have unrouted : host.steered.applyDns.unrouted = host.steered.unrouted := by rw [kept]; rfl
      rw [if_pos rfl, removeRoutes_eq up, unrouted]
      refine ⟨fun route => ?_, ?_, rfl, gone⟩
      · have table := host.mem_steered_unrouted route
        rw [swapped] at table
        exact table
      · exact conf'.trans ⟨fun given _ => given, fun given => given rfl⟩

end Steer

/-! ## Sessions -/

section Session

variable {host : NetworkHost} {session : NetworkSession}

/-- A session that installs nothing leaves everything. -/
theorem restored_idle (connected : NetworkHost) (idle : Idle host)
    (table : connected.table = host.table) (conf : connected.resolvConf = host.resolvConf)
    (down : connected.routesInstalled = host.routesInstalled)
    (backup : connected.resolvBackup = host.resolvBackup) :
    Restored host connected.cleanup ∧ Idle connected.cleanup := by
  have same : connected.removeRoutes = connected := by
    rw [removeRoutes, if_pos (by rw [down, idle.routesInstalled]; exact Bool.false_ne_true)]
  rw [cleanup, same]
  exact ⟨⟨fun route => by rw [table], conf⟩, down.trans idle.routesInstalled,
    backup.trans idle.resolvBackup⟩

theorem steer_reversible (steering : NetworkHost) (idle : Idle host)
    (table : steering.table = host.table) (conf : steering.resolvConf = host.resolvConf)
    (backup : steering.resolvBackup = host.resolvBackup)
    (via : steering.swaps = true →
      defaultVia steering.origGatewayIface steering.origGateway ∈ host.table)
    (unpinned : ∀ route ∈ steering.carrierPin, route ∉ host.table) :
    (Restored host steering.steer.cleanup ↔
      (steering.swaps = true → (nameserver steering.dns).isSome = true →
        host.resolvConf.isSome = true) ∧
      ∀ route ∈ steering.tunnelRoutes, route ∈ host.table → steering.swaps = true ∧
        route = defaultVia steering.origGatewayIface steering.origGateway) ∧
      Idle steering.steer.cleanup := by
  obtain ⟨left, file, still⟩ := restored_steer (backup.trans idle.resolvBackup)
  rw [table] at left
  rw [conf] at file
  refine ⟨⟨fun restored => ⟨file.mp restored.resolvConf, fun route tunnel member => ?_⟩, ?_⟩,
    still.routesInstalled, still.resolvBackup⟩
  · cases ((left route).mp ((restored.table route).mpr member)).1 with
    | inl kept => exact (kept.2 tunnel).elim
    | inr swapped => exact swapped
  · rintro ⟨resolver, routes⟩
    refine ⟨fun route => (left route).trans ⟨?_, fun member => ⟨?_, fun pin => ?_⟩⟩,
      file.mpr resolver⟩
    · rintro ⟨kept | ⟨swapped, rfl⟩, -⟩
      · exact kept.1
      · exact via swapped
    · by_cases tunnel : route ∈ steering.tunnelRoutes
      · exact .inr (routes route tunnel member)
      · exact .inl ⟨member, tunnel⟩
    · exact unpinned route pin member

/-- After the look for a gateway. -/
def located (host : NetworkHost) (gateway iface : CString) : NetworkHost :=
  { host with origGateway := gateway, origGatewayIface := iface, replacedDefault := false }

theorem session_restores (idle : Idle host) (unpinned : Unpinned host session) :
    (Restored host (host.session session) ↔ Reversible host session) ∧
      Idle (host.session session) := by
  rw [NetworkHost.session, installRoutes, if_neg (by
    have down : (host.connect session).routesInstalled = false := idle.routesInstalled
    rw [down]
    exact Bool.false_ne_true)]
  split
  next nothing =>
    obtain ⟨restored, still⟩ := restored_idle (host.connect session) idle rfl rfl rfl rfl
    have noRoutes : (host.connect session).tunnelRoutes = [] := by rw [tunnelRoutes, nothing]; rfl
    have noDefault : (host.connect session).anyDefault = false := by rw [anyDefault, nothing]; rfl
    refine ⟨⟨fun _ => ⟨fun full => ?_, fun route member => ?_⟩, fun _ => restored⟩, still⟩
    · rw [noDefault] at full
      cases full
    · rw [noRoutes] at member
      cases member
  next some =>
    have given : defaultGateway (host.connect session).table = defaultGateway host.table := rfl
    rw [given]
    cases found : defaultGateway host.table with
    | none =>
        dsimp only
        split
        next full =>
          obtain ⟨restored, still⟩ :=
            restored_idle ((host.connect session).located .empty .empty) idle rfl rfl rfl rfl
          refine ⟨⟨fun _ => ⟨fun _ absent => ?_, fun route _ _ => ⟨full, fun via absent => ?_⟩⟩,
            fun _ => restored⟩, still⟩
          · rw [found] at absent
            cases absent
          · rw [found] at absent
            cases absent
        next partialTunnel =>
          have never : ¬ ((host.connect session).located .empty .empty).swaps = true := by
            simp [swaps, located]
          obtain ⟨restores, still⟩ := steer_reversible ((host.connect session).located .empty .empty)
            idle rfl rfl rfl (fun swapped => absurd swapped never) (by simp [carrierPin, located])
          refine ⟨restores.trans ⟨fun both => ⟨fun full => (partialTunnel full).elim,
            fun route tunnel member => ?_⟩, fun reversible => ⟨fun swapped => absurd swapped never,
            fun route tunnel member => ?_⟩⟩, still⟩
          · exact absurd (both.2 route tunnel member).1 never
          · exact (partialTunnel (reversible.routes route tunnel member).1).elim
    | some via =>
        obtain ⟨gateway, iface⟩ := via
        obtain ⟨stored, present⟩ := Tailscale.defaultGateway_some found
        have swapped : ((host.connect session).located gateway iface).swaps =
            (host.connect session).anyDefault := by
          have same : ((host.connect session).located gateway iface).swaps =
            ((host.connect session).anyDefault && gateway ≠ .empty) := rfl
          rw [same, decide_eq_true present, Bool.and_true]
        have pins : ∀ route ∈ ((host.connect session).located gateway iface).carrierPin,
            route ∉ host.table := by
          intro route member
          rw [carrierPin] at member
          split at member
          next =>
            rw [List.mem_singleton.mp member]
            exact unpinned gateway iface found
          next => cases member
        obtain ⟨restores, still⟩ := steer_reversible ((host.connect session).located gateway iface)
          idle rfl rfl rfl (fun _ => stored) pins
        rw [swapped] at restores
        refine ⟨restores.trans ⟨fun both => ⟨fun full _ => both.1 full, fun route tunnel member => ?_⟩,
          fun reversible => ⟨fun full => reversible.resolver full ?_, fun route tunnel member => ?_⟩⟩,
          still⟩
        · obtain ⟨full, same⟩ := both.2 route tunnel member
          refine ⟨full, fun via given => ?_⟩
          rw [found] at given
          cases given
          exact same
        · rw [found]
          rfl
        · obtain ⟨full, same⟩ := reversible.routes route tunnel member
          exact ⟨full, same (gateway, iface) found⟩

end Session

/-! ## Runs of sessions -/

theorem Restored.symm {before after : NetworkHost} (restored : Restored before after) :
    Restored after before :=
  ⟨fun route => (restored.table route).symm, restored.resolvConf.symm⟩

theorem Restored.trans {first second third : NetworkHost} (early : Restored first second)
    (late : Restored second third) : Restored first third :=
  ⟨fun route => (late.table route).trans (early.table route),
    late.resolvConf.trans early.resolvConf⟩

theorem sessions_restore_iff (sessions : List NetworkSession) (start : NetworkHost)
    (idle : Idle start) (unpinned : Run.Along session Unpinned start sessions) :
    (∀ earlier, earlier <+: sessions → Restored start (Run.run session start earlier)) ↔
      Run.Along session Reversible start sessions := by
  induction sessions generalizing start with
  | nil =>
      refine ⟨fun _ => trivial, fun _ earlier inside => ?_⟩
      rw [List.prefix_nil.mp inside]
      exact ⟨fun _ => Iff.rfl, rfl⟩
  | cons next sessions continued =>
      obtain ⟨restores, still⟩ := session_restores idle unpinned.1
      have rest := continued (start.session next) still unpinned.2
      constructor
      · intro always
        have here : Restored start (start.session next) := always [next] ⟨sessions, rfl⟩
        refine ⟨restores.mp here, rest.mp fun earlier inside => ?_⟩
        have later := always (next :: earlier) (List.cons_prefix_cons.mpr ⟨rfl, inside⟩)
        exact here.symm.trans later
      · rintro ⟨reversible, onward⟩ earlier inside
        have here := restores.mpr reversible
        cases earlier with
        | nil => exact ⟨fun _ => Iff.rfl, rfl⟩
        | cons first earlier =>
            obtain ⟨rfl, within⟩ := List.cons_prefix_cons.mp inside
            exact here.trans (rest.mpr onward earlier within)

/-! A full tunnel with a nameserver, on a system with and without a resolver file. -/

namespace Sample

def carrier : KernelRoute :=
  defaultVia (Tailscale.text "/dev/net/wifi/0") (Tailscale.text "192.168.1.1")

def host (resolvConf : Option Bytes) : NetworkHost where
  table := [carrier]
  resolvConf

def fullTunnel : NetworkSession where
  allowedIPs := ascii "0.0.0.0/0, 10.0.0.0/24, ::/0, 10.0.0.0/24"
  dns := ascii "::1, 10.2.0.1"
  tunInterface := Tailscale.text "tun/0"
  tunSelfIP := Tailscale.text "10.2.0.2"
  endpointIP := Tailscale.text "203.0.113.7"

theorem unpinned (resolvConf : Option Bytes) : Unpinned (host resolvConf) fullTunnel := by
  intro gateway iface found member
  have same := List.mem_singleton.mp member
  have masks : Tailscale.text "255.255.255.255" ≠ Tailscale.text "0.0.0.0" := by decide +kernel
  exact masks (congrArg KernelRoute.mask same)

end Sample

theorem sessions_restore_iff_sample :
    (∀ earlier, earlier <+: [Sample.fullTunnel] →
      Restored (Sample.host (some [35])) (Run.run session (Sample.host (some [35])) earlier)) ↔
      Run.Along session Reversible (Sample.host (some [35])) [Sample.fullTunnel] :=
  sessions_restore_iff [Sample.fullTunnel] (Sample.host (some [35])) ⟨rfl, rfl⟩
    ⟨Sample.unpinned _, trivial⟩

theorem missing_resolver_file_stays :
    Idle (Sample.host none) ∧ Unpinned (Sample.host none) Sample.fullTunnel ∧
      ¬ Restored (Sample.host none) ((Sample.host none).session Sample.fullTunnel) := by
  have idle : Idle (Sample.host none) := ⟨rfl, rfl⟩
  refine ⟨idle, Sample.unpinned none, fun restored => ?_⟩
  have reversible := (session_restores idle (Sample.unpinned none)).1.mp restored
  exact absurd (reversible.resolver (by decide +kernel) (by decide +kernel) (by decide +kernel))
    Bool.false_ne_true

end NetworkHost

end Sotoportego.WireGuard
