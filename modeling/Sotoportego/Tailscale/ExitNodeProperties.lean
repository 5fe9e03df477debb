import Sotoportego.Tailscale.Routes

/-!
# The exit node and the kernel's routes

Enabling an exit node pins the underlay addresses to the carrier and moves the default route
onto the tun; disabling it takes both back. Whatever is requested in between, the table is
the original one or the original one with exactly these changes.
-/

set_option autoImplicit false

namespace Sotoportego.Tailscale

open Octets CText
open Edits (Edit collect difference)
open Routing (pin defaultVia)

/-- The backend, its peers and the kernel's table. -/
structure ExitRouting where
  routing : Routing := {}
  set : TSPeerSet := {}
  table : List KernelRoute

namespace ExitRouting

inductive Event where
  | tunUp (iface selfIPv4 : CString)
  | derp (host : CString)
  | request (id : CString)
  /-- Netmaps, endpoints and confirmed paths only change the peers. -/
  | peers (set : TSPeerSet)
  | tick (resolver : Resolver)
  | teardown

/-- The backend after an event, and the commands it ran. -/
def act (exit : ExitRouting) : Event → ExitRouting × List (Edit KernelRoute)
  | .tunUp iface selfIPv4 =>
      ({ exit with routing := exit.routing.bringUpTun iface selfIPv4 }, [])
  | .derp host => ({ exit with routing := { exit.routing with derpHost := host } }, [])
  | .request id => ({ exit with routing := exit.routing.setExitNode id }, [])
  | .peers set => ({ exit with set }, [])
  | .tick resolver =>
      let synced := exit.routing.syncExitNode exit.set resolver exit.table
      ({ exit with routing := synced.1 }, synced.2)
  | .teardown =>
      let down := exit.routing.teardownTun
      ({ exit with routing := down.1 }, down.2.1)

def step (exit : ExitRouting) (event : Event) : ExitRouting :=
  let acted := exit.act event
  { acted.1 with table := Edits.run acted.2 exit.table }

end ExitRouting

/-! ## The table with an exit node -/

/-- The table that had `default` as its only default route, while the exit node is active. -/
structure Captured (original : List KernelRoute) (default : KernelRoute) (routing : Routing)
    (table : List KernelRoute) : Prop where
  tun : routing.tunInterface ≠ .empty
  gateway : routing.exitOrigGateway = default.gateway
  iface : routing.exitOrigGatewayIface = default.iface
  present : default.gateway ≠ .empty
  replaced : routing.exitDefaultReplaced = true
  once : routing.exitCarveouts.Nodup
  unpinned : ∀ ip ∈ routing.exitCarveouts, pin default.iface default.gateway ip ∉ original
  rows : ∀ route, route ∈ table ↔ (route ∈ original ∧ route ≠ default) ∨
    route = defaultVia routing.tunInterface routing.tunSelfIP ∨
    ∃ ip ∈ routing.exitCarveouts, route = pin default.iface default.gateway ip

/-- The original table, or the one an active exit node makes of it. -/
structure Balanced (original : List KernelRoute) (default : KernelRoute) (exit : ExitRouting) :
    Prop where
  restored : exit.routing.activeExitNode = .empty → ∀ route, route ∈ exit.table ↔ route ∈ original
  unused : exit.routing.activeExitNode = .empty → exit.routing.exitCarveouts = []
  captured : exit.routing.activeExitNode ≠ .empty →
    Captured original default exit.routing exit.table

/-- A table with one default route. -/
structure OneDefault (original : List KernelRoute) (default : KernelRoute) : Prop where
  member : default ∈ original
  isDefault : default.isDefault = true
  only : ∀ route ∈ original, route.isDefault = true → route = default

theorem pin_injective {iface gateway first second : CString}
    (same : pin iface gateway first = pin iface gateway second) : first = second :=
  congrArg KernelRoute.destination same

theorem isDefault_iff {route : KernelRoute} :
    route.isDefault = true ↔ route = defaultVia route.iface route.gateway := by
  cases route
  simp [KernelRoute.isDefault, defaultVia]

theorem pin_not_default (iface gateway ip : CString) : (pin iface gateway ip).isDefault = false := by
  have masks : text "255.255.255.255" ≠ text "0.0.0.0" := by decide +kernel
  simp [KernelRoute.isDefault, pin, masks]

theorem defaultVia_default (iface gateway : CString) : (defaultVia iface gateway).isDefault = true := by
  simp [KernelRoute.isDefault, defaultVia]

theorem pin_ne_default {iface gateway ip : CString} {route : KernelRoute}
    (isDefault : route.isDefault = true) : pin iface gateway ip ≠ route := by
  rintro rfl
  rw [pin_not_default] at isDefault
  cases isDefault

theorem defaultGateway_some {table : List KernelRoute} {gw iface : CString}
    (found : defaultGateway table = some (gw, iface)) :
    defaultVia iface gw ∈ table ∧ gw ≠ .empty := by
  obtain ⟨route, first, same⟩ := Option.map_eq_some_iff.mp found
  have holds := List.find?_some first
  simp only [Bool.and_eq_true] at holds
  cases same
  refine ⟨isDefault_iff.mp holds.1.1 ▸ List.mem_of_find?_eq_some first, fun empty => ?_⟩
  have shape := holds.1.2
  rw [empty] at shape
  exact absurd shape (by decide)

section Steps

variable {original : List KernelRoute} {default : KernelRoute} {routing : Routing}
  {table : List KernelRoute} {set : TSPeerSet} {resolver : Resolver}

theorem default_eq (one : OneDefault original default) :
    defaultVia default.iface default.gateway = default :=
  (isDefault_iff.mp one.isDefault).symm

/-- Disabling takes the table back. -/
theorem disable_restores (one : OneDefault original default)
    (captured : Captured original default routing table) (active : routing.activeExitNode ≠ .empty)
    (route : KernelRoute) : route ∈ Edits.run routing.disableExitNode.2 table ↔ route ∈ original := by
  have edits : routing.disableExitNode.2 =
      .delete (defaultVia routing.tunInterface routing.tunSelfIP) :: .add default ::
        (routing.exitCarveouts.map (pin default.iface default.gateway)).map .delete := by
    simp only [Routing.disableExitNode, if_neg active, captured.replaced, captured.gateway,
      captured.iface, default_eq one]
    simp [captured.present]
  rw [edits, Edits.run_cons, Edits.run_cons, Edits.mem_run_delete, Edits.mem_apply_add,
    Edits.mem_apply_delete, captured.rows]
  have pinned : route ∈ routing.exitCarveouts.map (pin default.iface default.gateway) ↔
      ∃ ip ∈ routing.exitCarveouts, route = pin default.iface default.gateway ip := by
    simp [eq_comm]
  rw [pinned]
  by_cases isPin : ∃ ip ∈ routing.exitCarveouts, route = pin default.iface default.gateway ip
  · obtain ⟨ip, listed, rfl⟩ := isPin
    have absent := captured.unpinned ip listed
    simp only [absent, iff_false, not_and, not_not]
    exact fun _ => ⟨ip, listed, rfl⟩
  · simp only [isPin, or_false, not_false_eq_true, and_true]
    constructor
    · rintro (⟨⟨stored, _⟩ | same, differs⟩ | rfl)
      · exact stored
      · exact absurd same differs
      · exact one.member
    · intro stored
      by_cases same : route = default
      · exact .inr same
      · refine .inl ⟨.inl ⟨stored, same⟩, ?_⟩
        rintro rfl
        exact same (one.only _ stored (defaultVia_default _ _))

/-- What disabling leaves in the backend. -/
theorem disable_fields (active : routing.activeExitNode ≠ .empty) :
    routing.disableExitNode.1 = { routing with
      exitCarveouts := []
      exitOrigGateway := .empty
      exitOrigGatewayIface := .empty
      exitDefaultReplaced := false
      activeExitNode := .empty } := by
  simp only [Routing.disableExitNode, if_neg active]

/-- Enabling captures the default route of the original table, or does nothing. -/
theorem enable_captures (one : OneDefault original default) (nodeKeyHex : CString)
    (same : ∀ route, route ∈ table ↔ route ∈ original)
    (unpinned : ∀ ip ∈ computeExitCarveouts (routing.exitUnderlayIPs set resolver nodeKeyHex),
      pin default.iface default.gateway ip ∉ original) :
    routing.enableExitNode set resolver table nodeKeyHex = (routing, []) ∨
      ((routing.enableExitNode set resolver table nodeKeyHex).1.activeExitNode = nodeKeyHex ∧
        (routing.enableExitNode set resolver table nodeKeyHex).1.exitCarveouts =
          computeExitCarveouts (routing.exitUnderlayIPs set resolver nodeKeyHex) ∧
        Captured original default (routing.enableExitNode set resolver table nodeKeyHex).1
          (Edits.run (routing.enableExitNode set resolver table nodeKeyHex).2 table)) := by
  unfold Routing.enableExitNode
  split
  · exact .inl rfl
  · next up =>
    split
    · exact .inl rfl
    · split
      · exact .inl rfl
      · split
        · exact .inl rfl
        · next gw iface found =>
          obtain ⟨stored, present⟩ := defaultGateway_some found
          have isOriginal := one.only _ ((same _).mp stored) (defaultVia_default iface gw)
          cases isOriginal
          refine .inr ⟨rfl, rfl, (not_or.mp up).1, rfl, rfl, present, rfl, Edits.nodup_collect _,
            unpinned, fun route => ?_⟩
          rw [Edits.run_append, Edits.run_cons, Edits.run_cons, Edits.run_nil, Edits.mem_apply_add,
            Edits.mem_apply_delete, Edits.mem_run_add, same, List.mem_map]
          constructor
          · rintro (⟨kept | ⟨ip, listed, rfl⟩, differs⟩ | rfl)
            · exact .inl ⟨kept, differs⟩
            · exact .inr (.inr ⟨ip, listed, rfl⟩)
            · exact .inr (.inl rfl)
          · rintro (⟨kept, differs⟩ | rfl | ⟨ip, listed, rfl⟩)
            · exact .inl ⟨.inl kept, differs⟩
            · exact .inr rfl
            · exact .inl ⟨.inr ⟨ip, listed, rfl⟩, pin_ne_default (defaultVia_default iface gw)⟩

/-- Reconciliation moves the pins to the addresses of the moment. -/
theorem reconcile_captured (active : routing.activeExitNode ≠ .empty)
    (captured : Captured original default routing table)
    (unpinned : ∀ ip ∈ computeExitCarveouts
      (routing.exitUnderlayIPs set resolver routing.activeExitNode),
      pin default.iface default.gateway ip ∉ original) :
    (routing.reconcileExitCarveouts set resolver).1.activeExitNode = routing.activeExitNode ∧
      Captured original default (routing.reconcileExitCarveouts set resolver).1
        (Edits.run (routing.reconcileExitCarveouts set resolver).2 table) ∧
      ∀ ip, ip ∈ (routing.reconcileExitCarveouts set resolver).1.exitCarveouts ↔
        ip ∈ computeExitCarveouts (routing.exitUnderlayIPs set resolver routing.activeExitNode) := by
  have gateway : routing.exitOrigGateway ≠ .empty := captured.gateway ▸ captured.present
  unfold Routing.reconcileExitCarveouts
  rw [if_neg (not_or.mpr ⟨active, gateway⟩)]
  simp only
  have once : (computeExitCarveouts
      (routing.exitUnderlayIPs set resolver routing.activeExitNode)).Nodup := Edits.nodup_collect _
  generalize computeExitCarveouts (routing.exitUnderlayIPs set resolver routing.activeExitNode) =
    desired at unpinned once ⊢
  split
  · next idle =>
    exact ⟨rfl, captured, fun ip => (Edits.same_of_differences idle.1 idle.2 ip).symm⟩
  · refine ⟨rfl, ⟨captured.tun, captured.gateway, captured.iface, captured.present,
      captured.replaced, once, unpinned, fun route => ?_⟩, fun ip => Iff.rfl⟩
    rw [Edits.run_append, Edits.mem_run_delete, Edits.mem_run_add, captured.rows, captured.gateway,
      captured.iface, List.mem_map, List.mem_map]
    by_cases isPin : ∃ ip, route = pin default.iface default.gateway ip
    · obtain ⟨ip, rfl⟩ := isPin
      have pinned (ips : List CString) : (∃ other ∈ ips, pin default.iface default.gateway other =
          pin default.iface default.gateway ip) ↔ ip ∈ ips := by
        constructor
        · rintro ⟨other, listed, same⟩
          exact pin_injective same ▸ listed
        · intro listed
          exact ⟨ip, listed, rfl⟩
      have reversed (ips : List CString) : (∃ other ∈ ips, pin default.iface default.gateway ip =
          pin default.iface default.gateway other) ↔ ip ∈ ips := by
        rw [← pinned ips]
        simp only [eq_comm]
      have capturing : pin default.iface default.gateway ip ≠
          defaultVia routing.tunInterface routing.tunSelfIP :=
        pin_ne_default (defaultVia_default _ _)
      have stored : pin default.iface default.gateway ip ∈ original →
          ip ∉ desired ∧ ip ∉ routing.exitCarveouts :=
        fun member => ⟨fun listed => unpinned ip listed member,
          fun listed => captured.unpinned ip listed member⟩
      simp only [pinned, reversed, capturing]
      simp only [Edits.mem_difference]
      tauto
    · have none (ips : List CString) : ¬ ∃ ip ∈ ips, route = pin default.iface default.gateway ip := by
        rintro ⟨ip, _, same⟩
        exact isPin ⟨ip, same⟩
      have reversed (ips : List CString) :
          ¬ ∃ ip ∈ ips, pin default.iface default.gateway ip = route := by
        rintro ⟨ip, _, same⟩
        exact isPin ⟨ip, same.symm⟩
      simp only [none, reversed, or_false, not_false_eq_true, and_true]

end Steps

/-! ## Runs -/

namespace ExitRouting

variable {original : List KernelRoute} {default : KernelRoute}

/-- A tick none of whose carve-outs had a host route before. -/
def Unpinned (original : List KernelRoute) (default : KernelRoute) (exit : ExitRouting) :
    Event → Prop
  | .tick resolver =>
      ∀ ip ∈ computeExitCarveouts
        (exit.routing.exitUnderlayIPs exit.set resolver exit.routing.desiredExitNode),
        pin default.iface default.gateway ip ∉ original
  | _ => True

instance (exit : ExitRouting) (event : Event) : Decidable (Unpinned original default exit event) := by
  cases event <;> unfold Unpinned <;> infer_instance

/-- The carve-outs after a tick are the IPv4 underlay addresses of that tick, each once. -/
structure Carved (exit : ExitRouting) (resolver : Resolver) (routing : Routing) : Prop where
  once : routing.exitCarveouts.Nodup
  requested : routing.activeExitNode ≠ .empty → routing.activeExitNode = exit.routing.desiredExitNode
  addresses : routing.activeExitNode ≠ .empty → ∀ ip, ip ∈ routing.exitCarveouts ↔
    ip ∈ exit.routing.exitUnderlayIPs exit.set resolver routing.activeExitNode ∧
      ip ≠ .empty ∧ (TSPeerSet.parseIpv4 ip).isSome = true
  unused : routing.activeExitNode = .empty → routing.exitCarveouts = []

theorem mem_computeExitCarveouts {underlayIPs : List CString} {ip : CString} :
    ip ∈ computeExitCarveouts underlayIPs ↔
      ip ∈ underlayIPs ∧ ip ≠ .empty ∧ (TSPeerSet.parseIpv4 ip).isSome = true := by
  simp [computeExitCarveouts]

/-- The underlay of a node does not depend on what is enabled. -/
theorem underlay_disabled (routing : Routing) (set : TSPeerSet) (resolver : Resolver)
    (nodeKeyHex : CString) : routing.disableExitNode.1.exitUnderlayIPs set resolver nodeKeyHex =
      routing.exitUnderlayIPs set resolver nodeKeyHex := by
  unfold Routing.disableExitNode
  split <;> rfl

/-- Enabling the requested node, from a state with no exit node. -/
theorem enable_balanced (one : OneDefault original default) {exit : ExitRouting}
    {resolver : Resolver} {routing : Routing} {table : List KernelRoute}
    (wanted : exit.routing.desiredExitNode ≠ .empty)
    (inactive : routing.activeExitNode = .empty) (unused : routing.exitCarveouts = [])
    (same : ∀ route, route ∈ table ↔ route ∈ original)
    (underlay : routing.exitUnderlayIPs exit.set resolver exit.routing.desiredExitNode =
      exit.routing.exitUnderlayIPs exit.set resolver exit.routing.desiredExitNode)
    (unpinned : Unpinned original default exit (.tick resolver)) :
    let enabled := routing.enableExitNode exit.set resolver table exit.routing.desiredExitNode
    Balanced original default { exit with routing := enabled.1, table := Edits.run enabled.2 table } ∧
      Carved exit resolver enabled.1 := by
  intro enabled
  have unpinned' : ∀ ip ∈ computeExitCarveouts
      (routing.exitUnderlayIPs exit.set resolver exit.routing.desiredExitNode),
      pin default.iface default.gateway ip ∉ original := by
    rw [underlay]
    exact unpinned
  obtain idle | ⟨active, carveouts, captured⟩ :=
    enable_captures one exit.routing.desiredExitNode same unpinned'
  · have still : enabled = (routing, []) := idle
    rw [still]
    exact ⟨⟨fun _ => same, fun _ => unused, fun up => absurd inactive up⟩,
      ⟨unused ▸ List.nodup_nil, fun up => absurd inactive up, fun up => absurd inactive up,
        fun _ => unused⟩⟩
  · have up : enabled.1.activeExitNode ≠ .empty := active.trans_ne wanted
    refine ⟨⟨fun down => absurd down up, fun down => absurd down up, fun _ => captured⟩,
      ⟨captured.once, fun _ => active, fun _ ip => ?_, fun down => absurd down up⟩⟩
    have listed : enabled.1.exitCarveouts = _ := carveouts
    have now : enabled.1.activeExitNode = _ := active
    rw [listed, mem_computeExitCarveouts, underlay, now]

theorem tick_balanced (one : OneDefault original default) {exit : ExitRouting} (resolver : Resolver)
    (unpinned : Unpinned original default exit (.tick resolver))
    (balanced : Balanced original default exit) :
    Balanced original default (exit.step (.tick resolver)) ∧
      Carved exit resolver (exit.step (.tick resolver)).routing := by
  obtain ⟨restored, unused, captured⟩ := balanced
  simp only [step, act, Routing.syncExitNode]
  by_cases active : exit.routing.activeExitNode = .empty
  · by_cases wanted : exit.routing.desiredExitNode = .empty
    · rw [if_neg (by simp [active, wanted]), if_neg (by simp [active])]
      exact ⟨⟨restored, unused, captured⟩, ⟨unused active ▸ List.nodup_nil,
        fun up => absurd active up, fun up => absurd active up, unused⟩⟩
    · have moved : exit.routing.desiredExitNode ≠ exit.routing.activeExitNode :=
        fun same => wanted (same.trans active)
      simp only [if_pos moved, if_neg (not_not.mpr active), if_pos wanted, List.nil_append,
        Edits.run_nil]
      exact enable_balanced one wanted active (unused active) (restored active) rfl unpinned
  · obtain fields := disable_fields active
    have table := disable_restores one (captured active) active
    by_cases moved : exit.routing.desiredExitNode = exit.routing.activeExitNode
    · rw [if_neg (not_not.mpr moved), if_pos active]
      have unpinned' := unpinned
      rw [Unpinned, moved] at unpinned'
      obtain ⟨still, after, addresses⟩ := reconcile_captured active (captured active) unpinned'
      have up := still.trans_ne active
      refine ⟨⟨fun down => absurd down up, fun down => absurd down up, fun _ => after⟩,
        ⟨after.once, fun _ => still.trans moved.symm, fun _ ip => ?_, fun down => absurd down up⟩⟩
      rw [addresses, mem_computeExitCarveouts, still]
    · simp only [if_pos moved, if_pos active]
      by_cases wanted : exit.routing.desiredExitNode = .empty
      · simp only [if_neg (not_not.mpr wanted), fields]
        rw [fields] at *
        exact ⟨⟨fun _ => table, fun _ => rfl, fun up => absurd rfl up⟩,
          ⟨List.nodup_nil, fun up => absurd rfl up, fun up => absurd rfl up, fun _ => rfl⟩⟩
      · simp only [if_pos wanted, Edits.run_append]
        refine enable_balanced one wanted ?_ ?_ table (underlay_disabled _ _ _ _) unpinned
        · rw [fields]
        · rw [fields]

theorem teardown_balanced (one : OneDefault original default) {exit : ExitRouting}
    (balanced : Balanced original default exit) :
    Balanced original default (exit.step .teardown) ∧
      (exit.step .teardown).routing.activeExitNode = .empty := by
  obtain ⟨restored, unused, captured⟩ := balanced
  simp only [step, act, Routing.teardownTun, Routing.teardownRoutes]
  by_cases down : exit.routing.tunInterface = .empty
  · have inactive : exit.routing.activeExitNode = .empty :=
      by_contra fun active => (captured active).tun down
    rw [if_pos down]
    exact ⟨⟨restored, unused, captured⟩, inactive⟩
  · rw [if_neg down]
    by_cases active : exit.routing.activeExitNode = .empty
    · have idle : exit.routing.disableExitNode = (exit.routing, []) := by
        rw [Routing.disableExitNode, if_pos active]
      simp only [idle]
      exact ⟨⟨fun _ => restored active, fun _ => unused active, fun up => absurd active up⟩, active⟩
    · have table := disable_restores one (captured active) active
      simp only [disable_fields active]
      exact ⟨⟨fun _ => table, fun _ => rfl, fun up => absurd rfl up⟩, trivial⟩

theorem step_balanced (one : OneDefault original default) (exit : ExitRouting) (event : Event)
    (unpinned : Unpinned original default exit event) (balanced : Balanced original default exit) :
    Balanced original default (exit.step event) := by
  cases event with
  | tick resolver => exact (tick_balanced one resolver unpinned balanced).1
  | teardown => exact (teardown_balanced one balanced).1
  | tunUp iface selfIPv4 =>
      obtain ⟨restored, unused, captured⟩ := balanced
      simp only [step, act, Routing.bringUpTun]
      split
      · exact ⟨restored, unused, captured⟩
      · next down =>
        -- an active exit node keeps the interface up
        have tun := not_not.mp (not_or.mp down).1
        exact ⟨restored, unused, fun active => absurd tun (captured active).tun⟩
  | derp host =>
      obtain ⟨restored, unused, captured⟩ := balanced
      refine ⟨restored, unused, fun active => ?_⟩
      obtain ⟨tun, gateway, iface, present, replaced, once, unpinned, rows⟩ := captured active
      exact ⟨tun, gateway, iface, present, replaced, once, unpinned, rows⟩
  | request id =>
      obtain ⟨restored, unused, captured⟩ := balanced
      refine ⟨restored, unused, fun active => ?_⟩
      obtain ⟨tun, gateway, iface, present, replaced, once, unpinned, rows⟩ := captured active
      exact ⟨tun, gateway, iface, present, replaced, once, unpinned, rows⟩
  | peers set => exact ⟨balanced.restored, balanced.unused, balanced.captured⟩

/-- A session before its first event. -/
def fresh (controlHost : CString) (original : List KernelRoute) : ExitRouting :=
  { routing := { controlHost }, table := original }

/-- In every run the table is the original one, or the original one with the default route on
the tun and one pin for each carve-out; a tick leaves the carve-outs of its moment, and a
teardown no exit node. -/
theorem exit_routing (one : OneDefault original default) (controlHost : CString)
    (events : List Event)
    (unpinned : Run.Along step (Unpinned original default) (fresh controlHost original) events) :
    Balanced original default (Run.run step (fresh controlHost original) events) ∧
    (∀ earlier resolver, events = earlier ++ [.tick resolver] →
      Carved (Run.run step (fresh controlHost original) earlier) resolver
        (Run.run step (fresh controlHost original) events).routing) ∧
    (∀ earlier, events = earlier ++ [.teardown] →
      (Run.run step (fresh controlHost original) events).routing.activeExitNode = .empty) := by
  have start : Balanced original default (fresh controlHost original) :=
    ⟨fun _ _ => Iff.rfl, fun _ => rfl, fun active => absurd rfl active⟩
  have reached {events : List Event}
      (along : Run.Along step (Unpinned original default) (fresh controlHost original) events) :
      Balanced original default (Run.run step (fresh controlHost original) events) :=
    Run.invariant_along (step_balanced one) along start
  refine ⟨reached unpinned, ?_, ?_⟩
  · rintro earlier resolver rfl
    obtain ⟨before, now⟩ := Run.along_append.mp unpinned
    rw [Run.run_append]
    exact (tick_balanced one resolver now.1 (reached before)).2
  · rintro earlier rfl
    rw [Run.run_append]
    exact (teardown_balanced one (reached unpinned.earlier)).2

namespace Sample

def carrier : KernelRoute := defaultVia (text "/dev/net/wifi/0") (text "192.168.1.1")

def table : List KernelRoute :=
  [carrier, { iface := text "/dev/net/wifi/0", destination := text "192.168.1.0",
              gateway := .empty, mask := text "255.255.255.0" }]

def node (endpoint : String) : ManagedPeer :=
  { nodeKeyHex := text "0a"
    allowedIPs := [ascii "100.64.0.9/32", ascii "0.0.0.0/0"]
    endpoints := [ascii endpoint] }

def resolver : Resolver := fun host => if host = text "control" then [text "198.51.100.1"] else []

/-- An exit node is enabled and moves to another address. -/
def events : List Event :=
  [.peers { peers := [node "203.0.113.7:41641"] }, .tunUp (text "tun/0") (text "100.64.0.1"),
    .request (text "0a"), .tick resolver, .peers { peers := [node "203.0.113.8:41641"] },
    .tick resolver]

end Sample

theorem exit_routing_sample :
    (Run.run step (fresh (text "control") Sample.table) Sample.events).routing.activeExitNode =
        text "0a" ∧
      Balanced Sample.table Sample.carrier
        (Run.run step (fresh (text "control") Sample.table) Sample.events) := by
  have one : OneDefault Sample.table Sample.carrier :=
    ⟨by decide +kernel, by decide +kernel, by decide +kernel⟩
  exact ⟨by decide +kernel, (exit_routing one (text "control") Sample.events (by decide +kernel)).1⟩

end ExitRouting

end Sotoportego.Tailscale
