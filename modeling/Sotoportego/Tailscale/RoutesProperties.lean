import Sotoportego.Tailscale.Routes

/-!
# Subnet routes across netmaps

The backend remembers the subnet routes it installed. After every synchronisation the tun
has exactly the routes the peers call for, and no command meets a route that is not as the
backend remembers it.
-/

set_option autoImplicit false

namespace Sotoportego.Tailscale

open Octets CText
open Edits (Edit collect difference)

/-- The backend, its peers, and the subnet routes the kernel has on the tun. -/
structure RouteSync where
  routing : Routing := {}
  set : TSPeerSet := {}
  tunRoutes : List SubnetRoute := []

namespace RouteSync

inductive Event where
  | tunUp (iface selfIPv4 : CString)
  /-- A netmap has been applied, and the routes are synchronised. -/
  | netmap (set : TSPeerSet)
  | teardown

/-- The backend after an event, and the commands it ran. -/
def act (sync : RouteSync) : Event → RouteSync × List (Edit SubnetRoute)
  | .tunUp iface selfIPv4 =>
      ({ sync with routing := sync.routing.bringUpTun iface selfIPv4 }, [])
  | .netmap set =>
      let synced := sync.routing.syncRoutes set
      ({ sync with routing := synced.1, set }, synced.2)
  | .teardown =>
      let down := sync.routing.teardownTun
      ({ sync with routing := down.1 }, down.2.2)

def step (sync : RouteSync) (event : Event) : RouteSync :=
  let acted := sync.act event
  { acted.1 with tunRoutes := Edits.run acted.2 sync.tunRoutes }

/-- The routes the peers call for. -/
def wanted (sync : RouteSync) : List SubnetRoute :=
  computeSubnetRoutes (sync.set.peers.flatMap ManagedPeer.allowedIPs)

/-- The kernel has what the backend remembers, and nothing without a tun. -/
structure Remembered (sync : RouteSync) : Prop where
  once : sync.routing.installedRoutes.Nodup
  same : ∀ route, route ∈ sync.tunRoutes ↔ route ∈ sync.routing.installedRoutes
  down : sync.routing.tunInterface = .empty → sync.routing.installedRoutes = []
  addressed : sync.routing.tunInterface ≠ .empty → sync.routing.tunSelfIP ≠ .empty

/-- What one event guarantees. -/
structure Synchronised (sync : RouteSync) (event : Event) : Prop where
  effective : Run.Along Edits.apply Edits.Effective sync.tunRoutes (sync.act event).2
  synced : ∀ set, event = .netmap set → sync.routing.tunInterface ≠ .empty →
    ∀ route, route ∈ (sync.step event).tunRoutes ↔ route ∈ (sync.step event).wanted
  cleared : event = .teardown → (sync.step event).tunRoutes = []

theorem disableExitNode_frame (routing : Routing) :
    routing.disableExitNode.1.installedRoutes = routing.installedRoutes ∧
      routing.disableExitNode.1.tunInterface = routing.tunInterface ∧
      routing.disableExitNode.1.tunSelfIP = routing.tunSelfIP := by
  unfold Routing.disableExitNode
  split
  · exact ⟨rfl, rfl, rfl⟩
  · exact ⟨rfl, rfl, rfl⟩

theorem step_tunUp {sync : RouteSync} (iface selfIPv4 : CString) (remembered : Remembered sync) :
    Remembered (sync.step (.tunUp iface selfIPv4)) := by
  obtain ⟨once, same, down, addressed⟩ := remembered
  unfold step act Routing.bringUpTun
  simp only [Edits.run_nil]
  split
  · exact ⟨once, same, down, addressed⟩
  · next raised =>
    simp only [not_or, not_not] at raised
    exact ⟨once, same, fun _ => down raised.1, fun _ => raised.2⟩

theorem step_netmap {sync : RouteSync} (set : TSPeerSet) (remembered : Remembered sync) :
    Synchronised sync (.netmap set) ∧ Remembered (sync.step (.netmap set)) := by
  obtain ⟨once, same, down, addressed⟩ := remembered
  by_cases absent : sync.routing.tunInterface = .empty ∨ sync.routing.tunSelfIP = .empty
  · have idle : sync.act (.netmap set) = ({ sync with set }, []) := by
      simp only [act, Routing.syncRoutes, if_pos absent]
    have still : sync.step (.netmap set) = { sync with set } := by
      simp only [step, idle, Edits.run_nil]
    rw [still]
    refine ⟨⟨by rw [idle]; trivial, fun _ _ up => ?_, nofun⟩, ⟨once, same, down, addressed⟩⟩
    exact absurd absent (not_or.mpr ⟨up, addressed up⟩)
  · have edits : (sync.act (.netmap set)).2 = Edits.exchange
        (computeSubnetRoutes (set.peers.flatMap ManagedPeer.allowedIPs))
        sync.routing.installedRoutes := by
      simp only [act, Routing.syncRoutes, if_neg absent]
      rfl
    have routing : (sync.act (.netmap set)).1 = { sync with
        set
        routing := { sync.routing with
          installedRoutes := computeSubnetRoutes (set.peers.flatMap ManagedPeer.allowedIPs) } } := by
      simp only [act, Routing.syncRoutes, if_neg absent]
    have wantedOnce := Edits.nodup_collect ((set.peers.flatMap ManagedPeer.allowedIPs).flatMap
      fun allowed => (parseAllowedIPs allowed).filterMap subnetRoute)
    have now : ∀ route, route ∈ (sync.step (.netmap set)).tunRoutes ↔
        route ∈ computeSubnetRoutes (set.peers.flatMap ManagedPeer.allowedIPs) := by
      intro route
      rw [step, edits, Edits.mem_run_exchange, same]
      tauto
    have after : (sync.step (.netmap set)).routing = { sync.routing with
        installedRoutes := computeSubnetRoutes (set.peers.flatMap ManagedPeer.allowedIPs) } := by
      rw [step, routing]
    refine ⟨⟨?_, fun _ _ _ route => ?_, nofun⟩, ?_⟩
    · rw [edits]
      exact Edits.effective_exchange wantedOnce once same
    · have peers : (sync.step (.netmap set)).set = set := by rw [step, routing]
      rw [now, wanted, peers]
    · refine ⟨?_, ?_, ?_, ?_⟩
      · rw [after]
        exact wantedOnce
      · rw [after]
        exact now
      · rw [after]
        exact fun gone => absurd (.inl gone) absent
      · rw [after]
        exact addressed

theorem step_teardown {sync : RouteSync} (remembered : Remembered sync) :
    Synchronised sync .teardown ∧ Remembered (sync.step .teardown) := by
  obtain ⟨once, same, down, addressed⟩ := remembered
  obtain ⟨installed, _⟩ := disableExitNode_frame sync.routing
  by_cases absent : sync.routing.tunInterface = .empty
  · have idle : sync.act .teardown = (sync, []) := by
      simp only [act, Routing.teardownTun, if_pos absent]
    have still : sync.step .teardown = sync := by
      simp only [step, idle, Edits.run_nil]
    have none : sync.tunRoutes = [] := by
      refine List.eq_nil_iff_forall_not_mem.mpr fun route member => ?_
      rw [same, down absent] at member
      cases member
    rw [still]
    exact ⟨⟨by rw [idle]; trivial, nofun, fun _ => by rw [still]; exact none⟩,
      ⟨once, same, down, addressed⟩⟩
  · have edits : (sync.act .teardown).2 = sync.routing.installedRoutes.map .delete := by
      simp only [act, Routing.teardownTun, if_neg absent, Routing.teardownRoutes, installed]
    have none : (sync.step .teardown).tunRoutes = [] := by
      refine List.eq_nil_iff_forall_not_mem.mpr fun route member => ?_
      rw [step, edits, Edits.mem_run_delete, same] at member
      exact member.2 member.1
    have routing : (sync.step .teardown).routing.installedRoutes = [] ∧
        (sync.step .teardown).routing.tunInterface = .empty := by
      simp [step, act, Routing.teardownTun, absent, Routing.teardownRoutes]
    refine ⟨⟨?_, nofun, fun _ => none⟩, ?_⟩
    · rw [edits]
      exact Edits.effective_delete once fun route member => (same route).mpr member
    · refine ⟨?_, ?_, fun _ => routing.1, fun up => absurd routing.2 up⟩
      · rw [routing.1]
        exact List.nodup_nil
      · intro route
        rw [none, routing.1]

theorem remembered_step {sync : RouteSync} (event : Event) (remembered : Remembered sync) :
    Synchronised sync event ∧ Remembered (sync.step event) := by
  cases event with
  | tunUp iface selfIPv4 => exact ⟨⟨trivial, nofun, nofun⟩, step_tunUp iface selfIPv4 remembered⟩
  | netmap set => exact step_netmap set remembered
  | teardown => exact step_teardown remembered

/-- In every run each event is synchronised: no command is idle, the tun has the routes of
the peers after each netmap, and none after the teardown. -/
theorem routes_synchronised (earlier : List Event) (event : Event) :
    Synchronised (Run.run step {} earlier) event := by
  have start : Remembered {} := ⟨List.nodup_nil, by simp, fun _ => rfl, fun up => absurd rfl up⟩
  have preserved (sync : RouteSync) (event : Event) (_ : True) (remembered : Remembered sync) :
      Remembered (step sync event) := (remembered_step event remembered).2
  have remembered := Run.invariant_run preserved (fun _ (_ : _ ∈ earlier) => trivial) start
  exact (remembered_step event remembered).1

end RouteSync

end Sotoportego.Tailscale
