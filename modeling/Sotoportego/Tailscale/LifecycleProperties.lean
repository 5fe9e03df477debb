import Sotoportego.Tailscale.Lifecycle
import Sotoportego.Tailscale.RoutesProperties
import Sotoportego.WireGuard.LifecycleProperties

/-!
# A tailnet session holds what its worker leaves

Between two messages of the looper a backend without a worker has no tun slot and no routes.
The visible state tells nothing of the worker, which a refused `Connect` leaves running.
-/

set_option autoImplicit false

namespace Sotoportego.Tailscale

open Octets CText WireGuard
open OpenVPN (probeFreeSlot tunName)

/-! ## Routes -/

/-- Without a tun nothing is routed onto it, and without an exit node nothing is pinned. -/
structure Routing.Tidy (routing : Routing) : Prop where
  down : routing.tunInterface = .empty →
    routing.installedRoutes = [] ∧ routing.activeExitNode = .empty
  unpinned : routing.activeExitNode = .empty →
    routing.exitDefaultReplaced = false ∧ routing.exitCarveouts = []

namespace Routing

variable {routing : Routing}

theorem disableExitNode_spec (tidy : routing.Tidy) :
    routing.disableExitNode.1.Tidy ∧ routing.disableExitNode.1.activeExitNode = .empty := by
  obtain ⟨routes, tun, -⟩ := RouteSync.disableExitNode_frame routing
  have cleared : routing.disableExitNode.1.activeExitNode = .empty ∧
      routing.disableExitNode.1.exitDefaultReplaced = false ∧
      routing.disableExitNode.1.exitCarveouts = [] := by
    unfold disableExitNode
    split
    · next inactive => exact ⟨inactive, tidy.unpinned inactive⟩
    · exact ⟨rfl, rfl, rfl⟩
  refine ⟨⟨fun down => ?_, fun _ => cleared.2⟩, cleared.1⟩
  rw [tun] at down
  exact ⟨routes.trans (tidy.down down).1, cleared.1⟩

theorem enableExitNode_spec (tidy : routing.Tidy) (set : TSPeerSet) (resolver : Resolver)
    (table : List KernelRoute) {nodeKeyHex : CString} (chosen : nodeKeyHex ≠ .empty) :
    (routing.enableExitNode set resolver table nodeKeyHex).1.Tidy ∧
      (routing.enableExitNode set resolver table nodeKeyHex).1.tunInterface =
        routing.tunInterface := by
  unfold enableExitNode
  split
  · exact ⟨tidy, rfl⟩
  · next up =>
    simp only [not_or] at up
    split
    · exact ⟨tidy, rfl⟩
    · split
      · exact ⟨tidy, rfl⟩
      · split
        · exact ⟨tidy, rfl⟩
        · exact ⟨⟨fun down => absurd down up.1, fun inactive => absurd inactive chosen⟩, rfl⟩

theorem reconcile_spec (tidy : routing.Tidy) (set : TSPeerSet) (resolver : Resolver) :
    (routing.reconcileExitCarveouts set resolver).1.Tidy ∧
      (routing.reconcileExitCarveouts set resolver).1.tunInterface = routing.tunInterface := by
  unfold reconcileExitCarveouts
  split
  · exact ⟨tidy, rfl⟩
  · next active =>
    simp only [not_or] at active
    dsimp only
    split
    · exact ⟨tidy, rfl⟩
    · exact ⟨⟨tidy.down, fun inactive => absurd inactive active.1⟩, rfl⟩

theorem syncExitNode_spec (tidy : routing.Tidy) (set : TSPeerSet) (resolver : Resolver)
    (table : List KernelRoute) :
    (routing.syncExitNode set resolver table).1.Tidy ∧
      (routing.syncExitNode set resolver table).1.tunInterface = routing.tunInterface := by
  have disabled := (disableExitNode_spec tidy).1
  have same := (RouteSync.disableExitNode_frame routing).2.1
  unfold syncExitNode
  split
  · split
    · split
      · next chosen =>
        obtain ⟨enabled, tun⟩ := enableExitNode_spec disabled set resolver
          (Edits.run routing.disableExitNode.2 table) chosen
        exact ⟨enabled, tun.trans same⟩
      · exact ⟨disabled, same⟩
    · split
      · next chosen => exact enableExitNode_spec tidy set resolver table chosen
      · exact ⟨tidy, rfl⟩
  · split
    · exact reconcile_spec tidy set resolver
    · exact ⟨tidy, rfl⟩

theorem syncRoutes_spec (tidy : routing.Tidy) (set : TSPeerSet) :
    (routing.syncRoutes set).1.Tidy ∧
      (routing.syncRoutes set).1.tunInterface = routing.tunInterface := by
  unfold syncRoutes
  split_ifs with unready
  · exact ⟨tidy, rfl⟩
  · simp only [not_or] at unready
    exact ⟨⟨fun down => absurd down unready.1, tidy.unpinned⟩, rfl⟩

theorem teardownTun_spec (tidy : routing.Tidy) :
    routing.teardownTun.1.Tidy ∧ routing.teardownTun.1.tunInterface = .empty := by
  unfold teardownTun
  split_ifs with down
  · exact ⟨tidy, down⟩
  · obtain ⟨disabled, inactive⟩ := disableExitNode_spec tidy
    exact ⟨⟨fun _ => ⟨rfl, inactive⟩, disabled.unpinned⟩, rfl⟩

end Routing

/-! ## The backend -/

namespace TailscaleHost

variable {host : TailscaleHost}

/-- The threads, slots and routes of a session. -/
def Holds (host : TailscaleHost) : Prop :=
  host.backend.worker = true ∨ host.backend.tunOpen = true ∨ host.dnsThread = true ∨
    host.derpReader = true ∨ 0 < host.strays ∨ host.slots ≠ [] ∨
    host.backend.routing.installedRoutes ≠ [] ∨
    host.backend.routing.exitDefaultReplaced = true ∨ host.backend.routing.exitCarveouts ≠ []

/-- No slot and no reader is without the field that names it. -/
structure Named (host : TailscaleHost) : Prop where
  slots : host.slots = OpenVPN.named host.backend.routing.tunInterface
  readers : host.strays = 0

/-- Without a worker none of the other threads runs, and no tun is up. -/
structure Idle (host : TailscaleHost) : Prop where
  tunOpen : host.backend.tunOpen = false
  dnsThread : host.dnsThread = false
  derpReader : host.derpReader = false
  tunInterface : host.backend.routing.tunInterface = .empty

structure Settled (host : TailscaleHost) : Prop where
  named : host.Named
  tidy : host.backend.routing.Tidy
  idle : host.backend.worker = false → host.Idle

/-- A tun slot that comes up takes its address, and no DERP reader is started over another. -/
def Careful (host : TailscaleHost) : HostEvent → Prop
  | .bringUpTun comesUp assigned => host.backend.worker = true →
      host.backend.routing.tunInterface = .empty → host.backend.session.selfIP ≠ .empty →
        (probeFreeSlot comesUp).1.isSome = true → assigned = true
  | .bringUpDerp reaches _ => host.backend.worker = true → host.backend.derpUp = false →
      host.backend.session.relayHost ≠ .empty → reaches = true → host.derpReader = false
  | _ => True

/-- A session holds something as long as its worker runs. -/
theorem Settled.holds (settled : Settled host) (holds : host.Holds) :
    host.backend.worker = true := by
  rw [← Bool.not_eq_false]
  intro stopped
  have idle := settled.idle stopped
  obtain ⟨routes, inactive⟩ := settled.tidy.down idle.tunInterface
  obtain ⟨kept, unpinned⟩ := settled.tidy.unpinned inactive
  obtain works | opened | resolves | reads | stray | slots | installed | replaced | pinned := holds
  · exact absurd (stopped.symm.trans works) (by decide)
  · exact absurd (idle.tunOpen.symm.trans opened) (by decide)
  · exact absurd (idle.dnsThread.symm.trans resolves) (by decide)
  · exact absurd (idle.derpReader.symm.trans reads) (by decide)
  · exact absurd settled.named.readers (Nat.ne_of_gt stray)
  · exact slots (settled.named.slots.trans (idle.tunInterface ▸ rfl))
  · exact installed routes
  · exact absurd (kept.symm.trans replaced) (by decide)
  · exact pinned unpinned

/-- What a host holds, and the routing that goes with it. -/
structure Holdings where
  worker : Bool
  tunOpen : Bool
  dnsThread : Bool
  derpReader : Bool
  strays : Nat
  slots : List CString
  routing : Routing

def holdings (host : TailscaleHost) : Holdings where
  worker := host.backend.worker
  tunOpen := host.backend.tunOpen
  dnsThread := host.dnsThread
  derpReader := host.derpReader
  strays := host.strays
  slots := host.slots
  routing := host.backend.routing

theorem Settled.congr {next : TailscaleHost} (settled : Settled host)
    (same : next.holdings = host.holdings) : Settled next := by
  simp only [holdings, Holdings.mk.injEq] at same
  obtain ⟨worker, tunOpen, dnsThread, derpReader, strays, slots, routing⟩ := same
  refine ⟨⟨?_, strays.trans settled.named.readers⟩, routing ▸ settled.tidy, fun stopped => ?_⟩
  · rw [slots, routing]
    exact settled.named.slots
  · have idle := settled.idle (worker.symm.trans stopped)
    exact ⟨tunOpen.trans idle.tunOpen, dnsThread.trans idle.dnsThread,
      derpReader.trans idle.derpReader, routing ▸ idle.tunInterface⟩

/-- While the worker runs, only the names of slots and readers count, and the routes. -/
theorem settled_of_worker (works : host.backend.worker = true) (named : host.Named)
    (tidy : host.backend.routing.Tidy) : Settled host :=
  ⟨named, tidy, fun stopped => absurd (works.symm.trans stopped) (by decide)⟩

/-- Routes come and go while the tun stays. -/
theorem Settled.routed (settled : Settled host) {routing : Routing} (tidy : routing.Tidy)
    (tun : routing.tunInterface = host.backend.routing.tunInterface) :
    Settled (host.withRouting routing) := by
  refine ⟨⟨?_, settled.named.readers⟩, tidy, fun stopped => ?_⟩
  · exact settled.named.slots.trans (congrArg OpenVPN.named tun.symm)
  · have idle := settled.idle stopped
    exact ⟨idle.tunOpen, idle.dnsThread, idle.derpReader, tun.trans idle.tunInterface⟩

/-! ### `Connect` -/

theorem connect_refused {profile : VPNProfile} {identity : Option Key}
    (refused : profile.name = .empty ∨ host.backend.worker = true) :
    host.backend.connect profile identity = { host.backend with state := .error } := by
  unfold TailscaleBackend.connect
  by_cases missing : profile.name = .empty
  · rw [if_pos missing]
  · rw [if_neg missing, if_pos (refused.resolve_left missing)]

/-- A session that starts where none was forgets the exit node, and has no routes. -/
theorem Settled.renewed {next : TailscaleHost} (settled : Settled host)
    (stopped : host.backend.worker = false)
    (same : next.holdings = { host.holdings with
      worker := next.backend.worker, routing := next.backend.routing })
    (tun : next.backend.routing.tunInterface = host.backend.routing.tunInterface)
    (routes : next.backend.routing.installedRoutes = host.backend.routing.installedRoutes)
    (inactive : next.backend.routing.activeExitNode = .empty)
    (replaced : next.backend.routing.exitDefaultReplaced =
      host.backend.routing.exitDefaultReplaced)
    (pins : next.backend.routing.exitCarveouts = host.backend.routing.exitCarveouts) :
    Settled next := by
  simp only [holdings, Holdings.mk.injEq, true_and, and_true] at same
  obtain ⟨tunOpen, dnsThread, derpReader, strays, slots⟩ := same
  have idle := settled.idle stopped
  obtain ⟨none, empty⟩ := settled.tidy.down idle.tunInterface
  obtain ⟨kept, unpinned⟩ := settled.tidy.unpinned empty
  refine ⟨⟨?_, strays.trans settled.named.readers⟩,
    ⟨fun _ => ⟨routes.trans none, inactive⟩, fun _ => ?_⟩, fun _ => ?_⟩
  · rw [slots, tun]
    exact settled.named.slots
  · exact ⟨replaced.trans kept, pins.trans unpinned⟩
  · exact ⟨tunOpen.trans idle.tunOpen, dnsThread.trans idle.dnsThread,
      derpReader.trans idle.derpReader, tun.trans idle.tunInterface⟩

theorem settled_connect (settled : Settled host) (profile : Server.VPNProfile)
    (answer : Enrolment) : Settled (host.connect profile answer).2 := by
  unfold connect
  dsimp only
  by_cases missing : profile.name = .empty
  · rw [if_pos missing, connect_refused (.inl missing)]
    exact settled.congr rfl
  rw [if_neg missing]
  by_cases works : host.backend.worker = true
  · rw [if_pos works, connect_refused (.inr works)]
    exact settled.congr rfl
  · rw [if_neg works]
    have stopped : host.backend.worker = false := Bool.eq_false_iff.mpr works
    unfold TailscaleBackend.connect
    rw [if_neg missing, if_neg works]
    cases answer.identity with
    | error fault => exact settled.congr rfl
    | ok nodePrivate =>
        dsimp only [Except.toOption]
        by_cases starts : answer.workerStarts = true
        · rw [if_pos starts]
          exact settled.renewed stopped rfl rfl rfl rfl rfl rfl
        · rw [if_neg starts]
          exact settled.renewed stopped rfl rfl rfl rfl rfl rfl

/-! ### On the worker -/

theorem settled_bringUpTun (settled : Settled host) (works : host.backend.worker = true)
    {comesUp : Nat → Bool} {assigned : Bool}
    (careful : host.Careful (.bringUpTun comesUp assigned)) :
    Settled (host.bringUpTun comesUp assigned) := by
  unfold bringUpTun
  by_cases unready : host.backend.routing.tunInterface ≠ .empty ∨
      host.backend.session.selfIP = .empty
  · rw [if_pos unready]
    exact settled
  · rw [if_neg unready]
    simp only [not_or, not_not] at unready
    obtain ⟨tun, addressed⟩ := unready
    have free : host.slots = [] := settled.named.slots.trans (tun ▸ rfl)
    have probed := (congrArg (probedSlots comesUp) free).trans (probedSlots_none comesUp)
    cases found : (probeFreeSlot comesUp).1 with
    | none =>
        rw [found] at probed
        have slots : host.slots = probedSlots comesUp host.slots := free.trans probed.symm
        exact settled_of_worker works ⟨slots.symm.trans settled.named.slots, settled.named.readers⟩
          settled.tidy
    | some slot =>
        rw [found] at probed
        have taken : assigned = true := careful works tun addressed (found ▸ rfl)
        have raised : host.backend.routing.bringUpTun (tunName slot) host.backend.session.selfIP =
            { host.backend.routing with
              tunInterface := tunName slot
              tunSelfIP := host.backend.session.selfIP } := by
          rw [Routing.bringUpTun, if_neg (not_or.mpr ⟨not_not.mpr tun, addressed⟩)]
        dsimp only
        rw [if_pos taken, raised]
        refine settled_of_worker works
          ⟨probed.trans (named_tunName slot).symm, settled.named.readers⟩
          ⟨fun down => ?_, settled.tidy.unpinned⟩
        exact absurd down (OpenVPN.tunName_ne_empty slot)

theorem settled_startDataPlane (settled : Settled host) (works : host.backend.worker = true)
    (opened : Bool) : Settled (host.startDataPlane opened) := by
  unfold startDataPlane
  split_ifs
  · exact settled
  · exact settled_of_worker works ⟨settled.named.slots, settled.named.readers⟩ settled.tidy

/-- No reader is lost where none runs. -/
theorem settled_bringUpDerp (settled : Settled host) (works : host.backend.worker = true)
    {reaches readerStarts : Bool} (careful : host.Careful (.bringUpDerp reaches readerStarts)) :
    Settled (host.bringUpDerp reaches readerStarts) := by
  unfold bringUpDerp
  split_ifs with spared
  · exact settled
  · simp only [not_or, Bool.not_eq_true, Bool.not_eq_false] at spared
    obtain ⟨down, relay, reached⟩ := spared
    have silent : host.derpReader = false := careful works down relay reached
    have readers : host.strays + host.derpReader.toNat = 0 := by
      rw [settled.named.readers, silent]
      rfl
    exact settled_of_worker works ⟨settled.named.slots, readers⟩
      ⟨settled.tidy.down, settled.tidy.unpinned⟩

theorem settled_startMagicDns (settled : Settled host) (works : host.backend.worker = true)
    (bound threadStarts : Bool) : Settled (host.startMagicDns bound threadStarts) := by
  unfold startMagicDns
  split_ifs
  · exact settled
  · exact settled_of_worker works ⟨settled.named.slots, settled.named.readers⟩ settled.tidy

theorem settled_failed (settled : Settled host) (works : host.backend.worker = true)
    (detail : CString) : Settled (host.failed detail) := by
  have underlay : Routing.Tidy { host.backend.routing with derpHost := .empty } :=
    ⟨settled.tidy.down, settled.tidy.unpinned⟩
  obtain ⟨tidy, down⟩ := Routing.teardownTun_spec underlay
  have slots : host.keptSlots = [] := by
    have none := filter_named host.backend.routing.tunInterface
    rw [← settled.named.slots] at none
    exact none
  have failed : (host.failed detail).backend = host.backend.failed detail := rfl
  unfold TailscaleBackend.failed at failed
  rw [if_pos works] at failed
  refine ⟨⟨?_, settled.named.readers⟩, ?_, fun _ => ⟨?_, rfl, rfl, ?_⟩⟩
  · rw [failed]
    exact slots.trans (congrArg OpenVPN.named down.symm)
  · rw [failed]
    exact tidy
  · rw [failed]
    rfl
  · rw [failed]
    exact down

/-! ### The other messages -/

/-- A settled backend is left settled, and no worker starts. -/
structure Winds (host next : TailscaleHost) : Prop where
  settled : Settled next
  worker : next.backend.worker = true → host.backend.worker = true

theorem winds_disconnect (settled : Settled host) : Winds host host.disconnect := by
  unfold disconnect
  split_ifs
  · exact ⟨settled.congr rfl, id⟩
  · exact ⟨settled.congr rfl, id⟩

theorem winds_step (settled : Settled host) {event : HostEvent} (careful : host.Careful event) :
    Winds host (host.step event) := by
  unfold step
  split_ifs with runs
  · cases event with
    | authURL url => exact ⟨settled.congr rfl, id⟩
    | authorized => exact ⟨settled.congr rfl, id⟩
    | mapResponse session => exact ⟨settled.congr rfl, id⟩
    | bringUpTun comesUp assigned =>
        exact ⟨settled_bringUpTun settled runs careful, fun _ => runs⟩
    | startDataPlane opened => exact ⟨settled_startDataPlane settled runs opened, fun _ => runs⟩
    | bringUpDerp reaches readerStarts =>
        exact ⟨settled_bringUpDerp settled runs careful, fun _ => runs⟩
    | startMagicDns bound threadStarts =>
        exact ⟨settled_startMagicDns settled runs bound threadStarts, fun _ => runs⟩
    | syncRoutes =>
        obtain ⟨tidy, tun⟩ := Routing.syncRoutes_spec settled.tidy host.backend.session.peers
        exact ⟨settled.routed tidy tun, id⟩
    | netmap peers selfIP up => exact ⟨settled.congr rfl, id⟩
    | syncExitNode resolver table =>
        obtain ⟨tidy, tun⟩ :=
          Routing.syncExitNode_spec settled.tidy host.backend.session.peers resolver table
        exact ⟨settled.routed tidy tun, id⟩
    | setExitNode id =>
        have tidy : (host.backend.routing.setExitNode id).Tidy :=
          ⟨settled.tidy.down, settled.tidy.unpinned⟩
        exact ⟨settled.routed tidy rfl, fun works => works⟩
    | derpTurn up => exact ⟨settled.congr rfl, id⟩
    | strayEnds =>
        have none := settled.named.readers
        have still : host.strays - 1 = 0 := by omega
        exact ⟨⟨⟨settled.named.slots, still⟩, settled.tidy, fun stopped =>
          ⟨(settled.idle stopped).tunOpen, (settled.idle stopped).dnsThread,
            (settled.idle stopped).derpReader, (settled.idle stopped).tunInterface⟩⟩, id⟩
    | failed detail => exact ⟨settled_failed settled runs detail, fun _ => runs⟩
  · exact ⟨settled, id⟩

end TailscaleHost

end Sotoportego.Tailscale
