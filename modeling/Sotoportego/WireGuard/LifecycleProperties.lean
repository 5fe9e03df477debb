import Sotoportego.OpenVPN.OwnershipProperties
import Sotoportego.WireGuard.Lifecycle
import Sotoportego.WireGuard.NetworkProperties

/-!
# A WireGuard session holds what its reader uses

Between two messages of the looper a backend without a reader has no slot and no routes, and
one with a reader shows a live state.
-/

set_option autoImplicit false

namespace Sotoportego.WireGuard

open Octets CText
open OpenVPN (System named probeFreeSlot tunName tunName_ne_empty resources_deletes)
open Server (Status VPNProfile)
open Tailscale (KernelRoute VPNState)

/-! ## Slots and routes -/

theorem named_tunName (slot : Nat) : named (tunName slot) = [tunName slot] :=
  if_neg (tunName_ne_empty slot)

/-- A probe without a slot of the backend's own leaves it the one that came up. -/
theorem probedSlots_none (comesUp : Nat → Bool) :
    probedSlots comesUp [] = (probeFreeSlot comesUp).1.toList.map tunName := by
  have deletes (slots : List Nat) := @resources_deletes { tuns := [] } rfl slots
  unfold probedSlots probeFreeSlot
  cases (List.range 8).find? comesUp with
  | none => exact congrArg OpenVPN.Resources.tuns (deletes (List.range 8))
  | some slot =>
      have before := congrArg OpenVPN.Resources.tuns (deletes (List.range (slot + 1)))
      dsimp only
      rw [Run.run_append]
      exact congrArg (tunName slot :: ·) before

theorem filter_named (name : CString) :
    (if name = .empty then named name else (named name).filter (· ≠ name)) = [] := by
  unfold named
  split_ifs
  · rfl
  · simp

namespace NetworkHost

theorem removeRoutes_spec (host : NetworkHost) : host.removeRoutes.routesInstalled = false := by
  cases installed : host.routesInstalled with
  | false =>
      rw [removeRoutes, if_pos (Bool.eq_false_iff.mp installed)]
      exact installed
  | true => rw [removeRoutes_eq installed]

theorem tunInterface_steer (host : NetworkHost) : host.steer.tunInterface = host.tunInterface := by
  rw [steer_eq]
  split_ifs
  · obtain ⟨resolvConf, resolvBackup, same⟩ := host.steered.applyDns_kept
    rw [same]
    rfl
  · rfl

theorem tunInterface_installRoutes (host : NetworkHost) :
    host.installRoutes.tunInterface = host.tunInterface := by
  unfold installRoutes
  dsimp only
  split_ifs
  · rfl
  · rfl
  · split
    · rfl
    · exact tunInterface_steer _
  · split <;> exact tunInterface_steer _

end NetworkHost

/-! ## The backend -/

namespace WireGuardBackend

variable {backend : WireGuardBackend}

/-- The threads, slots and routes of a session. -/
def Holds (backend : WireGuardBackend) : Prop :=
  backend.reader = true ∨ backend.slots ≠ [] ∨ backend.network.routesInstalled = true

/-- The slot is the one that has a name. -/
def Named (backend : WireGuardBackend) : Prop :=
  backend.slots = named backend.network.tunInterface

structure Settled (backend : WireGuardBackend) : Prop where
  named : backend.Named
  reading : backend.reader = true → backend.state ≠ .disconnected ∧ backend.state ≠ .error
  idle : backend.reader = false →
    backend.network.tunInterface = .empty ∧ backend.network.routesInstalled = false

/-- A session holds something as long as its reader runs. -/
theorem Settled.holds (settled : Settled backend) (holds : backend.Holds) :
    backend.reader = true := by
  rw [← Bool.not_eq_false]
  intro stopped
  obtain ⟨tun, routes⟩ := settled.idle stopped
  obtain reads | slots | installed := holds
  · exact absurd (stopped.symm.trans reads) (by decide)
  · exact slots (settled.named.trans (tun ▸ rfl))
  · exact absurd (routes.symm.trans installed) (by decide)

/-- Nothing but the reader, the slots and the network matters while no reader runs. -/
theorem Settled.unread {next : WireGuardBackend} (settled : Settled backend)
    (stopped : backend.reader = false) (reader : next.reader = backend.reader)
    (slots : next.slots = backend.slots)
    (tun : next.network.tunInterface = backend.network.tunInterface)
    (routes : next.network.routesInstalled = backend.network.routesInstalled) : Settled next := by
  refine ⟨?_, fun reads => ?_, fun _ => ?_⟩
  · rw [Named, slots, tun]
    exact settled.named
  · exact absurd ((reader.trans stopped).symm.trans reads) (by decide)
  · rw [tun, routes]
    exact settled.idle stopped

theorem settled_setState (settled : Settled backend) (stopped : backend.reader = false)
    (state : VPNState) (detail : Option Bytes) : Settled (backend.setState state detail) :=
  settled.unread stopped rfl rfl rfl rfl

theorem settled_cleanup (named : backend.Named) : Settled backend.cleanup := by
  refine ⟨?_, (fun reads => nomatch reads), fun _ => ⟨rfl, backend.network.removeRoutes_spec⟩⟩
  have slots := filter_named backend.network.tunInterface
  rw [← named] at slots
  exact slots

theorem settled_fail (named : backend.Named) (detail : String) : Settled (backend.fail detail) :=
  settled_setState (settled_cleanup named) rfl _ _

/-! ### `Connect` -/

theorem named_bringUpTun (free : backend.slots = []) (start : Start) :
    (backend.bringUpTun start).2.Named := by
  have probed := probedSlots_none start.comesUp
  unfold bringUpTun
  cases found : (probeFreeSlot start.comesUp).1 with
  | none =>
      rw [found] at probed
      exact (congrArg (probedSlots start.comesUp) free).trans probed
  | some slot =>
      rw [found] at probed
      have slots := (congrArg (probedSlots start.comesUp) free).trans probed
      exact slots.trans (named_tunName slot).symm

theorem named_openUdpSocket (named : backend.Named) (start : Start) :
    (backend.openUdpSocket start).2.Named := by
  unfold openUdpSocket
  cases start.resolved with
  | none => exact named
  | some endpointIP =>
      dsimp only
      split_ifs
      · exact named
      · exact named

theorem state_bringUpTun (start : Start) : (backend.bringUpTun start).2.state = backend.state := by
  unfold bringUpTun
  split <;> rfl

theorem state_openUdpSocket (start : Start) :
    (backend.openUdpSocket start).2.state = backend.state := by
  unfold openUdpSocket
  split
  · rfl
  · split_ifs <;> rfl

/-- An attempt ends with a reader, or torn down. -/
theorem settled_raise (free : backend.slots = []) (connecting : backend.state = .connecting)
    (start : Start) : Settled (backend.raise start).2 := by
  have tun := named_bringUpTun free start
  have udp := named_openUdpSocket tun start
  have state := ((state_openUdpSocket start).trans (state_bringUpTun start)).trans connecting
  unfold raise
  dsimp only
  split_ifs
  · exact settled_fail tun _
  · exact settled_fail udp _
  · exact settled_fail udp _
  · exact settled_fail udp _
  · refine ⟨udp, fun _ => ?_, fun stopped => nomatch stopped⟩
    have live : ((backend.bringUpTun start).2.openUdpSocket start).2.state ≠ .disconnected ∧
        ((backend.bringUpTun start).2.openUdpSocket start).2.state ≠ .error := by
      rw [state]
      decide
    exact live

theorem settled_begin (settled : Settled backend) (stopped : backend.reader = false)
    (start : Start) : Settled (backend.begin start).2 := by
  unfold begin
  cases backend.config.decodeKeys with
  | none => exact settled_setState settled stopped _ _
  | some keys =>
      have free : backend.slots = [] := settled.named.trans ((settled.idle stopped).1 ▸ rfl)
      exact @settled_raise ({ backend with keys := some keys }.setState .connecting none) free rfl start

theorem settled_connect (settled : Settled backend) (profile : VPNProfile) (start : Start) :
    Settled (backend.connect profile start).2 := by
  unfold connect
  split_ifs with live missing
  · exact settled
  all_goals
    have stopped : backend.reader = false := by
      rw [Bool.eq_false_iff]
      exact fun reads => live (settled.reading reads)
  · exact settled_setState settled stopped _ _
  · cases start.config with
    | none =>
        have blank : Settled (backend.configured {}) := settled.unread stopped rfl rfl rfl rfl
        exact settled_setState blank stopped _ _
    | some config =>
        have configured : Settled (backend.configured config) :=
          settled.unread stopped rfl rfl rfl rfl
        dsimp only
        split_ifs
        · have requested : Settled (backend.configured config).requested :=
            configured.unread stopped rfl rfl rfl rfl
          exact settled_begin requested stopped start
        · exact settled_setState configured stopped _ _

/-! ### The other messages -/

/-- A settled backend is left settled, and no reader starts. -/
structure Winds (backend next : WireGuardBackend) : Prop where
  settled : Settled next
  reader : next.reader = true → backend.reader = true

theorem winds_disconnect (settled : Settled backend) : Winds backend backend.disconnect := by
  unfold disconnect
  dsimp only
  split_ifs with shown reads
  · exact ⟨settled, id⟩
  · exact ⟨⟨settled.named, settled.reading, settled.idle⟩, id⟩
  · have named : { backend with stopRequested := true }.Named := settled.named
    exact ⟨settled_setState (settled_cleanup named) rfl _ _, fun reads => nomatch reads⟩

theorem winds_receive (settled : Settled backend) (message : ReaderMessage) :
    Winds backend (backend.receive message) := by
  unfold receive
  split_ifs with stopped
  · exact ⟨settled, id⟩
  · have reads : backend.reader = true := Bool.eq_true_of_not_eq_false stopped
    cases message with
    | connected table =>
        have tun := NetworkHost.tunInterface_installRoutes { backend.network with table }
        have live : VPNState.connected ≠ .disconnected ∧ VPNState.connected ≠ .error := by decide
        refine ⟨⟨?_, fun _ => live, fun idle => absurd idle stopped⟩, fun _ => reads⟩
        exact settled.named.trans (congrArg OpenVPN.named tun.symm)
    | stats bytesIn bytesOut =>
        exact ⟨⟨settled.named, settled.reading, settled.idle⟩, fun _ => reads⟩
    | readerExited detail =>
        have torn := settled_cleanup settled.named
        dsimp only
        unfold readerExited
        split_ifs
        · exact ⟨settled_setState torn rfl _ _, fun _ => reads⟩
        · exact ⟨settled_setState torn rfl _ _, fun _ => reads⟩

end WireGuardBackend

end Sotoportego.WireGuard
