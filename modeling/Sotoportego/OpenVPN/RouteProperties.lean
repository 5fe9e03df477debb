import Sotoportego.OpenVPN.OwnershipProperties
import Sotoportego.Tailscale.ExitNodeProperties

/-!
# The routes of a session

What each message does to the table and the session file, and what a session leaves of
them. The first gateway that is harvested stays until the teardown, so the routes that are
taken down are the ones that were put up.
-/

set_option autoImplicit false

namespace Sotoportego.OpenVPN

open Octets CText
open Edits (Edit)
open Server (VPNProfile)
open Tailscale (KernelRoute VPNState)
open Tailscale.Routing (pin defaultVia)

/-! ## The journal of a reaction -/

/-- A route command, or an operation on the session file. -/
def Effect.journals : Effect → Bool
  | .route _ | .eraseSession | .writeSession _ | .unlinkSession => true
  | _ => false

def Reaction.journal (reaction : Reaction) : List Effect :=
  reaction.effects.filter Effect.journals

/-- The part of the system that outlives the daemon. -/
structure Books where
  table : List KernelRoute
  sessionFile : SessionFile

def System.books (system : System) : Books where
  table := system.table
  sessionFile := system.sessionFile

theorem books_apply {system other : System} (same : system.books = other.books) (effect : Effect) :
    (system.apply effect).books = (other.apply effect).books := by
  simp only [System.books, Books.mk.injEq] at same
  obtain ⟨table, file⟩ := same
  cases effect <;> simp [System.apply, System.books, table, file]

theorem books_apply_other (system : System) {effect : Effect} (other : effect.journals = false) :
    (system.apply effect).books = system.books := by
  cases effect <;> first | rfl | cases other

theorem books_run {system other : System} (same : system.books = other.books)
    (effects : List Effect) :
    (Run.run System.apply system effects).books =
      (Run.run System.apply other (effects.filter Effect.journals)).books := by
  induction effects generalizing system other with
  | nil => exact same
  | cons effect effects continued =>
      cases journals : effect.journals with
      | true =>
          rw [List.filter_cons_of_pos journals, Run.run_cons, Run.run_cons]
          exact continued (books_apply same effect)
      | false =>
          rw [List.filter_cons_of_neg (by rw [journals]; decide), Run.run_cons]
          exact continued ((books_apply_other system journals).trans same)

theorem journal_andThen (reaction : Reaction) (next : OpenVPNBackend → Reaction) :
    (reaction.andThen next).journal = reaction.journal ++ (next reaction.backend).journal :=
  List.filter_append ..

theorem journal_of_all {effects : List Effect} (every : ∀ effect ∈ effects, effect.journals = true) :
    effects.filter Effect.journals = effects :=
  List.filter_eq_self.mpr every

/-! ## What a message does to the routes -/

/-- The fields of the routes stay, and a harvested gateway too. -/
structure KeptRoutes (backend next : OpenVPNBackend) : Prop where
  routesInstalled : next.routesInstalled = backend.routesInstalled
  installedServerIP : next.installedServerIP = backend.installedServerIP
  installedTunPeer : next.installedTunPeer = backend.installedTunPeer
  gateway : backend.origGateway ≠ .empty →
    next.origGateway = backend.origGateway ∧ next.origGatewayIface = backend.origGatewayIface

/-- All that `_InstallRoutes` needs to know. -/
structure Informed (backend : OpenVPNBackend) (server : CString) : Prop where
  gateway : backend.origGateway ≠ .empty
  iface : backend.origGatewayIface ≠ .empty
  peer : backend.tunPeer ≠ .empty
  server : server ≠ .empty

/-- The routes a backend has put up, by its fields. -/
structure Steered (backend next : OpenVPNBackend) (server peer : CString) : Prop where
  routesInstalled : next.routesInstalled = true
  installedServerIP : next.installedServerIP = server
  installedTunPeer : next.installedTunPeer = peer
  origGateway : next.origGateway = backend.origGateway
  origGatewayIface : next.origGatewayIface = backend.origGatewayIface

def installJournal (backend : OpenVPNBackend) (server : CString) (record : SessionRecord) :
    List Effect :=
  [.route (.add (pin backend.origGatewayIface backend.origGateway server)),
    .route (.delete (defaultVia backend.origGatewayIface backend.origGateway)),
    .route (.add (defaultVia backend.tunInterface backend.tunPeer)),
    .eraseSession, .writeSession record]

def refreshJournal (backend : OpenVPNBackend) (record : SessionRecord) : List Effect :=
  [.route (.delete (defaultVia backend.tunInterface backend.installedTunPeer)),
    .route (.add (defaultVia backend.tunInterface backend.tunPeer)),
    .eraseSession, .writeSession record]

/-- The server that a `CONNECTED` names. -/
def OpenVPNEvent.server (event : OpenVPNEvent) : Option CString :=
  if event.type = .state ∧ event.mappedState = .connected then some (.ofBytes event.remoteIP)
  else none

/-- The tunnel peer after some more lines. -/
def pushed (peer : CString) (lines : List Bytes) : CString :=
  lines.foldl (fun latest line => (pushedPeer line).getD latest) peer

/-- What a message that names `server`, or none, can do to the routes. -/
inductive Move (server : Option CString) (meanwhile : Meanwhile) (backend : OpenVPNBackend)
    (reaction : Reaction) : Prop where
  | still (journal : reaction.journal = []) (kept : KeptRoutes backend reaction.backend)
  | installs (scanned : OpenVPNBackend) (kept : KeptRoutes backend scanned)
      (slot : scanned.tunInterface = backend.tunInterface)
      (peer : scanned.tunPeer = pushed backend.tunPeer meanwhile.beforeRoutes)
      (recorded : reaction.backend.tunPeer = pushed scanned.tunPeer meanwhile.beforeRecord)
      (down : backend.routesInstalled = false) (remote : CString) (aimed : server = some remote)
      (informed : Informed scanned remote)
      (steered : Steered scanned reaction.backend remote scanned.tunPeer)
      (journal : reaction.journal = installJournal scanned remote reaction.backend.sessionRecord)
  | refreshes (scanned : OpenVPNBackend) (kept : KeptRoutes backend scanned)
      (slot : scanned.tunInterface = backend.tunInterface)
      (peer : scanned.tunPeer = pushed backend.tunPeer meanwhile.beforeRoutes)
      (recorded : reaction.backend.tunPeer = pushed scanned.tunPeer meanwhile.beforeRecord)
      (up : backend.routesInstalled = true) (aimed : server.isSome = true)
      (present : scanned.tunPeer ≠ .empty) (moved : scanned.tunPeer ≠ scanned.installedTunPeer)
      (steered : Steered scanned reaction.backend scanned.installedServerIP scanned.tunPeer)
      (journal : reaction.journal = refreshJournal scanned reaction.backend.sessionRecord)

section Moves

variable {backend : OpenVPNBackend}

theorem KeptRoutes.refl (backend : OpenVPNBackend) : KeptRoutes backend backend :=
  ⟨rfl, rfl, rfl, fun _ => ⟨rfl, rfl⟩⟩

theorem KeptRoutes.trans {first second third : OpenVPNBackend} (early : KeptRoutes first second)
    (late : KeptRoutes second third) : KeptRoutes first third := by
  refine ⟨late.routesInstalled.trans early.routesInstalled,
    late.installedServerIP.trans early.installedServerIP,
    late.installedTunPeer.trans early.installedTunPeer, fun present => ?_⟩
  obtain ⟨gateway, iface⟩ := early.gateway present
  obtain ⟨gateway', iface'⟩ := late.gateway (gateway ▸ present)
  exact ⟨gateway'.trans gateway, iface'.trans iface⟩

theorem kept_scanLogLine (line : Bytes) : KeptRoutes backend (backend.scanLogLine line) := by
  unfold OpenVPNBackend.scanLogLine
  by_cases present : backend.origGateway = .empty
  · rw [if_pos present]
    cases routeGateway line <;> cases pushedPeer line <;>
      exact ⟨rfl, rfl, rfl, fun absent => absurd present absent⟩
  · rw [if_neg present]
    cases pushedPeer line <;> exact ⟨rfl, rfl, rfl, fun _ => ⟨rfl, rfl⟩⟩

theorem kept_scanLines (lines : List Bytes) : KeptRoutes backend (backend.scanLines lines) := by
  induction lines generalizing backend with
  | nil => exact .refl backend
  | cons line lines continued => exact (kept_scanLogLine line).trans continued

theorem tunPeer_scanLogLine (line : Bytes) :
    (backend.scanLogLine line).tunPeer = (pushedPeer line).getD backend.tunPeer := by
  unfold OpenVPNBackend.scanLogLine
  cases pushedPeer line with
  | some peer => rfl
  | none =>
      dsimp only
      split_ifs
      · cases routeGateway line <;> rfl
      · rfl

theorem tunPeer_scanLines (lines : List Bytes) :
    (backend.scanLines lines).tunPeer = pushed backend.tunPeer lines := by
  induction lines generalizing backend with
  | nil => rfl
  | cons line lines continued =>
      have first : backend.scanLines (line :: lines) = (backend.scanLogLine line).scanLines lines :=
        rfl
      rw [first, continued, tunPeer_scanLogLine]
      rfl

theorem slot_scanLines (lines : List Bytes) :
    (backend.scanLines lines).tunInterface = backend.tunInterface :=
  congrArg Holdings.tunInterface (holdings_scanLines lines)

theorem move_installRoutes (down : backend.routesInstalled = false) (server : CString)
    (lines : List Bytes) :
    Move (some server) ⟨[], lines⟩ backend (backend.installRoutes server lines) := by
  unfold OpenVPNBackend.installRoutes
  rw [if_neg (by rw [down]; decide)]
  split_ifs with missing
  · exact .still rfl (kept_scanLines lines)
  · simp only [not_or] at missing
    obtain ⟨gateway, iface, peer, known⟩ := missing
    have kept := @kept_scanLines { backend with
      installedServerIP := server, installedTunPeer := backend.tunPeer, routesInstalled := true }
      lines
    obtain ⟨sameGateway, sameIface⟩ := kept.gateway gateway
    exact .installs backend (.refl backend) rfl rfl (tunPeer_scanLines lines) down server rfl
      ⟨gateway, iface, peer, known⟩
      ⟨kept.routesInstalled, kept.installedServerIP, kept.installedTunPeer, sameGateway, sameIface⟩
      rfl

/-- The looper writes the record from what the fields hold after the commands. -/
theorem move_refreshTunRoute (up : backend.routesInstalled = true)
    (gateway : backend.origGateway ≠ .empty) (server : CString) (lines : List Bytes) :
    Move (some server) ⟨[], lines⟩ backend (backend.refreshTunRoute lines) := by
  unfold OpenVPNBackend.refreshTunRoute
  split_ifs with same
  · exact .still rfl (kept_scanLines lines)
  · obtain ⟨present, moved⟩ := not_or.mp same
    have kept := @kept_scanLines { backend with installedTunPeer := backend.tunPeer } lines
    obtain ⟨sameGateway, sameIface⟩ := kept.gateway gateway
    exact .refreshes backend (.refl backend) rfl rfl (tunPeer_scanLines lines) up rfl present moved
      ⟨kept.routesInstalled.trans up, kept.installedServerIP, kept.installedTunPeer, sameGateway,
        sameIface⟩ rfl

/-- Scanning first changes nothing that is installed. -/
theorem Move.after_scan {server : Option CString} {meanwhile : Meanwhile}
    {scanned : OpenVPNBackend} {effects : List Effect} {next : OpenVPNBackend → Reaction}
    (kept : KeptRoutes backend scanned) (slot : scanned.tunInterface = backend.tunInterface)
    (peer : scanned.tunPeer = pushed backend.tunPeer meanwhile.beforeRoutes)
    (silent : effects.filter Effect.journals = [])
    (move : Move server ⟨[], meanwhile.beforeRecord⟩ scanned (next scanned)) :
    Move server meanwhile backend ((⟨scanned, effects⟩ : Reaction).andThen next) := by
  have journal : ((⟨scanned, effects⟩ : Reaction).andThen next).journal = (next scanned).journal := by
    rw [journal_andThen, Reaction.journal, silent, List.nil_append]
  cases move with
  | still none same => exact .still (journal.trans none) (kept.trans same)
  | installs later same slot' peer' recorded down remote aimed informed steered written =>
      exact .installs later (kept.trans same) (slot'.trans slot) (peer'.trans peer) recorded
        (kept.routesInstalled.symm.trans down) remote aimed informed steered (journal.trans written)
  | refreshes later same slot' peer' recorded up aimed present moved steered written =>
      exact .refreshes later (kept.trans same) (slot'.trans slot) (peer'.trans peer) recorded
        (kept.routesInstalled.symm.trans up) aimed present moved steered (journal.trans written)

theorem Move.then_setState {server : Option CString} {meanwhile : Meanwhile} {reaction : Reaction}
    (move : Move server meanwhile backend reaction) (state : VPNState) (detail : Option Bytes) :
    Move server meanwhile backend (reaction.andThen fun next => next.setState state detail) := by
  have journal : (reaction.andThen fun next => next.setState state detail).journal =
      reaction.journal := by
    rw [journal_andThen]
    exact List.append_nil _
  cases move with
  | still none same =>
      refine .still (journal.trans none) ?_
      exact ⟨same.routesInstalled, same.installedServerIP, same.installedTunPeer, same.gateway⟩
  | installs later same slot peer recorded down remote aimed informed steered written =>
      refine .installs later same slot peer recorded down remote aimed informed ?_
        (journal.trans written)
      exact ⟨steered.routesInstalled, steered.installedServerIP, steered.installedTunPeer,
        steered.origGateway, steered.origGatewayIface⟩
  | refreshes later same slot peer recorded up aimed present moved steered written =>
      refine .refreshes later same slot peer recorded up aimed present moved ?_
        (journal.trans written)
      exact ⟨steered.routesInstalled, steered.installedServerIP, steered.installedTunPeer,
        steered.origGateway, steered.origGatewayIface⟩

/-- With routes up, the gateway they replaced is known. -/
def Anchored (backend : OpenVPNBackend) : Prop :=
  backend.routesInstalled = true → backend.origGateway ≠ .empty

theorem kept_addressed (event : OpenVPNEvent) : KeptRoutes backend (backend.addressed event) :=
  ⟨rfl, rfl, rfl, fun _ => ⟨rfl, rfl⟩⟩

theorem journal_ifconfigUp : backend.ifconfigUp.filter Effect.journals = [] := by
  unfold OpenVPNBackend.ifconfigUp
  split_ifs <;> rfl

theorem move_tunnelUp (anchored : Anchored backend) (event : OpenVPNEvent) (meanwhile : Meanwhile) :
    Move (some (.ofBytes event.remoteIP)) meanwhile backend
      (backend.tunnelUp event meanwhile) := by
  have kept := (kept_addressed event).trans (@kept_scanLines (backend.addressed event)
    meanwhile.beforeRoutes)
  have slot : ((backend.addressed event).scanLines meanwhile.beforeRoutes).tunInterface =
      backend.tunInterface := slot_scanLines meanwhile.beforeRoutes
  unfold OpenVPNBackend.tunnelUp
  refine Move.after_scan kept slot (tunPeer_scanLines meanwhile.beforeRoutes) journal_ifconfigUp ?_
  unfold OpenVPNBackend.fixRoutes
  split_ifs with up
  · have gateway := anchored (kept.routesInstalled.symm.trans up)
    exact move_refreshTunRoute up ((kept.gateway gateway).1 ▸ gateway) _ meanwhile.beforeRecord
  · exact move_installRoutes (Bool.eq_false_iff.mpr up) _ meanwhile.beforeRecord

theorem move_handleManagementEvent (anchored : Anchored backend) (event : OpenVPNEvent)
    (meanwhile : Meanwhile) :
    Move event.server meanwhile backend (backend.handleManagementEvent event meanwhile) := by
  have idle : Move event.server meanwhile backend backend.quiet := .still rfl (.refl backend)
  have shown (state : VPNState) (detail : Option Bytes) :
      Move event.server meanwhile backend (backend.setState state detail) :=
    .still rfl ⟨rfl, rfl, rfl, fun _ => ⟨rfl, rfl⟩⟩
  have scanned (line : Bytes) :
      Move event.server meanwhile backend (backend.scanLogLine line).quiet :=
    .still rfl (kept_scanLogLine line)
  unfold OpenVPNBackend.handleManagementEvent
  split
  · next type =>
    unfold OpenVPNBackend.handleState
    split_ifs with ended connected
    · exact idle
    · have aimed : event.server = some (.ofBytes event.remoteIP) := if_pos ⟨type, connected⟩
      rw [aimed]
      exact (move_tunnelUp anchored event meanwhile).then_setState _ _
    · exact shown _ _
  · exact .still rfl ⟨rfl, rfl, rfl, fun _ => ⟨rfl, rfl⟩⟩
  · split_ifs
    · exact shown _ _
    · exact idle
  · exact shown _ _
  · exact shown _ _
  · split_ifs
    · exact idle
    · exact scanned _
  · split_ifs
    · exact idle
    · exact scanned _
  · exact idle

/-! ### Teardown -/

def restoreJournal (backend : OpenVPNBackend) : List Effect :=
  if backend.routesInstalled then
    (applyRestore backend.tunInterface backend.installedTunPeer backend.origGateway
      backend.origGatewayIface backend.installedServerIP).map .route ++ [.unlinkSession]
  else []

/-- The routes are down, and the slot and the harvest forgotten. -/
structure Dropped (backend : OpenVPNBackend) : Prop where
  routesInstalled : backend.routesInstalled = false
  slot : backend.tunInterface = .empty
  gateway : backend.origGateway = .empty

theorem journal_removeRoutes : backend.removeRoutes.journal = restoreJournal backend := by
  unfold OpenVPNBackend.removeRoutes restoreJournal
  cases backend.routesInstalled with
  | false => rfl
  | true =>
      rw [if_neg (by decide), if_pos rfl]
      refine journal_of_all fun effect member => ?_
      obtain route | unlink := List.mem_append.mp member
      · obtain ⟨edit, -, rfl⟩ := List.mem_map.mp route
        rfl
      · rw [List.mem_singleton.mp unlink]
        rfl

theorem journal_stopAll : backend.stopAll.journal = [] := by
  unfold OpenVPNBackend.stopAll Reaction.journal
  cases backend.socket <;> cases backend.pid <;> rfl

theorem journal_dropSlot : backend.dropSlot.journal = [] := by
  unfold OpenVPNBackend.dropSlot Reaction.journal
  dsimp only
  split_ifs <;> rfl

theorem cleanup_journal :
    backend.cleanup.journal = restoreJournal backend ∧ Dropped backend.cleanup.backend := by
  refine ⟨?_, routesInstalled_removeRoutes, rfl, rfl⟩
  rw [OpenVPNBackend.cleanup, journal_andThen, journal_andThen, journal_stopAll,
    journal_removeRoutes, journal_dropSlot, List.append_nil]
  rfl

/-- A teardown that ends in whatever state. -/
theorem torn_down (next : OpenVPNBackend → Reaction)
    (ending : ∀ cleaned, (next cleaned).journal = [] ∧ KeptRoutes cleaned (next cleaned).backend ∧
      (next cleaned).backend.tunInterface = cleaned.tunInterface ∧
      (next cleaned).backend.origGateway = cleaned.origGateway) :
    (backend.cleanup.andThen next).journal = restoreJournal backend ∧
      Dropped (backend.cleanup.andThen next).backend := by
  obtain ⟨journal, dropped⟩ := @cleanup_journal backend
  obtain ⟨silent, kept, slot, gateway⟩ := ending backend.cleanup.backend
  refine ⟨?_, kept.routesInstalled.trans dropped.routesInstalled, slot.trans dropped.slot,
    gateway.trans dropped.gateway⟩
  rw [journal_andThen, journal, silent, List.append_nil]

theorem torn_down_state (state : VPNState) (detail : Option Bytes) :
    (backend.cleanup.andThen fun cleaned => cleaned.setState state detail).journal =
        restoreJournal backend ∧
      Dropped (backend.cleanup.andThen fun cleaned => cleaned.setState state detail).backend :=
  torn_down _ fun _ => ⟨rfl, ⟨rfl, rfl, rfl, fun _ => ⟨rfl, rfl⟩⟩, rfl, rfl⟩

end Moves

/-! ## The table of a session -/

/-- Two tables with the same rows. -/
def SameRoutes (first second : List KernelRoute) : Prop :=
  ∀ route, route ∈ first ↔ route ∈ second

/-- The default route of a table is the one over this interface. -/
def TheDefault (table : List KernelRoute) (iface gateway : CString) : Prop :=
  ∀ route, route ∈ table ∧ route.isDefault = true ↔ route = defaultVia iface gateway

theorem theDefault_iff {table : List KernelRoute} {iface gateway : CString} :
    TheDefault table iface gateway ↔ defaultVia iface gateway ∈ table ∧
      ∀ route ∈ table, route.isDefault = true → route = defaultVia iface gateway := by
  constructor
  · intro default
    exact ⟨((default _).mpr rfl).1, fun route member isDefault =>
      (default route).mp ⟨member, isDefault⟩⟩
  · rintro ⟨present, only⟩ route
    refine ⟨fun ⟨member, isDefault⟩ => only route member isDefault, ?_⟩
    rintro rfl
    exact ⟨present, Tailscale.defaultVia_default iface gateway⟩

instance (table : List KernelRoute) (iface gateway : CString) :
    Decidable (TheDefault table iface gateway) :=
  decidable_of_iff _ theDefault_iff.symm

/-- The table, but for the default route that was replaced and the pin. -/
structure Up (table : List KernelRoute) (host : Host) : Prop where
  gateway : host.backend.origGateway ≠ .empty
  iface : host.backend.origGatewayIface ≠ .empty
  peer : host.backend.installedTunPeer ≠ .empty
  server : host.backend.installedServerIP ≠ .empty
  slot : host.backend.tunInterface ≠ .empty
  default : TheDefault table host.backend.origGatewayIface host.backend.origGateway
  unpinned : pin host.backend.origGatewayIface host.backend.origGateway
    host.backend.installedServerIP ∉ table
  routes : ∀ route, route ∈ host.system.table ↔
    route ∈ table ∧ route ≠ defaultVia host.backend.origGatewayIface host.backend.origGateway ∨
      route = pin host.backend.origGatewayIface host.backend.origGateway
        host.backend.installedServerIP ∨
      route = defaultVia host.backend.tunInterface host.backend.installedTunPeer

structure Routed (table : List KernelRoute) (host : Host) : Prop where
  down : host.backend.routesInstalled = false → SameRoutes host.system.table table
  up : host.backend.routesInstalled = true → Up table host

section Tables

variable {table : List KernelRoute} {host : Host} {reaction : Reaction}

theorem books_after (host : Host) (reaction : Reaction) :
    (host.after reaction).system.books =
      (Run.run System.apply host.system reaction.journal).books :=
  books_run rfl reaction.effects

theorem table_after (host : Host) (reaction : Reaction) :
    (host.after reaction).system.table =
      (Run.run System.apply host.system reaction.journal).table :=
  congrArg Books.table (books_after host reaction)

theorem Routed.anchored (routed : Routed table host) : Anchored host.backend :=
  fun up => (routed.up up).gateway

theorem Up.kept {next : Host} (up : Up table host) (kept : KeptRoutes host.backend next.backend)
    (slot : next.backend.tunInterface = host.backend.tunInterface)
    (same : next.system.table = host.system.table) : Up table next := by
  obtain ⟨gateway, iface⟩ := kept.gateway up.gateway
  constructor
  · rw [gateway]
    exact up.gateway
  · rw [iface]
    exact up.iface
  · rw [kept.installedTunPeer]
    exact up.peer
  · rw [kept.installedServerIP]
    exact up.server
  · rw [slot]
    exact up.slot
  · rw [gateway, iface]
    exact up.default
  · rw [gateway, iface, kept.installedServerIP]
    exact up.unpinned
  · rw [gateway, iface, kept.installedServerIP, kept.installedTunPeer, slot, same]
    exact up.routes

theorem default_of_mem {iface gateway : CString} (default : TheDefault table iface gateway)
    {route : KernelRoute} (member : route ∈ table) (isDefault : route.isDefault = true) :
    route = defaultVia iface gateway :=
  (default route).mp ⟨member, isDefault⟩

theorem table_installed {iface gateway server slot peer : CString} (route : KernelRoute) :
    route ∈ Edits.run [.add (pin iface gateway server), .delete (defaultVia iface gateway),
        .add (defaultVia slot peer)] table ↔
      route ∈ table ∧ route ≠ defaultVia iface gateway ∨ route = pin iface gateway server ∨
        route = defaultVia slot peer := by
  have differs : pin iface gateway server ≠ defaultVia iface gateway :=
    Tailscale.pin_ne_default (Tailscale.defaultVia_default iface gateway)
  rw [Edits.run_cons, Edits.run_cons, Edits.run_cons, Edits.run_nil, Edits.mem_apply_add,
    Edits.mem_apply_delete, Edits.mem_apply_add]
  constructor
  · rintro (⟨member | pinned, other⟩ | tunnel)
    · exact .inl ⟨member, other⟩
    · exact .inr (.inl pinned)
    · exact .inr (.inr tunnel)
  · rintro (⟨member, other⟩ | pinned | tunnel)
    · exact .inl ⟨.inl member, other⟩
    · exact .inl ⟨.inr pinned, pinned ▸ differs⟩
    · exact .inr tunnel

/-- Only the route over the tun is exchanged: the other default route is not in the table. -/
theorem table_refreshed {current : List KernelRoute} {iface gateway server slot old new : CString}
    (default : TheDefault table iface gateway)
    (routes : ∀ route, route ∈ current ↔
      route ∈ table ∧ route ≠ defaultVia iface gateway ∨ route = pin iface gateway server ∨
        route = defaultVia slot old) (route : KernelRoute) :
    route ∈ Edits.run [.delete (defaultVia slot old), .add (defaultVia slot new)] current ↔
      route ∈ table ∧ route ≠ defaultVia iface gateway ∨ route = pin iface gateway server ∨
        route = defaultVia slot new := by
  have isDefault := Tailscale.defaultVia_default slot old
  rw [Edits.run_cons, Edits.run_cons, Edits.run_nil, Edits.mem_apply_add, Edits.mem_apply_delete,
    routes]
  constructor
  · rintro (⟨⟨member, other⟩ | pinned | tunnel, differs⟩ | tunnel)
    · exact .inl ⟨member, other⟩
    · exact .inr (.inl pinned)
    · exact absurd tunnel differs
    · exact .inr (.inr tunnel)
  · rintro (⟨member, other⟩ | pinned | tunnel)
    · refine .inl ⟨.inl ⟨member, other⟩, ?_⟩
      rintro rfl
      exact other (default_of_mem default member isDefault)
    · exact .inl ⟨.inr (.inl pinned), pinned ▸ Tailscale.pin_ne_default isDefault⟩
    · exact .inr tunnel

theorem pin_refreshed {table : List KernelRoute} {iface gateway remote slot old new : CString}
    (member : pin iface gateway remote ∈ table) :
    pin iface gateway remote ∈
      Edits.run [.delete (defaultVia slot old), .add (defaultVia slot new)] table := by
  have isDefault := Tailscale.defaultVia_default slot old
  rw [Edits.run_cons, Edits.run_cons, Edits.run_nil, Edits.mem_apply_add, Edits.mem_apply_delete]
  exact .inl ⟨member, Tailscale.pin_ne_default isDefault⟩

theorem routed_move {server : Option CString} {meanwhile : Meanwhile} (routed : Routed table host)
    (move : Move server meanwhile host.backend reaction)
    (slot : reaction.backend.tunInterface = host.backend.tunInterface)
    (present : server.isSome = true → host.backend.tunInterface ≠ .empty)
    (grounded : host.backend.routesInstalled = false → reaction.backend.origGateway ≠ .empty →
      ∀ remote ∈ server,
        TheDefault table reaction.backend.origGatewayIface reaction.backend.origGateway ∧
          pin reaction.backend.origGatewayIface reaction.backend.origGateway remote ∉ table) :
    Routed table (host.after reaction) := by
  have same := table_after host reaction
  have written : (host.after reaction).backend = reaction.backend := rfl
  cases move with
  | still journal kept =>
      rw [journal, Run.run_nil] at same
      constructor
      · intro down
        rw [same]
        exact routed.down (kept.routesInstalled.symm.trans down)
      · intro up
        exact (routed.up (kept.routesInstalled.symm.trans up)).kept kept slot same
  | installs scanned kept slot' _ _ down remote aimed informed steered journal =>
      rw [journal] at same
      have before := routed.down down
      obtain ⟨default, unpinned⟩ :=
        grounded down (steered.origGateway ▸ informed.gateway) remote aimed
      refine ⟨fun later => absurd (later.symm.trans steered.routesInstalled) (by decide),
        fun _ => ?_⟩
      have routes := @table_installed host.system.table scanned.origGatewayIface
        scanned.origGateway remote scanned.tunInterface scanned.tunPeer
      constructor <;> rw [written]
      · rw [steered.origGateway]
        exact informed.gateway
      · rw [steered.origGatewayIface]
        exact informed.iface
      · rw [steered.installedTunPeer]
        exact informed.peer
      · rw [steered.installedServerIP]
        exact informed.server
      · rw [slot]
        exact present (aimed ▸ rfl)
      · exact default
      · rw [steered.installedServerIP]
        exact unpinned
      · intro route
        rw [same, steered.origGateway, steered.origGatewayIface, steered.installedTunPeer,
          steered.installedServerIP, slot, ← slot', ← before route]
        exact routes route
  | refreshes scanned kept slot' _ _ up _ known moved steered journal =>
      rw [journal] at same
      have before := @Up.kept table host { host with backend := scanned } (routed.up up) kept slot' rfl
      refine ⟨fun later => absurd (later.symm.trans steered.routesInstalled) (by decide),
        fun _ => ?_⟩
      have routes := @table_refreshed table host.system.table scanned.origGatewayIface
        scanned.origGateway scanned.installedServerIP scanned.tunInterface scanned.installedTunPeer
        scanned.tunPeer before.default before.routes
      constructor <;> rw [written]
      · rw [steered.origGateway]
        exact before.gateway
      · rw [steered.origGatewayIface]
        exact before.iface
      · rw [steered.installedTunPeer]
        exact known
      · rw [steered.installedServerIP]
        exact before.server
      · rw [slot]
        exact (routed.up up).slot
      · rw [steered.origGateway, steered.origGatewayIface]
        exact before.default
      · rw [steered.origGateway, steered.origGatewayIface, steered.installedServerIP]
        exact before.unpinned
      · intro route
        rw [same, steered.origGateway, steered.origGatewayIface, steered.installedTunPeer,
          steered.installedServerIP, slot, ← slot']
        exact routes route

/-- What the route commands of a restore leave of a table. Without a peer, nothing is known of
the default route over the tun. -/
theorem mem_applyRestore {current : List KernelRoute} {slot gateway iface server : CString}
    (slotKnown : slot ≠ .empty) (gatewayKnown : gateway ≠ .empty) (ifaceKnown : iface ≠ .empty)
    (serverKnown : server ≠ .empty) (peer : CString) (route : KernelRoute) :
    route ∈ Edits.run (applyRestore slot peer gateway iface server) current ↔
      (route ∈ current ∧ (peer ≠ .empty → route ≠ defaultVia slot peer) ∨
        route = defaultVia iface gateway) ∧ route ≠ pin iface gateway server := by
  by_cases known : peer = .empty <;>
    simp [applyRestore, Edits.run_cons, slotKnown, gatewayKnown, ifaceKnown, serverKnown, known]

theorem table_run_routes (system : System) (edits : List (Edit KernelRoute)) :
    (Run.run System.apply system (edits.map .route)).table = Edits.run edits system.table := by
  induction edits generalizing system with
  | nil => rfl
  | cons edit edits continued => exact continued (system.apply (.route edit))

/-- The commands of the teardown undo the ones that put the routes up. -/
theorem restored_of_up (up : Up table host) (route : KernelRoute) :
    route ∈ Edits.run (applyRestore host.backend.tunInterface host.backend.installedTunPeer
        host.backend.origGateway host.backend.origGatewayIface host.backend.installedServerIP)
      host.system.table ↔ route ∈ table := by
  rw [mem_applyRestore up.slot up.gateway up.iface up.server, up.routes]
  have isDefault := Tailscale.defaultVia_default host.backend.origGatewayIface
    host.backend.origGateway
  have replaced := ((up.default _).mpr rfl).1
  constructor
  · rintro ⟨⟨⟨member, -⟩ | pinned | tunnel, differs⟩ | original, unpinned⟩
    · exact member
    · exact absurd pinned unpinned
    · exact absurd tunnel (differs up.peer)
    · exact original ▸ replaced
  · intro member
    refine ⟨?_, fun pinned => up.unpinned (pinned ▸ member)⟩
    by_cases original : route = defaultVia host.backend.origGatewayIface host.backend.origGateway
    · exact .inr original
    · refine .inl ⟨.inl ⟨member, original⟩, fun _ => ?_⟩
      rintro rfl
      exact original (default_of_mem up.default member (Tailscale.defaultVia_default _ _))

theorem table_restoreJournal (routed : Routed table host) (route : KernelRoute) :
    route ∈ (Run.run System.apply host.system (restoreJournal host.backend)).table ↔
      route ∈ table := by
  unfold restoreJournal
  cases installed : host.backend.routesInstalled with
  | false => exact routed.down installed route
  | true =>
      rw [if_pos rfl, Run.run_append]
      have unlinked (system : System) :
          (Run.run System.apply system [.unlinkSession]).table = system.table := rfl
      rw [unlinked, table_run_routes]
      exact restored_of_up (routed.up installed) route

theorem routed_dropped (routed : Routed table host)
    (journal : reaction.journal = restoreJournal host.backend) (dropped : Dropped reaction.backend) : Routed table (host.after reaction) := by
  refine ⟨fun _ route => ?_, fun up => ?_⟩
  · rw [table_after, journal]
    exact table_restoreJournal routed route
  · exact absurd (up.symm.trans dropped.routesInstalled) (by decide)

end Tables

/-! ## What an action does to the routes -/

def Action.server : Action → Option CString
  | .event update _ => update.posted.server
  | _ => none

def Action.meanwhile : Action → Meanwhile
  | .event _ scanned => scanned
  | _ => {}

/-- What can come between the connection to the management socket and the teardown. -/
def Action.inSession : Action → Bool
  | .event _ _ | .scan _ | .disconnect | .setCredentials _ _ => true
  | _ => false

/-- The slot that a `Connect` takes, if one comes up. -/
def Launch.slot (launch : Launch) : CString :=
  ((probeFreeSlot launch.comesUp).1.map tunName).getD .empty

/-- A session goes on, ends or starts, or a start ends at once. -/
inductive Turn (backend : OpenVPNBackend) (action : Action) (reaction : Reaction) : Prop where
  | moves (move : Move action.server action.meanwhile backend reaction)
      (slot : reaction.backend.tunInterface = backend.tunInterface)
  | tears (journal : reaction.journal = restoreJournal backend) (dropped : Dropped reaction.backend)
  | opens (profile : VPNProfile) (launch : Launch) (request : action = .connect profile launch)
      (accepted : Accepts backend profile) (journal : reaction.journal = [])
      (kept : KeptRoutes backend reaction.backend)
      (slot : reaction.backend.tunInterface = launch.slot)
  | collapses (profile : VPNProfile) (launch : Launch) (request : action = .connect profile launch)
      (accepted : Accepts backend profile) (slotted : OpenVPNBackend)
      (kept : KeptRoutes backend slotted) (slot : slotted.tunInterface = launch.slot)
      (journal : reaction.journal = restoreJournal slotted) (dropped : Dropped reaction.backend)

section Turns

variable {backend : OpenVPNBackend}

theorem journal_none {effects : List Effect}
    (silent : ∀ effect ∈ effects, effect.journals = false) :
    effects.filter Effect.journals = [] :=
  List.filter_eq_nil_iff.mpr fun effect member => Bool.eq_false_iff.mp (silent effect member)

theorem journal_sendCommand (line : Bytes) :
    (backend.sendCommand line).filter Effect.journals = [] := by
  refine journal_none fun effect member => ?_
  obtain ⟨fd, -, rfl⟩ := List.mem_map.mp member
  rfl

theorem still_disconnect (server : Option CString) (meanwhile : Meanwhile) :
    Move server meanwhile backend backend.disconnect ∧
      backend.disconnect.backend.tunInterface = backend.tunInterface := by
  unfold OpenVPNBackend.disconnect
  split_ifs
  · exact ⟨.still rfl (.refl backend), rfl⟩
  · exact ⟨.still (journal_sendCommand _) ⟨rfl, rfl, rfl, fun _ => ⟨rfl, rfl⟩⟩, rfl⟩
  · refine ⟨.still (journal_none fun effect member => ?_) ⟨rfl, rfl, rfl, fun _ => ⟨rfl, rfl⟩⟩, rfl⟩
    obtain ⟨pid, -, rfl⟩ := List.mem_map.mp member
    rfl

theorem move_react {action : Action} (anchored : Anchored backend)
    (within : action.inSession = true) :
    Move action.server action.meanwhile backend (backend.react action) ∧
      (backend.react action).backend.tunInterface = backend.tunInterface := by
  cases action with
  | connect profile launch => cases within
  | tryMgmtConnect probe => cases within
  | readerExited => cases within
  | setCredentials user pass => exact ⟨.still rfl ⟨rfl, rfl, rfl, fun _ => ⟨rfl, rfl⟩⟩, rfl⟩
  | disconnect => exact still_disconnect none {}
  | event event meanwhile =>
      refine ⟨move_handleManagementEvent anchored event.posted meanwhile, ?_⟩
      have inert := @inert_handleManagementEvent backend event.posted meanwhile
      exact congrArg Holdings.tunInterface inert.holdings
  | scan line =>
      exact ⟨.still rfl (kept_scanLogLine line),
        congrArg Holdings.tunInterface (holdings_scanLogLine line)⟩

theorem spawnOpenVPN_cases (launch : Launch) :
    (backend.spawnOpenVPN launch).2.journal = [] ∧
      KeptRoutes backend (backend.spawnOpenVPN launch).2.backend ∧
      (backend.spawnOpenVPN launch).2.backend.tunInterface = backend.tunInterface := by
  unfold OpenVPNBackend.spawnOpenVPN
  have kept {next : OpenVPNBackend} (same : next = { backend with
      mgmtPort := next.mgmtPort, mgmtPassword := next.mgmtPassword
      mgmtPasswordFile := next.mgmtPasswordFile, stderrFd := next.stderrFd, pid := next.pid }) :
      KeptRoutes backend next ∧ next.tunInterface = backend.tunInterface := by
    rw [same]
    exact ⟨⟨rfl, rfl, rfl, fun _ => ⟨rfl, rfl⟩⟩, rfl⟩
  cases launch.passwordFile with
  | none => exact ⟨rfl, kept rfl⟩
  | some unique =>
      cases launch.pid with
      | none => exact ⟨rfl, kept rfl⟩
      | some pid => exact ⟨rfl, kept rfl⟩

theorem journal_probeFreeSlot (comesUp : Nat → Bool) :
    (probeFreeSlot comesUp).2.filter Effect.journals = [] := by
  refine journal_none fun effect member => ?_
  unfold probeFreeSlot at member
  cases found : (List.range 8).find? comesUp with
  | none =>
      rw [found] at member
      obtain ⟨slot, -, rfl⟩ := List.mem_map.mp member
      rfl
  | some free =>
      rw [found] at member
      obtain deleted | up := List.mem_append.mp member
      · obtain ⟨slot, -, rfl⟩ := List.mem_map.mp deleted
        rfl
      · rw [List.mem_singleton.mp up]
        rfl

theorem spawned_cases (launch : Launch) (running : Bool) :
    ((backend.spawned launch running).journal = [] ∧
        KeptRoutes backend (backend.spawned launch running).backend ∧
        (backend.spawned launch running).backend.tunInterface = backend.tunInterface) ∨
      (backend.spawned launch running).journal = restoreJournal backend ∧
        Dropped (backend.spawned launch running).backend := by
  unfold OpenVPNBackend.spawned OpenVPNBackend.beginMgmtConnect
  cases running with
  | false => exact .inl ⟨rfl, ⟨rfl, rfl, rfl, fun _ => ⟨rfl, rfl⟩⟩, rfl⟩
  | true =>
      cases launch.pollStarts with
      | true => exact .inl ⟨rfl, ⟨rfl, rfl, rfl, fun _ => ⟨rfl, rfl⟩⟩, rfl⟩
      | false => exact .inr (@torn_down_state { backend with
          stderrReader := launch.stderrThread, mgmtAttempt := 0, mgmtPoll := false } _ _)

theorem start_cases (launch : Launch) :
    ((backend.start launch).2.journal = [] ∧
        KeptRoutes backend (backend.start launch).2.backend ∧
        (backend.start launch).2.backend.tunInterface = launch.slot) ∨
      ∃ slotted, KeptRoutes backend slotted ∧ slotted.tunInterface = launch.slot ∧
        (backend.start launch).2.journal = restoreJournal slotted ∧
        Dropped (backend.start launch).2.backend := by
  have probed := journal_probeFreeSlot launch.comesUp
  unfold OpenVPNBackend.start Launch.slot
  cases found : probeFreeSlot launch.comesUp with
  | mk picked effects =>
      rw [found] at probed
      cases picked with
      | none =>
          refine .inl ⟨?_, ⟨rfl, rfl, rfl, fun _ => ⟨rfl, rfl⟩⟩, rfl⟩
          dsimp only
          rw [journal_andThen, Reaction.journal, probed]
          rfl
      | some slot =>
          have withSlot : KeptRoutes backend (backend.withSlot slot) :=
            ⟨rfl, rfl, rfl, fun _ => ⟨rfl, rfl⟩⟩
          obtain ⟨silent, spawn, tun⟩ := @spawnOpenVPN_cases (backend.withSlot slot) launch
          dsimp only
          generalize (backend.withSlot slot).spawnOpenVPN launch = result at *
          obtain ⟨running, launched⟩ := result
          have quiet : (⟨launched.backend, effects ++ launched.effects⟩ : Reaction).journal = [] := by
            rw [Reaction.journal, List.filter_append, probed, List.nil_append]
            exact silent
          rw [journal_andThen, quiet, List.nil_append]
          have kept := withSlot.trans spawn
          obtain ⟨later, still, same⟩ | torn := @spawned_cases launched.backend launch running
          · exact .inl ⟨later, kept.trans still, same.trans tun⟩
          · exact .inr ⟨launched.backend, kept, tun, torn⟩

theorem turn_connect (profile : VPNProfile) (launch : Launch) :
    Turn backend (.connect profile launch) (backend.connect profile launch).2 := by
  unfold OpenVPNBackend.connect
  split_ifs with refused empty
  · exact .moves (.still rfl (.refl backend)) rfl
  · exact .moves (.still rfl ⟨rfl, rfl, rfl, fun _ => ⟨rfl, rfl⟩⟩) rfl
  · have accepted : Accepts backend profile := by
      refine ⟨?_, empty⟩
      tauto
    have requested : KeptRoutes backend
        ((backend.requested profile).setState .connecting none).backend :=
      ⟨rfl, rfl, rfl, fun _ => ⟨rfl, rfl⟩⟩
    have silent : ((backend.requested profile).setState .connecting none).journal = [] := rfl
    dsimp only
    obtain ⟨quiet, kept, slot⟩ | ⟨slotted, kept, slot, journal, dropped⟩ :=
      @start_cases ((backend.requested profile).setState .connecting none).backend launch
    · refine .opens profile launch rfl accepted ?_ (requested.trans kept) slot
      rw [journal_andThen, silent]
      exact quiet
    · refine .collapses profile launch rfl accepted slotted (requested.trans kept) slot ?_ dropped
      rw [journal_andThen, silent]
      exact journal

/-- A failure that is found out after other commands. -/
theorem turn_fail {action : Action} {first : Reaction} (silent : first.journal = [])
    (same : restoreJournal first.backend = restoreJournal backend) (detail : String) :
    Turn backend action (first.andThen fun ready => ready.fail detail) := by
  obtain ⟨journal, dropped⟩ := @torn_down_state first.backend .error (some (ascii detail))
  refine .tears ?_ dropped
  rw [journal_andThen, silent, ← same]
  exact journal

theorem turn_onMgmtConnected {action : Action} (connected : Reaction)
    (silent : connected.journal = []) (kept : KeptRoutes backend connected.backend)
    (slot : connected.backend.tunInterface = backend.tunInterface)
    (same : restoreJournal connected.backend = restoreJournal backend) (readerStarts : Bool) :
    Turn backend action (connected.andThen fun ready => ready.onMgmtConnected readerStarts) := by
  have greeted : (connected.backend.greeting).filter Effect.journals = [] := by
    refine journal_none fun effect member => ?_
    obtain ⟨line, -, sent⟩ := List.mem_flatMap.mp member
    obtain ⟨fd, -, rfl⟩ := List.mem_map.mp sent
    rfl
  unfold OpenVPNBackend.onMgmtConnected
  cases readerStarts with
  | true =>
      refine .moves (.still ?_ (kept.trans ⟨rfl, rfl, rfl, fun _ => ⟨rfl, rfl⟩⟩)) slot
      rw [journal_andThen, journal_andThen, silent, Reaction.journal, greeted]
      rfl
  | false =>
      obtain ⟨journal, dropped⟩ := @torn_down_state connected.backend .error
        (some (ascii "could not start reader thread"))
      refine .tears ?_ dropped
      rw [journal_andThen, journal_andThen, silent, Reaction.journal, greeted, ← same]
      exact journal

theorem turn_tryMgmtConnect (probe : Probe) :
    Turn backend (.tryMgmtConnect probe) (backend.tryMgmtConnect probe) := by
  unfold OpenVPNBackend.tryMgmtConnect
  by_cases poll : backend.mgmtPoll = true
  · rw [if_neg (not_not.mpr poll)]
    split_ifs
    · obtain ⟨journal, dropped⟩ :=
        @torn_down_state backend .disconnected (some (ascii "cancelled"))
      exact .tears journal dropped
    · refine @turn_fail backend _ ⟨{ backend with pid := none }, _⟩
        (journal_none fun effect member => ?_) rfl _
      obtain ⟨pid, -, rfl⟩ := List.mem_map.mp member
      rfl
    · cases probe.fd with
      | some fd =>
          exact @turn_onMgmtConnected backend _
            ⟨{ backend with socket := some fd, mgmtPoll := false }, [.openSocket fd]⟩ rfl
            ⟨rfl, rfl, rfl, fun _ => ⟨rfl, rfl⟩⟩ rfl rfl _
      | none =>
          dsimp only
          split_ifs
          · exact @turn_fail backend _
              ({ backend with mgmtAttempt := backend.mgmtAttempt + 1 } : OpenVPNBackend).quiet
              rfl rfl _
          · exact .moves (.still rfl ⟨rfl, rfl, rfl, fun _ => ⟨rfl, rfl⟩⟩) rfl
  · rw [if_pos poll]
    exact .moves (.still rfl (.refl backend)) rfl

theorem torn_readerExited : backend.readerExited.journal = restoreJournal backend ∧
    Dropped backend.readerExited.backend := by
  refine torn_down _ fun cleaned => ?_
  split_ifs <;> exact ⟨rfl, ⟨rfl, rfl, rfl, fun _ => ⟨rfl, rfl⟩⟩, rfl, rfl⟩

theorem turn_react {action : Action} (anchored : Anchored backend) :
    Turn backend action (backend.react action) := by
  cases within : action.inSession with
  | true =>
      obtain ⟨move, slot⟩ := move_react anchored within
      exact .moves move slot
  | false =>
      cases action with
      | connect profile launch => exact turn_connect profile launch
      | tryMgmtConnect probe => exact turn_tryMgmtConnect probe
      | readerExited =>
          obtain ⟨journal, dropped⟩ := @torn_readerExited backend
          exact .tears journal dropped
      | setCredentials user pass => cases within
      | disconnect => cases within
      | event event meanwhile => cases within
      | scan line => cases within

end Turns

end Sotoportego.OpenVPN
