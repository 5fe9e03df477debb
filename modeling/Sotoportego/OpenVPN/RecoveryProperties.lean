import Sotoportego.OpenVPN.RestoreProperties

/-!
# After a crash

The routes go up before the record of them is written, and the record is erased before it is
written again. It names the tunnel peer of the latest reply, which need not be the one that
the default route points at. Where the daemon dies decides what the next start leaves.
-/

set_option autoImplicit false

namespace Sotoportego.OpenVPN

open Octets CText
open Edits (Edit)
open Server (VPNProfile)
open Tailscale (KernelRoute)
open Tailscale.Routing (pin defaultVia)

/-! ## The next start -/

def SessionFile.peer : SessionFile → CString
  | .record written => written.tunPeer
  | .absent | .truncated => .empty

/-- What the next start makes of the system. -/
def System.recovered (system : System) : System :=
  Run.run System.apply system (recoverIfCrashed system)

def Books.recovered (books : Books) : List KernelRoute :=
  match books.sessionFile with
  | .absent | .truncated => books.table
  | .record record =>
      Edits.run (applyRestore record.tunInterface record.tunPeer record.origGateway
        record.origGatewayIface record.serverIP) books.table

/-- The route commands and file operations among some effects. -/
def booked (made : List Effect) : Nat := (made.filter Effect.journals).length

/-- A default route over the slot that a record of another peer does not undo. -/
def Astray (table : List KernelRoute) (slot recorded peer : CString) : Prop :=
  recorded ≠ peer ∧ defaultVia slot peer ∉ table

/-- The record in the file names another peer than the one that is installed. -/
def Stale (table : List KernelRoute) (host : Host) : Prop :=
  host.backend.routesInstalled = true ∧
    Astray table host.backend.tunInterface host.system.sessionFile.peer
      host.backend.installedTunPeer

/-- After so many commands of the action, the record does not tell what is installed. -/
def Exposed (table : List KernelRoute) (host : Host) (count : Nat) : Action → Prop
  | .event _ meanwhile =>
      let slot := host.backend.tunInterface
      let peer := pushed host.backend.tunPeer meanwhile.beforeRoutes
      let recorded := pushed peer meanwhile.beforeRecord
      if count = 0 then Stale table host
      else if host.backend.routesInstalled = true then
        count = 2 ∧ Astray table slot host.system.sessionFile.peer peer ∨ count = 3 ∨
          count = 4 ∧ Astray table slot recorded peer
      else count ≤ 4 ∨ Astray table slot recorded peer
  | _ => count = 0 ∧ Stale table host

section Recovery

variable {table : List KernelRoute}

theorem table_recovered (system : System) :
    system.recovered.table = system.books.recovered := by
  unfold System.recovered recoverIfCrashed Books.recovered System.books
  cases system.sessionFile with
  | absent => rfl
  | truncated => rfl
  | record record =>
      dsimp only
      rw [Run.run_append]
      exact table_run_routes system _

theorem books_crashed {system : System} {reaction : Reaction} {made : List Effect}
    (cut : made <+: reaction.effects) :
    (Run.run System.apply system made).books =
        (Run.run System.apply system (reaction.journal.take (booked made))).books ∧
      booked made ≤ reaction.journal.length := by
  have early : made.filter Effect.journals <+: reaction.journal := cut.filter _
  refine ⟨?_, early.length_le⟩
  rw [books_run rfl made, booked, ← List.prefix_iff_eq_take.mp early]

/-! ## What a record undoes -/

/-- The names that the routes of a session go by. -/
structure Names where
  slot : CString
  iface : CString
  gateway : CString
  server : CString

def OpenVPNBackend.namesTo (backend : OpenVPNBackend) (server : CString) : Names where
  slot := backend.tunInterface
  iface := backend.origGatewayIface
  gateway := backend.origGateway
  server

def OpenVPNBackend.names (backend : OpenVPNBackend) : Names :=
  backend.namesTo backend.installedServerIP

def SessionRecord.names (record : SessionRecord) : Names where
  slot := record.tunInterface
  iface := record.origGatewayIface
  gateway := record.origGateway
  server := record.serverIP

namespace Names

structure Sure (names : Names) (table : List KernelRoute) : Prop where
  slot : names.slot ≠ .empty
  iface : names.iface ≠ .empty
  gateway : names.gateway ≠ .empty
  server : names.server ≠ .empty
  default : TheDefault table names.iface names.gateway
  unpinned : pin names.iface names.gateway names.server ∉ table

/-- But for the default route of before and the pin, the table has only a default route over
the slot besides its own. -/
def Agrees (names : Names) (table current : List KernelRoute) (extra : Option CString) : Prop :=
  ∀ route, route ≠ defaultVia names.iface names.gateway →
    route ≠ pin names.iface names.gateway names.server →
    (route ∈ current ↔ route ∈ table ∨ ∃ peer ∈ extra, route = defaultVia names.slot peer)

variable {names : Names} {current : List KernelRoute} {extra : Option CString}

theorem agrees_of_same (same : SameRoutes current table) : names.Agrees table current none := by
  intro route _ _
  rw [same route]
  simp

theorem Agrees.addPin (agrees : names.Agrees table current extra) :
    names.Agrees table (Edits.apply current
      (.add (pin names.iface names.gateway names.server))) extra := by
  intro route other unpinned
  rw [Edits.mem_apply_add, agrees route other unpinned]
  simp [unpinned]

theorem Agrees.dropPin (agrees : names.Agrees table current extra) :
    names.Agrees table (Edits.apply current
      (.delete (pin names.iface names.gateway names.server))) extra := by
  intro route other unpinned
  rw [Edits.mem_apply_delete, agrees route other unpinned]
  simp [unpinned]

theorem Agrees.addDefault (agrees : names.Agrees table current extra) :
    names.Agrees table (Edits.apply current (.add (defaultVia names.iface names.gateway)))
      extra := by
  intro route other unpinned
  rw [Edits.mem_apply_add, agrees route other unpinned]
  simp [other]

theorem Agrees.dropDefault (agrees : names.Agrees table current extra) :
    names.Agrees table (Edits.apply current (.delete (defaultVia names.iface names.gateway)))
      extra := by
  intro route other unpinned
  rw [Edits.mem_apply_delete, agrees route other unpinned]
  simp [other]

theorem Agrees.addTunnel (agrees : names.Agrees table current none) (peer : CString) :
    names.Agrees table (Edits.apply current (.add (defaultVia names.slot peer))) (some peer) := by
  intro route other unpinned
  rw [Edits.mem_apply_add, agrees route other unpinned]
  simp

theorem Agrees.dropTunnel {peer : CString} (sure : names.Sure table)
    (agrees : names.Agrees table current (some peer)) :
    names.Agrees table (Edits.apply current (.delete (defaultVia names.slot peer))) none := by
  intro route other unpinned
  rw [Edits.mem_apply_delete, agrees route other unpinned]
  constructor
  · rintro ⟨member | ⟨_, same, tunnel⟩, differs⟩
    · exact .inl member
    · cases same
      exact absurd tunnel differs
  · rintro (member | ⟨_, missing, -⟩)
    · refine ⟨.inl member, ?_⟩
      rintro rfl
      exact other (default_of_mem sure.default member (Tailscale.defaultVia_default _ _))
    · cases missing

end Names

/-- A record undoes a session but for a default route of another peer. -/
theorem recovered_record {names : Names} (sure : names.Sure table) {record : SessionRecord}
    (same : record.names = names) {current : List KernelRoute} {extra : Option CString}
    (known : ∀ peer ∈ extra, peer ≠ .empty) (agrees : names.Agrees table current extra) :
    SameRoutes (Books.recovered ⟨current, .record record⟩) table ↔
      ∀ peer ∈ extra, ¬ Astray table names.slot record.tunPeer peer := by
  subst same
  have restored (route : KernelRoute) : route ∈ Books.recovered ⟨current, .record record⟩ ↔ _ :=
    mem_applyRestore sure.slot sure.gateway sure.iface sure.server record.tunPeer route
  constructor
  · rintro back peer member ⟨differs, absent⟩
    have isDefault := Tailscale.defaultVia_default record.names.slot peer
    refine absent ((back _).mp ((restored _).mpr ⟨.inl ⟨?_, fun _ tunnel => ?_⟩, ?_⟩))
    · refine (agrees _ (fun original => ?_) (fun pinned => ?_)).mpr (.inr ⟨peer, member, rfl⟩)
      · rw [original] at absent
        exact absent ((sure.default _).mpr rfl).1
      · exact Tailscale.pin_ne_default isDefault pinned.symm
    · exact differs (congrArg KernelRoute.gateway tunnel).symm
    · exact fun pinned => Tailscale.pin_ne_default isDefault pinned.symm
  · intro covered route
    rw [restored]
    constructor
    · rintro ⟨⟨member, dropped⟩ | rfl, unpinned⟩
      · by_cases original : route = defaultVia record.names.iface record.names.gateway
        · exact original ▸ ((sure.default _).mpr rfl).1
        · obtain kept | ⟨peer, named, rfl⟩ := (agrees route original unpinned).mp member
          · exact kept
          · have recorded : record.tunPeer ≠ peer := by
              rintro rfl
              exact dropped (known _ named) rfl
            exact not_not.mp (not_and.mp (covered peer named) recorded)
      · exact ((sure.default _).mpr rfl).1
    · intro member
      have unpinned : route ≠ pin record.names.iface record.names.gateway record.names.server :=
        fun pinned => sure.unpinned (pinned ▸ member)
      refine ⟨?_, unpinned⟩
      by_cases original : route = defaultVia record.names.iface record.names.gateway
      · exact .inr original
      · refine .inl ⟨(agrees route original unpinned).mpr (.inl member), fun _ => ?_⟩
        rintro rfl
        exact original (default_of_mem sure.default member (Tailscale.defaultVia_default _ _))

/-! ## Where the daemon dies -/

/-- The session file describes the routes that are up, but perhaps for the tunnel peer. -/
structure Filed (host : Host) : Prop where
  down : host.backend.routesInstalled = false → host.system.sessionFile = .absent
  up : host.backend.routesInstalled = true →
    ∃ record, host.system.sessionFile = .record record ∧ record.names = host.backend.names

theorem Up.sure {host : Host} (up : Up table host) : host.backend.names.Sure table where
  slot := up.slot
  iface := up.iface
  gateway := up.gateway
  server := up.server
  default := up.default
  unpinned := up.unpinned

theorem Up.agrees {host : Host} (up : Up table host) :
    host.backend.names.Agrees table host.system.table (some host.backend.installedTunPeer) := by
  intro route other unpinned
  rw [up.routes]
  constructor
  · rintro (⟨member, -⟩ | pinned | tunnel)
    · exact .inl member
    · exact absurd pinned unpinned
    · exact .inr ⟨_, rfl, tunnel⟩
  · rintro (member | ⟨peer, same, tunnel⟩)
    · exact .inl ⟨member, other⟩
    · cases same
      exact .inr (.inr tunnel)

theorem pin_up {host : Host} (up : Up table host) :
    pin host.backend.names.iface host.backend.names.gateway host.backend.names.server ∈
      host.system.table :=
  (up.routes _).mpr (.inr (.inl rfl))

/-- Without a record, the pin stays. -/
theorem unrecovered {names : Names} (sure : names.Sure table) {books : Books}
    (unrecorded : books.sessionFile = .absent ∨ books.sessionFile = .truncated)
    (pinned : pin names.iface names.gateway names.server ∈ books.table) :
    ¬ SameRoutes books.recovered table := by
  have same : books.recovered = books.table := by
    unfold Books.recovered
    obtain file | file := unrecorded <;> rw [file]
  rw [same]
  exact fun back => sure.unpinned ((back _).mp pinned)

theorem recovered_still {host : Host} (routed : Routed table host) (filed : Filed host) :
    SameRoutes host.system.books.recovered table ↔ ¬ Stale table host := by
  cases installed : host.backend.routesInstalled with
  | false =>
      have idle : ¬ Stale table host := fun stale => absurd (installed.symm.trans stale.1) (by decide)
      have books : host.system.books = ⟨host.system.table, .absent⟩ := by
        rw [System.books, filed.down installed]
      rw [books]
      exact iff_of_true (routed.down installed) idle
  | true =>
      obtain ⟨record, file, same⟩ := filed.up installed
      have up := routed.up installed
      have books : host.system.books = ⟨host.system.table, .record record⟩ := by
        rw [System.books, file]
      have known : ∀ peer ∈ some host.backend.installedTunPeer, peer ≠ .empty := by
        rintro _ ⟨rfl⟩
        exact up.peer
      rw [books, recovered_record up.sure same known up.agrees, Stale, file, SessionFile.peer]
      simp [installed, OpenVPNBackend.names, OpenVPNBackend.namesTo]

theorem recovered_install {scanned : OpenVPNBackend} {remote : CString} {record : SessionRecord}
    {system : System} {count : Nat} (same : SameRoutes system.table table)
    (absent : system.sessionFile = .absent) (sure : (scanned.namesTo remote).Sure table)
    (names : record.names = scanned.namesTo remote) (peer : scanned.tunPeer ≠ .empty)
    (started : count ≠ 0) (bounded : count ≤ 5) :
    SameRoutes (Run.run System.apply system
        ((installJournal scanned remote record).take count)).books.recovered table ↔
      ¬ (count ≤ 4 ∨ Astray table scanned.tunInterface record.tunPeer scanned.tunPeer) := by
  have differs : pin scanned.origGatewayIface scanned.origGateway remote ≠
      defaultVia scanned.origGatewayIface scanned.origGateway :=
    Tailscale.pin_ne_default (Tailscale.defaultVia_default _ _)
  have exposed (short : count ≤ 4) (lost : ¬ SameRoutes (Run.run System.apply system
      ((installJournal scanned remote record).take count)).books.recovered table) :
      SameRoutes (Run.run System.apply system
          ((installJournal scanned remote record).take count)).books.recovered table ↔
        ¬ (count ≤ 4 ∨ Astray table scanned.tunInterface record.tunPeer scanned.tunPeer) :=
    iff_of_false lost (not_not.mpr (.inl short))
  have cuts : count = 1 ∨ count = 2 ∨ count = 3 ∨ count = 4 ∨ count = 5 := by omega
  obtain rfl | rfl | rfl | rfl | rfl := cuts
  · refine exposed (by decide) (unrecovered sure (.inl absent) ?_)
    exact Edits.mem_apply_add.mpr (.inr rfl)
  · refine exposed (by decide) (unrecovered sure (.inl absent) ?_)
    exact Edits.mem_apply_delete.mpr ⟨Edits.mem_apply_add.mpr (.inr rfl), differs⟩
  · refine exposed (by decide) (unrecovered sure (.inl absent) ?_)
    exact (table_installed _).mpr (.inr (.inl rfl))
  · refine exposed (by decide) (unrecovered sure (.inr rfl) ?_)
    exact (table_installed _).mpr (.inr (.inl rfl))
  · have known : ∀ named ∈ some scanned.tunPeer, named ≠ .empty := by
      rintro _ ⟨rfl⟩
      exact peer
    have before : (scanned.namesTo remote).Agrees table system.table none :=
      Names.agrees_of_same same
    have agrees := before.addPin.dropDefault.addTunnel scanned.tunPeer
    have recovered := recovered_record sure names known agrees
    refine Iff.trans recovered ?_
    simp [OpenVPNBackend.namesTo]

theorem recovered_refresh {host : Host} {old record : SessionRecord} {peer : CString}
    {count : Nat} (up : Up table host) (file : host.system.sessionFile = .record old)
    (oldNames : old.names = host.backend.names) (names : record.names = host.backend.names)
    (known : peer ≠ .empty) (started : count ≠ 0) (bounded : count ≤ 4) :
    SameRoutes (Run.run System.apply host.system
        ([.route (.delete (defaultVia host.backend.tunInterface host.backend.installedTunPeer)),
          .route (.add (defaultVia host.backend.tunInterface peer)),
          .eraseSession, .writeSession record].take count)).books.recovered table ↔
      ¬ (count = 2 ∧ Astray table host.backend.tunInterface host.system.sessionFile.peer peer ∨
        count = 3 ∨ count = 4 ∧ Astray table host.backend.tunInterface record.tunPeer peer) := by
  have sure := up.sure
  have dropped := Names.Agrees.dropTunnel sure up.agrees
  have added := dropped.addTunnel peer
  have present : ∀ named ∈ some peer, named ≠ .empty := by
    rintro _ ⟨rfl⟩
    exact known
  have cuts : count = 1 ∨ count = 2 ∨ count = 3 ∨ count = 4 := by omega
  obtain rfl | rfl | rfl | rfl := cuts
  · have none : ∀ named ∈ (none : Option CString), named ≠ .empty := fun _ member => nomatch member
    have recovered := recovered_record sure oldNames none dropped
    rw [← file] at recovered
    refine Iff.trans recovered ?_
    simp
  · have recovered := recovered_record sure oldNames present added
    rw [← file] at recovered
    refine Iff.trans recovered ?_
    simp [file, SessionFile.peer, OpenVPNBackend.names, OpenVPNBackend.namesTo]
  · refine iff_of_false (unrecovered sure (.inr rfl) (pin_refreshed (pin_up up))) ?_
    simp
  · have recovered := recovered_record sure names present added
    refine Iff.trans recovered ?_
    simp [OpenVPNBackend.names, OpenVPNBackend.namesTo]

theorem restoreJournal_up {host : Host} (installed : host.backend.routesInstalled = true)
    (up : Up table host) :
    restoreJournal host.backend =
      [.route (.delete (defaultVia host.backend.tunInterface host.backend.installedTunPeer)),
        .route (.add (defaultVia host.backend.origGatewayIface host.backend.origGateway)),
        .route (.delete (pin host.backend.origGatewayIface host.backend.origGateway
          host.backend.installedServerIP)),
        .unlinkSession] := by
  simp [restoreJournal, installed, applyRestore, up.slot, up.peer, up.gateway, up.iface, up.server]

/-- The tun route goes first, and then any record will do. -/
theorem recovered_restore {host : Host} {count : Nat} (routed : Routed table host)
    (filed : Filed host) (started : count ≠ 0)
    (bounded : count ≤ (restoreJournal host.backend).length) :
    SameRoutes (Run.run System.apply host.system
      ((restoreJournal host.backend).take count)).books.recovered table := by
  cases installed : host.backend.routesInstalled with
  | false =>
      have empty : restoreJournal host.backend = [] := by
        rw [restoreJournal, installed, if_neg (by decide)]
      rw [empty] at bounded
      exact absurd (Nat.le_zero.mp bounded) started
  | true =>
      have up := routed.up installed
      obtain ⟨record, file, names⟩ := filed.up installed
      have sure := up.sure
      have dropped := Names.Agrees.dropTunnel sure up.agrees
      have none : ∀ peer ∈ (none : Option CString), peer ≠ .empty := fun _ member => nomatch member
      have covered : ∀ peer ∈ (Option.none : Option CString),
          ¬ Astray table host.backend.names.slot record.tunPeer peer := fun _ member => nomatch member
      have restored := @table_restoreJournal table host routed
      rw [restoreJournal_up installed up] at bounded restored ⊢
      have cuts : count = 1 ∨ count = 2 ∨ count = 3 ∨ count = 4 := by
        have longest : count ≤ 4 := bounded
        omega
      obtain rfl | rfl | rfl | rfl := cuts
      · have recovered := (recovered_record sure names none dropped).mpr covered
        rw [← file] at recovered
        exact recovered
      · have recovered := (recovered_record sure names none dropped.addDefault).mpr covered
        rw [← file] at recovered
        exact recovered
      · have recovered := (recovered_record sure names none dropped.addDefault.dropPin).mpr covered
        rw [← file] at recovered
        exact recovered
      · exact restored

/-! ## Runs up to the crash -/

/-- A `CONNECTED` that finds the routes down finds the table's own default route among the
lines so far, and no host route to its server in the table. -/
def Grounded (table : List KernelRoute) (host : Host) (action : Action) : Prop :=
  host.backend.routesInstalled = false → ∀ remote ∈ action.server, Unpinned table remote ∧
    ∀ route ∈ host.backend.harvested.or (logged action.lines), TheDefault table route.2 route.1

instance (table : List KernelRoute) (host : Host) (action : Action) :
    Decidable (Grounded table host action) :=
  inferInstanceAs (Decidable (_ → ∀ remote ∈ _, _ ∧ ∀ route ∈ _, _))

/-- No `Connect` is accepted while the reader of the session before it runs. -/
def Joined (host : Host) : Action → Prop
  | .connect profile _ => Accepts host.backend profile → host.backend.reader = false
  | _ => True

instance (host : Host) : ∀ action, Decidable (Joined host action)
  | .connect _ _ => inferInstanceAs (Decidable (_ → _))
  | .event _ _ | .readerExited | .setCredentials _ _ | .disconnect | .tryMgmtConnect _ | .scan _ =>
      inferInstanceAs (Decidable True)

/-- The reader starts where the poll ends, and both have a tun slot. -/
structure Staged (backend : OpenVPNBackend) : Prop where
  polling : backend.mgmtPoll = true → backend.reader = false ∧ backend.state = .connecting ∧
    backend.tunInterface ≠ .empty
  reading : backend.reader = true → backend.tunInterface ≠ .empty

/-- What the books say of a backend between two actions. -/
structure Kept (table : List KernelRoute) (host : Host) : Prop where
  staged : Staged host.backend
  routed : Routed table host
  filed : Filed host
  reading : host.backend.routesInstalled = true → host.backend.reader = true

section Stages

variable {backend next : OpenVPNBackend}

/-- Neither a poll nor a reader, whatever else is left. -/
theorem staged_of_idle (poll : next.mgmtPoll = false) (reader : next.reader = false) :
    Staged next := by
  refine ⟨fun polls => ?_, fun reads => ?_⟩
  · rw [poll] at polls
    cases polls
  · rw [reader] at reads
    cases reads

theorem Staged.congr (staged : Staged backend) (holdings : next.holdings = backend.holdings)
    (state : next.state = backend.state) : Staged next := by
  simp only [OpenVPNBackend.holdings, Holdings.mk.injEq] at holdings
  obtain ⟨-, -, tun, -, reader, poll⟩ := holdings
  constructor
  · rw [poll, reader, state, tun]
    exact staged.polling
  · rw [reader, tun]
    exact staged.reading

/-- While a reader runs, the state may be any. -/
theorem Staged.of_reader (staged : Staged backend) (reader : backend.reader = true)
    (holdings : next.holdings = backend.holdings) : Staged next := by
  simp only [OpenVPNBackend.holdings, Holdings.mk.injEq] at holdings
  obtain ⟨-, -, tun, -, reads, polls⟩ := holdings
  refine ⟨fun poll => ?_, fun _ => ?_⟩
  · have early := (staged.polling (polls.symm.trans poll)).1
    rw [reader] at early
    cases early
  · rw [tun]
    exact staged.reading reader

theorem staged_cleanup (last : OpenVPNBackend → Reaction)
    (inert : ∀ cleaned, (last cleaned).Inert cleaned) :
    Staged (backend.cleanup.andThen last).backend := by
  have kept := (inert backend.cleanup.backend).holdings
  have removed := (@inert_removeRoutes backend.stopAll.backend).holdings
  exact staged_of_idle ((congrArg Holdings.mgmtPoll kept).trans (congrArg Holdings.mgmtPoll removed))
    ((congrArg Holdings.reader kept).trans (congrArg Holdings.reader removed))

theorem staged_fail (detail : String) : Staged (backend.fail detail).backend :=
  staged_cleanup _ fun _ => inert_setState _ _

/-- A `Connect` that no reader outlives, whether or not openvpn starts. -/
theorem staged_start (launch : Launch) (poll : backend.mgmtPoll = false)
    (reader : backend.reader = false) (connecting : backend.state = .connecting) :
    Staged (backend.start launch).2.backend := by
  unfold OpenVPNBackend.start probeFreeSlot
  cases (List.range 8).find? launch.comesUp with
  | none => exact staged_of_idle poll reader
  | some slot =>
      unfold OpenVPNBackend.spawnOpenVPN
      cases launch.passwordFile with
      | none => exact staged_of_idle poll reader
      | some unique =>
          cases launch.pid with
          | none => exact staged_of_idle poll reader
          | some pid =>
              have running (ready : OpenVPNBackend) (pollStarts : Bool)
                  (readerOff : ready.reader = false) (state : ready.state = .connecting)
                  (slotted : ready.tunInterface ≠ .empty) :
                  Staged (ready.beginMgmtConnect pollStarts).backend := by
                unfold OpenVPNBackend.beginMgmtConnect
                cases pollStarts with
                | true =>
                    refine ⟨fun _ => ⟨readerOff, state, slotted⟩, fun reads => ?_⟩
                    exact absurd (reads.symm.trans readerOff) (by decide)
                | false => exact staged_fail _
              exact running _ launch.pollStarts reader connecting (tunName_ne_empty slot)

theorem staged_connect {host : Host} {profile : VPNProfile} {launch : Launch}
    (staged : Staged host.backend) (joined : Joined host (.connect profile launch)) :
    Staged (host.backend.connect profile launch).2.backend := by
  rw [OpenVPNBackend.connect]
  have unpolled (terminal : host.backend.state = .disconnected ∨ host.backend.state = .error) :
      host.backend.mgmtPoll = false := by
    cases poll : host.backend.mgmtPoll with
    | false => rfl
    | true =>
        rw [(staged.polling poll).2.1] at terminal
        obtain same | same := terminal
        · cases same
        · cases same
  split_ifs with refused empty
  · exact staged
  · have poll := unpolled (by tauto)
    refine ⟨fun polls => ?_, staged.reading⟩
    exact absurd (polls.symm.trans poll) (by decide)
  · have terminal : host.backend.state = .disconnected ∨ host.backend.state = .error := by tauto
    exact staged_start launch (unpolled terminal) (joined ⟨terminal, empty⟩) rfl

theorem staged_tryMgmtConnect (staged : Staged backend) (probe : Probe) :
    Staged (backend.tryMgmtConnect probe).backend := by
  rw [OpenVPNBackend.tryMgmtConnect]
  cases poll : backend.mgmtPoll with
  | false => exact staged
  | true =>
      obtain ⟨reader, connecting, slot⟩ := staged.polling poll
      rw [if_neg (by decide)]
      split_ifs
      · exact staged_cleanup _ fun _ => inert_setState _ _
      · exact staged_fail "openvpn exited before management was ready"
      · cases probe.fd with
        | some fd =>
            cases starts : probe.readerStarts with
            | true =>
                refine ⟨fun polls => ?_, fun _ => slot⟩
                cases polls
            | false => exact staged_fail "could not start reader thread"
        | none =>
            dsimp only
            split_ifs
            · exact staged_fail _
            · exact ⟨fun _ => ⟨reader, connecting, slot⟩, staged.reading⟩

theorem staged_react {host : Host} {action : Action} (staged : Staged host.backend)
    (possible : Possible host action) (joined : Joined host action) :
    Staged (host.backend.react action).backend := by
  cases action with
  | connect profile launch => exact staged_connect staged joined
  | setCredentials user pass => exact staged.congr rfl rfl
  | disconnect =>
      obtain ⟨inert, state⟩ := inert_disconnect host.backend
      exact staged.congr inert.holdings state
  | tryMgmtConnect probe => exact staged_tryMgmtConnect staged probe
  | event event meanwhile =>
      exact staged.of_reader possible (@inert_handleManagementEvent host.backend _ _).holdings
  | scan line => exact staged.congr (holdings_scanLogLine line) (state_scanLogLine _ line)
  | readerExited =>
      refine staged_cleanup _ fun cleaned => ?_
      split_ifs
      · exact inert_setState _ _
      · exact inert_quiet

end Stages

variable {host : Host} {reaction : Reaction}

theorem file_after (host : Host) (reaction : Reaction) :
    (host.after reaction).system.sessionFile =
      (Run.run System.apply host.system reaction.journal).sessionFile :=
  congrArg Books.sessionFile (books_after host reaction)

theorem filed_move {server : Option CString} {meanwhile : Meanwhile} (filed : Filed host)
    (anchored : Anchored host.backend) (move : Move server meanwhile host.backend reaction)
    (slot : reaction.backend.tunInterface = host.backend.tunInterface) :
    Filed (host.after reaction) := by
  have file := file_after host reaction
  have backend : (host.after reaction).backend = reaction.backend := rfl
  cases move with
  | still journal kept =>
      rw [journal, Run.run_nil] at file
      constructor <;> rw [backend, file]
      · exact fun down => filed.down (kept.routesInstalled.symm.trans down)
      · intro up
        have before := kept.routesInstalled.symm.trans up
        obtain ⟨record, written, names⟩ := filed.up before
        obtain ⟨gateway, iface⟩ := kept.gateway (anchored before)
        refine ⟨record, written, names.trans ?_⟩
        rw [OpenVPNBackend.names, OpenVPNBackend.names, OpenVPNBackend.namesTo,
          OpenVPNBackend.namesTo, gateway, iface, slot, kept.installedServerIP]
  | installs _ _ _ _ _ _ _ _ _ steered journal | refreshes _ _ _ _ _ _ _ _ _ steered journal =>
      rw [journal] at file
      constructor <;> rw [backend, file]
      · exact fun down => absurd (down.symm.trans steered.routesInstalled) (by decide)
      · exact fun _ => ⟨_, rfl, rfl⟩

theorem filed_dropped (filed : Filed host) (journal : reaction.journal = restoreJournal host.backend)
    (dropped : Dropped reaction.backend) : Filed (host.after reaction) := by
  have file := file_after host reaction
  refine ⟨fun _ => ?_, fun up => absurd (up.symm.trans dropped.routesInstalled) (by decide)⟩
  rw [file, journal, restoreJournal]
  cases installed : host.backend.routesInstalled with
  | false => exact filed.down installed
  | true =>
      rw [if_pos rfl, Run.run_append]
      rfl

/-- With nothing to undo, nothing changes. -/
theorem idle_step {table : List KernelRoute} (routed : Routed table host) (filed : Filed host)
    (before : host.backend.routesInstalled = false) (journal : reaction.journal = [])
    (down : reaction.backend.routesInstalled = false) :
    Routed table (host.after reaction) ∧ Filed (host.after reaction) := by
  have books := books_after host reaction
  rw [journal, Run.run_nil, System.books, System.books, Books.mk.injEq] at books
  obtain ⟨same, file⟩ := books
  have up : (host.after reaction).backend.routesInstalled ≠ true := by
    rw [← Bool.eq_false_iff]
    exact down
  refine ⟨⟨fun _ => ?_, fun installed => absurd installed up⟩,
    ⟨fun _ => ?_, fun installed => absurd installed up⟩⟩
  · rw [same]
    exact routed.down before
  · rw [file]
    exact filed.down before

theorem restoreJournal_down {backend : OpenVPNBackend} (down : backend.routesInstalled = false) :
    restoreJournal backend = [] := by
  rw [restoreJournal, down, if_neg (by decide)]

theorem not_accepted {profile : VPNProfile} {launch : Launch} (kept : Kept table host)
    (joined : Joined host (.connect profile launch)) (up : host.backend.routesInstalled = true) :
    ¬ Accepts host.backend profile :=
  fun accepted => absurd ((kept.reading up).symm.trans (joined accepted)) (by decide)

theorem reading_move {action : Action} (kept : Kept table host) (possible : Possible host action)
    (joined : Joined host action)
    (before : host.backend.routesInstalled = true ∨ action.server.isSome = true)
    (up : (host.backend.react action).backend.routesInstalled = true) :
    (host.backend.react action).backend.reader = true := by
  have reader (silent : action.server = none) : host.backend.reader = true := by
    rw [silent] at before
    exact kept.reading (before.resolve_right (by decide))
  cases action with
  | event event meanwhile =>
      have inert := @inert_handleManagementEvent host.backend event.posted meanwhile
      exact (congrArg Holdings.reader inert.holdings).trans possible
  | setCredentials user pass => exact reader rfl
  | disconnect =>
      exact (congrArg Holdings.reader (inert_disconnect host.backend).1.holdings).trans (reader rfl)
  | scan line => exact (congrArg Holdings.reader (holdings_scanLogLine line)).trans (reader rfl)
  | connect profile launch =>
      have refused : ¬ Accepts host.backend profile :=
        fun accepted => absurd ((reader rfl).symm.trans (joined accepted)) (by decide)
      have stepped : host.backend.react (.connect profile launch) =
          (host.backend.connect profile launch).2 := rfl
      rw [stepped, OpenVPNBackend.connect]
      split_ifs with busy empty
      · exact reader rfl
      · exact reader rfl
      · exact absurd ⟨by tauto, empty⟩ refused
  | tryMgmtConnect probe =>
      have idle : ¬ host.backend.mgmtPoll = true := fun poll =>
        absurd ((reader rfl).symm.trans (kept.staged.polling poll).1) (by decide)
      have stepped : host.backend.react (.tryMgmtConnect probe) =
          host.backend.tryMgmtConnect probe := rfl
      rw [stepped, OpenVPNBackend.tryMgmtConnect, if_pos idle]
      exact reader rfl
  | readerExited =>
      exact absurd (up.symm.trans (@torn_readerExited host.backend).2.routesInstalled) (by decide)

/-- Only a reader brings the routes up, and it is joined when they go down. -/
theorem reading_step {action : Action} (kept : Kept table host) (possible : Possible host action)
    (joined : Joined host action) (up : (host.step action).backend.routesInstalled = true) :
    (host.step action).backend.reader = true := by
  have turn := @turn_react host.backend action kept.routed.anchored
  have stepped : (host.step action).backend = (host.backend.react action).backend := rfl
  rw [stepped] at up ⊢
  cases turn with
  | tears journal dropped => exact absurd (up.symm.trans dropped.routesInstalled) (by decide)
  | collapses profile launch request accepted slotted same slot journal dropped =>
      exact absurd (up.symm.trans dropped.routesInstalled) (by decide)
  | opens profile launch request accepted journal same slot =>
      subst request
      exact absurd accepted (not_accepted kept joined (same.routesInstalled.symm.trans up))
  | moves move slot =>
      have before : host.backend.routesInstalled = true ∨ action.server.isSome = true := by
        cases move with
        | still journal same => exact .inl (same.routesInstalled.symm.trans up)
        | installs _ _ _ _ _ _ remote aimed => exact .inr (aimed ▸ rfl)
        | refreshes _ _ _ _ _ installed => exact .inl installed
      exact reading_move kept possible joined before up

theorem kept_step {action : Action} (kept : Kept table host) (possible : Possible host action)
    (joined : Joined host action) (grounded : Grounded table host action) :
    Kept table (host.step action) := by
  have staged := staged_react kept.staged possible joined
  have turn := @turn_react host.backend action kept.routed.anchored
  suffices both : Routed table (host.step action) ∧ Filed (host.step action) from
    ⟨staged, both.1, both.2, reading_step kept possible joined⟩
  cases turn with
  | moves move slot =>
      refine ⟨routed_move kept.routed move slot (fun named => ?_) fun down known remote named => ?_,
        filed_move kept.filed kept.routed.anchored move slot⟩
      · cases action with
        | event event meanwhile => exact kept.staged.reading possible
        | connect | setCredentials | disconnect | tryMgmtConnect | scan | readerExited => cases named
      · obtain ⟨unpinned, default⟩ := grounded down remote named
        have within : action.inSession = true := by
          cases action with
          | event | setCredentials | disconnect | scan => rfl
          | connect | tryMgmtConnect | readerExited => cases named
        have harvested : (host.backend.react action).backend.harvested =
            some ((host.backend.react action).backend.origGateway,
              (host.backend.react action).backend.origGatewayIface) := if_neg known
        have told := default ((host.backend.react action).backend.origGateway,
          (host.backend.react action).backend.origGatewayIface)
        rw [← harvested_step within, harvested] at told
        exact ⟨told rfl, mem_unpinned unpinned⟩
  | tears journal dropped =>
      exact ⟨routed_dropped kept.routed journal dropped, filed_dropped kept.filed journal dropped⟩
  | opens profile launch request accepted journal same slot =>
      subst request
      have down : host.backend.routesInstalled = false :=
        Bool.eq_false_iff.mpr fun up => not_accepted kept joined up accepted
      exact idle_step kept.routed kept.filed down journal (same.routesInstalled.trans down)
  | collapses profile launch request accepted slotted same slot journal dropped =>
      subst request
      have down : host.backend.routesInstalled = false :=
        Bool.eq_false_iff.mpr fun up => not_accepted kept joined up accepted
      rw [restoreJournal_down (same.routesInstalled.trans down)] at journal
      exact idle_step kept.routed kept.filed down journal dropped.routesInstalled

theorem kept_booted (table : List KernelRoute) : Kept table (booted table .absent) where
  staged := staged_of_idle rfl rfl
  routed := ⟨fun _ _ => Iff.rfl, fun up => nomatch up⟩
  filed := ⟨fun _ => rfl, fun up => nomatch up⟩
  reading up := nomatch up

theorem kept_run {actions : List Action} (kept : Kept table host)
    (possible : Run.Along Host.step Possible host actions)
    (joined : Run.Along Host.step Joined host actions)
    (grounded : Run.Along Host.step (Grounded table) host actions) :
    Kept table (Run.run Host.step host actions) :=
  Run.invariant_along (fun _ _ met kept => kept_step kept met.1.1 met.1.2 met.2)
    ((possible.and joined).and grounded) kept

/-- After some commands of a `CONNECTED`. -/
theorem recovered_move {event : OpenVPNEvent} {meanwhile : Meanwhile} {count : Nat}
    (kept : Kept table host) (after : Routed table (host.after reaction))
    (move : Move event.posted.server meanwhile host.backend reaction)
    (slot : reaction.backend.tunInterface = host.backend.tunInterface)
    (started : count ≠ 0) (bounded : count ≤ reaction.journal.length) :
    SameRoutes (Run.run System.apply host.system (reaction.journal.take count)).books.recovered
        table ↔ ¬ Exposed table host count (.event event meanwhile) := by
  unfold Exposed
  dsimp only
  rw [if_neg started]
  cases move with
  | still journal same =>
      rw [journal] at bounded
      exact absurd (Nat.le_zero.mp bounded) started
  | installs scanned same slot' peer recorded down remote aimed informed steered journal =>
      rw [if_neg (Bool.eq_false_iff.mp down), ← peer, ← recorded, ← slot']
      rw [journal] at bounded ⊢
      have up := (after.up steered.routesInstalled).sure
      have names : reaction.backend.names = scanned.namesTo remote := by
        rw [OpenVPNBackend.names, OpenVPNBackend.namesTo, OpenVPNBackend.namesTo, slot, slot',
          steered.origGateway, steered.origGatewayIface, steered.installedServerIP]
      exact recovered_install (kept.routed.down down) (kept.filed.down down) (names ▸ up) names
        informed.peer started bounded
  | refreshes scanned same slot' peer recorded up aimed present moved steered journal =>
      rw [if_pos up, ← peer, ← recorded]
      rw [journal] at bounded ⊢
      obtain ⟨record, file, names⟩ := kept.filed.up up
      obtain ⟨gateway, iface⟩ := same.gateway (kept.routed.anchored up)
      have later : reaction.backend.sessionRecord.names = host.backend.names := by
        have own : reaction.backend.sessionRecord.names = reaction.backend.names := rfl
        rw [own, OpenVPNBackend.names, OpenVPNBackend.names, OpenVPNBackend.namesTo,
          OpenVPNBackend.namesTo, slot, steered.origGateway, steered.origGatewayIface, gateway,
          iface, steered.installedServerIP, same.installedServerIP]
      rw [refreshJournal, slot', same.installedTunPeer] at bounded ⊢
      exact recovered_refresh (kept.routed.up up) file names later present started bounded

theorem exposed_zero {action : Action} : Exposed table host 0 action ↔ Stale table host := by
  cases action with
  | event event meanwhile =>
      unfold Exposed
      dsimp only
      rw [if_pos rfl]
  | connect | setCredentials | disconnect | tryMgmtConnect | scan | readerExited =>
      exact and_iff_right rfl

/-- Whatever does not come from openvpn only takes routes down. -/
theorem recovered_turn {action : Action} {count : Nat} (kept : Kept table host)
    (joined : Joined host action) (silent : action.server = none)
    (turn : Turn host.backend action reaction) (started : count ≠ 0)
    (bounded : count ≤ reaction.journal.length) :
    SameRoutes (Run.run System.apply host.system (reaction.journal.take count)).books.recovered
      table := by
  have idle (journal : reaction.journal = []) : SameRoutes
      (Run.run System.apply host.system (reaction.journal.take count)).books.recovered table := by
    rw [journal] at bounded
    exact absurd (Nat.le_zero.mp bounded) started
  cases turn with
  | moves move slot =>
      cases move with
      | still journal same => exact idle journal
      | installs _ _ _ _ _ _ remote aimed =>
          rw [silent] at aimed
          cases aimed
      | refreshes _ _ _ _ _ _ aimed =>
          rw [silent] at aimed
          cases aimed
  | tears journal dropped =>
      rw [journal] at bounded ⊢
      exact recovered_restore kept.routed kept.filed started bounded
  | opens profile launch request accepted journal same slot => exact idle journal
  | collapses profile launch request accepted slotted same slot journal dropped =>
      subst request
      have down : host.backend.routesInstalled = false :=
        Bool.eq_false_iff.mpr fun up => not_accepted kept joined up accepted
      exact idle (journal.trans (restoreJournal_down (same.routesInstalled.trans down)))

theorem not_exposed {action : Action} {count : Nat} (silent : ∀ event meanwhile,
    action ≠ .event event meanwhile) (started : count ≠ 0) : ¬ Exposed table host count action := by
  cases action with
  | event event meanwhile => exact absurd rfl (silent event meanwhile)
  | connect | setCredentials | disconnect | tryMgmtConnect | scan | readerExited =>
      exact fun exposed => started exposed.1

theorem recovered_cut {action : Action} {made : List Effect} (kept : Kept table host)
    (possible : Possible host action) (joined : Joined host action)
    (grounded : Grounded table host action)
    (cut : made <+: (host.backend.react action).effects) :
    SameRoutes (Run.run System.apply host.system made).recovered.table table ↔
      ¬ Exposed table host (booked made) action := by
  obtain ⟨books, bounded⟩ := @books_crashed host.system _ _ cut
  rw [table_recovered, books]
  by_cases started : booked made = 0
  · rw [started, exposed_zero]
    exact recovered_still kept.routed kept.filed
  · have later := (kept_step kept possible joined grounded).routed
    cases action with
    | event event meanwhile =>
        obtain ⟨move, slot⟩ := @move_react host.backend (.event event meanwhile)
          kept.routed.anchored rfl
        exact recovered_move kept later move slot started bounded
    | connect | setCredentials | disconnect | tryMgmtConnect | scan | readerExited =>
        exact iff_of_true (recovered_turn kept joined rfl (turn_react kept.routed.anchored) started
          bounded) (not_exposed (fun _ _ same => nomatch same) started)

end Recovery

/-- Wherever the daemon dies in the course of an action. -/
theorem crash_recovered_iff (table : List KernelRoute) (actions : List Action) (action : Action)
    (made : List Effect)
    (possible : Run.Along Host.step Possible (booted table .absent) (actions ++ [action]))
    (joined : Run.Along Host.step Joined (booted table .absent) (actions ++ [action]))
    (grounded : Run.Along Host.step (Grounded table) (booted table .absent) (actions ++ [action]))
    (cut : made <+:
      ((Run.run Host.step (booted table .absent) actions).backend.react action).effects) :
    let host := Run.run Host.step (booted table .absent) actions
    SameRoutes (Run.run System.apply host.system made).recovered.table table ↔
      ¬ Exposed table host (booked made) action := by
  obtain ⟨possible, last⟩ := Run.along_append.mp possible
  obtain ⟨joined, jointly⟩ := Run.along_append.mp joined
  obtain ⟨grounded, firmly⟩ := Run.along_append.mp grounded
  exact recovered_cut (kept_run (kept_booted table) possible joined grounded) last.1 jointly.1
    firmly.1 cut

/-! The daemon dies when the server is pinned, before the default route is exchanged. -/

namespace Sample

def table : List KernelRoute := [lan, wifi]

def informed : List Action :=
  session 100 "aaaaaa" ++ [.scan gatewayLine, .scan (pushLine "10.8.0.1")]

def cut (count : Nat) : List Effect :=
  ((Run.run Host.step (booted table .absent) informed).backend.react
    (connected "203.0.113.7" {})).effects.take count

end Sample

theorem crash_recovered_iff_sample :
    let host := Run.run Host.step (booted Sample.table .absent) Sample.informed
    SameRoutes (Run.run System.apply host.system (Sample.cut 2)).recovered.table Sample.table ↔
      ¬ Exposed Sample.table host (booked (Sample.cut 2)) (Sample.connected "203.0.113.7" {}) :=
  crash_recovered_iff Sample.table Sample.informed (Sample.connected "203.0.113.7" {})
    (Sample.cut 2) (by decide +kernel) (by decide +kernel) (by decide +kernel)
    (List.take_prefix ..)

theorem pin_survives_crash :
    Run.Along Host.step Possible (booted Sample.table .absent)
        (Sample.informed ++ [Sample.connected "203.0.113.7" {}]) ∧
      Sample.cut 2 <+: ((Run.run Host.step (booted Sample.table .absent) Sample.informed).backend.react
        (Sample.connected "203.0.113.7" {})).effects ∧
      ¬ SameRoutes (Run.run System.apply
          (Run.run Host.step (booted Sample.table .absent) Sample.informed).system
          (Sample.cut 2)).recovered.table Sample.table := by
  refine ⟨by decide +kernel, List.take_prefix .., fun back => ?_⟩
  have pinned := (back (pin (Tailscale.text "/dev/net/iprowifi4965/0")
    (Tailscale.text "192.168.188.1") (Tailscale.text "203.0.113.7"))).mp (by decide +kernel)
  exact absurd pinned (by decide +kernel)

end Sotoportego.OpenVPN
