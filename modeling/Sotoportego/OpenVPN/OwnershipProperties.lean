import Sotoportego.OpenVPN.Backend

/-!
# Who owns the child

The process, the socket, the tun slot and the password file are each named by a field of
the backend. `Connect` looks at the visible state alone, and a session can show a terminal
state before it is torn down.
-/

set_option autoImplicit false

namespace Sotoportego.OpenVPN

open Octets CText
open Edits (Edit)
open Server (VPNProfile)
open Tailscale (KernelRoute VPNState)

/-! ## Effects that leave the resources alone -/

/-- The live resources of a system. -/
structure Resources where
  children : List Nat
  sockets : List Nat
  tuns : List CString
  passwordFiles : List CString
  deriving DecidableEq

def System.resources (system : System) : Resources where
  children := system.children
  sockets := system.sockets
  tuns := system.tuns
  passwordFiles := system.passwordFiles

def Effect.inert : Effect → Bool
  | .tunDelete _ | .tunUp _ | .createFile _ | .unlinkFile _ | .spawn _ | .reap _ | .openSocket _
  | .closeSocket _ => false
  | _ => true

theorem resources_apply (system : System) {effect : Effect} (inert : effect.inert = true) :
    (system.apply effect).resources = system.resources := by
  cases effect <;> first | rfl | cases inert

theorem resources_run {system : System} {effects : List Effect}
    (inert : ∀ effect ∈ effects, effect.inert = true) :
    (Run.run System.apply system effects).resources = system.resources := by
  induction effects generalizing system with
  | nil => rfl
  | cons effect effects continued =>
      have rest : ∀ later ∈ effects, later.inert = true :=
        fun later member => inert later (List.mem_cons_of_mem _ member)
      rw [Run.run_cons, continued rest, resources_apply system (inert effect List.mem_cons_self)]

/-! ## Reactions that acquire and release nothing -/

/-- What a backend holds, and the threads and polls that will give it back. -/
structure Holdings where
  pid : Option Nat
  socket : Option Nat
  tunInterface : CString
  mgmtPasswordFile : CString
  reader : Bool
  mgmtPoll : Bool

def OpenVPNBackend.holdings (backend : OpenVPNBackend) : Holdings where
  pid := backend.pid
  socket := backend.socket
  tunInterface := backend.tunInterface
  mgmtPasswordFile := backend.mgmtPasswordFile
  reader := backend.reader
  mgmtPoll := backend.mgmtPoll

structure Reaction.Inert (backend : OpenVPNBackend) (reaction : Reaction) : Prop where
  holdings : reaction.backend.holdings = backend.holdings
  effects : ∀ effect ∈ reaction.effects, effect.inert = true

section Inert

variable {backend : OpenVPNBackend}

theorem inert_quiet : backend.quiet.Inert backend :=
  ⟨rfl, fun _ member => nomatch member⟩

theorem inert_andThen {reaction : Reaction} {next : OpenVPNBackend → Reaction}
    (first : reaction.Inert backend) (second : (next reaction.backend).Inert reaction.backend) :
    (reaction.andThen next).Inert backend := by
  refine ⟨second.holdings.trans first.holdings, fun effect member => ?_⟩
  obtain early | late := List.mem_append.mp member
  · exact first.effects effect early
  · exact second.effects effect late

theorem inert_setState (state : VPNState) (detail : Option Bytes) :
    (backend.setState state detail).Inert backend := by
  refine ⟨rfl, fun effect member => ?_⟩
  rw [List.mem_singleton.mp member]
  rfl

theorem holdings_scanLogLine (line : Bytes) :
    (backend.scanLogLine line).holdings = backend.holdings := by
  unfold OpenVPNBackend.scanLogLine
  split <;> split <;> first | rfl | (split <;> rfl)

theorem holdings_scanLines (lines : List Bytes) :
    (backend.scanLines lines).holdings = backend.holdings := by
  induction lines generalizing backend with
  | nil => rfl
  | cons line lines continued => exact continued.trans (holdings_scanLogLine line)

theorem inert_scanned (lines : List Bytes) : (backend.scanLines lines).quiet.Inert backend :=
  ⟨holdings_scanLines lines, fun _ member => nomatch member⟩

theorem inert_routes (edits : List (Edit KernelRoute)) :
    ∀ effect ∈ edits.map Effect.route, effect.inert = true := by
  intro effect member
  obtain ⟨edit, -, rfl⟩ := List.mem_map.mp member
  rfl

theorem inert_writeSessionFile : ∀ effect ∈ backend.writeSessionFile, effect.inert = true := by
  intro effect member
  simp only [OpenVPNBackend.writeSessionFile, List.mem_cons, List.not_mem_nil, or_false] at member
  obtain rfl | rfl := member <;> rfl

theorem inert_installRoutes (server : CString) (meanwhile : List Bytes) :
    (backend.installRoutes server meanwhile).Inert backend := by
  unfold OpenVPNBackend.installRoutes
  split_ifs
  · exact inert_scanned meanwhile
  · exact inert_scanned meanwhile
  · refine ⟨holdings_scanLines meanwhile, fun effect member => ?_⟩
    obtain route | record := List.mem_append.mp member
    · simp only [List.mem_cons, List.not_mem_nil, or_false] at route
      obtain rfl | rfl | rfl := route <;> rfl
    · exact inert_writeSessionFile effect record

theorem inert_refreshTunRoute (meanwhile : List Bytes) :
    (backend.refreshTunRoute meanwhile).Inert backend := by
  unfold OpenVPNBackend.refreshTunRoute
  split_ifs
  · exact inert_scanned meanwhile
  · refine ⟨holdings_scanLines meanwhile, fun effect member => ?_⟩
    obtain route | record := List.mem_append.mp member
    · simp only [List.mem_cons, List.not_mem_nil, or_false] at route
      obtain rfl | rfl := route <;> rfl
    · exact inert_writeSessionFile effect record

theorem routesInstalled_removeRoutes : backend.removeRoutes.backend.routesInstalled = false := by
  unfold OpenVPNBackend.removeRoutes
  split_ifs with installed
  · rfl
  · exact Bool.eq_false_iff.mpr installed

theorem inert_removeRoutes : backend.removeRoutes.Inert backend := by
  unfold OpenVPNBackend.removeRoutes
  split_ifs
  · refine ⟨rfl, fun effect member => ?_⟩
    obtain route | unlink := List.mem_append.mp member
    · exact inert_routes _ effect route
    · rw [List.mem_singleton.mp unlink]
      rfl
  · exact inert_quiet

theorem inert_ifconfigUp : ∀ effect ∈ backend.ifconfigUp, effect.inert = true := by
  intro effect member
  unfold OpenVPNBackend.ifconfigUp at member
  split_ifs at member
  · rw [List.mem_singleton.mp member]
    rfl
  · cases member

theorem inert_fixRoutes (server : CString) (meanwhile : List Bytes) :
    (backend.fixRoutes server meanwhile).Inert backend := by
  unfold OpenVPNBackend.fixRoutes
  split_ifs
  · exact inert_refreshTunRoute meanwhile
  · exact inert_installRoutes server meanwhile

theorem inert_tunnelUp (event : OpenVPNEvent) (meanwhile : Meanwhile) :
    (backend.tunnelUp event meanwhile).Inert backend := by
  unfold OpenVPNBackend.tunnelUp
  exact inert_andThen ⟨holdings_scanLines meanwhile.beforeRoutes, inert_ifconfigUp⟩
    (inert_fixRoutes _ meanwhile.beforeRecord)

theorem inert_handleState (event : OpenVPNEvent) (meanwhile : Meanwhile) :
    (backend.handleState event meanwhile).Inert backend := by
  unfold OpenVPNBackend.handleState
  split_ifs
  · exact inert_quiet
  · exact inert_andThen (inert_tunnelUp event meanwhile) (inert_setState _ _)
  · exact inert_setState _ _

theorem inert_handleManagementEvent (event : OpenVPNEvent) (meanwhile : Meanwhile) :
    (backend.handleManagementEvent event meanwhile).Inert backend := by
  unfold OpenVPNBackend.handleManagementEvent
  split
  · exact inert_handleState event meanwhile
  · refine ⟨rfl, fun effect member => ?_⟩
    rw [List.mem_singleton.mp member]
    rfl
  · split_ifs
    · exact inert_setState _ _
    · exact inert_quiet
  · exact inert_setState _ _
  · exact inert_setState _ _
  · split_ifs
    · exact inert_quiet
    · exact ⟨holdings_scanLogLine _, fun _ member => nomatch member⟩
  · split_ifs
    · exact inert_quiet
    · exact ⟨holdings_scanLogLine _, fun _ member => nomatch member⟩
  · exact inert_quiet

end Inert

/-! ## Ownership -/

/-- The resource a name stands for, if it stands for one. -/
def named (name : CString) : List CString := if name = .empty then [] else [name]

/-- What is live is what the fields name. -/
def Owned (host : Host) : Prop :=
  host.system.resources =
    { children := host.backend.pid.toList
      sockets := host.backend.socket.toList
      tuns := named host.backend.tunInterface
      passwordFiles := named host.backend.mgmtPasswordFile }

def Unheld (system : System) : Prop := system.resources = ⟨[], [], [], []⟩

/-- A poll runs while the backend connects, a poll and a reader have a tun slot, and without
them nothing is held. -/
structure Settled (backend : OpenVPNBackend) : Prop where
  polling : backend.mgmtPoll = true → backend.reader = false ∧ backend.socket = none ∧
    backend.state = .connecting ∧ backend.tunInterface ≠ .empty
  reading : backend.reader = true → backend.tunInterface ≠ .empty
  idle : backend.mgmtPoll = false → backend.reader = false → backend.pid = none ∧
    backend.socket = none ∧ backend.tunInterface = .empty ∧ backend.mgmtPasswordFile = .empty

/-- `Connect` gets past its guard and the check of the path. -/
def Accepts (backend : OpenVPNBackend) (profile : VPNProfile) : Prop :=
  (backend.state = .disconnected ∨ backend.state = .error) ∧ profile.configPath ≠ .empty

/-- Messages of a reader thread need one. -/
def Possible (host : Host) : Action → Prop
  | .event _ _ => host.backend.reader = true
  | .readerExited => host.backend.reader = true
  | _ => True

/-- No `Connect` is accepted while the reader of the session before it runs, and one that
finds a tun slot starts openvpn. -/
def Calm (host : Host) : Action → Prop
  | .connect profile launch => Accepts host.backend profile → host.backend.reader = false ∧
      ((probeFreeSlot launch.comesUp).1.isSome = true →
        launch.passwordFile.isSome = true ∧ launch.pid.isSome = true)
  | _ => True

/-- What is about to be assigned names nothing live. -/
def Unclobbered (host : Host) : Action → Prop
  | .connect profile _ => Accepts host.backend profile → Unheld host.system
  | .tryMgmtConnect _ => host.backend.mgmtPoll = true → host.system.sockets = []
  | _ => True

instance (backend : OpenVPNBackend) (profile : VPNProfile) : Decidable (Accepts backend profile) :=
  inferInstanceAs (Decidable (_ ∧ _))

instance (system : System) : Decidable (Unheld system) := inferInstanceAs (Decidable (_ = _))

instance (host : Host) : ∀ action, Decidable (Possible host action)
  | .event _ _ | .readerExited => inferInstanceAs (Decidable (_ = true))
  | .connect _ _ | .setCredentials _ _ | .disconnect | .tryMgmtConnect _ | .scan _ =>
      inferInstanceAs (Decidable True)

instance (host : Host) : ∀ action, Decidable (Calm host action)
  | .connect _ _ => inferInstanceAs (Decidable (_ → _ ∧ _))
  | .event _ _ | .readerExited | .setCredentials _ _ | .disconnect | .tryMgmtConnect _ | .scan _ =>
      inferInstanceAs (Decidable True)

instance (host : Host) : ∀ action, Decidable (Unclobbered host action)
  | .connect _ _ => inferInstanceAs (Decidable (_ → _))
  | .tryMgmtConnect _ => inferInstanceAs (Decidable (_ → _))
  | .event _ _ | .readerExited | .setCredentials _ _ | .disconnect | .scan _ =>
      inferInstanceAs (Decidable True)

section Ownership

variable {host : Host}

theorem after_andThen (reaction : Reaction) (next : OpenVPNBackend → Reaction) :
    host.after (reaction.andThen next) = (host.after reaction).after (next reaction.backend) := by
  rw [Host.after, Host.after, Reaction.andThen, Run.run_append]
  rfl

theorem owned_inert {reaction : Reaction} (owned : Owned host)
    (inert : reaction.Inert host.backend) : Owned (host.after reaction) := by
  have same := inert.holdings
  simp only [OpenVPNBackend.holdings, Holdings.mk.injEq] at same
  obtain ⟨pid, socket, tun, file, -, -⟩ := same
  unfold Owned at *
  rw [Host.after, resources_run inert.effects, owned, pid, socket, tun, file]

theorem unheld_of_settled (owned : Owned host) (settled : Settled host.backend)
    (poll : host.backend.mgmtPoll = false) (reader : host.backend.reader = false) :
    Unheld host.system := by
  obtain ⟨pid, socket, tun, file⟩ := settled.idle poll reader
  rw [Unheld, owned, pid, socket, tun, file]
  rfl

theorem owned_stopAll (owned : Owned host) : Owned (host.after host.backend.stopAll) := by
  unfold Owned at *
  simp only [System.resources, Resources.mk.injEq] at owned
  obtain ⟨children, sockets, tuns, files⟩ := owned
  cases pid : host.backend.pid <;> cases socket : host.backend.socket <;>
    simp [Host.after, OpenVPNBackend.stopAll, System.apply, System.resources, children, sockets,
      tuns, files, pid, socket]

theorem unheld_dropSlot (owned : Owned host) (stopped : host.backend.pid = none)
    (closed : host.backend.socket = none) :
    Unheld (host.after host.backend.dropSlot).system := by
  unfold Owned Unheld at *
  simp only [System.resources, Resources.mk.injEq] at owned
  obtain ⟨children, sockets, tuns, files⟩ := owned
  rw [stopped] at children
  rw [closed] at sockets
  by_cases slot : host.backend.tunInterface = .empty <;>
    by_cases file : host.backend.mgmtPasswordFile = .empty <;>
      simp [Host.after, OpenVPNBackend.dropSlot, System.apply, System.resources, named, children,
        sockets, tuns, files, slot, file]

theorem state_removeRoutes (backend : OpenVPNBackend) :
    backend.removeRoutes.backend.state = backend.state := by
  unfold OpenVPNBackend.removeRoutes
  split_ifs <;> rfl

/-- Teardown gives everything back, and leaves the visible state. -/
theorem cleanup_spec (owned : Owned host) :
    Unheld (host.after host.backend.cleanup).system ∧
      host.backend.cleanup.backend.holdings = ⟨none, none, .empty, .empty, false, false⟩ ∧
      host.backend.cleanup.backend.state = host.backend.state := by
  have removed := owned_inert (owned_stopAll owned) inert_removeRoutes
  have holdings := @inert_removeRoutes host.backend.stopAll.backend
  have kept := holdings.holdings
  simp only [OpenVPNBackend.holdings, Holdings.mk.injEq] at kept
  obtain ⟨pid, socket, tun, file, reader, poll⟩ := kept
  refine ⟨?_, ?_, state_removeRoutes _⟩
  · have dropped := unheld_dropSlot removed pid socket
    rw [OpenVPNBackend.cleanup, after_andThen, after_andThen]
    exact dropped
  · have after : host.backend.cleanup.backend.holdings =
        { host.backend.stopAll.backend.removeRoutes.backend.holdings with
          tunInterface := .empty, mgmtPasswordFile := .empty } := rfl
    rw [after]
    simp only [OpenVPNBackend.holdings, pid, socket, reader, poll]
    rfl

/-- Every live resource has its name, and no terminal state hides one for good. -/
structure Sound (host : Host) : Prop where
  owned : Owned host
  settled : Settled host.backend

theorem sound_of_unheld (unheld : Unheld host.system)
    (holdings : host.backend.holdings = ⟨none, none, .empty, .empty, false, false⟩) : Sound host := by
  simp only [OpenVPNBackend.holdings, Holdings.mk.injEq] at holdings
  obtain ⟨pid, socket, tun, file, reader, poll⟩ := holdings
  refine ⟨?_, fun polls => ?_, fun reads => ?_, fun _ _ => ⟨pid, socket, tun, file⟩⟩
  · unfold Owned
    rw [unheld, pid, socket, tun, file]
    rfl
  · rw [poll] at polls
    cases polls
  · rw [reader] at reads
    cases reads

/-- Whatever state a teardown ends in. -/
theorem sound_cleanup (owned : Owned host) (next : OpenVPNBackend → Reaction)
    (inert : ∀ backend, (next backend).Inert backend) :
    Sound (host.after (host.backend.cleanup.andThen next)) := by
  obtain ⟨unheld, holdings, -⟩ := cleanup_spec owned
  have last := inert host.backend.cleanup.backend
  rw [after_andThen]
  refine sound_of_unheld ?_ (last.holdings.trans holdings)
  exact (resources_run last.effects).trans unheld

theorem sound_fail (owned : Owned host) (detail : String) :
    Sound (host.after (host.backend.fail detail)) :=
  sound_cleanup owned _ fun _ => inert_setState _ _

/-- While a reader runs, no poll does, and the state may be any. -/
theorem settled_of_reader {backend next : OpenVPNBackend} (settled : Settled backend)
    (reader : backend.reader = true) (same : next.holdings = backend.holdings) : Settled next := by
  simp only [OpenVPNBackend.holdings, Holdings.mk.injEq] at same
  obtain ⟨-, -, tun, -, reads, polls⟩ := same
  refine ⟨fun poll => ?_, fun _ => ?_, fun _ stopped => ?_⟩
  · have early := (settled.polling (polls.symm.trans poll)).1
    rw [reader] at early
    cases early
  · rw [tun]
    exact settled.reading reader
  · rw [reads, reader] at stopped
    cases stopped

/-- Nothing but the holdings and the visible state matters. -/
theorem settled_congr {backend next : OpenVPNBackend} (settled : Settled backend)
    (holdings : next.holdings = backend.holdings) (state : next.state = backend.state) :
    Settled next := by
  simp only [OpenVPNBackend.holdings, Holdings.mk.injEq] at holdings
  obtain ⟨pid, socket, tun, file, reader, poll⟩ := holdings
  constructor
  · rw [poll, reader, socket, state, tun]
    exact settled.polling
  · rw [reader, tun]
    exact settled.reading
  · rw [poll, reader, pid, socket, tun, file]
    exact settled.idle

theorem sound_inert {reaction : Reaction} (sound : Sound host)
    (inert : reaction.Inert host.backend) (state : reaction.backend.state = host.backend.state) :
    Sound (host.after reaction) :=
  ⟨owned_inert sound.owned inert, settled_congr sound.settled inert.holdings state⟩

/-! ### Connect -/

theorem resources_deletes {system : System} (free : system.tuns = []) (slots : List Nat) :
    (Run.run System.apply system (slots.map fun slot => .tunDelete (tunName slot))).resources =
      system.resources := by
  induction slots generalizing system with
  | nil => rfl
  | cons slot slots continued =>
      have kept : (system.apply (.tunDelete (tunName slot))).tuns = [] := by
        simp [System.apply, free]
      have same : (system.apply (.tunDelete (tunName slot))).resources = system.resources := by
        simp [System.apply, System.resources, free]
      rw [List.map_cons, Run.run_cons, continued kept, same]

theorem tunName_ne_empty (slot : Nat) : tunName slot ≠ .empty := by
  intro same
  have octets := congrArg CString.bytes same
  simp [tunName, CString.ofBytes, CString.empty, ascii] at octets

theorem passwordPath_ne_empty (unique : Bytes) : passwordPath unique ≠ .empty := by
  intro same
  have octets := congrArg CString.bytes same
  simp [passwordPath, CString.ofBytes, CString.empty, ascii] at octets

theorem resources_launched {system : System} (unheld : Unheld system) (slot pid : Nat)
    (path : CString) :
    (Run.run System.apply system
      (((List.range (slot + 1)).map (fun probed => Effect.tunDelete (tunName probed)) ++
        [.tunUp (tunName slot)]) ++ [.createFile path, .spawn pid])).resources =
      ⟨[pid], [], [tunName slot], [path]⟩ := by
  have free : system.tuns = [] := congrArg Resources.tuns unheld
  have probed := resources_deletes free (List.range (slot + 1))
  rw [unheld] at probed
  simp only [System.resources, Resources.mk.injEq] at probed
  obtain ⟨children, sockets, tuns, files⟩ := probed
  simp [Run.run_append, System.apply, System.resources, children, sockets, tuns, files]

theorem sound_beginMgmtConnect (owned : Owned host) (reader : host.backend.reader = false)
    (socket : host.backend.socket = none) (connecting : host.backend.state = .connecting)
    (slot : host.backend.tunInterface ≠ .empty) (pollStarts : Bool) :
    Sound (host.after (host.backend.beginMgmtConnect pollStarts)) := by
  unfold OpenVPNBackend.beginMgmtConnect
  cases pollStarts with
  | true =>
      refine ⟨owned, fun _ => ⟨reader, socket, connecting, slot⟩, fun reads => ?_,
        fun poll => nomatch poll⟩
      exact absurd (reads.symm.trans reader) (by decide)
  | false =>
      have waiting : Owned { host with
          backend := { host.backend with mgmtAttempt := 0, mgmtPoll := false } } := owned
      exact sound_fail waiting "could not start management poll"

theorem owned_of_launched {backend : OpenVPNBackend} {system : System} {slot child : Nat}
    {unique : Bytes}
    (launched : system.resources = ⟨[child], [], [tunName slot], [passwordPath unique]⟩)
    (pid : backend.pid = some child) (socket : backend.socket = none)
    (tun : backend.tunInterface = tunName slot)
    (file : backend.mgmtPasswordFile = passwordPath unique) : Owned { backend, system } := by
  refine launched.trans ?_
  rw [pid, socket, tun, file, named, named, if_neg (tunName_ne_empty slot),
    if_neg (passwordPath_ne_empty unique)]
  rfl

/-- With nothing held, a `Connect` that starts openvpn owns all it acquires. -/
theorem sound_start {launch : Launch} (unheld : Unheld host.system)
    (holdings : host.backend.holdings = ⟨none, none, .empty, .empty, false, false⟩)
    (connecting : host.backend.state = .connecting)
    (starts : (probeFreeSlot launch.comesUp).1.isSome = true →
      launch.passwordFile.isSome = true ∧ launch.pid.isSome = true) :
    Sound (host.after (host.backend.start launch).2) := by
  have free : host.system.tuns = [] := congrArg Resources.tuns unheld
  have held := holdings
  simp only [OpenVPNBackend.holdings, Holdings.mk.injEq] at held
  obtain ⟨pid, socket, tun, file, reader, poll⟩ := held
  unfold OpenVPNBackend.start
  unfold probeFreeSlot at *
  cases found : (List.range 8).find? launch.comesUp with
  | none =>
      dsimp only
      rw [after_andThen]
      have probed := (resources_deletes free (List.range 8)).trans unheld
      have holds : host.backend.withoutSlot.holdings = ⟨none, none, .empty, .empty, false, false⟩ := by
        rw [← holdings, OpenVPNBackend.holdings, OpenVPNBackend.holdings, tun]
        rfl
      exact @sound_of_unheld ((host.after ⟨host.backend.withoutSlot, _⟩).after _) probed holds
  | some slot =>
      rw [found] at starts
      obtain ⟨written, spawned⟩ := starts rfl
      obtain ⟨unique, made⟩ := Option.isSome_iff_exists.mp written
      obtain ⟨child, born⟩ := Option.isSome_iff_exists.mp spawned
      have launched := resources_launched unheld slot child (passwordPath unique)
      have running : (host.backend.withSlot slot).spawnOpenVPN launch =
          (true, ((host.backend.withSlot slot).spawnOpenVPN launch).2) := by
        simp only [OpenVPNBackend.spawnOpenVPN, made, born]
      have effects : ((host.backend.withSlot slot).spawnOpenVPN launch).2.effects =
          [.createFile (passwordPath unique), .spawn child] := by
        simp only [OpenVPNBackend.spawnOpenVPN, made, born]
      have holds : ((host.backend.withSlot slot).spawnOpenVPN launch).2.backend.holdings =
          ⟨some child, none, tunName slot, passwordPath unique, false, false⟩ := by
        simp [OpenVPNBackend.spawnOpenVPN, made, born, OpenVPNBackend.holdings,
          OpenVPNBackend.withSlot, socket, reader, poll]
      have state :
          ((host.backend.withSlot slot).spawnOpenVPN launch).2.backend.state = .connecting := by
        simp [OpenVPNBackend.spawnOpenVPN, made, born, OpenVPNBackend.withSlot, connecting]
      dsimp only
      rw [running]
      generalize ((host.backend.withSlot slot).spawnOpenVPN launch).2 = reaction at *
      simp only [OpenVPNBackend.holdings, Holdings.mk.injEq] at holds
      obtain ⟨pid, socket, tun, file, reader, -⟩ := holds
      dsimp only
      rw [after_andThen, effects]
      have owned := @owned_of_launched { reaction.backend with
        stderrReader := launch.stderrThread } _ slot child unique launched pid socket tun file
      have present : reaction.backend.tunInterface ≠ .empty := tun ▸ tunName_ne_empty slot
      exact sound_beginMgmtConnect owned reader socket state present launch.pollStarts

theorem sound_connect {profile : VPNProfile} {launch : Launch} (sound : Sound host)
    (calm : Calm host (.connect profile launch)) :
    Unclobbered host (.connect profile launch) ∧ Sound (host.step (.connect profile launch)) := by
  have unpolled (terminal : host.backend.state = .disconnected ∨ host.backend.state = .error) :
      host.backend.mgmtPoll = false := by
    cases poll : host.backend.mgmtPoll with
    | false => rfl
    | true =>
        obtain ⟨-, -, state, -⟩ := sound.settled.polling poll
        rw [state] at terminal
        cases terminal with
        | inl same => cases same
        | inr same => cases same
  have stepped : host.step (.connect profile launch) =
      host.after (host.backend.connect profile launch).2 := rfl
  rw [stepped, OpenVPNBackend.connect]
  split_ifs with refused empty
  · refine ⟨fun accepted => ?_, sound_inert sound inert_quiet rfl⟩
    obtain same | same := accepted.1
    · exact absurd same refused.1
    · exact absurd same refused.2
  · refine ⟨fun accepted => absurd empty accepted.2, ?_⟩
    have terminal : host.backend.state = .disconnected ∨ host.backend.state = .error := by
      tauto
    refine ⟨owned_inert sound.owned (inert_setState _ _), fun poll => ?_, ?_, ?_⟩
    · have still := unpolled terminal
      exact absurd (poll.symm.trans still) (by decide)
    · exact sound.settled.reading
    · exact sound.settled.idle
  · have terminal : host.backend.state = .disconnected ∨ host.backend.state = .error := by
      tauto
    obtain ⟨reader, starts⟩ := calm ⟨terminal, empty⟩
    have poll := unpolled terminal
    have unheld := unheld_of_settled sound.owned sound.settled poll reader
    obtain ⟨pid, socket, tun, file⟩ := sound.settled.idle poll reader
    have holdings : host.backend.holdings = ⟨none, none, .empty, .empty, false, false⟩ := by
      rw [OpenVPNBackend.holdings, pid, socket, tun, file, reader, poll]
    refine ⟨fun _ => unheld, ?_⟩
    dsimp only
    rw [after_andThen]
    exact sound_start unheld holdings rfl starts

/-! ### The other messages -/

theorem owned_reaped (owned : Owned host) :
    Owned (host.after ⟨{ host.backend with pid := none }, host.backend.pid.toList.map .reap⟩) := by
  unfold Owned at *
  simp only [System.resources, Resources.mk.injEq] at owned
  obtain ⟨children, sockets, tuns, files⟩ := owned
  cases pid : host.backend.pid <;>
    simp [Host.after, System.apply, System.resources, children, sockets, tuns, files, pid]

theorem owned_opened (owned : Owned host) (closed : host.backend.socket = none) (fd : Nat) :
    Owned (host.after ⟨{ host.backend with socket := some fd, mgmtPoll := false },
      [.openSocket fd]⟩) := by
  unfold Owned at *
  simp only [System.resources, Resources.mk.injEq] at owned
  obtain ⟨children, sockets, tuns, files⟩ := owned
  rw [closed] at sockets
  simp [Host.after, System.apply, System.resources, children, sockets, tuns, files]

theorem inert_sendCommand {backend : OpenVPNBackend} (line : Bytes) :
    ∀ effect ∈ backend.sendCommand line, effect.inert = true := by
  intro effect member
  obtain ⟨fd, -, rfl⟩ := List.mem_map.mp member
  rfl

theorem inert_greeting {backend : OpenVPNBackend} :
    (⟨backend, backend.greeting⟩ : Reaction).Inert backend := by
  refine ⟨rfl, fun effect member => ?_⟩
  obtain ⟨line, -, sent⟩ := List.mem_flatMap.mp member
  exact inert_sendCommand line effect sent

theorem sound_onMgmtConnected (owned : Owned host) (poll : host.backend.mgmtPoll = false)
    (slot : host.backend.tunInterface ≠ .empty) (readerStarts : Bool) :
    Sound (host.after (host.backend.onMgmtConnected readerStarts)) := by
  unfold OpenVPNBackend.onMgmtConnected
  rw [after_andThen]
  have greeted := owned_inert owned inert_greeting
  cases readerStarts with
  | true =>
      refine ⟨greeted, fun polls => ?_, fun _ => slot, fun _ stopped => nomatch stopped⟩
      exact absurd (polls.symm.trans poll) (by decide)
  | false => exact sound_fail greeted "could not start reader thread"

theorem sound_tryMgmtConnect (sound : Sound host) (probe : Probe) :
    Unclobbered host (.tryMgmtConnect probe) ∧ Sound (host.step (.tryMgmtConnect probe)) := by
  have stepped : host.step (.tryMgmtConnect probe) =
      host.after (host.backend.tryMgmtConnect probe) := rfl
  rw [stepped, OpenVPNBackend.tryMgmtConnect]
  cases poll : host.backend.mgmtPoll with
  | false =>
      refine ⟨fun polls => ?_, sound_inert sound inert_quiet rfl⟩
      exact absurd (polls.symm.trans poll) (by decide)
  | true =>
      obtain ⟨reader, socket, connecting, slot⟩ := sound.settled.polling poll
      refine ⟨fun _ => ?_, ?_⟩
      · have owned := congrArg Resources.sockets sound.owned
        rw [socket] at owned
        exact owned
      · rw [if_neg (by decide)]
        split_ifs
        · exact sound_cleanup sound.owned _ fun _ => inert_setState _ _
        · rw [after_andThen]
          exact sound_fail (owned_reaped sound.owned) "openvpn exited before management was ready"
        · cases probe.fd with
          | some fd =>
              dsimp only
              rw [after_andThen]
              exact sound_onMgmtConnected (owned_opened sound.owned socket fd) rfl slot
                probe.readerStarts
          | none =>
              have waiting : Owned { host with
                  backend := { host.backend with mgmtAttempt := host.backend.mgmtAttempt + 1 } } :=
                sound.owned
              dsimp only
              split_ifs
              · exact sound_fail waiting "could not reach openvpn management port"
              · refine ⟨waiting, settled_congr sound.settled ?_ rfl⟩
                rw [OpenVPNBackend.holdings, OpenVPNBackend.holdings, poll]
                rfl

theorem inert_disconnect (backend : OpenVPNBackend) :
    backend.disconnect.Inert backend ∧ backend.disconnect.backend.state = backend.state := by
  unfold OpenVPNBackend.disconnect
  split_ifs
  · exact ⟨inert_quiet, rfl⟩
  · exact ⟨⟨rfl, inert_sendCommand _⟩, rfl⟩
  · refine ⟨⟨rfl, fun effect member => ?_⟩, rfl⟩
    obtain ⟨pid, -, rfl⟩ := List.mem_map.mp member
    rfl

theorem state_scanLogLine (backend : OpenVPNBackend) (line : Bytes) :
    (backend.scanLogLine line).state = backend.state := by
  unfold OpenVPNBackend.scanLogLine
  split <;> split <;> first | rfl | (split <;> rfl)

theorem sound_step {action : Action} (sound : Sound host) (possible : Possible host action)
    (calm : Calm host action) : Unclobbered host action ∧ Sound (host.step action) := by
  cases action with
  | connect profile launch => exact sound_connect sound calm
  | setCredentials user pass =>
      exact ⟨trivial, sound_inert sound ⟨rfl, fun _ member => nomatch member⟩ rfl⟩
  | disconnect =>
      obtain ⟨inert, state⟩ := inert_disconnect host.backend
      exact ⟨trivial, sound_inert sound inert state⟩
  | tryMgmtConnect probe => exact sound_tryMgmtConnect sound probe
  | event event meanwhile =>
      have inert := @inert_handleManagementEvent host.backend event.posted meanwhile
      exact ⟨trivial, owned_inert sound.owned inert,
        settled_of_reader sound.settled possible inert.holdings⟩
  | scan line =>
      have inert : (host.backend.scanLogLine line).quiet.Inert host.backend :=
        ⟨holdings_scanLogLine line, fun _ member => nomatch member⟩
      exact ⟨trivial, sound_inert sound inert (state_scanLogLine host.backend line)⟩
  | readerExited =>
      refine ⟨trivial, sound_cleanup sound.owned _ fun backend => ?_⟩
      split_ifs
      · exact inert_setState _ _
      · exact inert_quiet

end Ownership

/-! ## Runs -/

/-- The daemon when it starts: nothing is held. -/
def booted (table : List KernelRoute) (sessionFile : SessionFile) : Host where
  system := { table, sessionFile }

theorem sound_booted (table : List KernelRoute) (sessionFile : SessionFile) :
    Sound (booted table sessionFile) :=
  sound_of_unheld rfl rfl

theorem sound_run {start : Host} (sound : Sound start) {actions : List Action}
    (possible : Run.Along Host.step Possible start actions)
    (calm : Run.Along Host.step Calm start actions) :
    Run.Along Host.step Unclobbered start actions ∧ Sound (Run.run Host.step start actions) :=
  Run.along_invariant (fun _ _ met sound => sound_step sound met.1 met.2) (possible.and calm) sound

/-- Nothing pending, nothing held. -/
def Released (host : Host) : Prop :=
  host.backend.state = .disconnected → host.backend.mgmtPoll = false →
    host.backend.reader = false → Unheld host.system

theorem ownership_kept (table : List KernelRoute) (sessionFile : SessionFile)
    (actions : List Action)
    (possible : Run.Along Host.step Possible (booted table sessionFile) actions)
    (calm : Run.Along Host.step Calm (booted table sessionFile) actions) :
    Run.Along Host.step Unclobbered (booted table sessionFile) actions ∧
      Owned (Run.run Host.step (booted table sessionFile) actions) ∧
      Released (Run.run Host.step (booted table sessionFile) actions) := by
  obtain ⟨unclobbered, sound⟩ := sound_run (sound_booted table sessionFile) possible calm
  exact ⟨unclobbered, sound.owned, fun _ => unheld_of_settled sound.owned sound.settled⟩

/-! openvpn announces its exit, and the next request comes before its socket closes. -/

namespace Sample

def profile : VPNProfile where
  name := .ofBytes (ascii "office")
  configPath := .ofBytes (ascii "/boot/home/office.ovpn")

def launch (pid : Nat) (unique : String) : Launch where
  comesUp _ := true
  port := 17512
  token := ascii "0123456789abcdef"
  passwordFile := some (ascii unique)
  pid := some pid
  stderrThread := true
  pollStarts := true

def reached : Probe where
  reaped := false
  fd := some 7
  readerStarts := true

def session (pid : Nat) (unique : String) : List Action :=
  [.connect profile (launch pid unique), .tryMgmtConnect reached]

def exiting : Action :=
  .event (parseLine (ascii ">STATE:1767225600,EXITING,SIGTERM,,,,,")) {}

end Sample

theorem ownership_kept_sample :
    Run.Along Host.step Unclobbered (booted [] .absent)
      (Sample.session 100 "aaaaaa" ++ [Sample.exiting, .readerExited] ++
        Sample.session 101 "bbbbbb") ∧
      Owned (Run.run Host.step (booted [] .absent)
        (Sample.session 100 "aaaaaa" ++ [Sample.exiting, .readerExited] ++
          Sample.session 101 "bbbbbb")) ∧
      Released (Run.run Host.step (booted [] .absent)
        (Sample.session 100 "aaaaaa" ++ [Sample.exiting, .readerExited] ++
          Sample.session 101 "bbbbbb")) :=
  ownership_kept [] .absent _ (by decide +kernel) (by decide +kernel)

theorem exiting_lets_second_spawn :
    Run.Along Host.step Possible (booted [] .absent)
        (Sample.session 100 "aaaaaa" ++ [Sample.exiting] ++ Sample.session 101 "bbbbbb") ∧
      ¬ Run.Along Host.step Unclobbered (booted [] .absent)
        (Sample.session 100 "aaaaaa" ++ [Sample.exiting] ++ Sample.session 101 "bbbbbb") := by
  decide +kernel

end Sotoportego.OpenVPN
