import Sotoportego.Tailscale.PathProperties
import Sotoportego.Tailscale.SectionProperties
import Sotoportego.WireGuard.Transparent

/-!
# One session after another

Nothing resets the session state between two sessions of the backend, so what an earlier
session left stays visible until a response replaces it.
-/

set_option autoImplicit false

namespace Sotoportego.Tailscale

open Octets CText WireGuard

namespace TailscaleBackend

variable {crypto : Crypto}

/-- What a session shows: the derived state, and the address announced. -/
def visible (backend : TailscaleBackend) : SessionState × CString :=
  (backend.session, backend.localIP)

def after (crypto : Crypto) (history : List Event) : Option TailscaleBackend :=
  Run.runPartial (step crypto) {} history

/-- The history ends with a disconnect whose `kMsgTsFailed` has been handled. -/
def CompletedDisconnect (history : List Event) : Prop :=
  ∃ earlier between, history = earlier ++ .disconnect :: (between ++ [.failed .empty])

/-- Whatever is connected to next, the same responses show the same session. -/
def Independent (crypto : Crypto) (first second : List Event) : Prop :=
  ∀ (profile : VPNProfile) (identity : Option Key) (responses : List Bytes),
    (after crypto (first ++ .connect profile identity :: responses.map .mapResponse)).map visible =
      (after crypto (second ++ .connect profile identity :: responses.map .mapResponse)).map visible

/-! ## Sessions of a backend -/

/-- The session of a backend is settled, and its address is the one announced. -/
structure Announced (backend : TailscaleBackend) : Prop where
  settled : Settled backend.session
  localIP : backend.localIP = backend.session.selfIP

theorem connect_session (backend : TailscaleBackend) (profile : VPNProfile)
    (identity : Option Key) : (backend.connect profile identity).session = backend.session ∧
      (backend.connect profile identity).localIP = backend.localIP := by
  unfold connect
  split
  · exact ⟨rfl, rfl⟩
  · split
    · exact ⟨rfl, rfl⟩
    · cases identity <;> exact ⟨rfl, rfl⟩

/-- A response that is accepted replaces the session; of everything else, only traffic touches
it, and then only the peers. -/
theorem step_session {backend next : TailscaleBackend} {event : Event}
    (stepped : backend.step crypto event = some next) :
    (∃ peers, TSPeerSet.keys peers.peers = TSPeerSet.keys backend.session.peers.peers ∧
        next.session = { backend.session with peers } ∧ next.localIP = backend.localIP) ∨
      ∃ root, backend.session.answer root = some next.session ∧
        next.localIP = next.session.selfIP := by
  cases event with
  | connect profile identity =>
      cases stepped
      obtain ⟨session, localIP⟩ := connect_session backend profile identity
      exact .inl ⟨backend.session.peers, rfl, session, localIP⟩
  | mapResponse json =>
      simp only [step, mapResponse] at stepped
      split at stepped
      · rw [applyMapResponse_eq] at stepped
        cases read : accepted json with
        | none =>
            rw [read] at stepped
            cases stepped
            exact .inl ⟨backend.session.peers, rfl, rfl, rfl⟩
        | some root =>
            rw [read] at stepped
            obtain ⟨applied, answered, rfl⟩ := Option.map_eq_some_iff.mp stepped
            obtain ⟨session, found, rfl⟩ := Option.map_eq_some_iff.mp answered
            exact .inr ⟨root, found, rfl⟩
      · cases stepped
        exact .inl ⟨backend.session.peers, rfl, rfl, rfl⟩
  | traffic event =>
      simp only [step, traffic] at stepped
      split at stepped
      · cases stepped
        exact .inl ⟨backend.session.peers, rfl, rfl, rfl⟩
      · cases stepped
        exact .inl ⟨backend.session.peers, rfl, rfl, rfl⟩
      · split at stepped
        next other _ =>
          obtain ⟨plane, moved, rfl⟩ := Option.map_eq_some_iff.mp stepped
          exact .inl ⟨plane.set, step_keys moved other, rfl, rfl⟩
        · cases stepped
          exact .inl ⟨backend.session.peers, rfl, rfl, rfl⟩
  | bringUpTun | failed =>
      cases stepped
      refine .inl ⟨backend.session.peers, rfl, ?_⟩
      simp only [bringUpTun, failed]
      split <;> exact ⟨rfl, rfl⟩
  | disconnect | setExitNode =>
      cases stepped
      exact .inl ⟨backend.session.peers, rfl, rfl, rfl⟩

theorem announced_step (backend : TailscaleBackend) (event : Event) (next : TailscaleBackend)
    (_ : True) (stepped : backend.step crypto event = some next) (announced : Announced backend) :
    Announced next := by
  obtain ⟨peers, keys, session, localIP⟩ | ⟨root, answered, localIP⟩ := step_session stepped
  · obtain ⟨⟨⟨dns, selfIP⟩, apart, managed⟩, own⟩ := announced
    constructor
    · rw [session]
      exact ⟨⟨dns, selfIP⟩, keys ▸ apart, keys ▸ managed⟩
    · rw [localIP, own, session]
  · exact ⟨settled_answer answered, localIP⟩

theorem announced_after {history : List Event} {backend : TailscaleBackend}
    (reached : after crypto history = some backend) : Announced backend := by
  have initial : Announced {} :=
    ⟨⟨⟨rfl, rfl⟩, List.nodup_nil, fun key => by simp [TSPeerSet.keys]⟩, rfl⟩
  exact Run.invariant_partial announced_step
    (Run.alongPartial_of_forall (fun _ _ => trivial) _ _) reached initial

/-! ## Two runs -/

theorem worker_after {history : List Event} {backend : TailscaleBackend}
    (completed : CompletedDisconnect history) (reached : after crypto history = some backend) :
    backend.worker = false := by
  obtain ⟨earlier, between, rfl⟩ := completed
  rw [after, ← List.cons_append, ← List.append_assoc, Run.runPartial_append] at reached
  obtain ⟨before, _, last⟩ := Option.bind_eq_some_iff.mp reached
  simp only [Run.runPartial, List.foldlM_cons, List.foldlM_nil, step, Option.bind_eq_bind,
    Option.bind_some, Option.pure_def, Option.some.injEq] at last
  subst last
  unfold failed
  split
  · rfl
  · next idle => exact Bool.eq_false_iff.mpr idle

/-- What a running worker shows is what the accepted responses make of the session. -/
theorem responses_shown {backend : TailscaleBackend} (worker : backend.worker = true)
    (localIP : backend.localIP = backend.session.selfIP) (responses : List Bytes) :
    (Run.runPartial (step crypto) backend (responses.map .mapResponse)).map visible =
      ((acceptedRoots responses).foldlM SessionState.answer backend.session).map
        fun session => (session, session.selfIP) := by
  induction responses generalizing backend with
  | nil => exact congrArg some (Prod.ext rfl localIP)
  | cons json responses continued =>
      simp only [Run.runPartial, List.map_cons, List.foldlM_cons, step, mapResponse, if_pos worker,
        applyMapResponse_eq, acceptedRoots, List.filterMap_cons]
      cases read : accepted json with
      | none => exact continued worker localIP
      | some root =>
          simp only [List.foldlM_cons]
          cases backend.session.answer root with
          | none => rfl
          | some next => exact continued worker rfl

theorem after_append (history later : List Event) :
    after crypto (history ++ later) =
      (after crypto history).bind fun backend => Run.runPartial (step crypto) backend later := by
  rw [after, Run.runPartial_append]
  rfl

/-- A new session after a completed disconnect. -/
theorem next_session {history : List Event} {backend : TailscaleBackend}
    (completed : CompletedDisconnect history) (reached : after crypto history = some backend)
    {profile : VPNProfile} (named : profile.name ≠ .empty) (identity : Key)
    (responses : List Bytes) :
    (after crypto (history ++ .connect profile (some identity) ::
        responses.map .mapResponse)).map visible =
      ((acceptedRoots responses).foldlM SessionState.answer backend.session).map
        fun session => (session, session.selfIP) := by
  have idle := worker_after completed reached
  have started : (backend.connect profile (some identity)).worker = true := by
    simp [connect, named, idle]
  obtain ⟨session, localIP⟩ := connect_session backend profile (some identity)
  have own := (announced_after reached).localIP
  have shown := @responses_shown crypto _ started (by rw [localIP, session, own]) responses
  rw [after_append, reached]
  rw [session] at shown
  exact shown

/-- Whatever is connected to next, the same responses show the same session, as long as the
accepted ones carry these sections. -/
def IndependentWith (crypto : Crypto) (carried : Section → Prop) (first second : List Event) :
    Prop :=
  ∀ (profile : VPNProfile) (identity : Key) (responses : List Bytes), profile.name ≠ .empty →
    (∀ kind, carried kind → Carried kind (acceptedRoots responses)) →
      (after crypto (first ++ .connect profile (some identity) ::
        responses.map .mapResponse)).map visible =
      (after crypto (second ++ .connect profile (some identity) ::
        responses.map .mapResponse)).map visible

/-- Two histories that end with a completed disconnect are indistinguishable to the sessions
after them whose responses carry some sections, exactly when they leave the same in all others
and the same peers to be updated. -/
theorem fresh_session {first second : List Event} (firstEnds : CompletedDisconnect first)
    (secondEnds : CompletedDisconnect second) {left right : TailscaleBackend}
    (leftReached : after crypto first = some left) (rightReached : after crypto second = some right)
    (carried : Section → Prop) :
    IndependentWith crypto carried first second ↔ Alike carried left.session right.session := by
  have leftSettled := (announced_after leftReached).settled
  have rightSettled := (announced_after rightReached).settled
  constructor
  · intro independent
    refine alike_of_shown leftSettled rightSettled fun responses every => ?_
    have named : text "home" ≠ .empty := by decide
    have same := independent { name := text "home" } (.zero 32) responses named every
    rw [next_session firstEnds leftReached named, next_session secondEnds rightReached named] at same
    have injective : Function.Injective fun session : SessionState => (session, session.selfIP) :=
      fun one other equal => congrArg Prod.fst equal
    exact Option.map_injective injective same
  · intro alike profile identity responses named every
    rw [next_session firstEnds leftReached named, next_session secondEnds rightReached named,
      alike_run alike leftSettled.toDerived rightSettled.toDerived every]

namespace Sample

def profile : VPNProfile where
  name := text "home"

def snapshot : Bytes :=
  ascii ("\x7b\"Node\":\x7b\"Addresses\":[\"100.64.0.1/32\"]\x7d," ++
    "\"DNSConfig\":\x7b\"Domains\":[\"old.ts.net\"]\x7d\x7d")

/-- A session in one tailnet, ended by the user. -/
def used : List Event :=
  [.connect profile (some (.zero 32)), .mapResponse snapshot, .disconnect, .failed .empty]

/-- A session that ended before its first response. -/
def unused : List Event := [.connect profile (some (.zero 32)), .disconnect, .failed .empty]

theorem used_completed : CompletedDisconnect used :=
  ⟨[.connect profile (some (.zero 32)), .mapResponse snapshot], [], rfl⟩

theorem unused_completed : CompletedDisconnect unused :=
  ⟨[.connect profile (some (.zero 32))], [], rfl⟩

/-- A response with every section. -/
def complete : Bytes :=
  ascii ("\x7b\"Node\":\x7b\"Addresses\":[\"100.64.0.2/32\"]\x7d,\"Peers\":[]," ++
    "\"DERPMap\":\x7b\"Regions\":\x7b\x7d\x7d,\"DNSConfig\":\x7b\"Domains\":[\"new.ts.net\"]\x7d\x7d")

end Sample

theorem fresh_session_sample :
    (after Transparent.crypto (Sample.used ++
        [.connect Sample.profile (some (.zero 32)), .mapResponse Sample.complete])).map visible =
      (after Transparent.crypto (Sample.unused ++
        [.connect Sample.profile (some (.zero 32)), .mapResponse Sample.complete])).map visible := by
  have usedReached : (after Transparent.crypto Sample.used).isSome = true := by decide +kernel
  have unusedReached : (after Transparent.crypto Sample.unused).isSome = true := by decide +kernel
  have managed : ((after Transparent.crypto Sample.used).map fun backend =>
        backend.session.peers.peers.length) = some 0 ∧
      ((after Transparent.crypto Sample.unused).map fun backend =>
        backend.session.peers.peers.length) = some 0 := by decide +kernel
  obtain ⟨used, usedFound⟩ := Option.isSome_iff_exists.mp usedReached
  obtain ⟨unused, unusedFound⟩ := Option.isSome_iff_exists.mp unusedReached
  rw [usedFound, unusedFound] at managed
  have usedPeers := List.length_eq_zero_iff.mp (Option.some.inj managed.1)
  have unusedPeers := List.length_eq_zero_iff.mp (Option.some.inj managed.2)
  have alike : Alike (fun _ => True) used.session unused.session := by
    refine ⟨by simp, by simp, by simp, by simp, by simp, ?_, fun none => absurd trivial (none .reply)⟩
    rw [usedPeers, unusedPeers]
  have checked : ∀ kind ∈ [.reply, .peers, .node, .relays, .dns, .domain],
      Carried kind (acceptedRoots [Sample.complete]) := by decide +kernel
  have every (kind : Section) : Carried kind (acceptedRoots [Sample.complete]) :=
    checked kind (by cases kind <;> decide)
  exact (fresh_session Sample.used_completed Sample.unused_completed usedFound unusedFound _).mpr
    alike Sample.profile (.zero 32) [Sample.complete] (by decide) fun kind _ => every kind

/-- The address and the domain of one tailnet are there in a session of another. -/
theorem earlier_session_visible :
    ¬ ∀ (crypto : Crypto) (first second : List Event),
      CompletedDisconnect first → CompletedDisconnect second → Independent crypto first second := by
  intro claim
  have same := claim Transparent.crypto Sample.used Sample.unused Sample.used_completed
    Sample.unused_completed Sample.profile (some (.zero 32)) [ascii "\x7b\"Peers\":[]\x7d"]
  have shown := congrArg (Option.map fun view => (view.1.selfIP, view.1.dns.domain, view.2)) same
  revert shown
  decide +kernel

end TailscaleBackend

end Sotoportego.Tailscale
