import Sotoportego.Tailscale.DataPlaneProperties
import Sotoportego.WireGuard.Transparent

/-!
# How long transport keys are used

The send path and the tick check the age of the keys before they seal; the receive path
does not check it before it opens.
-/

set_option autoImplicit false

namespace Sotoportego.Tailscale

open Octets CText
open WireGuard

/-- Every packet sealed or delivered used the keys its peer got last, and those at most
`kRejectAfterTime` after they were installed. -/
def WithinLifetime (log : List Entry) : Prop :=
  ∀ earlier entry later, log = earlier ++ entry :: later →
    (∀ sendKey, entry.action = .sealed sendKey →
      ∃ install, lastInstall entry.peer earlier = some install ∧ install.sendKey = sendKey ∧
        entry.time - install.time ≤ kRejectAfterTime) ∧
    ∀ recvKey packet, entry.action = .delivered recvKey packet →
      ∃ install, lastInstall entry.peer earlier = some install ∧ install.recvKey = recvKey ∧
        entry.time - install.time ≤ kRejectAfterTime

/-- The log knows the keys of the session and when they were installed. -/
def Recorded (log : List Entry) (name : CString) (session : Session) : Prop :=
  session.hasKeys = true →
    ∃ install, lastInstall name log = some install ∧ install.sendKey = session.sendKey ∧
      install.recvKey = session.recvKey ∧ install.time = session.established

/-- Keys are used only while they are young. -/
def Young (now : Int) (session : Session) : Action → Prop
  | .sealed sendKey => session.hasKeys = true ∧ sendKey = session.sendKey ∧
      now - session.established ≤ kRejectAfterTime
  | .delivered recvKey _ => session.hasKeys = true ∧ recvKey = session.recvKey ∧
      now - session.established ≤ kRejectAfterTime
  | _ => True

theorem young_lenient (now : Int) : Lenient (Young now) := by
  intro session action unrestricted
  cases action with
  | sealed sendKey => simp [Action.Plain] at unrestricted
  | delivered recvKey packet => simp [Action.Plain] at unrestricted
  | _ => trivial

theorem withinLifetime_concat {log : List Entry} {name : CString} {session : Session}
    {action : Action} {now : Int} (young : Young now session action)
    (within : WithinLifetime log) (recorded : Recorded log name session) :
    WithinLifetime (log ++ [⟨name, now, action⟩]) := by
  intro earlier entry later split
  obtain rfl | ⟨front, last, rfl⟩ := List.eq_nil_or_concat later
  · obtain ⟨rfl, single⟩ := List.append_inj' split rfl
    cases single
    constructor
    · rintro sendKey rfl
      obtain ⟨live, rfl, age⟩ := young
      obtain ⟨install, found, same, _, time⟩ := recorded live
      exact ⟨install, found, same, by rw [time]; exact age⟩
    · rintro recvKey packet rfl
      obtain ⟨live, rfl, age⟩ := young
      obtain ⟨install, found, _, same, time⟩ := recorded live
      exact ⟨install, found, same, by rw [time]; exact age⟩
  · have shorter : log ++ [⟨name, now, action⟩] = earlier ++ entry :: front ++ [last] := by
      simpa using split
    obtain ⟨same, _⟩ := List.append_inj' shorter rfl
    exact within earlier entry front same

theorem recorded_concat {log : List Entry} {name : CString} {session : Session} (now : Int)
    (action : Action) (recorded : Recorded log name session) :
    Recorded (log ++ [⟨name, now, action⟩]) name (session.apply now action) := by
  intro live
  cases action with
  | expired => cases live
  | installed index sendKey recvKey =>
      exact ⟨_, lastInstall_installed name log now index sendKey recvKey, rfl, rfl, rfl⟩
  | _ =>
      rw [lastInstall_kept (by simp)]
      exact recorded live

theorem lifetime_ledger (now : Int) : Ledger (Young now) now Recorded WithinLifetime where
  own _ _ _ action young within recorded :=
    ⟨withinLifetime_concat young within recorded, recorded_concat now action recorded⟩
  other log name session entry differs recorded := by
    intro live
    rw [lastInstall_other differs]
    exact recorded live
  idle _ _ _ idle live := by
    rw [idle] at live
    cases live

/-- An inbound data packet finds keys that are not past their time. -/
def FreshKeys (plane : DataPlane) : Event → Prop
  | .datagram bytes _ =>
      octetAt bytes 0 = 4 → ∀ position ∈ plane.set.findBySenderIndex (load32Le bytes 4),
        ∀ peer ∈ plane.set.peers[position]?, peer.wg.hasKeys = true →
          plane.clock - peer.wg.established ≤ kRejectAfterTime
  | _ => True

instance (plane : DataPlane) : ∀ event, Decidable (FreshKeys plane event)
  | .datagram bytes _ =>
      inferInstanceAs (Decidable (octetAt bytes 0 = 4 → ∀ position ∈ _, ∀ peer ∈ _, _))
  | .elapse _ | .tunPacket _ _ | .tick _ | .pong _ _ | .mapResponse _ | .derp _ | .tun _ =>
      inferInstanceAs (Decidable True)

theorem maintains_young (now : Int) (draw : Draw) (peer : ManagedPeer) :
    Maintains (Young now) now draw peer where
  lenient := young_lenient now
  rekey _ _ _ := trivial
  sealing _ live age := ⟨live, rfl, age⟩

theorem young_admissible {plane : DataPlane} {event : Event} (fresh : FreshKeys plane event) :
    Admissible (Young plane.clock) plane event := by
  cases event with
  | tunPacket packet draw =>
      exact fun _ _ peer _ => ⟨maintains_young _ draw peer, fun _ _ _ _ => trivial⟩
  | tick draws => exact fun position peer _ => maintains_young _ (draws position) peer
  | datagram bytes draw =>
      refine ⟨young_lenient _, fun _ _ _ _ _ _ => trivial, fun _ _ _ _ => trivial, ?_⟩
      intro type position found peer stored live packet
      exact ⟨live, rfl, fresh type position found peer stored live⟩
  | _ => trivial

/-- In a run in which every inbound data packet finds keys that are not past their time, no
packet is sealed or delivered under older ones. -/
theorem key_lifetime (crypto : Crypto) (nodePrivate : Key) (clock : Int) (events : List Event)
    (fresh : Run.AlongPartial (DataPlane.step crypto nodePrivate) FreshKeys { clock } events)
    (plane : DataPlane) (reached : DataPlane.run crypto nodePrivate { clock } events = some plane) :
    WithinLifetime plane.log := by
  have start : Held Recorded WithinLifetime { clock } := by
    apply held_start
    intro earlier entry later split
    cases earlier <;> cases split
  have held := Run.invariant_partial
    (fun current event next allowed stepped kept =>
      held_step (lifetime_ledger current.clock) (young_admissible allowed) stepped kept)
    fresh reached start
  exact held.sound

/-! ## A session that outlives its keys -/

namespace Sample

open Transparent

/-- The peer with the key of `pair 2`, listed for the node with the key of `pair 1`. -/
def listing : Bytes :=
  ascii "\x7b\"Peers\":[\x7b\"ID\":1,\"Key\":\"nodekey:" ++
    ((toHex (pair 2).pub.bytes).bytes ++ ascii "\"\x7d]\x7d")

/-- The peer once it has sent its initiation, and the initiation. -/
def initiator : WGPeer × Option Bytes :=
  WGPeer.buildInitiation crypto (draw 3 7 0) {} (pair 2).priv (pair 1).pub

def initiation : Bytes := initiator.2.getD []

/-- What the node answers when it draws `draw 4 8`. -/
def response : Bytes :=
  (WGPeer.answerInitiation crypto (draw 4 8 0) {} (pair 1).priv initiation).2.getD []

/-- An IPv4 header without data. -/
def packet : Bytes :=
  [0x45, 0, 0, 20, 0, 0, 0, 0, 64, 59, 0, 0, 100, 64, 0, 2, 100, 64, 0, 1]

/-- The first data packet of the peer, addressed to index 8. -/
def datagram : Bytes :=
  ((initiator.1.consumeResponse crypto 0 response).1.encapsulate crypto 0 packet).2.getD []

/-- The peer is listed, the tun opens and the peer's initiation is answered. -/
def session : List Event := [.mapResponse listing, .tun true, .datagram initiation (draw 4 8 0)]

def plane (events : List Event) : Option DataPlane :=
  DataPlane.run crypto (pair 1).priv { clock := 1 } (session ++ events)

end Sample

theorem key_lifetime_sample :
    ∃ plane, Sample.plane [.datagram Sample.datagram (Transparent.draw 5 9 0)] = some plane ∧
      WithinLifetime plane.log := by
  have defined : (Sample.plane [.datagram Sample.datagram (Transparent.draw 5 9 0)]).isSome = true := by
    decide +kernel
  obtain ⟨plane, reached⟩ := Option.isSome_iff_exists.mp defined
  exact ⟨plane, reached, key_lifetime _ _ _ _ (by decide +kernel) plane reached⟩

/-- The entry at a position delivers a packet under keys that are past their time. -/
def deliversLate (log : List Entry) (position : Nat) : Bool :=
  log[position]?.any fun entry =>
    match entry.action with
    | .delivered _ _ => (lastInstall entry.peer (log.take position)).all fun install =>
        kRejectAfterTime < entry.time - install.time
    | _ => false

theorem WithinLifetime.not_deliversLate {log : List Entry} (within : WithinLifetime log)
    (position : Nat) : deliversLate log position = false := by
  unfold deliversLate
  cases stored : log[position]? with
  | none => rfl
  | some entry =>
      obtain ⟨inside, same⟩ := List.getElem?_eq_some_iff.mp stored
      have split : log = log.take position ++ entry :: log.drop (position + 1) := by
        rw [← same, List.cons_getElem_drop_succ, List.take_append_drop]
      rw [Option.any_some]
      split
      · next recvKey packet delivered =>
        obtain ⟨install, found, _, age⟩ := (within _ entry _ split).2 recvKey packet delivered
        simpa [found] using age
      · rfl

/-- 181 seconds after the installation, with no tick in between, a data packet is still
opened and written to the tun. -/
theorem stale_keys_deliver :
    ¬ ∀ (events : List Event) (plane : DataPlane),
      DataPlane.run Transparent.crypto (Transparent.pair 1).priv { clock := 1 } events =
        some plane → WithinLifetime plane.log := by
  intro claim
  have late : (Sample.plane [.elapse 181000000,
      .datagram Sample.datagram (Transparent.draw 5 9 0)]).any
        (fun plane => deliversLate plane.log 2) = true := by
    decide +kernel
  cases reached : Sample.plane [.elapse 181000000,
      .datagram Sample.datagram (Transparent.draw 5 9 0)] with
  | none =>
      rw [reached] at late
      cases late
  | some plane =>
      rw [reached, Option.any_some, (claim _ plane reached).not_deliversLate 2] at late
      cases late

end Sotoportego.Tailscale
