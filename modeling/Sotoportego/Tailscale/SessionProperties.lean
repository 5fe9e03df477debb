import Sotoportego.Lib.Run
import Sotoportego.Tailscale.DataPlane

/-!
# The key session of a peer

What the actions of the data plane do to the part of a peer that decides which keys are in
use, since when, and under which index. Every function on a peer follows its own actions.
-/

set_option autoImplicit false

namespace Sotoportego.Tailscale

open Octets CText
open WireGuard

/-- The keys of a peer, our index and the time of installation. -/
structure Session where
  hasKeys : Bool
  index : UInt32
  established : Int
  sendKey : Key
  recvKey : Key

def session (wg : WGPeer) : Session :=
  { hasKeys := wg.hasKeys
    index := wg.senderIndex
    established := wg.established
    sendKey := wg.sendKey
    recvKey := wg.recvKey }

namespace Session

def apply (now : Int) (session : Session) : Action → Session
  | .expired => { session with hasKeys := false }
  | .initiated index => { session with index }
  | .installed index sendKey recvKey =>
      { hasKeys := true, index, established := now, sendKey, recvKey }
  | _ => session

end Session

/-! ## The calls of a peer -/

section Calls

variable (crypto : Crypto) (draw : Draw) (peer : WGPeer)

theorem buildInitiation_session (ourPriv peerPub : Key) :
    (peer.buildInitiation crypto draw ourPriv peerPub).1.testClock = peer.testClock ∧
      match (peer.buildInitiation crypto draw ourPriv peerPub).2 with
      | none => session (peer.buildInitiation crypto draw ourPriv peerPub).1 = session peer
      | some _ => ∃ index, draw.index = some index ∧
          session (peer.buildInitiation crypto draw ourPriv peerPub).1 =
            { session peer with index } := by
  unfold WGPeer.buildInitiation
  simp only
  repeat' split
  all_goals simp_all [session]

theorem answerInitiation_session (ourPriv : Key) (msg : Bytes) :
    (peer.answerInitiation crypto draw ourPriv msg).1.testClock = peer.testClock ∧
      match (peer.answerInitiation crypto draw ourPriv msg).2 with
      | none => session (peer.answerInitiation crypto draw ourPriv msg).1 = session peer
      | some _ => ∃ index, draw.index = some index ∧
          session (peer.answerInitiation crypto draw ourPriv msg).1 =
            { hasKeys := true
              index
              established := peer.now draw.systemTime
              sendKey := (peer.answerInitiation crypto draw ourPriv msg).1.sendKey
              recvKey := (peer.answerInitiation crypto draw ourPriv msg).1.recvKey } := by
  unfold WGPeer.answerInitiation WGPeer.consumeInitiation
  cases WGPeer.responderConsume crypto ourPriv msg with
  | none => exact ⟨rfl, rfl⟩
  | some consumed =>
      simp only
      unfold WGPeer.buildResponse
      simp only
      repeat' split
      all_goals simp_all [session, WGPeer.setTransport, WGPeer.resetReplay, WGPeer.now]

theorem consumeResponse_session (systemTime : Int) (resp : Bytes) :
    (peer.consumeResponse crypto systemTime resp).1.testClock = peer.testClock ∧
      session (peer.consumeResponse crypto systemTime resp).1 =
        if (peer.consumeResponse crypto systemTime resp).2 = true then
          { hasKeys := true
            index := peer.senderIndex
            established := peer.now systemTime
            sendKey := (peer.consumeResponse crypto systemTime resp).1.sendKey
            recvKey := (peer.consumeResponse crypto systemTime resp).1.recvKey }
        else session peer := by
  unfold WGPeer.consumeResponse
  simp only
  repeat' split
  all_goals simp_all [session, WGPeer.setTransport, WGPeer.resetReplay, WGPeer.now]

theorem encapsulate_session (systemTime : Int) (plain : Bytes) :
    (peer.encapsulate crypto systemTime plain).1.testClock = peer.testClock ∧
      session (peer.encapsulate crypto systemTime plain).1 = session peer ∧
      ((peer.encapsulate crypto systemTime plain).2 ≠ none → peer.hasKeys = true) := by
  unfold WGPeer.encapsulate
  simp only
  repeat' split
  all_goals simp_all [session]

theorem decapsulate_session (packet : Bytes) :
    (peer.decapsulate crypto packet).1.testClock = peer.testClock ∧
      session (peer.decapsulate crypto packet).1 = session peer ∧
      ((peer.decapsulate crypto packet).2 ≠ none → peer.hasKeys = true) := by
  unfold WGPeer.decapsulate
  simp only
  repeat' split
  all_goals simp_all [session]

theorem expireIfStale_session (now : Int) :
    (peer.expireIfStale now).1.testClock = peer.testClock ∧
      session (peer.expireIfStale now).1 =
        (if (peer.expireIfStale now).2 = true then { session peer with hasKeys := false }
          else session peer) ∧
      ((peer.expireIfStale now).1.hasKeys = true →
        now - peer.established ≤ kRejectAfterTime) := by
  unfold WGPeer.expireIfStale
  split
  · exact ⟨rfl, rfl, fun impossible => by cases impossible⟩
  · next young =>
    refine ⟨rfl, rfl, fun keys => ?_⟩
    by_contra stale
    exact young ⟨keys, by omega⟩

end Calls

/-! ## Work on a managed peer -/

/-- Actions that leave the session as it is and no condition is about. -/
def Action.Plain : Action → Prop
  | .answered _ => True
  | .sent _ _ => True
  | .pinged _ => True
  | _ => False

/-- A condition on actions that only speaks about keys in use, indices and installation. -/
def Lenient (permit : Session → Action → Prop) : Prop :=
  ∀ session action, action.Plain ∨ action = .expired → permit session action

/-- The outcome is what its own actions make of the peer's session, each of them permitted. -/
structure Follows (permit : Session → Action → Prop) (now : Int) (peer : ManagedPeer)
    (outcome : Outcome) : Prop where
  name : outcome.1.nodeKeyHex = peer.nodeKeyHex
  clock : outcome.1.wg.testClock = peer.wg.testClock
  reached : Run.run (Session.apply now) (session peer.wg) outcome.2 = session outcome.1.wg
  permitted : Run.Along (Session.apply now) permit (session peer.wg) outcome.2

section Follows

variable {permit : Session → Action → Prop} {now : Int} {peer : ManagedPeer}

theorem Follows.idle {next : ManagedPeer} (name : next.nodeKeyHex = peer.nodeKeyHex)
    (clock : next.wg.testClock = peer.wg.testClock) (same : session next.wg = session peer.wg) :
    Follows permit now peer (next, []) :=
  ⟨name, clock, same.symm, trivial⟩

theorem Follows.andThen {first : Outcome} {next : ManagedPeer → Outcome}
    (before : Follows permit now peer first) (after : Follows permit now first.1 (next first.1)) :
    Follows permit now peer (first.andThen next) where
  name := after.name.trans before.name
  clock := after.clock.trans before.clock
  reached := by
    simp only [Outcome.andThen]
    rw [Run.run_append, before.reached, after.reached]
  permitted := by
    simp only [Outcome.andThen]
    rw [Run.along_append, before.reached]
    exact ⟨before.permitted, after.permitted⟩

theorem plain_apply (session : Session) {action : Action} (plain : action.Plain) :
    session.apply now action = session := by
  cases action <;> first | rfl | cases plain

theorem plain_run {actions : List Action} (plain : ∀ action ∈ actions, action.Plain)
    (session : Session) : Run.run (Session.apply now) session actions = session := by
  induction actions with
  | nil => rfl
  | cons action actions continued =>
      rw [Run.run_cons, plain_apply session (plain action List.mem_cons_self)]
      exact continued fun later member => plain later (List.mem_cons_of_mem _ member)

theorem plain_along (lenient : Lenient permit) {actions : List Action}
    (plain : ∀ action ∈ actions, action.Plain) (session : Session) :
    Run.Along (Session.apply now) permit session actions :=
  Run.along_of_forall (fun action member _ => lenient _ _ (.inl (plain action member))) session

theorem sendPeerBytes_plain (context : Context) (peer : ManagedPeer) (message : Bytes) :
    ∀ action ∈ context.sendPeerBytes peer message, action.Plain := by
  unfold Context.sendPeerBytes
  intro action member
  split at member
  · rw [List.mem_singleton] at member
    subst member
    trivial
  · split at member
    · rw [List.mem_singleton] at member
      subst member
      trivial
    · cases member

/-- One action that matters, followed by plain ones. -/
theorem Follows.act (lenient : Lenient permit) {action : Action} {next : ManagedPeer}
    {rest : List Action} (name : next.nodeKeyHex = peer.nodeKeyHex)
    (clock : next.wg.testClock = peer.wg.testClock)
    (reached : session next.wg = (session peer.wg).apply now action)
    (permitted : permit (session peer.wg) action) (plain : ∀ action ∈ rest, action.Plain) :
    Follows permit now peer (next, action :: rest) where
  name := name
  clock := clock
  reached := by
    rw [Run.run_cons, plain_run plain, reached]
  permitted := ⟨permitted, plain_along lenient plain _⟩

variable (context : Context)

theorem probe_follows (lenient : Lenient permit) :
    Follows permit context.now peer (context.probe peer) := by
  have idle (next : ManagedPeer) (name : next.nodeKeyHex = peer.nodeKeyHex)
      (same : next.wg = peer.wg) : Follows permit context.now peer (next, []) :=
    .idle name (congrArg WGPeer.testClock same) (congrArg session same)
  unfold Context.probe Context.sendDiscoPing
  split
  · exact idle peer rfl rfl
  · split
    · exact idle peer rfl rfl
    · split
      · exact idle peer rfl rfl
      · split
        · exact idle _ rfl rfl
        · exact .act lenient rfl rfl rfl (lenient _ _ (.inl trivial)) (by simp)

theorem expire_follows (lenient : Lenient permit) :
    Follows permit context.now peer (context.expire peer) := by
  obtain ⟨clock, reached, _⟩ := expireIfStale_session peer.wg context.now
  unfold Context.expire
  simp only
  split
  · next stale =>
    rw [if_pos stale] at reached
    exact .act lenient rfl clock reached (lenient _ _ (.inr rfl)) (List.forall_mem_nil _)
  · next young =>
    rw [if_neg young] at reached
    exact .idle rfl clock reached

/-- What is left of a session after the expiry check is young. -/
theorem expire_young (peer : ManagedPeer)
    (keys : (context.expire peer).1.wg.hasKeys = true) :
    context.now - (context.expire peer).1.wg.established ≤ kRejectAfterTime ∧
      (context.expire peer).1.wg = peer.wg := by
  unfold Context.expire WGPeer.expireIfStale at keys ⊢
  split at keys
  · cases keys
  · next young =>
    rw [if_neg young]
    refine ⟨?_, rfl⟩
    by_contra stale
    change ¬ context.now - peer.wg.established ≤ kRejectAfterTime at stale
    exact young ⟨keys, by omega⟩

theorem initiate_follows (lenient : Lenient permit) {draw : Draw}
    (may : ∀ index ∈ draw.index, permit (session peer.wg) (.initiated index)) :
    Follows permit context.now peer (context.initiate draw peer) := by
  obtain ⟨clock, result⟩ := buildInitiation_session context.crypto
    { draw with systemTime := context.now } peer.wg context.nodePrivate peer.wg.nodeKey
  unfold Context.initiate
  simp only
  split
  · next init built =>
    rw [built] at result
    obtain ⟨index, drawn, reached⟩ := result
    have same : (peer.wg.buildInitiation context.crypto { draw with systemTime := context.now }
        context.nodePrivate peer.wg.nodeKey).1.senderIndex = index :=
      congrArg Session.index reached
    rw [same]
    exact .act lenient rfl clock reached (may index drawn) (sendPeerBytes_plain _ _ _)
  · next failed =>
    rw [failed] at result
    exact .idle rfl clock result

theorem encapsulate_follows (lenient : Lenient permit) {packet : Bytes}
    (may : peer.wg.hasKeys = true → permit (session peer.wg) (.sealed peer.wg.sendKey)) :
    Follows permit context.now peer (context.encapsulate packet peer) := by
  obtain ⟨clock, same, live⟩ := encapsulate_session context.crypto peer.wg context.now packet
  unfold Context.encapsulate
  simp only
  split
  · next message built =>
    exact .act lenient rfl clock same (may (live (by simp [built]))) (sendPeerBytes_plain _ _ _)
  · exact .idle rfl clock same

/-- An initiation leaves the keys in use and their age alone. -/
theorem initiate_lifetime (draw : Draw) (peer : ManagedPeer) :
    (context.initiate draw peer).1.wg.hasKeys = peer.wg.hasKeys ∧
      (context.initiate draw peer).1.wg.established = peer.wg.established := by
  obtain ⟨_, result⟩ := buildInitiation_session context.crypto
    { draw with systemTime := context.now } peer.wg context.nodePrivate peer.wg.nodeKey
  unfold Context.initiate
  simp only
  split
  · next init built =>
    rw [built] at result
    obtain ⟨index, _, reached⟩ := result
    exact ⟨congrArg Session.hasKeys reached, congrArg Session.established reached⟩
  · next failed =>
    rw [failed] at result
    exact ⟨congrArg Session.hasKeys result, congrArg Session.established result⟩

/-- The rekey of a session whose keys are live is due. -/
def RekeyDue (now : Int) (peer : ManagedPeer) : Prop :=
  peer.wg.shouldInitiateRekey now = true ∧ now - peer.wg.established ≤ kRejectAfterTime

/-- What the send path and the tick may do to a session with keys. -/
structure Maintains (permit : Session → Action → Prop) (now : Int) (draw : Draw)
    (peer : ManagedPeer) : Prop where
  lenient : Lenient permit
  rekey : RekeyDue now peer → ∀ index ∈ draw.index, permit (session peer.wg) (.initiated index)
  sealing : ∀ session, session.hasKeys = true → now - session.established ≤ kRejectAfterTime →
    permit session (.sealed session.sendKey)

section Expired

variable {checked : ManagedPeer} {draw : Draw}

/-- After the expiry check only young keys are left, and they are the peer's. -/
theorem transmit_follows {packet : Bytes} (maintains : Maintains permit context.now draw peer)
    (start : ∀ session : Session, session.hasKeys = false → ∀ index ∈ draw.index,
      permit session (.initiated index))
    (young : checked.wg.hasKeys = true →
      context.now - checked.wg.established ≤ kRejectAfterTime ∧ checked.wg = peer.wg) :
    Follows permit context.now checked (context.transmit packet draw checked) := by
  have lenient := maintains.lenient
  unfold Context.transmit
  split
  · next dropped =>
    split
    · exact initiate_follows context lenient fun index drawn =>
        start (session checked.wg) dropped index drawn
    · exact .idle rfl rfl rfl
  · next live =>
    rw [Bool.not_eq_false] at live
    obtain ⟨fresh, same⟩ := young live
    have sealing (next : ManagedPeer) (keys : next.wg.hasKeys = checked.wg.hasKeys)
        (age : next.wg.established = checked.wg.established) :
        Follows permit context.now next (context.encapsulate packet next) := by
      refine encapsulate_follows context lenient fun _ => maintains.sealing _ (keys.trans live) ?_
      exact (congrArg (context.now - ·) age).trans_le fresh
    unfold Context.rekeyIfDue
    split
    · next due =>
      have started : Follows permit context.now checked (context.initiate draw checked) := by
        refine initiate_follows context lenient fun index drawn => ?_
        rw [same] at due fresh ⊢
        exact maintains.rekey ⟨due, fresh⟩ index drawn
      obtain ⟨keys, age⟩ := initiate_lifetime context draw checked
      exact started.andThen (sealing _ keys age)
    · exact (Follows.idle rfl rfl rfl).andThen (sealing checked rfl rfl)

theorem upkeep_follows (maintains : Maintains permit context.now draw peer)
    (young : checked.wg.hasKeys = true →
      context.now - checked.wg.established ≤ kRejectAfterTime ∧ checked.wg = peer.wg) :
    Follows permit context.now checked (context.upkeep draw checked) := by
  have lenient := maintains.lenient
  unfold Context.upkeep
  split
  · exact .idle rfl rfl rfl
  · next live =>
    rw [Bool.not_eq_false] at live
    obtain ⟨fresh, same⟩ := young live
    split
    · next due =>
      refine initiate_follows context lenient fun index drawn => ?_
      rw [same] at due fresh ⊢
      exact maintains.rekey ⟨due, fresh⟩ index drawn
    · split
      · exact encapsulate_follows context lenient fun _ => maintains.sealing _ live fresh
      · exact .idle rfl rfl rfl

end Expired

theorem sendToPeer_follows {packet : Bytes} {draw : Draw}
    (maintains : Maintains permit context.now draw peer)
    (start : ∀ session : Session, session.hasKeys = false → ∀ index ∈ draw.index,
      permit session (.initiated index)) :
    Follows permit context.now peer (context.sendToPeer packet draw peer) := by
  have lenient := maintains.lenient
  have probedSame : (context.probe peer).1.wg = peer.wg := by
    unfold Context.probe Context.sendDiscoPing
    repeat' split
    all_goals rfl
  have young := expire_young context (context.probe peer).1
  rw [probedSame] at young
  exact ((probe_follows context lenient).andThen (expire_follows context lenient)).andThen
    (transmit_follows context maintains start young)

theorem maintainPeer_follows {draw : Draw} (maintains : Maintains permit context.now draw peer) :
    Follows permit context.now peer (context.maintainPeer draw peer) := by
  unfold Context.maintainPeer
  split
  · exact .idle rfl rfl rfl
  · exact (expire_follows context maintains.lenient).andThen
      (upkeep_follows context maintains (expire_young context peer))

theorem answer_follows (lenient : Lenient permit) {msg : Bytes} {draw : Draw}
    (real : peer.wg.testClock = 0)
    (may : ∀ index ∈ draw.index, ∀ sendKey recvKey,
      permit (session peer.wg) (.installed index sendKey recvKey)) :
    Follows permit context.now peer (context.answer msg draw peer) := by
  obtain ⟨clock, result⟩ := answerInitiation_session context.crypto
    { draw with systemTime := context.now } peer.wg context.nodePrivate msg
  unfold Context.answer
  simp only
  split
  · next response built =>
    rw [built] at result
    obtain ⟨index, drawn, reached⟩ := result
    have same := congrArg Session.index reached
    have time : peer.wg.now context.now = context.now := by simp [WGPeer.now, real]
    rw [time] at reached
    refine .act lenient rfl clock ?_ ?_ ?_
    · rw [reached]
      exact congrArg (fun index => (⟨true, index, _, _, _⟩ : Session)) same.symm
    · rw [show (peer.wg.answerInitiation context.crypto { draw with systemTime := context.now }
        context.nodePrivate msg).1.senderIndex = index from same]
      exact may index drawn _ _
    · intro action member
      obtain rfl | member := List.mem_cons.mp member
      · trivial
      · exact sendPeerBytes_plain _ _ _ action member
  · next failed =>
    rw [failed] at result
    exact .idle rfl clock result

theorem consumeResponse_follows (lenient : Lenient permit) {resp : Bytes}
    (real : peer.wg.testClock = 0)
    (may : ∀ sendKey recvKey,
      permit (session peer.wg) (.installed peer.wg.senderIndex sendKey recvKey)) :
    Follows permit context.now peer (context.consumeResponse resp peer) := by
  obtain ⟨clock, reached⟩ := consumeResponse_session context.crypto peer.wg context.now resp
  have time : peer.wg.now context.now = context.now := by simp [WGPeer.now, real]
  unfold Context.consumeResponse
  simp only
  split
  · next completed =>
    rw [if_pos completed, time] at reached
    have same := congrArg Session.index reached
    refine .act lenient rfl clock ?_ ?_ (List.forall_mem_nil _)
    · rw [reached]
      exact congrArg (fun index => (⟨true, index, _, _, _⟩ : Session)) same.symm
    · rw [show (peer.wg.consumeResponse context.crypto context.now resp).1.senderIndex =
        peer.wg.senderIndex from same]
      exact may _ _
  · next refused =>
    rw [if_neg refused] at reached
    exact .idle rfl clock reached

theorem receive_follows (lenient : Lenient permit) {tunOpen : Bool} {datagram : Bytes}
    (may : peer.wg.hasKeys = true →
      ∀ packet, permit (session peer.wg) (.delivered peer.wg.recvKey packet)) :
    Follows permit context.now peer (context.receive tunOpen datagram peer) := by
  obtain ⟨clock, same, live⟩ := decapsulate_session context.crypto peer.wg datagram
  unfold Context.receive
  simp only
  split
  · next packet opened =>
    split
    · exact .act lenient rfl clock same (may (live (by simp [opened])) packet)
        (List.forall_mem_nil _)
    · exact .idle rfl clock same
  · exact .idle rfl clock same

end Follows

end Sotoportego.Tailscale
