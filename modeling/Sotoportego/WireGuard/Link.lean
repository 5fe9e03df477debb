import Mathlib.Logic.Function.Basic
import Sotoportego.Lib.Run
import Sotoportego.WireGuard.Peer

/-!
# Two peers and the handshake messages between them

Either end may call `BuildInitiation` at any time; the network holds every message
until it delivers it, in any order, and the addressed end handles it as
`_HandleWireGuardPacket` does when the other end is its only peer.
-/

set_option autoImplicit false

namespace Sotoportego.WireGuard

open Octets

inductive Side where
  | left
  | right
  deriving DecidableEq

def Side.other : Side → Side
  | .left => .right
  | .right => .left

structure Link where
  peer : Side → WGPeer
  /-- Each message in flight with the end it travels to. -/
  flight : List (Side × Bytes) := []

namespace Link

inductive Event where
  | initiate (side : Side) (draw : Draw)
  | deliver (position : Nat) (draw : Draw)

section Handlers

variable (crypto : Crypto) (static : Side → KeyPair crypto)

/-- `_HandleWireGuardPacket`, types 1 and 2; `FindBySenderIndex` never finds 0. -/
def handle (draw : Draw) (side : Side) (peer : WGPeer) (msg : Bytes) : WGPeer × Option Bytes :=
  if octetAt msg 0 = 1 ∧ msg.length = 148 then
    match WGPeer.recoverInitiatorStatic crypto (static side).priv msg with
    | none => (peer, none)
    | some initiator =>
        if initiator = (static side.other).pub then
          peer.answerInitiation crypto draw (static side).priv msg
        else (peer, none)
  else if octetAt msg 0 = 2 ∧ msg.length = 92 then
    let index := load32Le msg 8
    if index ≠ 0 ∧ peer.senderIndex = index then
      ((peer.consumeResponse crypto draw.systemTime msg).1, none)
    else (peer, none)
  else (peer, none)

def step (link : Link) : Event → Link
  | .initiate side draw =>
      match (link.peer side).buildInitiation crypto draw (static side).priv
        (static side.other).pub with
      | (peer, none) => { link with peer := Function.update link.peer side peer }
      | (peer, some msg) => {
          peer := Function.update link.peer side peer
          flight := link.flight ++ [(side.other, msg)] }
  | .deliver position draw =>
      match link.flight[position]? with
      | none => link
      | some (side, msg) =>
          match handle crypto static draw side (link.peer side) msg with
          | (peer, none) => {
              peer := Function.update link.peer side peer
              flight := link.flight.eraseIdx position }
          | (peer, some resp) => {
              peer := Function.update link.peer side peer
              flight := link.flight.eraseIdx position ++ [(side.other, resp)] }

def run (link : Link) (events : List Event) : Link :=
  Run.run (step crypto static) link events

end Handlers

/-- Two peer objects straight from their constructor. -/
def fresh : Link where
  peer _ := {}

/-- The handshake a message belongs to: the end that initiated it and the index that
end drew for it. -/
def handshake (message : Side × Bytes) : Side × UInt32 :=
  if octetAt message.2 0 = 1 then (message.1.other, load32Le message.2 4)
  else (message.1, load32Le message.2 8)

/-- The generators succeed and the drawn index names no handshake of `side` that a
message in flight belongs to. -/
def Drawn (crypto : Crypto) (link : Link) (side : Side) (draw : Draw) : Prop :=
  ∃ (ephemeral : KeyPair crypto) (index : UInt32),
    draw.ephemeral = some (ephemeral.priv, ephemeral.pub) ∧ draw.index = some index ∧
      (side, index) ∉ link.flight.map handshake

/-- The steps under which the two ends stay in agreement: an initiation arrives while
its sender still holds the handshake it belongs to, that is while the sender has
neither initiated again nor answered an initiation. -/
def Undisturbed (crypto : Crypto) (link : Link) : Event → Prop
  | .initiate side draw => draw.index ≠ some 0 ∧ Drawn crypto link side draw
  | .deliver position draw =>
      ∀ side msg, link.flight[position]? = some (side, msg) → octetAt msg 0 = 1 →
        load32Le msg 4 = (link.peer side.other).senderIndex ∧ Drawn crypto link side draw

end Link

end Sotoportego.WireGuard
