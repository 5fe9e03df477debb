import Sotoportego.Lib.Run
import Sotoportego.WireGuard.Peer

/-!
# One direction of an installed session

`sender` encapsulates, the network hands any produced datagram to `receiver` any
number of times in any order, and `receiver` decapsulates.
-/

set_option autoImplicit false

namespace Sotoportego.WireGuard

open Octets

structure Channel where
  sender : WGPeer
  receiver : WGPeer
  /-- Each packet with the datagram made from it, in sending order. -/
  sent : List (Bytes × Bytes) := []
  /-- The number of each delivered datagram with what `Decapsulate` returned. -/
  returned : List (Nat × Option Bytes) := []

namespace Channel

inductive Event where
  | send (systemTime : Int) (packet : Bytes)
  | deliver (number : Nat)

def step (crypto : Crypto) (channel : Channel) : Event → Channel
  | .send systemTime packet =>
      match channel.sender.encapsulate crypto systemTime packet with
      | (sender, none) => { channel with sender }
      | (sender, some datagram) =>
          { channel with sender, sent := channel.sent ++ [(packet, datagram)] }
  | .deliver number =>
      match channel.sent[number]? with
      | none => channel
      | some (_, datagram) =>
          let (receiver, out) := channel.receiver.decapsulate crypto datagram
          { channel with receiver, returned := channel.returned ++ [(number, out)] }

def run (crypto : Crypto) (channel : Channel) (events : List Event) : Channel :=
  Run.run (step crypto) channel events

/-- The numbers of the datagrams `Decapsulate` did not refuse, once for each
delivery. -/
def accepted (channel : Channel) : List Nat :=
  channel.returned.filterMap fun delivery => delivery.2.map fun _ => delivery.1

end Channel

/-- A keepalive, or an IP packet whose header gives its own length. -/
inductive Payload (packet : Bytes) : Prop where
  | keepalive (empty : packet = [])
  | ipv4 (version : octetAt packet 0 >>> 4 = 4) (atLeast : 20 ≤ packet.length)
      (atMost : packet.length ≤ 2048)
      (total : (octetAt packet 2).toNat <<< 8 ||| (octetAt packet 3).toNat = packet.length)
  | ipv6 (version : octetAt packet 0 >>> 4 = 6) (atLeast : 40 ≤ packet.length)
      (atMost : packet.length ≤ 2048)
      (total : 40 + ((octetAt packet 4).toNat <<< 8 ||| (octetAt packet 5).toNat) =
        packet.length)

/-- The two ends as a key installation leaves them, `sender` towards `receiver`. -/
structure Installed (sender receiver : WGPeer) : Prop where
  senderKeys : sender.hasKeys = true
  receiverKeys : receiver.hasKeys = true
  shared : sender.sendKey = receiver.recvKey
  sendCounter : sender.sendCounter = 0
  unread : receiver.replay = {}

end Sotoportego.WireGuard
