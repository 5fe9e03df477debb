import Sotoportego.Tailscale.Derp

/-!
# The DERP reader thread

`ReconnectBackoff` and `_RunDerpReader`. Times are microseconds of `system_time`. What one
turn of the loop meets is a `Turn`, and a run is a list of turns.
-/

set_option autoImplicit false

namespace Sotoportego.Tailscale

open Octets CText Deliveries
open WireGuard (Key)

structure ReconnectBackoff where
  minDelay : Int
  maxDelay : Int
  healthyThreshold : Int
  current : Int
  deriving DecidableEq

namespace ReconnectBackoff

def init (minDelay maxDelay healthyThreshold : Int) : ReconnectBackoff where
  minDelay := if 0 < minDelay then minDelay else 1
  maxDelay := if minDelay ≤ maxDelay then maxDelay else minDelay
  healthyThreshold
  current := if 0 < minDelay then minDelay else 1

/-- A `bigtime_t` has 64 bits. -/
def nextDelay (established : Bool) (lasted : Int) (backoff : ReconnectBackoff) :
    Int × ReconnectBackoff :=
  if established ∧ backoff.healthyThreshold ≤ lasted then
    (backoff.minDelay, { backoff with current := backoff.minDelay })
  else
    let next := (backoff.current * 2).bmod (2 ^ 64)
    (backoff.current,
      { backoff with current := if backoff.maxDelay < next then backoff.maxDelay else next })

def reset (backoff : ReconnectBackoff) : ReconnectBackoff :=
  { backoff with current := backoff.minDelay }

end ReconnectBackoff

/-- What `_DerpReconnect` connects with. -/
structure DerpRelay where
  box : Box
  host : CString
  nodePriv : Key
  nodePub : Key

/-- What one turn of the loop meets: `fStopRequested` at its two tests, the time of a drop,
whether the sleep is not cut short, and what a reconnect finds. -/
structure Turn where
  stopAtTop : Bool := false
  stopAfterDrop : Bool := false
  droppedAt : Int
  slept : Bool := true
  dial : Except (Status × Bytes) (List (Delivery UInt8))
  nonce : Buffer 24 := .zero 24
  reconnectedAt : Int

structure DerpReader where
  derp : DerpClient
  derpUp : Bool := true
  backoff : ReconnectBackoff := .init 1000000 30000000 30000000
  connectedAt : Int
  running : Bool := true
  /-- What the `RecvPacket` calls returned. -/
  returned : List Int := []
  /-- The packets given to `_HandleWireGuardPacket`. -/
  handed : List Bytes := []
  /-- The delays slept, one before every reconnect. -/
  delays : List Int := []

namespace DerpReader

def derpMarkDown (reader : DerpReader) : DerpReader :=
  { reader with derpUp := false, derp := reader.derp.close }

def derpReconnect (relay : DerpRelay) (turn : Turn) (reader : DerpReader) : Bool × DerpReader :=
  if relay.host = .empty then (false, reader)
  else
    match reader.derp.connect relay.box turn.dial turn.nonce relay.host relay.nodePriv
        relay.nodePub with
    | (.ok, derp) => (true, { reader with derp, derpUp := true })
    | (_, derp) => (false, { reader with derp })

/-- The loop body after a `RecvPacket` below zero. -/
def dropped (relay : DerpRelay) (turn : Turn) (reader : DerpReader) : DerpReader :=
  if turn.stopAfterDrop then { reader with running := false }
  else
    let lasted := turn.droppedAt - reader.connectedAt
    let reader := reader.derpMarkDown
    let (delay, backoff) := reader.backoff.nextDelay true lasted
    let reader := { reader with backoff, delays := reader.delays ++ [delay] }
    if turn.slept then
      match reader.derpReconnect relay turn with
      | (true, reader) => { reader with connectedAt := turn.reconnectedAt }
      | (false, reader) => reader
    else { reader with running := false }

/-- The loop body from what `RecvPacket` returned. -/
def react (relay : DerpRelay) (turn : Turn) (reader : DerpReader) :
    DerpClient.Received → DerpReader
  | .packet _ out =>
      if 0 < out.length then { reader with handed := reader.handed ++ [out] } else reader
  | .control => reader
  | .failed => reader.dropped relay turn

/-- One turn of the loop of `_RunDerpReader`. -/
def step (relay : DerpRelay) (reader : DerpReader) (turn : Turn) : DerpReader :=
  if ¬ reader.running then reader
  else if turn.stopAtTop then { reader with running := false }
  else
    let (received, derp) := reader.derp.recvPacket 2048
    { reader with derp, returned := reader.returned ++ [received.value] }.react relay turn received

end DerpReader

end Sotoportego.Tailscale
