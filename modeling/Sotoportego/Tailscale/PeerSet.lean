import Sotoportego.Tailscale.Netmap
import Sotoportego.WireGuard.Peer

/-!
# The managed peers

`TSPeerSet` keeps one WireGuard session per tailnet peer and is reconciled against each
network map. A pointer into the vector is the position it points at.
-/

set_option autoImplicit false

namespace Sotoportego.Tailscale

open Octets CText
open WireGuard (WGPeer Key)

/-! ## Send path -/

inductive PathMode where
  | none
  | derp
  | direct
  deriving DecidableEq

structure PeerPath where
  mode : PathMode := .none
  endpoint : Bytes := []
  lastDirectActivity : Int := 0
  deriving DecidableEq

namespace PeerPath

/-- Never downgrades a direct path. -/
def useDerp (path : PeerPath) : PeerPath :=
  if path.mode = .none then { path with mode := .derp } else path

def upgradeToDirect (path : PeerPath) (endpoint : Bytes) (now : Int) : PeerPath :=
  { path with mode := .direct, endpoint, lastDirectActivity := now }

def noteDirectActivity (path : PeerPath) (now : Int) : PeerPath :=
  if path.mode = .direct then { path with lastDirectActivity := now } else path

/-- The path that `Evaluate` leaves; its return value is the mode of it. -/
def evaluate (path : PeerPath) (now staleAfterUs : Int) : PeerPath :=
  if path.mode = .direct ∧ now - path.lastDirectActivity > staleAfterUs then
    { path with mode := .derp }
  else path

end PeerPath

/-! ## Node keys as text -/

def hexDigits : Bytes := ascii "0123456789abcdef"

def toHex (source : Bytes) : CString :=
  .ofBytes (source.flatMap fun octet =>
    [octetAt hexDigits (octet.toNat / 16), octetAt hexDigits (octet.toNat % 16)])

/-- The octets of `size` pairs of hexadecimal digits, when the text is exactly that long. -/
def fromHex (size : Nat) (hex : CString) : Option (Buffer size) :=
  if hex.bytes.length = size * 2 then do
    let octets ← (List.range size).mapM fun position => do
      let high ← hexNibble (octetAt hex.bytes (2 * position))
      let low ← hexNibble (octetAt hex.bytes (2 * position + 1))
      return UInt8.ofNat (high * 16 + low)
    return slice size octets 0
  else none

/-! ## Peers -/

structure ManagedPeer where
  nodeKeyHex : CString := .empty
  discoKey : CString := .empty
  hostname : Bytes := []
  online : Bool := false
  derpRegion : Int := -1
  allowedIPs : List Bytes := []
  endpoints : List Bytes := []
  wg : WGPeer := {}
  path : PeerPath := {}
  lastHandshake : Int := 0
  lastDiscoPing : Int := 0

namespace ManagedPeer

/-- Metadata and reachability from the map; session, timers and a working path stay. -/
def refresh (peer : ManagedPeer) (listed : NetmapPeer) : ManagedPeer :=
  { peer with
    discoKey := listed.discoKey
    hostname := listed.hostname
    online := listed.online
    derpRegion := listed.derpRegion
    allowedIPs := listed.allowedIPs
    endpoints := listed.endpoints
    path := if listed.derpRegion ≥ 0 then peer.path.useDerp else peer.path }

/-- A peer first listed; its WireGuard identity is set when the key is 64 hex digits. -/
def enroll (listed : NetmapPeer) : ManagedPeer :=
  let wg : WGPeer :=
    match fromHex 32 listed.nodeKey with
    | some raw => ({} : WGPeer).setNodeKey raw
    | none => {}
  ({ nodeKeyHex := listed.nodeKey, wg } : ManagedPeer).refresh listed

end ManagedPeer

structure TSPeerSet where
  peers : List ManagedPeer := []

namespace TSPeerSet

def indexOf (peers : List ManagedPeer) (hex : CString) : Option Nat :=
  peers.findIdx? fun peer => peer.nodeKeyHex = hex

def find (set : TSPeerSet) (hex : CString) : Option Nat :=
  indexOf set.peers hex

/-- Index zero names no peer. -/
def findBySenderIndex (set : TSPeerSet) (index : UInt32) : Option Nat :=
  if index = 0 then none else set.peers.findIdx? fun peer => peer.wg.senderIndex = index

def findByDiscoKey (set : TSPeerSet) (discoKeyHex : CString) : Option Nat :=
  set.peers.findIdx? fun peer => peer.discoKey = discoKeyHex && peer.discoKey ≠ .empty

/-! ## Routing -/

/-- The literal full stop between two conversions of the format. -/
def scanDot : Bytes → Option Bytes
  | 46 :: rest => some rest
  | _ => none

/-- `sscanf` with `"%u.%u.%u.%u"`; text after the fourth number is ignored. -/
def parseIpv4 (text : CString) : Option Nat := do
  let (a, rest) ← scanUnsigned text.bytes
  let (b, rest) ← scanUnsigned (← scanDot rest)
  let (c, rest) ← scanUnsigned (← scanDot rest)
  let (d, _) ← scanUnsigned (← scanDot rest)
  if a > 255 ∨ b > 255 ∨ c > 255 ∨ d > 255 then none
  else some (((a * 256 + b) * 256 + c) * 256 + d)

/-- Network and prefix length of `a.b.c.d/n`; a missing length means 32. -/
def parseCidr (cidr : Bytes) : Option (Nat × Nat) := do
  let address := cidr.takeWhile (· ≠ 47)
  let width := if 47 ∈ cidr then atoi (.ofBytes (cidr.dropWhile (· ≠ 47)).tail) else 32
  if 58 ∈ address then none
  else if width < 0 ∨ width > 32 then none
  else return (← parseIpv4 (.ofBytes address), width.toNat)

/-- The top `width` bits of both addresses agree. -/
def covers (network width address : Nat) : Bool :=
  network / 2 ^ (32 - width) = address / 2 ^ (32 - width)

/-- One allowed range: a strictly longer covering prefix takes over. -/
def considerRange (address position : Nat) (best : Option (Nat × Nat)) (cidr : Bytes) :
    Option (Nat × Nat) :=
  match parseCidr cidr with
  | none => best
  | some (network, width) =>
      if covers network width address && best.all (fun held => held.2 < width) then
        some (position, width)
      else best

/-- The peer with the longest allowed prefix that covers the destination. -/
def findByAllowedIP (set : TSPeerSet) (ipv4 : CString) : Option Nat :=
  match parseIpv4 ipv4 with
  | none => none
  | some address =>
      (set.peers.zipIdx.foldl
        (fun best entry => entry.1.allowedIPs.foldl (considerRange address entry.2) best)
        (none : Option (Nat × Nat))).map Prod.fst

/-! ## Reconciliation -/

/-- The variables of the loop of `Update`. -/
structure Reconcile where
  peers : List ManagedPeer
  seen : List Bool
  added : Nat := 0
  updated : Nat := 0

/-- One listed peer. `none` is a write past the end of `seen`, which is as long as the set
was before the loop. -/
def reconcilePeer (state : Reconcile) (listed : NetmapPeer) : Option Reconcile :=
  if listed.nodeKey = .empty then some state
  else
    match indexOf state.peers listed.nodeKey with
    | some index =>
        if index < state.seen.length then
          some
            { state with
              peers := state.peers.modify index (·.refresh listed)
              seen := state.seen.set index true
              updated := state.updated + 1 }
        else none
    | none =>
        some
          { state with
            peers := state.peers ++ [ManagedPeer.enroll listed]
            added := state.added + 1 }

/-- The backward walk that erases the peers left unmarked, and how many it erased. -/
def eraseUnseen (seen : List Bool) : Nat → List ManagedPeer → List ManagedPeer × Nat
  | 0, peers => (peers, 0)
  | index + 1, peers =>
      if seen[index]? = some false then
        let (left, removed) := eraseUnseen seen index (peers.eraseIdx index)
        (left, removed + 1)
      else eraseUnseen seen index peers

structure Counts where
  added : Nat
  removed : Nat
  updated : Nat
  deriving DecidableEq

def update (set : TSPeerSet) (netmap : TSNetmap) : Option (TSPeerSet × Counts) :=
  let start : Reconcile :=
    { peers := set.peers, seen := List.replicate set.peers.length false }
  (netmap.peers.foldlM reconcilePeer start).map fun marked =>
    let swept := eraseUnseen marked.seen marked.peers.length marked.peers
    ({ peers := swept.1 },
      { added := marked.added, removed := swept.2, updated := marked.updated })

end TSPeerSet

end Sotoportego.Tailscale
