import Mathlib.Data.List.DropRight
import Sotoportego.WireGuard.Config

/-!
# The WireGuard config parser

`WireGuardConfigParser` fills a configuration from the INI text of a `.conf` file. Unknown
keys and malformed lines are passed by, and so is every `[Peer]` block after the first.
-/

set_option autoImplicit false

namespace Sotoportego.WireGuard.WireGuardConfigParser

open Octets CText

/-! ## String helpers -/

def trim (input : Bytes) : Bytes := (input.dropWhile isSpace).rdropWhile isSpace

def lowerOctet (octet : UInt8) : UInt8 := if 65 ≤ octet ∧ octet ≤ 90 then octet + 32 else octet

def toLower (input : Bytes) : Bytes := input.map lowerOctet

/-- `(uint16)atoi`. -/
def portOf (text : Bytes) : UInt16 := .ofInt (atoi (.ofBytes text))

/-- What `split_endpoint` makes of a value: the host and the port text that it writes. -/
def endpointParts (value : Bytes) : Option Bytes × Option Bytes :=
  match trim value with
  | [] => (none, none)
  | first :: rest =>
      if first = 91 then
        if 93 ∈ rest then
          let closed := rest.dropWhile (· ≠ 93)
          (some (rest.takeWhile (· ≠ 93)),
            if 58 ∈ closed then some ((closed.dropWhile (· ≠ 58)).drop 1) else none)
        else (none, none)
      else
        if 58 ∈ first :: rest then
          (some ((first :: rest).rdropWhile (· ≠ 58)).dropLast,
            some ((first :: rest).rtakeWhile (· ≠ 58)))
        else (some (first :: rest), none)

def splitEndpoint (value : Bytes) (peer : WireGuardPeer) : WireGuardPeer :=
  let (host, port) := endpointParts value
  { peer with
    endpointHost := (host.map CString.ofBytes).getD peer.endpointHost
    endpointPort := (port.map portOf).getD peer.endpointPort }

/-! ## Entries -/

def interfaceEntry (config : WireGuardConfig) (key value : Bytes) : WireGuardConfig :=
  if key = ascii "privatekey" then { config with privateKey := .ofBytes value }
  else if key = ascii "address" then { config with address := .ofBytes value }
  else if key = ascii "dns" then { config with dns := .ofBytes value }
  else if key = ascii "listenport" then { config with listenPort := portOf value }
  else if key = ascii "mtu" then { config with mtu := .ofInt (atoi (.ofBytes value)) }
  else config

def peerEntry (peer : WireGuardPeer) (key value : Bytes) : WireGuardPeer :=
  if key = ascii "publickey" then { peer with publicKey := .ofBytes value }
  else if key = ascii "presharedkey" then { peer with presharedKey := .ofBytes value }
  else if key = ascii "endpoint" then splitEndpoint value peer
  else if key = ascii "allowedips" then { peer with allowedIPs := .ofBytes value }
  else if key = ascii "persistentkeepalive" then
    { peer with persistentKeepalive := .ofInt (atoi (.ofBytes value)) }
  else peer

/-! ## Lines -/

inductive Section where
  | none
  | interface
  | peer
  deriving DecidableEq

/-- The section that a header opens, and the `[Peer]` blocks so far. -/
def header (name : Bytes) (peerCount : Nat) : Section × Nat :=
  if name = ascii "interface" then (.interface, peerCount)
  else if name = ascii "peer" then (.peer, peerCount + 1)
  else (.none, peerCount)

/-- The parts around the first equals sign. -/
def keyValue (line : Bytes) : Option (Bytes × Bytes) :=
  if 61 ∈ line then
    let key := toLower (trim (line.takeWhile (· ≠ 61)))
    if key = [] then none else some (key, trim ((line.dropWhile (· ≠ 61)).drop 1))
  else none

/-- The loop state. -/
structure Pass where
  config : WireGuardConfig
  place : Section := .none
  peerCount : Nat := 0

def Pass.entry (pass : Pass) (key value : Bytes) : Pass :=
  match pass.place with
  | .none => pass
  | .interface => { pass with config := interfaceEntry pass.config key value }
  | .peer =>
      -- First `[Peer]` only.
      if pass.peerCount = 1 then
        { pass with
          config := { pass.config with peer := peerEntry pass.config.peer key value } }
      else pass

def Pass.line (pass : Pass) (raw : Bytes) : Pass :=
  match trim raw with
  | [] => pass
  | first :: rest =>
      if first = 35 ∨ first = 59 then pass
      else if first = 91 then
        let (place, peerCount) := header (toLower (trim (rest.takeWhile (· ≠ 93)))) pass.peerCount
        { pass with place := place, peerCount := peerCount }
      else
        match keyValue (first :: rest) with
        | some (key, value) => pass.entry key value
        | none => pass

def parseText (text : Bytes) (config : WireGuardConfig) : WireGuardConfig :=
  ((text.splitOn 10).foldl Pass.line { config := config }).config

end Sotoportego.WireGuard.WireGuardConfigParser
