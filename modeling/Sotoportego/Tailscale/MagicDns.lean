import Sotoportego.Tailscale.Netmap
import Sotoportego.Tailscale.PeerSet

/-!
# MagicDNS

The host table built from the network map, and the answers to A queries for tailnet names.
-/

set_option autoImplicit false

namespace Sotoportego.Tailscale

open Octets CText

def toLower (octet : UInt8) : UInt8 :=
  if 65 ≤ octet && octet ≤ 90 then octet + 32 else octet

theorem toLower_toNat (octet : UInt8) :
    (toLower octet).toNat =
      if 65 ≤ octet.toNat ∧ octet.toNat ≤ 90 then octet.toNat + 32 else octet.toNat := by
  unfold toLower
  by_cases capital : 65 ≤ octet.toNat ∧ octet.toNat ≤ 90
  · have test : (65 ≤ octet && octet ≤ 90) = true := by simpa [UInt8.le_iff_toNat_le] using capital
    rw [if_pos test, if_pos capital, UInt8.toNat_add]
    exact Nat.mod_eq_of_lt (by simp; omega)
  · have test : ¬ (65 ≤ octet && octet ≤ 90) = true := by simpa [UInt8.le_iff_toNat_le] using capital
    rw [if_neg test, if_neg capital]

@[simp] theorem toLower_toLower (octet : UInt8) : toLower (toLower octet) = toLower octet := by
  apply UInt8.toNat_inj.mp
  rw [toLower_toNat, toLower_toNat]
  split
  · rw [if_neg (by omega)]
  · rfl

theorem toLower_eq_zero {octet : UInt8} : toLower octet = 0 ↔ octet = 0 := by
  rw [← UInt8.toNat_inj, ← UInt8.toNat_inj, toLower_toNat]
  simp only [UInt8.toNat_zero]
  split
  · omega
  · rfl

def lower (text : CString) : CString :=
  ⟨text.bytes.map toLower, by simpa [toLower_eq_zero] using text.no_nul⟩

/-! ## Queries -/

/-- The labels of a QNAME, lowercased and joined with dots, and what follows it. -/
def decodeQname (buf name : Bytes) : Option (Bytes × Bytes) :=
  match buf with
  | [] => none
  | labelLen :: rest =>
      if labelLen = 0 then some (name, rest)
      else if labelLen &&& 0xc0 ≠ 0 then none
      else if rest.length < labelLen.toNat then none
      else
        decodeQname (rest.drop labelLen.toNat)
          ((if name = [] then [] else name ++ [46]) ++ (rest.take labelLen.toNat).map toLower)
  termination_by buf.length
  decreasing_by
    simp only [List.length_drop, List.length_cons]
    omega

def join16 (buf : Bytes) (offset : Nat) : UInt16 :=
  (octetAt buf offset).toUInt16 <<< 8 ||| (octetAt buf (offset + 1)).toUInt16

structure Question where
  name : Bytes
  type : UInt16
  id : UInt16

def parseQuestion (buf : Bytes) : Option Question :=
  if buf.length < 12 then none
  else if join16 buf 4 < 1 then none
  else
    match decodeQname (buf.drop 12) [] with
    | none => none
    | some (name, rest) =>
        if rest.length < 4 then none
        else some { name, type := join16 rest 0, id := join16 buf 0 }

/-- `sscanf` with `"%u.%u.%u.%u"`, when all four numbers convert. -/
def scanQuad (text : CString) : Option (Nat × Nat × Nat × Nat) := do
  let (a, rest) ← scanUnsigned text.bytes
  let (b, rest) ← scanUnsigned (← TSPeerSet.scanDot rest)
  let (c, rest) ← scanUnsigned (← TSPeerSet.scanDot rest)
  let (d, _) ← scanUnsigned (← TSPeerSet.scanDot rest)
  return (a, b, c, d)

/-! ## The table -/

structure MagicDns where
  domain : CString := .empty
  hosts : List (CString × CString) := []
  deriving DecidableEq

/-- The first IPv4 address of a list of ranges, without its prefix length. -/
def firstIpv4 (cidrs : List Bytes) : Bytes :=
  match cidrs with
  | [] => []
  | cidr :: cidrs =>
      let ip := cidr.takeWhile (· ≠ 47)
      if 58 ∉ cidr ∧ ip ≠ [] then ip else firstIpv4 cidrs

namespace MagicDns

def setTailnetDomain (dns : MagicDns) (domain : Option CString) : MagicDns :=
  { dns with domain := (domain.map lower).getD .empty }

def addHost (dns : MagicDns) (hostname ipv4 : Option CString) : MagicDns :=
  match hostname, ipv4 with
  | some hostname, some ipv4 => { dns with hosts := dns.hosts ++ [(lower hostname, ipv4)] }
  | _, _ => dns

/-- The hosts go, the domain stays. -/
def clear (dns : MagicDns) : MagicDns :=
  { dns with hosts := [] }

def loadPeer (dns : MagicDns) (peer : NetmapPeer) : MagicDns :=
  if peer.hostname = [] then dns
  else
    let ip := firstIpv4 peer.allowedIPs
    if ip ≠ [] then dns.addHost (some (.ofBytes peer.hostname)) (some (.ofBytes ip)) else dns

def loadFromNetmap (dns : MagicDns) (netmap : TSNetmap) : MagicDns :=
  let dns := dns.clear
  let dns :=
    match netmap.dns.domains with
    | domain :: _ => dns.setTailnetDomain (some (.ofBytes domain))
    | [] => dns
  netmap.peers.foldl loadPeer dns

def localName (dns : MagicDns) (queried : Bytes) : Bytes :=
  let suffix := 46 :: dns.domain.bytes
  if dns.domain ≠ .empty ∧ suffix <:+ queried then
    queried.take (queried.length - suffix.length)
  else if 46 ∉ queried then queried
  else []

/-- The address of the first host with the name, as far as a C string reaches. -/
def lookup (dns : MagicDns) (host : Bytes) : Option CString :=
  (dns.hosts.find? fun entry => entry.1 = .ofBytes host).map Prod.snd

/-- The answer with the question copied and one A record. -/
def answer (query : Bytes) (questionLen : Nat) (a b c d : Nat) : Bytes :=
  [octetAt query 0, octetAt query 1, 0x84 ||| (octetAt query 2 &&& 0x01), 0, 0, 1, 0, 1, 0, 0, 0, 0] ++
    ((query.drop 12).take questionLen ++
      [0xc0, 0x0c, 0, 1, 0, 1, 0, 0, 0x01, 0x2c, 0, 4,
        UInt8.ofNat a, UInt8.ofNat b, UInt8.ofNat c, UInt8.ofNat d])

/-- The return value, and the octets written when it is positive. -/
def resolve (dns : MagicDns) (query : Bytes) (cap : Nat) : Int × Bytes :=
  match parseQuestion query with
  | none => (-1, [])
  | some question =>
      if question.type ≠ 1 then (0, [])
      else
        let host := dns.localName question.name
        if host = [] then (0, [])
        else
          match (dns.lookup host).bind scanQuad with
          | none => (0, [])
          | some (a, b, c, d) =>
              match decodeQname (query.drop 12) [] with
              | none => (-1, [])
              | some (_, rest) =>
                  let questionLen := query.length - rest.length + 4 - 12
                  let needed := 12 + questionLen + 16
                  if cap < needed then (-1, [])
                  else (needed, answer query questionLen a b c d)

end MagicDns

end Sotoportego.Tailscale
