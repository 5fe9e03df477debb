import Sotoportego.Tailscale.Disco
import Sotoportego.Tailscale.MagicSock
import Sotoportego.Tailscale.StunProperties
import Sotoportego.WireGuard.Transparent

/-!
# What the classifier tells apart

The index of a WireGuard message stands where STUN has its cookie, so one index makes a
message look like STUN. Every other genuine datagram gets its kind.
-/

set_option autoImplicit false

namespace Sotoportego.Tailscale.MagicSock

open Octets CText WireGuard

/-- The index whose octets are the cookie. -/
def stunIndex : UInt32 := 0x42a41221

/-- The datagrams that belong on the socket, with their kinds. A WireGuard message carries an
index: the sender's own in a handshake, the peer's in the transport. -/
inductive Genuine (crypto : Crypto) (box : Box) : SockPacketKind → Option UInt32 → Bytes → Prop where
  | initiation {draw : Draw} {index : UInt32} {peer built : WGPeer} {ourPriv peerPub : Key}
      {datagram : Bytes} :
      draw.index = some index →
      peer.buildInitiation crypto draw ourPriv peerPub = (built, some datagram) →
      Genuine crypto box .wireGuard (some index) datagram
  | response {draw : Draw} {index : UInt32} {peer built : WGPeer} {datagram : Bytes} :
      draw.index = some index → peer.buildResponse crypto draw = (built, some datagram) →
      Genuine crypto box .wireGuard (some index) datagram
  | transport {systemTime : Int} {peer built : WGPeer} {plain datagram : Bytes} :
      peer.encapsulate crypto systemTime plain = (built, some datagram) →
      Genuine crypto box .wireGuard (some peer.receiverIndex) datagram
  | disco {outCap : Nat} {nonce : Buffer 24} {senderPub senderPriv peerPub : Key}
      {payload datagram : Bytes} :
      Disco.discoSeal box outCap nonce senderPub senderPriv peerPub payload = some datagram →
      Genuine crypto box .disco none datagram
  | stun {txId : Buffer 12} {mapped : CString × UInt16} {datagram : Bytes} :
      Stun.parseResponse datagram txId = .ok (some mapped) →
      Genuine crypto box .stun none datagram

/-! ## WireGuard -/

/-- A type octet, three zeros, an index and enough behind it. -/
def Indexed (index : UInt32) (datagram : Bytes) : Prop :=
  ∃ kind rest, (kind = 1 ∨ kind = 2 ∨ kind = 4) ∧ 12 ≤ rest.length ∧
    datagram = [kind, 0, 0, 0] ++ (store32Le index ++ rest)

theorem store32Le_cookie (index : UInt32) : store32Le index = kStunCookie ↔ index = stunIndex := by
  constructor
  · intro same
    have loaded := load32Le_store 0 [] rfl index []
    rw [List.nil_append, List.append_nil, same] at loaded
    exact loaded.symm
  · rintro rfl
    decide

theorem Indexed.classify_iff {index : UInt32} {datagram : Bytes} (indexed : Indexed index datagram) :
    classify datagram = .wireGuard ↔ index ≠ stunIndex := by
  obtain ⟨kind, rest, known, long, rfl⟩ := indexed
  have plain : kind ≠ 0x54 ∧ kind &&& 0xc0 = 0 := by
    obtain rfl | rfl | rfl := known <;> decide
  have noDisco : ¬ (6 ≤ ([kind, 0, 0, 0] ++ (store32Le index ++ rest)).length ∧
      ([kind, 0, 0, 0] ++ (store32Le index ++ rest)).take 6 = kDiscoMagic) := by
    rintro ⟨-, same⟩
    exact plain.1 (List.cons.inj same).1
  have cookie : (([kind, 0, 0, 0] ++ (store32Le index ++ rest)).drop 4).take 4 = store32Le index := rfl
  have high : octetAt ([kind, 0, 0, 0] ++ (store32Le index ++ rest)) 0 &&& 0xc0 = 0 := plain.2
  have size : 20 ≤ ([kind, 0, 0, 0] ++ (store32Le index ++ rest)).length := by
    simp only [List.length_append, List.length_cons, List.length_nil, length_store32Le]
    omega
  rw [classify, if_neg noDisco, cookie]
  by_cases collides : index = stunIndex
  · rw [if_pos ⟨size, high, (store32Le_cookie index).mpr collides⟩]
    simp [collides]
  · rw [if_neg fun both => collides ((store32Le_cookie index).mp both.2.2)]
    simp [collides]

theorem indexed_framed {kind : UInt8} (known : kind = 1 ∨ kind = 2 ∨ kind = 4) (index : UInt32)
    {body tail : Bytes} (long : 12 ≤ (body ++ tail).length) :
    Indexed index ([kind, 0, 0, 0] ++ (store32Le index ++ body) ++ tail) :=
  ⟨kind, body ++ tail, known, long, by simp only [List.append_assoc]⟩

section Produced

variable {crypto : Crypto} {draw : Draw} {index : UInt32} {peer built : WGPeer} {datagram : Bytes}

theorem indexed_initiation {ourPriv peerPub : Key} (drawn : draw.index = some index)
    (run : peer.buildInitiation crypto draw ourPriv peerPub = (built, some datagram)) :
    Indexed index datagram := by
  unfold WGPeer.buildInitiation at run
  simp only [drawn] at run
  repeat' split at run
  all_goals cases run
  exact indexed_framed (.inl rfl) index (by simp)

theorem indexed_response (drawn : draw.index = some index)
    (run : peer.buildResponse crypto draw = (built, some datagram)) : Indexed index datagram := by
  unfold WGPeer.buildResponse at run
  simp only [drawn] at run
  repeat' split at run
  all_goals cases run
  exact indexed_framed (.inr (.inl rfl)) index (by simp)

theorem indexed_transport (lawful : crypto.Lawful) {systemTime : Int} {plain : Bytes}
    (run : peer.encapsulate crypto systemTime plain = (built, some datagram)) :
    Indexed peer.receiverIndex datagram := by
  unfold WGPeer.encapsulate at run
  simp only at run
  repeat' split at run
  all_goals cases run
  next sealed =>
    have long := aeadEncrypt_length lawful sealed
    refine ⟨4, _, .inr (.inr rfl), ?_, rfl⟩
    rw [List.length_append, length_store64Le]
    omega

end Produced

/-! ## Disco and STUN -/

theorem classify_disco {box : Box} {outCap : Nat} {nonce : Buffer 24}
    {senderPub senderPriv peerPub : Key} {payload datagram : Bytes}
    (sealed : Disco.discoSeal box outCap nonce senderPub senderPriv peerPub payload =
      some datagram) : classify datagram = .disco := by
  rw [Disco.discoSeal] at sealed
  split at sealed
  · cases sealed
  · obtain ⟨cipher, -, rfl⟩ := Option.map_eq_some_iff.mp sealed
    exact if_pos ⟨by simp [Disco.magic], rfl⟩

theorem classify_stun {txId : Buffer 12} {mapped : CString × UInt16} {datagram : Bytes}
    (parsed : Stun.parseResponse datagram txId = .ok (some mapped)) : classify datagram = .stun := by
  obtain ⟨size, first, cookie⟩ := Stun.parse_accepted parsed
  have noDisco : ¬ (6 ≤ datagram.length ∧ datagram.take 6 = kDiscoMagic) := by
    rintro ⟨-, same⟩
    cases datagram with
    | nil => cases same
    | cons octet rest =>
        have magic : octet = 0x54 := (List.cons.inj same).1
        have one : octet = 1 := first
        rw [magic] at one
        exact absurd one (by decide)
  rw [classify, if_neg noDisco, first]
  exact if_pos ⟨size, by decide, cookie⟩

/-! ## The classifier -/

/-- A genuine datagram is told apart exactly when it does not carry that index. -/
theorem classify_genuine_iff {crypto : Crypto} {box : Box} (lawful : crypto.Lawful)
    {kind : SockPacketKind} {index : Option UInt32} {datagram : Bytes}
    (genuine : Genuine crypto box kind index datagram) :
    classify datagram = kind ↔ index ≠ some stunIndex := by
  have carried (index : UInt32) : some index ≠ some stunIndex ↔ index ≠ stunIndex := by
    rw [ne_eq, Option.some.injEq]
  cases genuine with
  | initiation drawn run => rw [(indexed_initiation drawn run).classify_iff, carried]
  | response drawn run => rw [(indexed_response drawn run).classify_iff, carried]
  | transport run => rw [(indexed_transport lawful run).classify_iff, carried]
  | disco sealed => simp [classify_disco sealed]
  | stun parsed => simp [classify_stun parsed]

namespace Sample

def box : Box := ⟨fun _ _ _ _ => none, fun _ _ _ _ => none⟩

/-- A session whose peer drew the given index. -/
def peer (index : UInt32) : WGPeer :=
  WGPeer.setTransport {} 1 (Transparent.pair 1).pub (Transparent.pair 2).pub index

/-- A keepalive of the session. -/
def keepalive (index : UInt32) : Bytes :=
  (((peer index).encapsulate Transparent.crypto 1 []).2).getD []

theorem genuine_keepalive (index : UInt32) :
    Genuine Transparent.crypto box .wireGuard (some index) (keepalive index) :=
  @Genuine.transport _ _ 1 (peer index) _ [] _ rfl

theorem classify_genuine_keepalive : classify (keepalive 7) = .wireGuard ↔ some 7 ≠ some stunIndex :=
  classify_genuine_iff Transparent.lawful (genuine_keepalive 7)

end Sample

/-- The keepalives for one index look like STUN. -/
theorem classify_keepalive_stun :
    ¬ ∀ (crypto : Crypto) (box : Box), crypto.Lawful →
      ∀ (kind : SockPacketKind) (index : Option UInt32) (datagram : Bytes),
        Genuine crypto box kind index datagram → classify datagram = kind := by
  intro claim
  have told := claim _ _ Transparent.lawful _ _ _ (Sample.genuine_keepalive stunIndex)
  have indexed : Indexed stunIndex (Sample.keepalive stunIndex) :=
    @indexed_transport _ (Sample.peer stunIndex) _ _ Transparent.lawful 1 [] rfl
  exact indexed.classify_iff.mp told rfl

end Sotoportego.Tailscale.MagicSock
