import Sotoportego.Tailscale.Disco
import Sotoportego.Tailscale.PathProperties
import Sotoportego.WireGuard.Transparent

/-!
# Confirmation of direct paths

A path becomes direct by a pong and only so, but the backend does not compare the pong with
its pings. The upgrades of a run answer pings exactly when every pong that arrives does.
-/

set_option autoImplicit false

namespace Sotoportego.Tailscale

open Octets CText WireGuard
open Disco (decodePong DiscoPong)

/-- A ping with this transaction went to the peer, and no upgrade of the peer used it. -/
structure Outstanding (log : List DiscoEntry) (peer : CString) (txid : Buffer 12) : Prop where
  sent : ∃ packet, .pinged peer txid packet ∈ log
  unused : ∀ endpoint payload, .upgraded peer endpoint payload ∈ log →
    (decodePong payload).map DiscoPong.txid ≠ some txid

/-- The message is a pong with the transaction of an outstanding ping to the peer. -/
def AnswersPing (log : List DiscoEntry) (peer : CString) (payload : Bytes) : Prop :=
  ∃ decoded ∈ decodePong payload, Outstanding log peer decoded.txid

/-- An upgrade answers a ping. -/
def Confirms (log : List DiscoEntry) : DiscoEntry → Prop
  | .pinged _ _ _ => True
  | .upgraded peer _ payload => AnswersPing log peer payload

/-! ## AnswersPing of an honest peer -/

namespace Disco

variable {box : Box}

/-- Opening inverts sealing between the holders of two key pairs. -/
structure Lawful (box : Box) (publicOf : Key → Key) : Prop where
  open_seal : ∀ nonce sender receiver plain cipher,
    box.sealBox nonce (publicOf receiver) sender plain = some cipher →
    cipher.length = plain.length + 16 ∧
      box.openBox nonce (publicOf sender) receiver cipher = some plain

/-- A packet opens for a receiver whose box opens. -/
theorem discoOpen_sealed {sealCap openCap : Nat} {nonce : Buffer 24}
    {senderPub senderPriv peerPub receiver : Key} {payload packet : Bytes}
    (opens : ∀ cipher, box.sealBox nonce peerPub senderPriv payload = some cipher →
      cipher.length = payload.length + 16 ∧
        box.openBox nonce senderPub receiver cipher = some payload)
    (fits : payload.length ≤ openCap)
    (sealed : discoSeal box sealCap nonce senderPub senderPriv peerPub payload = some packet) :
    packet.length = 62 + payload.length + 16 ∧
      discoOpen box openCap packet receiver = some (senderPub, payload) := by
  unfold discoSeal at sealed
  split at sealed
  · cases sealed
  · obtain ⟨cipher, boxed, rfl⟩ := Option.map_eq_some_iff.mp sealed
    obtain ⟨length, opened⟩ := opens cipher boxed
    have key : slice 32 (magic ++ (senderPub.bytes ++ (nonce.bytes ++ cipher))) 6 = senderPub :=
      slice_placed 6 magic rfl _ _
    have drawn : slice 24 (magic ++ (senderPub.bytes ++ (nonce.bytes ++ cipher))) 38 = nonce := by
      rw [← List.append_assoc]
      exact slice_placed 38 _ (by simp [magic]) _ _
    have rest : (magic ++ (senderPub.bytes ++ (nonce.bytes ++ cipher))).drop 62 = cipher := by
      rw [← List.append_assoc, ← List.append_assoc]
      exact List.drop_left' (by simp [magic])
    have marked : (magic ++ (senderPub.bytes ++ (nonce.bytes ++ cipher))).take 6 = magic :=
      List.take_left' rfl
    have total : (magic ++ (senderPub.bytes ++ (nonce.bytes ++ cipher))).length =
        62 + payload.length + 16 := by
      simp [magic, length]
      omega
    refine ⟨total, ?_⟩
    rw [discoOpen, if_neg (by omega), if_neg (not_not_intro marked)]
    simp only [key, drawn, rest, opened, length]
    rw [if_neg (by omega)]
    rfl

theorem discoOpen_discoSeal {publicOf : Key → Key} (lawful : Lawful box publicOf)
    {sealCap openCap : Nat} {nonce : Buffer 24} {sender receiver : Key} {payload packet : Bytes}
    (fits : payload.length ≤ openCap)
    (sealed : discoSeal box sealCap nonce (publicOf sender) sender (publicOf receiver) payload =
      some packet) :
    discoOpen box openCap packet receiver = some (publicOf sender, payload) :=
  (discoOpen_sealed (fun _ boxed => lawful.open_seal _ _ _ _ _ boxed) fits sealed).2

/-- Every field of a ping reads back. -/
theorem decodePing_fields (txid : Buffer 12) (nodeKey : Option Key) :
    decodePing (encodePing txid nodeKey) = some { txid, nodeKey } := by
  have whole : ¬ ((encodePing txid nodeKey).length < 14 ∨
      octetAt (encodePing txid nodeKey) 0 ≠ ping) := by
    rintro (short | other)
    · simp [encodePing] at short
      omega
    · exact other rfl
  have drawn : slice 12 (encodePing txid nodeKey) 2 = txid := slice_placed 2 [ping, 0] rfl txid _
  rw [decodePing, if_neg whole, drawn]
  cases nodeKey with
  | none => rw [if_neg (by simp [encodePing])]
  | some key =>
      have named : slice 32 (encodePing txid (some key)) 14 = key := by
        have placed := slice_placed 14 ([ping, 0] ++ txid.bytes) (by simp) key []
        rw [List.append_nil, List.append_assoc] at placed
        exact placed
      rw [if_pos (by simp [encodePing]), named]

theorem decodePing_encodePing (txid : Buffer 12) (nodeKey : Option Key) :
    (decodePing (encodePing txid nodeKey)).map DiscoPing.txid = some txid := by
  rw [decodePing_fields]
  rfl

theorem dottedQuad_congr {left right : Bytes} {leftAt rightAt : Nat}
    (same : ∀ position < 4, octetAt left (leftAt + position) = octetAt right (rightAt + position)) :
    dottedQuad left leftAt = dottedQuad right rightAt := by
  simp only [dottedQuad, same _ (by decide : 0 < 4), same _ (by decide : 1 < 4),
    same _ (by decide : 2 < 4), same _ (by decide : 3 < 4)]

/-- The transaction and the port of a pong read back, and the address as it was encoded. -/
theorem decodePong_fields (txid : Buffer 12) (srcIP : CString) (srcPort : UInt16) :
    decodePong (encodePong txid srcIP srcPort) =
      some
        { txid
          srcIP := dottedQuad ((encodeIpv4Mapped srcIP).getD (.zero 16)).bytes 12
          srcPort := srcPort.toNat } := by
  have whole : ¬ ((encodePong txid srcIP srcPort).length < 32 ∨
      octetAt (encodePong txid srcIP srcPort) 0 ≠ pong) := by
    rintro (short | other)
    · simp [encodePong] at short
    · exact other rfl
  have drawn : slice 12 (encodePong txid srcIP srcPort) 2 = txid :=
    slice_placed 2 [pong, 0] rfl txid _
  have behind (position : Nat) : octetAt (encodePong txid srcIP srcPort) (14 + position) =
      octetAt (((encodeIpv4Mapped srcIP).getD (.zero 16)).bytes ++
        [(srcPort >>> 8).toUInt8, srcPort.toUInt8]) position := by
    have header : ([pong, 0] ++ txid.bytes).length = 14 := by simp
    rw [encodePong, ← List.append_assoc, ← header, octetAt_append_length_add]
  have address : dottedQuad (encodePong txid srcIP srcPort) 26 =
      dottedQuad ((encodeIpv4Mapped srcIP).getD (.zero 16)).bytes 12 := by
    have octet (position : Nat) (inside : position < 4) :
        octetAt (encodePong txid srcIP srcPort) (26 + position) =
          octetAt ((encodeIpv4Mapped srcIP).getD (.zero 16)).bytes (12 + position) := by
      have within : 12 + position < ((encodeIpv4Mapped srcIP).getD (.zero 16)).bytes.length := by
        rw [Buffer.length_bytes]
        omega
      have moved := behind (12 + position)
      rw [octetAt_append_left within, ← Nat.add_assoc] at moved
      exact moved
    exact dottedQuad_congr octet
  have port : (octetAt (encodePong txid srcIP srcPort) 30).toNat * 256 +
      (octetAt (encodePong txid srcIP srcPort) 31).toNat = srcPort.toNat := by
    have bound := srcPort.toNat_lt
    have high := behind 16
    have low := behind 17
    rw [octetAt_append_right (by simp), Buffer.length_bytes] at high low
    rw [high, low]
    simp [octetAt, Nat.shiftRight_eq_div_pow]
    omega
  rw [decodePong, if_neg whole, drawn, address, port]

theorem decodePong_encodePong (txid : Buffer 12) (srcIP : CString) (srcPort : UInt16) :
    (decodePong (encodePong txid srcIP srcPort)).map DiscoPong.txid = some txid := by
  rw [decodePong_fields]
  rfl

/-- A peer that gets our ping replies with a pong that carries its transaction. -/
theorem reply_answers {publicOf : Key → Key} (lawful : Lawful box publicOf)
    {ours theirs : TSIdentity} (ourKeys : ours.discoPublic = publicOf ours.discoPrivate)
    (theirKeys : theirs.discoPublic = publicOf theirs.discoPrivate) {txid : Buffer 12}
    {pingNonce pongNonce nonce : Buffer 24} {peer : ManagedPeer} {packet pong : Bytes}
    {seenBy comesFrom : Source} (theirName : fromHex 32 peer.discoKey = some theirs.discoPublic)
    (pinged : pingPacket box ours txid pingNonce peer = some packet)
    (replied : react box theirs pongNonce packet seenBy = .reply pong) :
    ∃ payload, react box ours nonce pong comesFrom = .ponged theirs.discoPublic payload ∧
      (decodePong payload).map DiscoPong.txid = some txid := by
  have sealedPing : discoSeal box 256 pingNonce (publicOf ours.discoPrivate) ours.discoPrivate
      (publicOf theirs.discoPrivate) (encodePing txid (some ours.nodePublic)) = some packet := by
    rw [pingPacket, theirName, ourKeys, theirKeys] at pinged
    exact pinged
  have heard : discoOpen box 128 packet theirs.discoPrivate =
      some (publicOf ours.discoPrivate, encodePing txid (some ours.nodePublic)) :=
    discoOpen_discoSeal lawful (by simp [encodePing]) sealedPing
  have isPing : messageType (encodePing txid (some ours.nodePublic)) = ping := by
    rw [messageType, if_neg (by simp [encodePing])]
    rfl
  obtain ⟨decoded, reads, same⟩ :=
    Option.map_eq_some_iff.mp (decodePing_encodePing txid (some ours.nodePublic))
  simp only [react, heard, isPing, reads, same, if_true] at replied
  split at replied
  · next sealed sealedPong =>
    cases replied
    rw [theirKeys] at sealedPong
    have answered : discoOpen box 128 pong ours.discoPrivate =
        some (publicOf theirs.discoPrivate, encodePong txid seenBy.ip seenBy.port) :=
      discoOpen_discoSeal lawful (by simp [encodePong]) sealedPong
    have isPong : messageType (encodePong txid seenBy.ip seenBy.port) = Disco.pong := by
      rw [messageType, if_neg (by simp [encodePong])]
      rfl
    refine ⟨_, ?_, decodePong_encodePong txid seenBy.ip seenBy.port⟩
    simp only [react, answered, isPong, theirKeys]
    rw [if_neg (by decide), if_pos trivial]
  · cases replied

end Disco

namespace DiscoPlane

open Disco

variable {crypto : Crypto} {box : Box} {identity : TSIdentity}

/-- A pong from a peer in the set answers a ping to that peer. -/
def Matching (box : Box) (identity : TSIdentity) (disco : DiscoPlane) : Event → Prop
  | .datagram packet source nonce => ∀ sender payload,
      react box identity nonce packet source = .ponged sender payload →
        ∀ peer ∈ disco.peerOf sender, AnswersPing disco.log peer.nodeKeyHex payload
  | .plane _ _ _ => True

theorem pingOf_cases (disco : DiscoPlane) (packet : Bytes) (txid : Buffer 12) (nonce : Buffer 24) :
    disco.pingOf crypto box identity packet txid nonce = [] ∨
      ∃ peer sealed, disco.pingOf crypto box identity packet txid nonce =
        [.pinged peer txid sealed] := by
  unfold pingOf
  split
  · exact .inl rfl
  · next peer _ =>
    split
    · cases pingPacket box identity txid nonce peer with
      | none => exact .inl rfl
      | some sealed => exact .inr ⟨_, _, rfl⟩
    · exact .inl rfl

/-- Other events are events of the data plane, no pongs, and log one ping at most. -/
theorem plane_cases {disco next : DiscoPlane} {event : Tailscale.Event} {txid : Buffer 12}
    {nonce : Buffer 24}
    (stepped : disco.step crypto box identity (.plane event txid nonce) = some next) :
    next = disco ∨
      (∀ sender endpoint, event ≠ .pong sender endpoint) ∧
        disco.plane.step crypto identity.nodePrivate event = some next.plane ∧
        (next.log = disco.log ∨ ∃ peer sealed, next.log = disco.log ++ [.pinged peer txid sealed]) := by
  have logged (pings : List DiscoEntry) (one : pings = [] ∨ ∃ peer sealed,
      pings = [.pinged peer txid sealed]) : disco.log ++ pings = disco.log ∨
        ∃ peer sealed, disco.log ++ pings = disco.log ++ [.pinged peer txid sealed] := by
    obtain rfl | ⟨peer, sealed, rfl⟩ := one
    · exact .inl (List.append_nil _)
    · exact .inr ⟨peer, sealed, rfl⟩
  cases event with
  | pong sender endpoint =>
      cases stepped
      exact .inl rfl
  | tunPacket packet draw =>
      simp only [step] at stepped
      obtain ⟨plane, planeStepped, rfl⟩ := Option.map_eq_some_iff.mp stepped
      exact .inr ⟨nofun, planeStepped, logged _ (pingOf_cases disco packet txid nonce)⟩
  | elapse | tick | datagram | mapResponse | derp | tun =>
      simp only [step] at stepped
      obtain ⟨plane, planeStepped, rfl⟩ := Option.map_eq_some_iff.mp stepped
      exact .inr ⟨nofun, planeStepped, logged [] (.inl rfl)⟩

/-- One event keeps the log confirmed exactly when its pong matches. -/
theorem confirmed_step {disco next : DiscoPlane} {event : Event}
    (stepped : disco.step crypto box identity event = some next) :
    Run.Logged Confirms next.log ↔
      Run.Logged Confirms disco.log ∧ Matching box identity disco event := by
  cases event with
  | plane event txid nonce =>
      obtain rfl | ⟨_, _, same | ⟨peer, sealed, same⟩⟩ := plane_cases stepped
      · simp [Matching]
      · simp [Matching, same]
      · simp [Matching, same, Run.logged_concat, Confirms]
  | datagram packet source nonce =>
      simp only [step] at stepped
      cases reaction : react box identity nonce packet source with
      | ignored =>
          rw [reaction] at stepped
          cases stepped
          simp [Matching, reaction]
      | reply sealed =>
          rw [reaction] at stepped
          cases stepped
          simp [Matching, reaction]
      | ponged sender payload =>
          rw [reaction] at stepped
          obtain ⟨plane, _, rfl⟩ := Option.map_eq_some_iff.mp stepped
          cases found : disco.peerOf sender with
          | none => simp [Matching, reaction, found]
          | some peer => simp [Matching, reaction, found, Run.logged_concat, Confirms]

/-- A direct path is in the log as an upgrade. -/
def Recorded (log : List DiscoEntry) (peer : ManagedPeer) : Prop :=
  ∀ endpoint ∈ peer.direct, ∃ payload, .upgraded peer.nodeKeyHex endpoint payload ∈ log

theorem recorded_step {disco next : DiscoPlane} {event : Event}
    (stepped : disco.step crypto box identity event = some next)
    (every : ∀ peer ∈ disco.plane.set.peers, Recorded disco.log peer) :
    ∀ peer ∈ next.plane.set.peers, Recorded next.log peer := by
  have grown (entries : List DiscoEntry) (peer : ManagedPeer) (held : Recorded disco.log peer) :
      Recorded (disco.log ++ entries) peer := by
    intro endpoint direct
    obtain ⟨payload, logged⟩ := held endpoint direct
    exact ⟨payload, List.mem_append_left _ logged⟩
  cases event with
  | plane event txid nonce =>
      obtain rfl | ⟨other, planeStepped, logged⟩ := plane_cases stepped
      · exact every
      · have kept : ∀ peer ∈ next.plane.set.peers, Recorded disco.log peer := by
          intro peer member endpoint direct
          obtain ⟨old, stored, name, same⟩ | ⟨_, none⟩ := step_direct planeStepped other member
          · rw [← name]
            exact every old stored endpoint (same.trans direct)
          · cases none.symm.trans direct
        obtain same | ⟨peer, sealed, same⟩ := logged
        · rw [same]
          exact kept
        · rw [same]
          exact fun peer member => grown _ _ (kept peer member)
  | datagram packet source nonce =>
      simp only [step] at stepped
      split at stepped
      · next sender payload reaction =>
        obtain ⟨plane, planeStepped, rfl⟩ := Option.map_eq_some_iff.mp stepped
        cases planeStepped
        refine updateFound_each ?_ fun peer member => grown _ _ (every peer member)
        intro position found peer stored endpoint direct
        have name : disco.peerOf sender = some peer := by
          simp [peerOf, Option.mem_def.mp found, stored]
        rw [direct_upgradePath, Option.mem_some_iff] at direct
        subst direct
        exact ⟨payload, List.mem_append_right _ (by
          simp [name, DataPlane.upgradePath, PeerPath.upgradeToDirect])⟩
      · cases stepped
        exact every

/-- From a start without direct paths, every direct path is a logged upgrade. -/
theorem direct_recorded {start : DataPlane} (none : ∀ peer ∈ start.set.peers, peer.path.mode ≠ .direct)
    {events : List Event} {final : DiscoPlane}
    (reached : Run.runPartial (step crypto box identity) { plane := start } events = some final) :
    ∀ peer ∈ final.plane.set.peers, Recorded final.log peer := by
  have preserved (disco : DiscoPlane) (event : Event) (next : DiscoPlane) (_ : True)
      (stepped : disco.step crypto box identity event = some next)
      (every : ∀ peer ∈ disco.plane.set.peers, Recorded disco.log peer) :
      ∀ peer ∈ next.plane.set.peers, Recorded next.log peer :=
    recorded_step stepped every
  refine Run.invariant_partial preserved (Run.alongPartial_of_forall (fun _ _ => trivial) _ _)
    reached fun peer member endpoint direct => ?_
  rw [ManagedPeer.direct, if_neg (none peer member)] at direct
  cases direct

namespace Sample

def openBox : Box where
  sealBox nonce receiver sender plain :=
    some (plain ++ (Transparent.octets 16
      (Transparent.digest ((Transparent.addKeys sender receiver).bytes ++ nonce.bytes ++ plain))).bytes)
  openBox nonce sender receiver cipher :=
    let plain := cipher.take (cipher.length - 16)
    if cipher = plain ++ (Transparent.octets 16 (Transparent.digest
        ((Transparent.addKeys sender receiver).bytes ++ nonce.bytes ++ plain))).bytes then
      some plain
    else none

theorem lawful : Lawful openBox id where
  open_seal := by
    rintro nonce sender receiver plain cipher ⟨⟩
    simp [openBox]

def key (seed : UInt8) : Key := (Transparent.pair seed).priv

/-- The keys of a node, with each private key as its own public key. -/
def keysOf (node disco : UInt8) : TSIdentity where
  nodePrivate := key node
  nodePublic := key node
  discoPrivate := key disco
  discoPublic := key disco

def peer : ManagedPeer where
  nodeKeyHex := toHex (key 2).bytes
  discoKey := toHex (key 4).bytes
  allowedIPs := [ascii "100.64.0.9/32"]
  endpoints := [ascii "203.0.113.7:41641"]

/-- Late enough for the first ping. -/
def start : DataPlane where
  clock := 10000000
  set := { peers := [peer] }

def packet : Bytes := [0x45, 0, 0, 20, 0, 0, 0, 0, 64, 17, 0, 0, 100, 64, 0, 1, 100, 64, 0, 9]

def draw : Draw :=
  { ephemeral := none, index := none, unixTime := 0, systemTime := 0 }

def home : Source where
  address := ⟨[203, 0, 113, 7], rfl⟩
  port := 41641

def elsewhere : Source where
  address := ⟨[198, 51, 100, 9], rfl⟩
  port := 9

def pongPacket : Bytes :=
  (discoSeal openBox 256 (.zero 24) (key 4) (key 4) (key 3)
    (encodePong (.zero 12) elsewhere.ip 41641)).getD []

/-- A packet to the peer sends a ping, and its pong comes back. -/
def confirmed : List Event :=
  [.plane (.tunPacket packet draw) (.zero 12) (.zero 24), .datagram pongPacket home (.zero 24)]

/-- The same pong arrives again, from another address. -/
def replayed : List Event := confirmed ++ [.datagram pongPacket elsewhere (.zero 24)]

end Sample

end DiscoPlane

end Sotoportego.Tailscale
