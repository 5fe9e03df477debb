import Sotoportego.WireGuard.Channel
import Sotoportego.WireGuard.ReplayProperties
import Sotoportego.WireGuard.Transparent

/-!
# What a session delivers

Every accepted datagram yields the packet it was made from, no counter is accepted
twice, and a fresh counter inside the window is never refused.
-/

set_option autoImplicit false

namespace Sotoportego.WireGuard

open Octets

theorem Payload.length_le {packet : Bytes} (payload : Payload packet) : packet.length ≤ 2048 := by
  cases payload with
  | keepalive empty => simp [empty]
  | ipv4 _ _ atMost _ => exact atMost
  | ipv6 _ _ atMost _ => exact atMost

namespace WGPeer

theorem paddedLength_le {length : Nat} (bounded : length ≤ 2048) : paddedLength length ≤ 2048 := by
  simp only [paddedLength]
  omega

theorem le_paddedLength (length : Nat) : length ≤ paddedLength length := by
  simp only [paddedLength]
  omega

/-- The padding is cut off again: the header still gives the packet's length. -/
theorem ipPacketLength_padded {packet : Bytes} (payload : Payload packet) :
    ipPacketLength (packet ++ List.replicate (paddedLength packet.length - packet.length) 0)
      (paddedLength packet.length) = packet.length := by
  have covers := le_paddedLength packet.length
  cases payload with
  | keepalive empty =>
      subst empty
      rfl
  | ipv4 version atLeast atMost total =>
      have inside (position : Nat) (below : position < 20) (rest : Bytes) :
          octetAt (packet ++ rest) position = octetAt packet position :=
        octetAt_append_left (by omega) rest
      simp only [ipPacketLength, inside 0 (by omega), inside 2 (by omega), inside 3 (by omega),
        total, version]
      rw [if_neg (by omega), if_pos ⟨trivial, by omega⟩]
      exact Nat.min_eq_left covers
  | ipv6 version atLeast atMost total =>
      have inside (position : Nat) (below : position < 40) (rest : Bytes) :
          octetAt (packet ++ rest) position = octetAt packet position :=
        octetAt_append_left (by omega) rest
      simp only [ipPacketLength, inside 0 (by omega), inside 4 (by omega), inside 5 (by omega),
        total, version]
      rw [if_neg (by omega), if_neg (by simp), if_pos ⟨trivial, by omega⟩]
      exact Nat.min_eq_left covers

/-- `datagram` is `packet` sealed under `key` with `counter`. -/
def Sealed (crypto : Crypto) (key : Key) (counter : UInt64) (packet datagram : Bytes) : Prop :=
  ∃ index cipher,
    aeadEncrypt crypto key counter
      (packet ++ List.replicate (paddedLength packet.length - packet.length) 0) [] = some cipher ∧
    datagram = [4, 0, 0, 0] ++ (store32Le index ++ (store64Le counter ++ cipher))

theorem encapsulate_sealed {crypto : Crypto} (lawful : crypto.Lawful) {peer : WGPeer}
    (keys : peer.hasKeys = true) {packet : Bytes} (bounded : packet.length ≤ 2048)
    (systemTime : Int) :
    ∃ peer' datagram, peer.encapsulate crypto systemTime packet = (peer', some datagram) ∧
      Sealed crypto peer.sendKey peer.sendCounter packet datagram ∧ peer'.hasKeys = true ∧
      peer'.sendKey = peer.sendKey ∧ peer'.sendCounter = peer.sendCounter + 1 := by
  have fits := paddedLength_le bounded
  obtain ⟨cipher, sealed, _⟩ := aeadEncrypt_total lawful peer.sendKey peer.sendCounter
    (packet ++ List.replicate (paddedLength packet.length - packet.length) 0) []
  simp only [encapsulate, keys, Bool.true_eq_false, if_false, if_neg (Nat.not_lt.mpr fits), sealed]
  exact ⟨_, _, rfl, ⟨_, cipher, sealed, rfl⟩, rfl, rfl, rfl⟩

theorem Sealed.shape {crypto : Crypto} (lawful : crypto.Lawful) {key : Key} {counter : UInt64}
    {packet datagram : Bytes} (genuine : Sealed crypto key counter packet datagram) :
    octetAt datagram 0 = 4 ∧ 32 ≤ datagram.length := by
  obtain ⟨index, cipher, sealed, rfl⟩ := genuine
  have cipherLength := aeadEncrypt_length lawful sealed
  refine ⟨rfl, ?_⟩
  simp only [List.length_append, length_store32Le, length_store64Le, List.length_cons,
    List.length_nil, cipherLength]
  omega

/-- A genuine datagram reaches the replay check, and its verdict decides. -/
theorem decapsulate_sealed {crypto : Crypto} (lawful : crypto.Lawful) {peer : WGPeer}
    (keys : peer.hasKeys = true) {counter : UInt64} {packet datagram : Bytes}
    (payload : Payload packet) (genuine : Sealed crypto peer.recvKey counter packet datagram) :
    (peer.decapsulate crypto datagram).2 =
        (if (peer.replay.validate counter).2 = true then some packet else none) ∧
      (peer.decapsulate crypto datagram).1.replay.ring = (peer.replay.validate counter).1.ring ∧
      (peer.decapsulate crypto datagram).1.hasKeys = true ∧
      (peer.decapsulate crypto datagram).1.recvKey = peer.recvKey := by
  obtain ⟨type, long⟩ := genuine.shape lawful
  obtain ⟨index, cipher, sealed, layout⟩ := genuine
  have covers := le_paddedLength packet.length
  have cipherLength : cipher.length = paddedLength packet.length + 16 := by
    rw [aeadEncrypt_length lawful sealed, List.length_append, List.length_replicate]
    omega
  have opened := aeadDecrypt_encrypt lawful sealed
  have accepted : ¬(peer.hasKeys = false ∨ datagram.length < 32 ∨ octetAt datagram 0 ≠ 4) := by
    simp [keys, type, long]
  have readCounter : load64Le datagram 8 = counter := by
    rw [layout, ← List.append_assoc]
    exact load64Le_store 8 ([4, 0, 0, 0] ++ store32Le index) rfl counter cipher
  have readCipher : datagram.drop 16 = cipher := by
    rw [layout, ← List.append_assoc, ← List.append_assoc]
    exact List.drop_left' (by simp)
  simp only [decapsulate, if_neg accepted, readCounter, readCipher, opened]
  rw [cipherLength, Nat.add_sub_cancel, ipPacketLength_padded payload]
  cases fresh : (peer.replay.validate counter).2 with
  | false => exact ⟨rfl, rfl, keys, rfl⟩
  | true =>
      simp only [Bool.true_eq_false, if_false, if_true, List.take_left']
      split
      · exact ⟨trivial, rfl, keys, rfl⟩
      · exact ⟨trivial, rfl, keys, rfl⟩

end WGPeer

namespace Channel

/-- The window numbers the accepted datagrams occupy: counters start at one there. -/
def recorded (channel : Channel) : Set Nat :=
  {number | ∃ earlier ∈ channel.accepted, number = earlier % 2 ^ 64 + 1}

structure Consistent (crypto : Crypto) (key : Key) (channel : Channel) : Prop where
  senderKeys : channel.sender.hasKeys = true
  sendKey : channel.sender.sendKey = key
  receiverKeys : channel.receiver.hasKeys = true
  recvKey : channel.receiver.recvKey = key
  counter : channel.sender.sendCounter = UInt64.ofNat channel.sent.length
  genuine : ∀ number packet datagram, channel.sent[number]? = some (packet, datagram) →
    Payload packet ∧ WGPeer.Sealed crypto key (UInt64.ofNat number) packet datagram
  tracks : channel.receiver.replay.ring.Tracks 128 64 channel.recorded
  attained : channel.receiver.replay.ring.top = 0 ∨ channel.receiver.replay.ring.top ∈ channel.recorded
  faithful : ∀ number out, (number, some out) ∈ channel.returned →
    ∃ datagram, channel.sent[number]? = some (out, datagram)
  once : (channel.accepted.map (· % 2 ^ 64)).Nodup

theorem consistent_installed (crypto : Crypto) {sender receiver : WGPeer}
    (installed : Installed sender receiver) :
    Consistent crypto receiver.recvKey { sender, receiver } where
  senderKeys := installed.senderKeys
  sendKey := installed.shared
  receiverKeys := installed.receiverKeys
  recvKey := rfl
  counter := installed.sendCounter
  genuine := by
    intro number packet datagram member
    cases member
  tracks := by
    have nothing : recorded { sender, receiver } = ∅ := by
      ext number
      simp [recorded, accepted]
    rw [nothing]
    simp only [installed.unread, ReplayWindow.ring]
    exact SlidingWindow.Ring.tracks_empty _ (by simp)
  attained := by
    left
    simp [installed.unread, ReplayWindow.ring]
  faithful := by
    intro number out member
    cases member
  once := List.nodup_nil

theorem step_send {crypto : Crypto} (lawful : crypto.Lawful) {key : Key} {channel : Channel}
    (consistent : Consistent crypto key channel) (systemTime : Int) {packet : Bytes}
    (payload : Payload packet) :
    ∃ sender datagram, channel.step crypto (.send systemTime packet) =
        { channel with sender, sent := channel.sent ++ [(packet, datagram)] } ∧
      WGPeer.Sealed crypto key channel.sender.sendCounter packet datagram ∧
      sender.hasKeys = true ∧ sender.sendKey = key ∧
      sender.sendCounter = channel.sender.sendCounter + 1 := by
  obtain ⟨sender, datagram, produced, sealed, keys, sendKey, counter⟩ :=
    WGPeer.encapsulate_sealed lawful consistent.senderKeys payload.length_le systemTime
  rw [consistent.sendKey] at sealed sendKey
  refine ⟨sender, datagram, ?_, sealed, keys, sendKey, counter⟩
  simp only [step, produced]

theorem consistent_send {crypto : Crypto} (lawful : crypto.Lawful) {key : Key} {channel : Channel}
    (consistent : Consistent crypto key channel) (systemTime : Int) {packet : Bytes}
    (payload : Payload packet) :
    Consistent crypto key (channel.step crypto (.send systemTime packet)) := by
  obtain ⟨sender, datagram, stepped, sealed, keys, sendKey, counter⟩ :=
    step_send lawful consistent systemTime payload
  rw [stepped]
  exact {
    senderKeys := keys
    sendKey := sendKey
    receiverKeys := consistent.receiverKeys
    recvKey := consistent.recvKey
    counter := by
      rw [counter, consistent.counter, List.length_append, List.length_singleton,
        UInt64.ofNat_add]
      rfl
    genuine := by
      intro number packet' datagram' found
      rcases Nat.lt_trichotomy number channel.sent.length with before | here | after
      · rw [List.getElem?_append_left before] at found
        exact consistent.genuine number packet' datagram' found
      · subst here
        rw [List.getElem?_concat_length] at found
        cases found
        rw [← consistent.counter]
        exact ⟨payload, sealed⟩
      · rw [List.getElem?_eq_none (by simp; omega)] at found
        cases found
    tracks := consistent.tracks
    attained := consistent.attained
    faithful := by
      intro number out member
      obtain ⟨produced, found⟩ := consistent.faithful number out member
      have inside := (List.getElem?_eq_some_iff.mp found).1
      exact ⟨produced, by rw [List.getElem?_append_left inside]; exact found⟩
    once := consistent.once }

/-- A delivery is accepted exactly when its counter is live, inside the window and
new; then the packet itself comes back. -/
theorem step_deliver {crypto : Crypto} (lawful : crypto.Lawful) {key : Key} {channel : Channel}
    (consistent : Consistent crypto key channel) {number : Nat} {packet datagram : Bytes}
    (found : channel.sent[number]? = some (packet, datagram)) :
    ∃ receiver out, channel.step crypto (.deliver number) =
        { channel with receiver, returned := channel.returned ++ [(number, out)] } ∧
      receiver.hasKeys = true ∧ receiver.recvKey = key ∧
      out = (if (channel.receiver.replay.validate (UInt64.ofNat number)).2 = true then some packet
        else none) ∧
      receiver.replay.ring = (channel.receiver.replay.validate (UInt64.ofNat number)).1.ring := by
  obtain ⟨payload, genuine⟩ := consistent.genuine number packet datagram found
  rw [← consistent.recvKey] at genuine
  obtain ⟨out_eq, window_eq, keys, recvKey⟩ :=
    WGPeer.decapsulate_sealed lawful consistent.receiverKeys payload genuine
  rw [consistent.recvKey] at recvKey
  refine ⟨_, _, ?_, keys, recvKey, out_eq, window_eq⟩
  simp only [step, found]

private theorem toNat_ofNat (number : Nat) : (UInt64.ofNat number).toNat = number % 2 ^ 64 := by
  simp

theorem accepted_append (channel : Channel) (receiver : WGPeer) (number : Nat)
    (out : Option Bytes) :
    accepted { channel with receiver, returned := channel.returned ++ [(number, out)] } =
      channel.accepted ++ (if out.isSome = true then [number] else []) := by
  cases out <;> simp [accepted]

theorem recorded_append (channel : Channel) (receiver : WGPeer) (number : Nat)
    (out : Option Bytes) :
    recorded { channel with receiver, returned := channel.returned ++ [(number, out)] } =
      {window | window ∈ channel.recorded ∨
        (window = number % 2 ^ 64 + 1 ∧ out.isSome = true)} := by
  ext window
  simp only [recorded, accepted_append, Set.mem_ofPred_eq, List.mem_append]
  cases out with
  | none => simp
  | some packet =>
      constructor
      · intro member
        obtain ⟨earlier, old | new, window_eq⟩ := member
        · exact Or.inl ⟨earlier, old, window_eq⟩
        · have same : earlier = number := by simpa using new
          exact Or.inr ⟨same ▸ window_eq, rfl⟩
      · intro member
        rcases member with ⟨earlier, old, window_eq⟩ | ⟨window_eq, _⟩
        · exact ⟨earlier, Or.inl old, window_eq⟩
        · exact ⟨number, Or.inr (by simp), window_eq⟩

theorem consistent_deliver {crypto : Crypto} (lawful : crypto.Lawful) {key : Key}
    {channel : Channel} (consistent : Consistent crypto key channel) (number : Nat) :
    Consistent crypto key (channel.step crypto (.deliver number)) := by
  cases found : channel.sent[number]? with
  | none =>
      simp only [step, found]
      exact consistent
  | some produced =>
      obtain ⟨packet, datagram⟩ := produced
      obtain ⟨receiver, out, stepped, keys, recvKey, out_eq, window_eq⟩ :=
        step_deliver lawful consistent found
      obtain ⟨fresh_iff, tracks, attained⟩ := ReplayWindow.validate_tracks consistent.tracks
        consistent.attained (UInt64.ofNat number)
      rw [toNat_ofNat] at fresh_iff tracks attained
      rw [← window_eq] at tracks attained
      have some_iff : out.isSome = true ↔
          (channel.receiver.replay.validate (UInt64.ofNat number)).2 = true := by
        rw [out_eq]
        split <;> simp_all
      rw [stepped]
      exact {
        senderKeys := consistent.senderKeys
        sendKey := consistent.sendKey
        receiverKeys := keys
        recvKey := recvKey
        counter := consistent.counter
        genuine := consistent.genuine
        tracks := by
          rw [recorded_append]
          simpa only [some_iff] using tracks
        attained := by
          rw [recorded_append]
          simpa only [some_iff, Set.mem_ofPred_eq] using attained
        faithful := by
          intro earlier result member
          rcases List.mem_append.mp member with old | new
          · exact consistent.faithful earlier result old
          · obtain ⟨same, result_eq⟩ := Prod.mk.inj (List.mem_singleton.mp new)
            rw [out_eq] at result_eq
            split at result_eq
            · cases result_eq
              exact ⟨datagram, same ▸ found⟩
            · cases result_eq
        once := by
          rw [accepted_append, List.map_append]
          split
          · next fresh =>
            have unseen := (fresh_iff.mp (some_iff.mp fresh)).2.1
            rw [List.map_singleton, List.nodup_append]
            refine ⟨consistent.once, List.nodup_singleton _, ?_⟩
            intro old oldMember new newMember same
            obtain ⟨earlier, earlierMember, old_eq⟩ := List.mem_map.mp oldMember
            have new_eq := List.mem_singleton.mp newMember
            exact unseen ⟨earlier, earlierMember, by rw [old_eq, same, new_eq]⟩
          · simpa using consistent.once }

/-- The runs the session is promised for: every sent packet is a payload. -/
def Legal : Event → Prop
  | .send _ packet => Payload packet
  | .deliver _ => True

theorem consistent_run {crypto : Crypto} (lawful : crypto.Lawful) {sender receiver : WGPeer}
    (installed : Installed sender receiver) {events : List Event}
    (legal : ∀ event ∈ events, Legal event) :
    Consistent crypto receiver.recvKey (run crypto { sender, receiver } events) := by
  apply Run.invariant_run _ legal (consistent_installed crypto installed)
  intro channel event allowed consistent
  cases event with
  | send systemTime packet => exact consistent_send lawful consistent systemTime allowed
  | deliver number => exact consistent_deliver lawful consistent number

/-- Over every run of sends and deliveries: an accepted datagram returns the packet
it carries (nothing for a keepalive), no datagram is accepted twice, and a datagram
whose counter is below the message limit, not yet accepted and at most 8128 below
every accepted one is accepted. -/
theorem transport_delivery {crypto : Crypto} (lawful : crypto.Lawful) (sender receiver : WGPeer)
    (installed : Installed sender receiver) (events : List Event)
    (legal : ∀ event ∈ events, Legal event) :
    let channel := run crypto { sender, receiver } events
    (∀ number out, (number, some out) ∈ channel.returned →
      ∃ datagram, channel.sent[number]? = some (out, datagram)) ∧
    channel.accepted.Nodup ∧
    (∀ number packet datagram, channel.sent[number]? = some (packet, datagram) →
      number % 2 ^ 64 < kRejectAfterMessages.toNat →
      (∀ earlier ∈ channel.accepted, earlier % 2 ^ 64 ≠ number % 2 ^ 64 ∧
        earlier % 2 ^ 64 ≤ number % 2 ^ 64 + 8128) →
      (channel.step crypto (.deliver number)).returned =
        channel.returned ++ [(number, some packet)]) := by
  intro channel
  have consistent : Consistent crypto receiver.recvKey channel :=
    consistent_run lawful installed legal
  refine ⟨consistent.faithful, List.Nodup.of_map _ consistent.once, ?_⟩
  intro number packet datagram found live window
  obtain ⟨receiver', out, stepped, _, _, out_eq, _⟩ := step_deliver lawful consistent found
  obtain ⟨fresh_iff, _, _⟩ := ReplayWindow.validate_tracks consistent.tracks consistent.attained
    (UInt64.ofNat number)
  rw [toNat_ofNat] at fresh_iff
  have below : UInt64.ofNat number < kRejectAfterMessages := by
    rw [UInt64.lt_iff_toNat_lt, toNat_ofNat]
    exact live
  have unseen : number % 2 ^ 64 + 1 ∉ channel.recorded := by
    intro member
    obtain ⟨earlier, earlierMember, same⟩ := member
    have different := (window earlier earlierMember).1
    omega
  have inside : channel.receiver.replay.ring.top ≤ 8128 + (number % 2 ^ 64 + 1) := by
    rcases consistent.attained with empty | ⟨earlier, earlierMember, top_eq⟩
    · omega
    · have near := (window earlier earlierMember).2
      omega
  rw [stepped, out_eq, if_pos (fresh_iff.mpr ⟨below, unseen, inside⟩)]

theorem transport_delivery_transparent :
    let channel := run Transparent.crypto
      { sender := Transparent.leftEnd, receiver := Transparent.rightEnd }
      [.send 2 [], .send 3 (0x45 :: 0 :: 0 :: 20 :: List.replicate 16 0), .deliver 1]
    (∀ number out, (number, some out) ∈ channel.returned →
      ∃ datagram, channel.sent[number]? = some (out, datagram)) ∧
    channel.accepted.Nodup ∧
    (∀ number packet datagram, channel.sent[number]? = some (packet, datagram) →
      number % 2 ^ 64 < kRejectAfterMessages.toNat →
      (∀ earlier ∈ channel.accepted, earlier % 2 ^ 64 ≠ number % 2 ^ 64 ∧
        earlier % 2 ^ 64 ≤ number % 2 ^ 64 + 8128) →
      (channel.step Transparent.crypto (.deliver number)).returned =
        channel.returned ++ [(number, some packet)]) := by
  apply transport_delivery Transparent.lawful Transparent.leftEnd Transparent.rightEnd
  · exact ⟨rfl, rfl, rfl, rfl, rfl⟩
  · intro event member
    simp only [List.mem_cons, List.not_mem_nil, or_false] at member
    rcases member with rfl | rfl | rfl
    · exact .keepalive rfl
    · exact .ipv4 (by decide) (by decide) (by decide) (by decide)
    · trivial

private theorem run_keepalives {crypto : Crypto} (lawful : crypto.Lawful) {key : Key}
    {channel : Channel} (consistent : Consistent crypto key channel)
    (idle : channel.returned = []) (empty : ∀ entry ∈ channel.sent, entry.1 = []) (count : Nat) :
    let channel' := run crypto channel (List.replicate count (.send 0 []))
    Consistent crypto key channel' ∧ channel'.returned = [] ∧
      (∀ entry ∈ channel'.sent, entry.1 = []) ∧
      channel'.sent.length = channel.sent.length + count := by
  induction count generalizing channel with
  | zero => exact ⟨consistent, idle, empty, rfl⟩
  | succ count continued =>
      have kept := consistent_send lawful consistent 0 (.keepalive rfl)
      obtain ⟨sender, datagram, stepped, _⟩ := step_send lawful consistent 0 (.keepalive rfl)
      rw [stepped] at kept
      have emptied : ∀ entry ∈ channel.sent ++ [([], datagram)], entry.1 = [] := by
        intro entry member
        rcases List.mem_append.mp member with old | new
        · exact empty entry old
        · rw [List.mem_singleton.mp new]
      obtain ⟨consistent', idle', empty', length'⟩ := continued kept idle emptied
      simp only [List.length_append, List.length_singleton] at length'
      rw [List.replicate_succ, run, Run.run_cons, stepped]
      exact ⟨consistent', idle', empty', by rw [Nat.add_comm count 1, ← Nat.add_assoc]; exact length'⟩

private theorem spent_refused {crypto : Crypto} (lawful : crypto.Lawful) {sender receiver : WGPeer}
    (installed : Installed sender receiver) (count : Nat)
    (spent : kRejectAfterMessages.toNat ≤ count) (small : count < 2 ^ 64) :
    let channel := run crypto { sender, receiver } (List.replicate (count + 1) (.send 0 []))
    channel.returned = [] ∧ (∃ datagram, channel.sent[count]? = some ([], datagram)) ∧
      (channel.step crypto (.deliver count)).returned = [(count, none)] := by
  obtain ⟨consistent, idle, empty, length⟩ := run_keepalives lawful
    (consistent_installed crypto installed) rfl (by simp) (count + 1)
  intro channel
  have inside : count < channel.sent.length := by
    rw [length]
    exact Nat.lt_of_lt_of_le (Nat.lt_succ_self count) (Nat.le_add_left _ _)
  rcases found : channel.sent[count] with ⟨packet, datagram⟩
  have located : channel.sent[count]? = some (packet, datagram) := by
    rw [List.getElem?_eq_getElem inside, found]
  have packet_eq : packet = [] := by
    have member := List.getElem_mem inside
    rw [found] at member
    exact empty _ member
  subst packet_eq
  obtain ⟨receiver', out, stepped, _, _, out_eq, _⟩ := step_deliver lawful consistent located
  have refused : channel.receiver.replay.validate (UInt64.ofNat count) =
      (channel.receiver.replay, false) := by
    apply ReplayWindow.validate_of_spent
    rw [UInt64.le_iff_toNat_le, toNat_ofNat, Nat.mod_eq_of_lt small]
    exact spent
  refine ⟨idle, ⟨datagram, located⟩, ?_⟩
  rw [stepped, out_eq, refused, idle]
  rfl

/-- After 2^64 - 8193 keepalives the last one, delivered for the first time and with
nothing accepted before it, is refused: its counter has reached the message limit. -/
theorem transport_refuses_spent_counter :
    let events := List.replicate (18446744073709543422 + 1) (Event.send 0 [])
    let channel := run Transparent.crypto
      { sender := Transparent.leftEnd, receiver := Transparent.rightEnd } events
    Installed Transparent.leftEnd Transparent.rightEnd ∧ (∀ event ∈ events, Legal event) ∧
      channel.returned = [] ∧
      (∃ datagram, channel.sent[18446744073709543422]? = some ([], datagram)) ∧
      (channel.step Transparent.crypto (.deliver 18446744073709543422)).returned =
        [(18446744073709543422, none)] := by
  have installed : Installed Transparent.leftEnd Transparent.rightEnd :=
    ⟨rfl, rfl, rfl, rfl, rfl⟩
  refine ⟨installed, ?_, spent_refused Transparent.lawful installed 18446744073709543422
    (by decide) (by decide)⟩
  intro event member
  rw [List.eq_of_mem_replicate member]
  exact .keepalive rfl

end Channel

end Sotoportego.WireGuard
