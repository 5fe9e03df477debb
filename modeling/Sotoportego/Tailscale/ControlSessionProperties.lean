import Sotoportego.Lib.Lines
import Sotoportego.Server.Base64Properties
import Sotoportego.Tailscale.ControlClientProperties
import Sotoportego.Tailscale.ControlSession
import Sotoportego.Tailscale.Http2LinkProperties
import Sotoportego.Tailscale.IdentityProperties
import Sotoportego.Tailscale.NoiseProperties

/-!
# From a key to a registration

A server that reads the upgrade request knows the machine, has the keys of the client, and what
it says on the record stream is what the session goes on with.
-/

set_option autoImplicit false

namespace Sotoportego.Tailscale

open Octets Deliveries CText WireGuard
open Server (base64Encode)
open ControlClient (Greeting)

/-! ## Sizes of the messages -/

namespace NoiseIK

variable {crypto : Crypto} {noise next : NoiseIK} {payload msg : Bytes} {outCap : Nat}

theorem hasKey_mixDh {priv pub : Key} {state mixed : SymmetricState}
    (shared : mixDh crypto priv pub state = some mixed) : mixed.hasKey = true := by
  obtain ⟨dh, -, rfl⟩ := Option.map_eq_some_iff.mp shared
  rfl

theorem length_writeMessage1 (lawful : crypto.Lawful) {ephemeral : Option (Key × Key)}
    (written : noise.writeMessage1 crypto ephemeral payload outCap = some (msg, next)) :
    msg.length = 96 + payload.length := by
  rw [writeMessage1] at written
  split at written
  next => cases written
  split at written
  next => cases written
  obtain ⟨pair, -, written⟩ := Option.bind_eq_some_iff.mp written
  obtain ⟨es, keyed, written⟩ := Option.bind_eq_some_iff.mp written
  obtain ⟨⟨encStatic, second⟩, sealed, written⟩ := Option.bind_eq_some_iff.mp written
  obtain ⟨ss, keyed', written⟩ := Option.bind_eq_some_iff.mp written
  obtain ⟨⟨encPayload, third⟩, sealed', written⟩ := Option.bind_eq_some_iff.mp written
  cases written
  have first := SymmetricState.length_encryptAndHash lawful (hasKey_mixDh keyed) sealed
  have last := SymmetricState.length_encryptAndHash lawful (hasKey_mixDh keyed') sealed'
  simp only [List.length_append, Buffer.length_bytes, first, last]
  omega

theorem length_writeMessage2 (lawful : crypto.Lawful) {ephemeral : Option (Key × Key)}
    (written : noise.writeMessage2 crypto ephemeral payload outCap = some (msg, next)) :
    msg.length = 48 + payload.length := by
  rw [writeMessage2] at written
  split at written
  next => cases written
  split at written
  next => cases written
  obtain ⟨pair, -, written⟩ := Option.bind_eq_some_iff.mp written
  obtain ⟨ee, -, written⟩ := Option.bind_eq_some_iff.mp written
  obtain ⟨se, keyed, written⟩ := Option.bind_eq_some_iff.mp written
  obtain ⟨⟨encPayload, last⟩, sealed, written⟩ := Option.bind_eq_some_iff.mp written
  cases written
  have size := SymmetricState.length_encryptAndHash lawful (hasKey_mixDh keyed) sealed
  simp only [List.length_append, Buffer.length_bytes, size]
  omega

end NoiseIK

/-! ## The published key -/

theorem findFirst_here {needle : Bytes} (solid : needle ≠ []) {front : Bytes} (back : Bytes)
    (first : ¬ needle <:+: front ++ needle.dropLast) :
    Register.findFirst needle (front ++ (needle ++ back)) = some (needle ++ back) := by
  induction front with
  | nil =>
      cases needle with
      | nil => exact (solid rfl).elim
      | cons octet needle =>
          rw [List.nil_append, List.cons_append, Register.findFirst, if_pos]
          exact List.isPrefixOf_iff_prefix.mpr (List.prefix_append _ _)
  | cons octet front continued =>
      have later : ¬ needle <:+: front ++ needle.dropLast :=
        fun inside => first (inside.trans (List.suffix_cons octet _).isInfix)
      rw [List.cons_append, Register.findFirst, if_neg, continued later]
      intro here
      refine first (List.IsPrefix.isInfix ?_)
      have long := List.isPrefixOf_iff_prefix.mp here
      have whole : octet :: (front ++ (needle ++ back)) =
          octet :: front ++ needle.dropLast ++ ([needle.getLast solid] ++ back) := by
        rw [List.append_assoc, ← List.append_assoc needle.dropLast,
          List.dropLast_append_getLast solid]
        rfl
      rw [whole] at long
      refine List.prefix_of_prefix_length_le long (List.prefix_append _ _) ?_
      have positive := List.length_pos_iff.mpr solid
      rw [List.length_append, List.length_dropLast, List.length_cons]
      omega

def modernField : Bytes := ascii "\"publicKey\""

def keyPrefix : Bytes := ascii "mkey:"

/-- The first modern field of the document is followed by this key. -/
def Names (key : Key) (document : Bytes) : Prop :=
  ∃ front middle back,
    document =
        front ++ (modernField ++ middle ++ (keyPrefix ++ ((toHex key.bytes).bytes ++ back))) ∧
      (¬ modernField <:+: front ++ modernField.dropLast) ∧
      ¬ keyPrefix <:+: modernField ++ middle ++ keyPrefix.dropLast

theorem parseControlKey_names {key : Key} {json : CString} (names : Names key json.bytes) :
    parseControlKey json = some key := by
  obtain ⟨front, middle, back, document, field, next⟩ := names
  have found := findFirst_here (by decide : modernField ≠ []) (middle ++ (keyPrefix ++
    ((toHex key.bytes).bytes ++ back))) field
  have onward := findFirst_here (by decide : keyPrefix ≠ []) ((toHex key.bytes).bytes ++ back) next
  have size : (toHex key.bytes).bytes.length = 64 := by
    rw [Identity.bytes_toHex, Identity.length_hexPairs, key.length_bytes]
  rw [← List.append_assoc modernField, ← document] at found
  rw [modernField] at found onward
  rw [keyPrefix] at found onward
  rw [parseControlKey, found]
  simp only [Option.getD_some, onward, List.drop_left]
  rw [if_neg (by rw [List.length_append]; omega), List.take_left' size,
    Identity.bytes_toHex]
  exact Identity.fromHex_toHex key

/-! ## The answer to a request of its own -/

theorem readToEnd_eq {tls : List (Delivery UInt8)} (quiet : pauses tls = [])
    (clean : 0 ∉ arriving tls) (raw : Bytes) : readToEnd raw tls = raw ++ arriving tls := by
  fun_induction readToEnd raw tls with
  | case1 raw tls chunk rest answered continued =>
      have kept := (read_bytes answered).1
      have waits := (read_bytes answered).2.1
      rw [← kept, List.mem_append, not_or] at clean
      rw [continued (waits.trans quiet) clean.2, ofBytes_bytes clean.1, ← kept, List.append_assoc]
  | case2 raw tls answer rest other answered =>
      cases answer with
      | bytes chunk => exact (other chunk rfl).elim
      | timeout =>
          rw [(read_timeout answered).2] at quiet
          cases quiet
      | ended =>
          obtain ⟨rfl, -⟩ := read_ended answered
          rw [arriving, List.append_nil]

theorem atoi_success (rest : Bytes) : atoi (.ofBytes (ascii "200 " ++ rest)) = 200 := by
  have text : (CString.ofBytes (ascii "200 " ++ rest)).bytes =
      50 :: 48 :: 48 :: 32 :: rest.takeWhile (· ≠ 0) := rfl
  have number : sign ((50 :: 48 :: 48 :: 32 :: rest.takeWhile (· ≠ 0)).dropWhile isSpace) =
      (false, 50 :: 48 :: 48 :: 32 :: rest.takeWhile (· ≠ 0)) := rfl
  have digits : (50 :: 48 :: 48 :: 32 :: rest.takeWhile (· ≠ 0)).takeWhile isDigit =
      [50, 48, 48] := rfl
  rw [atoi, strtol, text, number]
  dsimp only
  rw [digits]
  decide

/-- The server answers with success, and with a document that names the key. -/
structure Published (key : Key) (meeting : TlsMeeting) : Prop where
  connect : meeting.connect = .ok
  takes : meeting.takes = true
  quiet : pauses meeting.tls = []
  clean : 0 ∉ arriving meeting.tls
  response : ∃ head document, arriving meeting.tls =
      ascii "HTTP/1.1 200 " ++ head ++ ([13, 10, 13, 10] ++ document) ∧
    (¬ [13, 10, 13, 10] <:+: ascii "HTTP/1.1 200 " ++ head ++ [13, 10, 13]) ∧ Names key document

theorem Published.httpsGet {key : Key} {meeting : TlsMeeting} (published : Published key meeting) :
    ∃ json, httpsGet meeting = .ok (200, json) ∧ parseControlKey json = some key := by
  obtain ⟨head, document, arrives, first, names⟩ := published.response
  have clean := published.clean
  have raw : readToEnd [] meeting.tls = arriving meeting.tls :=
    readToEnd_eq published.quiet published.clean []
  have body := findFirst_here (by decide : ([13, 10, 13, 10] : Bytes) ≠ []) document first
  rw [← arrives] at body
  have document_clean : 0 ∉ document := by
    rw [arrives] at clean
    simp only [List.mem_append, not_or] at clean
    exact clean.2.2
  refine ⟨.ofBytes document, ?_, parseControlKey_names (by rwa [ofBytes_bytes document_clean])⟩
  rw [Tailscale.httpsGet, if_neg (by rw [published.connect]; decide),
    if_neg (by rw [published.takes]; decide), raw]
  have line : arriving meeting.tls =
      ascii "HTTP/1.1" ++ ([32] ++ (ascii "200 " ++ (head ++ ([13, 10, 13, 10] ++ document)))) := by
    rw [arrives]
    simp [ascii]
  have space := findFirst_here (by decide : ([32] : Bytes) ≠ [])
    (ascii "200 " ++ (head ++ ([13, 10, 13, 10] ++ document)))
    (by decide : ¬ [32] <:+: ascii "HTTP/1.1" ++ ([32] : Bytes).dropLast)
  rw [← line] at space
  have filled : ¬ (arriving meeting.tls).length = 0 := by
    rw [line]
    exact Nat.succ_ne_zero _
  rw [if_neg filled]
  simp only [space, body]
  rw [List.singleton_append, List.drop_succ_cons, List.drop_zero, atoi_success]
  rfl

/-! ## What a server does

The other side of the upgrade, by what the protocol says. -/

namespace ControlServer

/-- The value of a header of a request. -/
def headerValue (name request : Bytes) : Option Bytes :=
  ((Lines.pieces 10 request).find? fun line => (name ++ ascii ": ").isPrefixOf line).map
    fun line => (line.drop (name ++ ascii ": ").length).takeWhile (· ≠ 13)

/-- The version and the Noise message of a framed initiation. -/
def decodeInitiation (frame : Bytes) : Option (UInt16 × Bytes) :=
  if frame.length = 5 + kInitiationPayloadLen ∧ octetAt frame 2 = controlMsgInitiation ∧
      octetAt frame 3 = 0 ∧ octetAt frame 4 = 96 then
    some ((octetAt frame 0).toUInt16 <<< 8 ||| (octetAt frame 1).toUInt16, frame.drop 5)
  else none

variable (crypto : Crypto)

/-- Whom the server takes the request to be from, the keys of the session, and its answer. -/
def accept (server answer : KeyPair crypto) (request : Bytes) :
    Option (Key × NoiseTransportKeys × Bytes) := do
  let value ← headerValue (ascii "X-Tailscale-Handshake") request
  let frame ← Server.decodeBase64 (.ofBytes value)
  let (version, msg1) ← decodeInitiation frame
  let noise : NoiseIK :=
    NoiseIK.initResponder crypto server.priv server.pub (controlPrologue version) {}
  let (_, noise) ← noise.readMessage1 crypto msg1 0
  let (msg2, noise) ← noise.writeMessage2 crypto (some (answer.priv, answer.pub)) [] 48
  return (noise.remoteStatic, noise.split crypto, msg2)

theorem headerValue_upgradeRequest (host : CString) (plain : 10 ∉ host.bytes) (initFrame : Bytes) :
    headerValue (ascii "X-Tailscale-Handshake") (upgradeRequest host (base64Encode initFrame)) =
      some (base64Encode initFrame) := by
  have clean := @Server.base64Encode_clean initFrame
  have solid : ∀ octet ∈ base64Encode initFrame, octet ≠ 10 ∧ octet ≠ 13 := by
    intro octet member
    have plain := (clean octet member).2
    constructor
    · rintro rfl
      cases plain
    · rintro rfl
      cases plain
  let lines : List Bytes := [ascii "POST /ts2021 HTTP/1.1\r", ascii "Host: " ++ host.bytes ++ [13],
    ascii "Upgrade: tailscale-control-protocol\r", ascii "Connection: upgrade\r",
    ascii "X-Tailscale-Handshake: " ++ (base64Encode initFrame ++ [13]),
    ascii "User-Agent: Sotoportego/0.1\r", ascii "Content-Length: 0\r", [13], []]
  have request : upgradeRequest host (base64Encode initFrame) = [10].intercalate lines := by
    simp [lines, upgradeRequest, List.intercalate, ascii]
  have whole : ∀ line ∈ lines, 10 ∉ line := by
    intro line member
    simp only [lines, List.mem_cons, List.not_mem_nil, or_false] at member
    rcases member with rfl | rfl | rfl | rfl | rfl | rfl | rfl | rfl | rfl
    · decide
    · simp only [List.mem_append, not_or]
      exact ⟨⟨by decide, plain⟩, by decide⟩
    · decide
    · decide
    · simp only [List.mem_append, not_or]
      exact ⟨by decide, fun member => (solid 10 member).1 rfl, by decide⟩
    · decide
    · decide
    · decide
    · decide
  have found : (lines.find? fun line =>
      (ascii "X-Tailscale-Handshake" ++ ascii ": ").isPrefixOf line) =
        some (ascii "X-Tailscale-Handshake" ++ ascii ": " ++ (base64Encode initFrame ++ [13])) :=
    rfl
  rw [headerValue, request, Lines.pieces_intercalate (List.cons_ne_nil _ _) whole, found,
    Option.map_some, List.drop_left, List.takeWhile_append_of_pos]
  · simp
  · intro octet member
    exact decide_eq_true (solid octet member).2

theorem decodeInitiation_encode {msg1 : Bytes} {version : UInt16} {initFrame : Bytes}
    (framed : encodeInitiation msg1 version = some initFrame) :
    decodeInitiation initFrame = some (version, msg1) := by
  rw [encodeInitiation] at framed
  split at framed
  next => cases framed
  next size =>
    have masked : (version &&& 0xff).toUInt8 = version.toUInt8 := by
      apply UInt8.toNat_inj.mp
      have masked := Nat.and_two_pow_sub_one_eq_mod (version.toNat % 256) 8
      simpa using masked
    cases framed
    rw [decodeInitiation, if_pos]
    · have joined := joinWord version
      rw [← masked] at joined
      exact congrArg some (Prod.ext joined rfl)
    · refine ⟨?_, rfl, rfl, rfl⟩
      rw [List.length_append, Decidable.not_not.mp size]
      rfl

end ControlServer

/-! ## The handshake -/

namespace ControlClient

variable {greeting : Greeting} {continuation : Bytes} {tls : List (Delivery UInt8)}

/-- The reply and what came with it are in the buffer, and nothing was lost. -/
theorem receive_greeting (small : greeting.octets.length ≤ kUpgradeBufSize)
    (quiet : pauses tls = []) (arrives : arriving tls = greeting.octets ++ continuation) :
    ∃ bundled, (receive [] none tls).buf = greeting.octets ++ bundled ∧
      bundled ++ arriving (receive [] none tls).tls = continuation ∧
      greeting.octets.length + bundled.length =
        min (arrivedWith greeting.octets.length tls) kUpgradeBufSize ∧
      (receive [] none tls).headerEnd = some greeting.head.length := by
  have searched : none = headerEnd [] := rfl
  have size := length_receive small quiet (by rw [List.nil_append, arrives]) searched
    (by rw [Greeting.length_octets]; exact Nat.succ_pos _)
  rw [List.length_nil, Nat.zero_add, Nat.sub_zero] at size
  have enough : greeting.octets.length ≤ arrivedWith greeting.octets.length tls := by
    refine le_arrivedWith ?_
    rw [arrives, List.length_append]
    exact Nat.le_add_right _ _
  have stream := receive_kept [] none tls
  rw [List.nil_append, arrives] at stream
  have ends := receive_headerEnd tls searched
  rw [Greeting.headerEnd_front stream] at ends
  obtain ⟨bundled, whole⟩ : greeting.octets <+: (receive [] none tls).buf :=
    List.prefix_of_prefix_length_le ⟨continuation, rfl⟩ ⟨_, stream⟩ (by omega)
  rw [← whole, List.append_assoc, List.append_cancel_left_eq] at stream
  rw [← whole, List.length_append] at size
  refine ⟨bundled, whole.symm, stream, size, ends.trans (if_pos ?_)⟩
  rw [← whole, List.length_append, Greeting.length_octets]
  omega

theorem handshake_answered {readMessage2 : Bytes → Option NoiseTransportKeys}
    {keys : NoiseTransportKeys} (small : greeting.octets.length ≤ kUpgradeBufSize)
    (quiet : pauses tls = []) (arrives : arriving tls = greeting.octets ++ continuation)
    (kept : min (arrivedWith greeting.octets.length tls) kUpgradeBufSize ≤
      greeting.head.length + kUpgradeBodySize)
    (reads : readMessage2 greeting.payload.bytes = some keys) :
    ∃ next, ({ tls } : ControlClient).handshake readMessage2 = (.ok keys, next) ∧
      pauses next.tls = [] ∧ next.pending.length ≤ Tailscale.kPendingSize ∧
      next.pending ++ arriving next.tls = continuation := by
  obtain ⟨bundled, buf, rest, size, ends⟩ := receive_greeting small quiet arrives
  rw [← size, Greeting.length_octets, kUpgradeBodySize] at kept
  have still := receive_pauses [] none tls quiet
  have response : ({ tls } : ControlClient).readUpgradeResponse kUpgradeBodySize =
      (.ok (greeting.record ++ bundled), { tls := (receive [] none tls).tls }) := by
    have head : (receive [] none tls).buf.take greeting.head.length = greeting.head := by
      rw [buf, Greeting.octets, List.append_assoc, List.take_left]
    have body : ((receive [] none tls).buf.drop greeting.head.length).take kUpgradeBodySize =
        greeting.record ++ bundled := by
      rw [buf, Greeting.octets, List.append_assoc, List.drop_left, List.take_of_length_le]
      rw [List.length_append, Greeting.length_record, kUpgradeBodySize]
      omega
    rw [readUpgradeResponse, ends]
    dsimp only
    rw [head, if_pos greeting.accepted, body]
  have decoded : decodeRecordHeader (greeting.record ++ bundled) = some (2, 48) := by
    rw [decodeRecordHeader, if_neg]
    · refine congrArg some (Prod.ext rfl ?_)
      show (0 : UInt8).toNat <<< 8 ||| (48 : UInt8).toNat = 48
      decide
    · rw [List.length_append, Greeting.length_record, kRecordHeaderLen]
      omega
  have payload : ((greeting.record ++ bundled).drop kRecordHeaderLen).take 48 =
      greeting.payload.bytes := by
    have dropped : (greeting.record ++ bundled).drop kRecordHeaderLen =
        greeting.payload.bytes ++ bundled := rfl
    rw [dropped]
    exact List.take_left' greeting.payload.length_bytes
  have long : ¬ (greeting.record ++ bundled).length < kRecordHeaderLen + 48 := by
    rw [List.length_append, Greeting.length_record, kRecordHeaderLen]
    omega
  have behind : (greeting.record ++ bundled).drop (kRecordHeaderLen + 48) = bundled :=
    List.drop_left' greeting.length_record
  rw [handshake, response]
  simp only [decoded]
  rw [if_neg (by decide), if_neg (by decide), if_neg long, payload, reads]
  simp only [behind]
  split
  next =>
    have all : bundled.take kPendingSize = bundled := by
      refine List.take_of_length_le ?_
      rw [kPendingSize]
      omega
    rw [all]
    refine ⟨_, rfl, still, ?_, rest⟩
    show bundled.length ≤ Tailscale.kPendingSize
    rw [Tailscale.kPendingSize]
    omega
  next exact_ =>
    have nothing : bundled = [] := by
      rw [List.length_append, Greeting.length_record, kRecordHeaderLen] at exact_
      exact List.length_eq_zero_iff.mp (by omega)
    subst nothing
    exact ⟨_, rfl, still, Nat.zero_le _, rest⟩

/-- What the machine writes does not depend on what it will receive, and a server that reads it
knows the machine and shares its keys. -/
theorem wholeHandshake_accepted {crypto : Crypto} (lawful : crypto.Lawful)
    (machine server ephemeral answer : KeyPair crypto) (host : CString) (plain : 10 ∉ host.bytes)
    (version : UInt16) :
    ∃ (request : Bytes) (keys : NoiseTransportKeys) (response : Buffer kResponsePayloadLen)
      (readMessage2 : Bytes → Option NoiseTransportKeys),
      ControlServer.accept crypto server answer request = some (machine.pub, keys, response.bytes) ∧
      readMessage2 response.bytes = some keys ∧
      ∀ (reception : Reception), Published server.pub reception.key →
        reception.ephemeral = some (ephemeral.priv, ephemeral.pub) →
        reception.upgrade.connect = .ok → reception.upgrade.takes = true →
        wholeHandshake crypto host machine.priv machine.pub version reception { tls := [] } =
          (fun answered : Except Status NoiseTransportKeys × ControlClient =>
            (answered.1, answered.2, request))
          (({ tls := reception.upgrade.tls } : ControlClient).handshake readMessage2) := by
  obtain ⟨msg1, left, right, written, read, acquainted⟩ :=
    @NoiseIK.message1_read crypto machine server ephemeral lawful _ _
      (NoiseIK.started_init {} {} (controlPrologue version)) [] 128 0 (by decide) (Nat.le_refl _)
  obtain ⟨msg2, left', right', answered, heard, same, known⟩ :=
    @NoiseIK.message2_read crypto machine ephemeral lawful left right answer acquainted [] 48 64
      (by decide) (Nat.zero_le _)
  have size : msg1.length = kInitiationPayloadLen := NoiseIK.length_writeMessage1 lawful written
  have size' : msg2.length = kResponsePayloadLen := NoiseIK.length_writeMessage2 lawful answered
  obtain ⟨initFrame, framed⟩ : ∃ initFrame, encodeInitiation msg1 version = some initFrame := by
    rw [encodeInitiation, if_neg (not_not_intro size)]
    exact ⟨_, rfl⟩
  have decoded : Server.decodeBase64 (.ofBytes (base64Encode initFrame)) = some initFrame :=
    Server.decodeBase64_spaced (Server.spaced_base64Encode initFrame)
  have agreed : left'.split crypto = right'.split crypto := by
    rw [NoiseIK.split, NoiseIK.split, same]
  refine ⟨upgradeRequest host (base64Encode initFrame), left'.split crypto, ⟨msg2, size'⟩,
    fun msg2 => (left.readMessage2 crypto msg2 64).map fun (_, noise) => noise.split crypto,
    ?_, ?_, ?_⟩
  · rw [ControlServer.accept, ControlServer.headerValue_upgradeRequest host plain]
    simp only [Option.bind_eq_bind, Option.bind_some, decoded,
      ControlServer.decodeInitiation_encode framed]
    rw [read]
    simp only [Option.bind_some]
    rw [answered]
    simp only [Option.bind_some, known, agreed]
    rfl
  · show Option.map _ (left.readMessage2 crypto msg2 64) = _
    rw [heard]
    rfl
  · intro reception published fresh connects takes
    obtain ⟨json, fetched, parsed⟩ := published.httpsGet
    rw [wholeHandshake, fetchControlKey, fetched]
    dsimp only
    rw [if_neg (by decide), parsed]
    dsimp only
    rw [fresh, written]
    dsimp only
    rw [if_neg (not_not_intro size), framed]
    dsimp only
    rw [if_neg (not_not_intro connects), if_neg (not_not_intro takes)]

end ControlClient

/-! ## The bootstrap -/

namespace Http2Frame

/-- A SETTINGS frame of the server, to be answered. -/
def settles (frame : Http2Frame) : Bool :=
  frame.type = h2Settings && ! frame.has h2FlagAck

/-- The answer to the SETTINGS frame of the client. -/
def acknowledges (frame : Http2Frame) : Bool :=
  frame.type = h2Settings && frame.has h2FlagAck

end Http2Frame

/-- The frames that `Bootstrap` reads when it succeeds, with what it has seen before. -/
structure Opening (rounds : Nat) (ours theirs : Bool) (frames : List WireFrame) : Prop where
  few : frames.length ≤ rounds
  stays : ∀ frame ∈ frames, frame.type ≠ h2GoAway
  whole : ∀ front, front <+: frames →
    (((ours || front.any fun frame => frame.acknowledges) &&
      (theirs || front.any fun frame => frame.settles)) = true ↔ front = frames)

namespace Opening

variable {rounds : Nat} {ours theirs : Bool} {frame : WireFrame} {frames : List WireFrame}

theorem nil_iff : Opening rounds ours theirs [] ↔ (ours && theirs) = true := by
  constructor
  · intro opening
    simpa using (opening.whole [] (List.nil_prefix)).mpr rfl
  · intro seen
    refine ⟨Nat.zero_le _, nofun, fun front short => ?_⟩
    obtain rfl := List.prefix_nil.mp short
    simpa using seen

theorem cons_iff : Opening (rounds + 1) ours theirs (frame :: frames) ↔
    (ours && theirs) = false ∧ frame.type ≠ h2GoAway ∧
      Opening rounds (ours || frame.acknowledges) (theirs || frame.settles) frames := by
  have onward (front : List WireFrame) :
      ((ours || (frame :: front).any fun frame => frame.acknowledges) &&
        (theirs || (frame :: front).any fun frame => frame.settles)) =
      ((ours || frame.acknowledges || front.any fun frame => frame.acknowledges) &&
        (theirs || frame.settles || front.any fun frame => frame.settles)) := by
    rw [List.any_cons, List.any_cons, Bool.or_assoc, Bool.or_assoc]
  constructor
  · intro opening
    refine ⟨?_, opening.stays frame List.mem_cons_self, Nat.le_of_succ_le_succ opening.few,
      fun other member => opening.stays other (List.mem_cons_of_mem _ member),
      fun front short => ?_⟩
    · have open_ := opening.whole [] List.nil_prefix
      simpa using open_
    · rw [← onward, opening.whole (frame :: front) (List.cons_prefix_cons.mpr ⟨rfl, short⟩)]
      simp
  · rintro ⟨unseen, stays, opening⟩
    refine ⟨Nat.succ_le_succ opening.few, ?_, fun front short => ?_⟩
    · intro other member
      rcases List.mem_cons.mp member with rfl | member
      · exact stays
      · exact opening.stays other member
    · cases front with
      | nil => simpa using unseen
      | cons head front =>
          obtain ⟨rfl, onto⟩ := List.cons_prefix_cons.mp short
          rw [onward, opening.whole front onto]
          simp

theorem exists_cons (opens : Opening rounds ours theirs frames)
    (unseen : (ours && theirs) = false) : ∃ frame more, frames = frame :: more := by
  cases frames with
  | nil =>
      rw [nil_iff, unseen] at opens
      cases opens
  | cons frame more => exact ⟨frame, more, rfl⟩

/-- A stream opens in one way. -/
theorem unique {more rest rest' : List WireFrame} (opens : Opening rounds ours theirs frames)
    (others : Opening rounds ours theirs more) (same : frames ++ rest = more ++ rest') :
    frames = more ∧ rest = rest' := by
  have equal : frames = more := by
    rcases List.prefix_or_prefix_of_prefix ⟨rest, rfl⟩ ⟨rest', same.symm⟩ with short | short
    · exact (others.whole frames short).mp ((opens.whole frames List.prefix_rfl).mpr rfl)
    · exact ((opens.whole more short).mp ((others.whole more List.prefix_rfl).mpr rfl)).symm
  subst equal
  exact ⟨rfl, List.append_cancel_left same⟩

end Opening

def settingsAck : Http2Frame := ⟨h2Settings, h2FlagAck, 0, []⟩

/-- What `Bootstrap` sends for the frames that it reads. -/
def acknowledgements (frames : List WireFrame) : List Http2Frame :=
  (frames.filter fun frame => frame.settles).map fun _ => settingsAck

namespace Http2Link

open ControlConn (recordChunks sealRecords Carriable)

variable {crypto : Crypto} {first : ControlConn} {link : Http2Link} {sent : List Bytes}

/-- The exchange either takes an opening off the stream, or fails. -/
inductive Exchanged (crypto : Crypto) (first : ControlConn) (sent : List Bytes) (rounds : Nat)
    (ours theirs : Bool) : List WireFrame → Status × Http2Link → Prop where
  | ok {opening rest : List WireFrame} {next : Http2Link} :
      Opening rounds ours theirs opening →
      next.Carries crypto first
        (sent ++ (acknowledgements opening).flatMap fun frame => recordChunks frame.octets)
        (WireFrame.text rest) →
      Exchanged crypto first sent rounds ours theirs (opening ++ rest) (.ok, next)
  | failed {frames : List WireFrame} {status : Status} {next : Http2Link} : status ≠ .ok →
      (∀ opening, opening <+: frames → ¬ Opening rounds ours theirs opening) →
      Exchanged crypto first sent rounds ours theirs frames (status, next)

namespace Exchanged

variable {rounds : Nat} {ours theirs : Bool} {frame : WireFrame} {frames : List WireFrame}
  {result : Status × Http2Link}

theorem seen (complete : (ours && theirs) = true)
    (carries : link.Carries crypto first sent (WireFrame.text frames)) :
    Exchanged crypto first sent rounds ours theirs frames (.ok, link) := by
  refine @Exchanged.ok crypto first sent rounds ours theirs [] frames link
    (Opening.nil_iff.mpr complete) ?_
  simpa [acknowledgements] using carries

/-- One more frame before an exchange. -/
theorem cons (unseen : (ours && theirs) = false) (stays : frame.type ≠ h2GoAway)
    (onward : Exchanged crypto first
      (sent ++ (acknowledgements [frame]).flatMap fun frame => recordChunks frame.octets) rounds
      (ours || frame.acknowledges) (theirs || frame.settles) frames result) :
    Exchanged crypto first sent (rounds + 1) ours theirs (frame :: frames) result := by
  cases onward with
  | @ok opening rest next opens carries =>
      refine @Exchanged.ok crypto first sent (rounds + 1) ours theirs (frame :: opening) rest next
        (Opening.cons_iff.mpr ⟨unseen, stays, opens⟩) ?_
      have joined : acknowledgements (frame :: opening) =
          acknowledgements [frame] ++ acknowledgements opening := by
        rw [acknowledgements, acknowledgements, acknowledgements, ← List.map_append,
          ← List.filter_append]
        rfl
      rw [joined, List.flatMap_append, ← List.append_assoc]
      exact carries
  | failed notOk never =>
      refine .failed notOk fun opening short opens => ?_
      obtain ⟨head, opening, rfl⟩ := opens.exists_cons unseen
      obtain ⟨rfl, onto⟩ := List.cons_prefix_cons.mp short
      exact never opening onto (Opening.cons_iff.mp opens).2.2

end Exchanged

theorem Carries.exchangeSettings (lawful : crypto.Lawful) (rounds : Nat) :
    ∀ {ours theirs : Bool} {link : Http2Link} {sent : List Bytes} {frames : List WireFrame},
      link.Carries crypto first sent (WireFrame.text frames) →
      Exchanged crypto first sent rounds ours theirs frames
        (link.exchangeSettings crypto rounds ours theirs) := by
  induction rounds with
  | zero =>
      intro ours theirs link sent frames carries
      rw [Http2Link.exchangeSettings]
      split
      next seen =>
        exact .seen seen carries
      next unseen =>
        refine .failed (by decide) fun opening short opens => ?_
        have few := opens.few
        obtain rfl : opening = [] := List.length_eq_zero_iff.mp (Nat.le_zero.mp few)
        exact unseen (Opening.nil_iff.mp opens)
  | succ rounds continued =>
      intro ours theirs link sent frames carries
      rw [Http2Link.exchangeSettings]
      split
      next seen =>
        exact .seen seen carries
      next unseen =>
        have unseen : (ours && theirs) = false := Bool.eq_false_of_not_eq_true unseen
        cases frames with
        | nil =>
            obtain ⟨next, read, -⟩ := carries.readFrame_end
            rw [read]
            refine .failed (by decide) fun opening short opens => ?_
            obtain ⟨head, opening, rfl⟩ := opens.exists_cons unseen
            cases List.prefix_nil.mp short
        | cons frame frames =>
            obtain ⟨next, read, onward⟩ := carries.readFrame lawful
            rw [read]
            dsimp only
            split
            next settings =>
              have stays : frame.type ≠ h2GoAway := by
                rw [settings]
                decide
              split
              next ack =>
                have acks : frame.acknowledges = true := by
                  simp [Http2Frame.acknowledges, settings, ack]
                have plain : frame.settles = false := by simp [Http2Frame.settles, ack]
                refine .cons unseen stays ?_
                simp only [acknowledgements, List.filter_cons, plain, acks, Bool.or_true,
                  Bool.or_false]
                simpa using continued onward
              next ack =>
                have other : frame.acknowledges = false := by simp [Http2Frame.acknowledges, ack]
                have settles : frame.settles = true := by simp [Http2Frame.settles, settings, ack]
                obtain ⟨last, wrote, onward⟩ := onward.writeFrame lawful settingsAck (Nat.zero_le _)
                have answered : next.writeFrame crypto h2Settings h2FlagAck 0 [] = (.ok, last) :=
                  wrote
                rw [answered]
                refine .cons unseen stays ?_
                simp only [acknowledgements, List.filter_cons, settles, other, Bool.or_true,
                  Bool.or_false]
                simpa using continued onward
            next unrelated =>
              split
              next away =>
                refine .failed (by decide) fun opening short opens => ?_
                obtain ⟨head, opening, rfl⟩ := opens.exists_cons unseen
                obtain ⟨rfl, -⟩ := List.cons_prefix_cons.mp short
                exact opens.stays head List.mem_cons_self away
              next stays =>
                have other : frame.acknowledges = false := by
                  simp [Http2Frame.acknowledges, unrelated]
                have plain : frame.settles = false := by simp [Http2Frame.settles, unrelated]
                refine .cons unseen stays ?_
                simp only [acknowledgements, List.filter_cons, plain, other, Bool.or_false]
                simpa using continued onward

/-- The length of an early payload, as the server announces it. -/
def announced (length : Nat) : Bytes :=
  [UInt8.ofNat (length >>> 24), UInt8.ofNat (length >>> 16), UInt8.ofNat (length >>> 8),
    UInt8.ofNat (length &&& 0xff)]

theorem announced_joined {length : Nat} (small : length ≤ 8192) :
    (octetAt (announced length) 0).toNat <<< 24 ||| (octetAt (announced length) 1).toNat <<< 16 |||
      (octetAt (announced length) 2).toNat <<< 8 ||| (octetAt (announced length) 3).toNat =
        length := by
  have top : octetAt (announced length) 0 = 0 := by
    have none : length >>> 24 = 0 := by
      rw [Nat.shiftRight_eq_div_pow]
      omega
    calc octetAt (announced length) 0 = UInt8.ofNat (length >>> 24) := rfl
      _ = 0 := by rw [none]; rfl
  have low : (octetAt (announced length) 1).toNat <<< 16 |||
      (octetAt (announced length) 2).toNat <<< 8 ||| (octetAt (announced length) 3).toNat =
        length := join24 (by omega)
  rw [top, UInt8.toNat_zero, Nat.zero_shiftLeft, Nat.zero_or]
  exact low

def earlyPayload (json : Bytes) : Bytes :=
  kEarlyMagic ++ (announced json.length ++ json)

def clientSettings : Http2Frame := ⟨h2Settings, 0, 0, []⟩

/-- What `Bootstrap` sends before it reads a frame. -/
def greetingChunks : List Bytes :=
  recordChunks kH2Preface ++ recordChunks clientSettings.octets

theorem Carries.bootstrap (lawful : crypto.Lawful) {json : Bytes} (small : json.length ≤ 8192)
    {frames : List WireFrame}
    (carries : link.Carries crypto first sent (earlyPayload json ++ WireFrame.text frames)) :
    ∃ status next, link.bootstrap crypto = (status, some (.ofBytes json), next) ∧
      Exchanged crypto first (sent ++ greetingChunks) 32 false false frames (status, next) := by
  rw [earlyPayload, List.append_assoc, List.append_assoc] at carries
  obtain ⟨afterMagic, magic, carries⟩ := carries.readRaw lawful (by decide)
  obtain ⟨afterLength, length, carries⟩ :=
    carries.readRaw lawful (show 4 ≤ kH2MaxFramePayload by decide)
  obtain ⟨afterJson, text, carries⟩ := carries.readRaw lawful (by rw [kH2MaxFramePayload]; omega)
  obtain ⟨afterPreface, preface, carries⟩ := carries.writeMessage lawful kH2Preface
  obtain ⟨last, settings, carries⟩ := carries.writeFrame lawful clientSettings (Nat.zero_le _)
  have magic : link.readRaw crypto 5 = (.ok, kEarlyMagic, afterMagic) := magic
  have length : afterMagic.readRaw crypto 4 = (.ok, announced json.length, afterLength) := length
  have settings : afterPreface.writeFrame crypto h2Settings 0 0 [] = (.ok, last) := settings
  refine ⟨(last.exchangeSettings crypto 32 false false).1,
    (last.exchangeSettings crypto 32 false false).2, ?_, ?_⟩
  · rw [Http2Link.bootstrap, magic]
    dsimp only
    rw [if_neg (not_not_intro rfl), length]
    dsimp only
    rw [announced_joined small, if_neg (Nat.not_lt.mpr small), text]
    dsimp only
    rw [preface]
    dsimp only
    rw [settings]
  · rw [List.append_assoc] at carries
    exact carries.exchangeSettings lawful 32

end Http2Link

/-! ## The session -/

/-- What the calls meet when the server has published its key and sends `greeting` and `wire` on
the upgraded connection, in deliveries of any sizes. -/
structure Reached {crypto : Crypto} (server ephemeral : KeyPair crypto) (greeting : Greeting)
    (wire : Bytes) (reception : Reception) : Prop where
  published : Published server.pub reception.key
  fresh : reception.ephemeral = some (ephemeral.priv, ephemeral.pub)
  connect : reception.upgrade.connect = .ok
  takes : reception.upgrade.takes = true
  quiet : pauses reception.upgrade.tls = []
  arrives : arriving reception.upgrade.tls = greeting.octets ++ wire
  small : greeting.octets.length ≤ kUpgradeBufSize
  /-- What comes with the end of the reply has room behind it. -/
  kept : min (arrivedWith greeting.octets.length reception.upgrade.tls) kUpgradeBufSize ≤
    greeting.head.length + kUpgradeBodySize

namespace ControlSession

open ControlConn (recordChunks sealRecords Carriable)
open Http2Link (greetingChunks earlyPayload Exchanged)

variable {crypto : Crypto}

theorem establish_reached (lawful : crypto.Lawful)
    (machine server ephemeral answer : KeyPair crypto) (host : CString) (plain : 10 ∉ host.bytes)
    (version : UInt16) :
    ∃ (request : Bytes) (keys : NoiseTransportKeys) (response : Buffer kResponsePayloadLen),
      ControlServer.accept crypto server answer request = some (machine.pub, keys, response.bytes) ∧
      ∀ (session : ControlSession) (reception : Reception) (greeting : Greeting)
        (chunks : List Bytes) (wire json : Bytes) (frames : List WireFrame),
        session.params = some ⟨host, version, machine.priv, machine.pub⟩ →
        Reached server ephemeral greeting wire reception → greeting.payload = response →
        sealRecords crypto keys.recvKey 0 chunks = some wire →
        (∀ chunk ∈ chunks, Carriable chunk) → json.length ≤ 8192 →
        chunks.flatten = earlyPayload json ++ WireFrame.text frames →
        ∃ conn link status, conn.txKey = keys.sendKey ∧ conn.txCounter = 0 ∧
          Exchanged crypto conn greetingChunks 32 false false frames (status, link) ∧
          ∃ lastError, session.establish crypto reception = (status, request,
            { session with
              http2 := some { Http2Session.init conn session.http2 with link }
              earlyJson := .ofBytes json, lastError }) := by
  obtain ⟨request, keys, response, readMessage2, accepted, reads, handshakes⟩ :=
    ControlClient.wholeHandshake_accepted lawful machine server ephemeral answer host plain version
  refine ⟨request, keys, response, accepted, ?_⟩
  intro session reception greeting chunks wire json frames configured reached same sealed
    carriable small text
  subst same
  obtain ⟨client, answered, quiet, fits, delivered⟩ := ControlClient.handshake_answered
    reached.small reached.quiet reached.arrives reached.kept reads
  have handshake := handshakes reception reached.published reached.fresh reached.connect
    reached.takes
  rw [answered] at handshake
  have carries := Http2Session.carries_init sealed carriable text fits delivered quiet
    session.http2
  obtain ⟨status, link, bootstrapped, exchanged⟩ := carries.bootstrap lawful small
  refine ⟨.init client.tls keys client.pending, link, status, rfl, rfl, exchanged, ?_⟩
  rw [establish, configured]
  dsimp only
  rw [handshake]
  dsimp only
  rw [bootstrapped]
  dsimp only
  split
  next ok =>
    subst ok
    exact ⟨_, rfl⟩
  next => exact ⟨_, rfl⟩

/-- How a call ends that opens a session and does this registration on it. -/
structure Completes (crypto : Crypto) (keys : NoiseTransportKeys) (request json : Bytes)
    (frames : List WireFrame) (decoder : HpackDecoder)
    (registers : Http2Client → Status × RegisterResult × Http2Client)
    (outcome : Status × Option RegisterResult × Bytes × ControlSession) : Prop where
  request : outcome.2.2.1 = request
  early : outcome.2.2.2.earlyJson = .ofBytes json
  opened : ∀ opening rest, frames = opening ++ rest → Opening 32 false false opening →
    let registered :=
      registers { incoming := rest.map fun frame => .ok frame.toHttp2Frame, decoder }
    outcome.1 = registered.1 ∧ outcome.2.1 = some registered.2.1 ∧
      ∃ http2, outcome.2.2.2.http2 = some http2 ∧
        sealRecords crypto keys.sendKey 0 (greetingChunks ++
            (acknowledgements opening ++ registered.2.2.outgoing).flatMap fun frame =>
              recordChunks frame.octets) = some http2.link.sent
  refused : (∀ opening, opening <+: frames → ¬ Opening 32 false false opening) →
    outcome.1 ≠ .ok ∧ outcome.2.1 = none

/-- Establish, then register. -/
def establishAndRegister (crypto : Crypto) (what : String) (params : ControlParams) (nodePub : Key)
    (hostname authKey followup : Option CString) (reception : Reception)
    (session : ControlSession) : Status × Option RegisterResult × Bytes × ControlSession :=
  match session.establish crypto reception with
  | (.ok, request, session) =>
      let (status, result, session) := session.registerOn crypto what params.host params.version
        nodePub hostname authKey followup
      (status, some result, request, session)
  | (status, request, session) => (status, none, request, session)

theorem registerOn_eq {session : ControlSession} {http2 next : Http2Session}
    (opened : session.http2 = some http2) (what : String) {host : CString} {version : UInt16}
    {nodePub : Key} {hostname authKey followup : Option CString} {status : Status}
    {result : RegisterResult} (registered : http2.register crypto host version nodePub hostname
      authKey followup = (status, result, next)) :
    ∃ lastError, session.registerOn crypto what host version nodePub hostname authKey followup =
      (status, result, { session with http2 := some next, lastError }) := by
  rw [registerOn, opened]
  dsimp only
  rw [registered]
  dsimp only
  split
  next ok =>
    subst ok
    exact ⟨_, rfl⟩
  next => exact ⟨_, rfl⟩

theorem completes (lawful : crypto.Lawful) {keys : NoiseTransportKeys} {request json : Bytes}
    {frames : List WireFrame} {session : ControlSession} {reception : Reception}
    {conn : ControlConn} {link : Http2Link} {status : Status} {lastError : Bytes}
    (txKey : conn.txKey = keys.sendKey) (txCounter : conn.txCounter = 0)
    (exchanged : Exchanged crypto conn greetingChunks 32 false false frames (status, link))
    (established : session.establish crypto reception = (status, request,
      { session with
        http2 := some { Http2Session.init conn session.http2 with link }
        earlyJson := .ofBytes json, lastError }))
    (what : String) (params : ControlParams) (nodePub : Key)
    (hostname authKey followup : Option CString) :
    Completes crypto keys request json frames
      ((session.http2.map fun last => last.decoder).getD {})
      (Tailscale.register params.host params.version nodePub hostname authKey followup)
      (session.establishAndRegister crypto what params nodePub hostname authKey followup
        reception) := by
  rw [establishAndRegister, established]
  cases exchanged with
  | @ok opening rest next opens carries =>
      have mirrors := @Http2Session.mirrors_fresh crypto conn conn _ link rest carries session.http2
      have registered := mirrors.register lawful params.host params.version nodePub hostname
        authKey followup
      generalize result : Http2Session.register crypto params.host params.version nodePub hostname
        authKey followup _ = left at registered
      generalize asked : Tailscale.register params.host params.version nodePub hostname authKey
        followup _ = right at registered
      obtain @⟨status, answer, next, client, mirrors⟩ := registered
      obtain ⟨more, -, carried⟩ := mirrors.carries
      have sealed := carried.seals.sealRecords
      rw [txKey, txCounter, List.append_assoc, ← List.flatMap_append] at sealed
      dsimp only
      obtain ⟨lastError, ended⟩ := @registerOn_eq crypto { session with
        http2 := some { Http2Session.init conn session.http2 with link }
        earlyJson := .ofBytes json, lastError } _ next rfl what _ _ _ _ _ _ _ _ result
      rw [ended]
      refine ⟨rfl, rfl, fun other rest' same others => ?_, fun never => ?_⟩
      · obtain ⟨rfl, rfl⟩ := opens.unique others same
        rw [asked]
        exact ⟨rfl, rfl, next, rfl, sealed⟩
      · exact (never opening ⟨rest, rfl⟩ opens).elim
  | failed notOk never =>
      have refused : ∀ opening rest, frames = opening ++ rest →
          ¬ Opening 32 false false opening :=
        fun opening rest whole => never opening ⟨rest, whole.symm⟩
      split
      next ok =>
        cases ok
        exact (notOk rfl).elim
      next failure =>
        cases failure
        exact ⟨rfl, rfl, fun opening rest whole opens => (refused opening rest whole opens).elim,
          fun _ => ⟨notOk, rfl⟩⟩

theorem connect_eq (params : ControlParams) (nodePub : Key) (hostname authKey : Option CString)
    (reception : Reception) (session : ControlSession) :
    session.connect crypto params nodePub hostname authKey reception =
      (session.setParams params).establishAndRegister crypto "register failed: " params nodePub
        hostname authKey none reception := rfl

theorem pollAuthorized_eq (params : ControlParams) (nodePub : Key)
    (hostname authURL : Option CString) (reception : Reception) (session : ControlSession) :
    session.pollAuthorized crypto params.host params.version nodePub hostname authURL reception =
      session.establishAndRegister crypto "followup register failed: " params nodePub hostname
        none authURL reception := rfl

/-- The server learns from the upgrade request who the machine is, and has its keys. Whatever it
then sends, in deliveries of any sizes, a call ends with its status and with its result as the
registration does over the frames behind the opening, and the server can open all that the
machine has written; without an opening there is no registration. -/
theorem session_registers (crypto : Crypto) (lawful : crypto.Lawful)
    (machine server ephemeral answer : KeyPair crypto) (host : CString) (plain : 10 ∉ host.bytes)
    (version : UInt16) :
    ∃ (request : Bytes) (keys : NoiseTransportKeys) (response : Buffer kResponsePayloadLen),
      ControlServer.accept crypto server answer request = some (machine.pub, keys, response.bytes) ∧
      ∀ (session : ControlSession) (reception : Reception) (greeting : Greeting)
        (chunks : List Bytes) (wire json : Bytes) (frames : List WireFrame) (nodePub : Key)
        (hostname authKey authURL : Option CString),
        Reached server ephemeral greeting wire reception → greeting.payload = response →
        sealRecords crypto keys.recvKey 0 chunks = some wire →
        (∀ chunk ∈ chunks, Carriable chunk) → json.length ≤ 8192 →
        chunks.flatten = earlyPayload json ++ WireFrame.text frames →
        let params : ControlParams := ⟨host, version, machine.priv, machine.pub⟩
        let decoder := (session.http2.map fun last => last.decoder).getD {}
        Completes crypto keys request json frames decoder
            (Tailscale.register host version nodePub hostname authKey none)
            (session.connect crypto params nodePub hostname authKey reception) ∧
          (session.params = some params →
            Completes crypto keys request json frames decoder
              (Tailscale.register host version nodePub hostname none authURL)
              (session.pollAuthorized crypto host version nodePub hostname authURL reception)) := by
  obtain ⟨request, keys, response, accepted, establishes⟩ :=
    establish_reached lawful machine server ephemeral answer host plain version
  refine ⟨request, keys, response, accepted, ?_⟩
  intro session reception greeting chunks wire json frames nodePub hostname authKey authURL reached
    same sealed carriable small text params decoder
  constructor
  · obtain ⟨conn, link, status, txKey, txCounter, exchanged, lastError, established⟩ :=
      establishes (session.setParams params) reception greeting chunks wire json frames rfl reached
        same sealed carriable small text
    rw [connect_eq]
    exact completes lawful txKey txCounter exchanged established "register failed: " params nodePub
      hostname authKey none
  · intro configured
    obtain ⟨conn, link, status, txKey, txCounter, exchanged, lastError, established⟩ :=
      establishes session reception greeting chunks wire json frames configured reached same sealed
        carriable small text
    rw [pollAuthorized_eq params]
    exact completes lawful txKey txCounter exchanged established "followup register failed: "
      params nodePub hostname none authURL

namespace Sample

open Transparent (pair)

def host : CString := .ofBytes (ascii "host")

def settings : WireFrame := ⟨⟨h2Settings, 0, 0, []⟩, by decide, by decide⟩

def ack : WireFrame := ⟨settingsAck, by decide, by decide⟩

def opening : List WireFrame := [settings, ack]

/-- Status 200, and a machine that is authorized. -/
def registered : List WireFrame := [
  ⟨⟨h2Headers, h2FlagEndHeaders, 1, [0x88]⟩, by decide, by decide⟩,
  ⟨⟨h2Data, h2FlagEndStream, 1, ascii "\x7b\"MachineAuthorized\":true\x7d"⟩, by decide, by decide⟩]

def document : Bytes :=
  ascii "\x7b\"publicKey\":\"mkey:" ++ (toHex (pair 2).pub.bytes).bytes ++ ascii "\"\x7d"

def key : TlsMeeting where
  tls := putBack (ascii "HTTP/1.1 200 OK\r\n\r\n" ++ document) []

theorem published : Published (pair 2).pub key where
  connect := rfl
  takes := rfl
  quiet := rfl
  clean := by decide +kernel
  response := by
    refine ⟨ascii "OK", document, by decide +kernel, by decide +kernel, ascii "\x7b", ascii ":\"",
      ascii "\"\x7d", by decide +kernel, by decide +kernel, by decide +kernel⟩

theorem opens : Opening 32 false false opening :=
  Opening.cons_iff.mpr ⟨rfl, by decide, Opening.cons_iff.mpr ⟨rfl, by decide,
    Opening.nil_iff.mpr rfl⟩⟩

/-- A reply with this payload, in a chunk of its own. -/
def greeting (payload : Buffer kResponsePayloadLen) : Greeting :=
  { ControlClient.Sample.greeting with payload }

theorem length_head (payload : Buffer kResponsePayloadLen) :
    (greeting payload).head.length = 36 := by
  show (ascii "HTTP/1.1 101 Switching Protocols\r\n\r\n").length = 36
  decide

theorem arrivedWith_putBack {front : Bytes} (some : front ≠ []) (rest : List (Delivery UInt8)) :
    arrivedWith front.length (putBack front rest) = front.length := by
  cases front with
  | nil => exact (some rfl).elim
  | cons first more =>
      rw [putBack, arrivedWith, List.length_cons, if_pos (Nat.le_refl _)]

def reception (payload : Buffer kResponsePayloadLen) (wire : Bytes) : Reception where
  key
  upgrade := { tls := putBack (greeting payload).octets (putBack wire []) }
  ephemeral := some ((pair 3).priv, (pair 3).pub)

theorem reached (payload : Buffer kResponsePayloadLen) (wire : Bytes) :
    @Reached Transparent.crypto (pair 2) (pair 3) (greeting payload) wire
      (reception payload wire) where
  published := published
  fresh := rfl
  connect := rfl
  takes := rfl
  quiet := by simp [reception, pauses]
  arrives := by simp [reception, arriving]
  small := by
    rw [ControlClient.Greeting.length_octets, length_head]
    decide
  kept := by
    have alone : arrivedWith (greeting payload).octets.length (reception payload wire).upgrade.tls =
        (greeting payload).octets.length :=
      arrivedWith_putBack (List.ne_nil_of_length_pos (by
        rw [ControlClient.Greeting.length_octets]
        exact Nat.succ_pos _)) _
    rw [alone, ControlClient.Greeting.length_octets, length_head]
    decide

def records : Bytes := earlyPayload [] ++ WireFrame.text (opening ++ registered)

theorem answered : (Tailscale.register host 144 (pair 1).pub none none none
    { incoming := registered.map fun frame => .ok frame.toHttp2Frame }).1 = .ok := by
  decide +kernel

end Sample

open ControlSession.Sample Transparent in
theorem session_registers_sample : ∃ (request : Bytes) (reception : Reception),
    (∃ keys response, ControlServer.accept Transparent.crypto (pair 2) (pair 4) request =
      some ((pair 1).pub, keys, response)) ∧
    (({} : ControlSession).connect Transparent.crypto ⟨host, 144, (pair 1).priv, (pair 1).pub⟩
      (pair 1).pub none none reception).1 = .ok := by
  obtain ⟨request, keys, response, accepted, registers⟩ :=
    session_registers Transparent.crypto Transparent.lawful (pair 1) (pair 2) (pair 3) (pair 4)
      host (by decide) 144
  obtain ⟨next, wire, wrote⟩ := ControlConn.writeMessage_total Transparent.lawful records
    { tls := [], txKey := keys.recvKey, rxKey := keys.sendKey, pending := [] }
  have sealed := (ControlConn.seals_writeMessage wrote).sealRecords
  have completes := (registers {} (reception response wire) (greeting response)
    (recordChunks records) wire [] (opening ++ registered) (pair 1).pub none none none
    (reached response wire) rfl sealed (ControlConn.carriable_recordChunks (by decide))
    (Nat.zero_le _) (by simp [records])).1
  refine ⟨request, reception response wire, ⟨keys, response.bytes, accepted⟩, ?_⟩
  exact (completes.opened opening registered rfl opens).1.trans answered

end ControlSession

end Sotoportego.Tailscale
