import Sotoportego.Tailscale.ControlClient
import Sotoportego.Tailscale.ControlConnProperties

/-!
# What is left after the handshake

The reply is read into one buffer, but only 256 octets from the end of its header are looked
at. What arrives beyond them with the last octet of the Noise response is dropped.
-/

set_option autoImplicit false

namespace Sotoportego.Tailscale

open Octets Deliveries CText

/-! ## Reading octets in order -/

namespace ControlConn

/-- Reads of these sizes, one after the other; `none` when one of them fails. -/
def readAll : List Nat → ControlConn → Option Bytes
  | [], _ => some []
  | len :: lens, conn =>
      match conn.readFull len with
      | (.ok, got, next) => (readAll lens next).map (got ++ ·)
      | _ => none

/-- Whatever the sizes, the reads give exactly these octets and nothing after them. -/
def ReadsExactly (conn : ControlConn) (octets : Bytes) : Prop :=
  ∀ lens, conn.readAll lens =
    if lens.sum ≤ octets.length then some (octets.take lens.sum) else none

theorem readAll_eq {lens : List Nat} :
    ∀ {conn : ControlConn}, pauses conn.tls = [] →
      conn.readAll lens =
        if lens.sum ≤ conn.unread.length then some (conn.unread.take lens.sum) else none := by
  induction lens with
  | nil =>
      intro conn quiet
      simp [readAll]
  | cons len lens continued =>
      intro conn quiet
      have full := readFull_fullRead conn len
      rw [readAll]
      generalize conn.readFull len = result at *
      cases full with
      | @ok got next length kept same =>
          have onward := continued (same.trans quiet)
          simp only [onward, ← kept, List.sum_cons, List.length_append, length,
            Nat.add_le_add_iff_left]
          split
          next enough =>
            rw [← length, List.take_length_add_append]
            rfl
          next => rfl
      | wouldBlock same spent =>
          rw [quiet] at spent
          cases spent
      | entryNotFound positive finished =>
          rw [finished, List.sum_cons, if_neg (by rw [List.length_nil]; omega)]
      | torn some short kept member =>
          rw [quiet] at member
          cases member
      | short some short kept =>
          rw [List.sum_cons, if_neg (by rw [← kept]; omega)]

theorem readsExactly_iff {conn : ControlConn} (quiet : pauses conn.tls = []) (octets : Bytes) :
    conn.ReadsExactly octets ↔ conn.unread = octets := by
  constructor
  · intro exactly
    have wanted := exactly [octets.length]
    have held := exactly [conn.unread.length]
    rw [readAll_eq quiet] at wanted held
    have sum_single : ∀ len : Nat, [len].sum = len := fun len => by simp
    by_cases shorter : conn.unread.length ≤ octets.length
    · by_cases longer : octets.length ≤ conn.unread.length
      · rw [if_pos (by rwa [sum_single]), if_pos (by rw [sum_single]), sum_single,
          List.take_of_length_le shorter, List.take_length] at wanted
        exact Option.some.inj wanted
      · rw [if_neg (by rwa [sum_single]), if_pos (by rw [sum_single])] at wanted
        cases wanted
    · rw [if_pos (by rw [sum_single]), if_neg (by rwa [sum_single])] at held
      cases held
  · rintro rfl lens
    exact readAll_eq quiet

end ControlConn

namespace ControlClient

/-! ## Finding the end of the header -/

theorem headerEnd_le {front : Bytes} :
    ∀ {position : Nat}, headerEnd front = some position → 4 ≤ position ∧ position ≤ front.length := by
  induction front with
  | nil =>
      intro position found
      cases found
  | cons octet rest continued =>
      intro position found
      rw [headerEnd] at found
      by_cases here : [13, 10, 13, 10] <+: octet :: rest
      · rw [if_pos here] at found
        cases found
        exact ⟨Nat.le_refl _, here.length_le⟩
      · rw [if_neg here] at found
        obtain ⟨inner, onward, rfl⟩ := Option.map_eq_some_iff.mp found
        have bounds := continued onward
        rw [List.length_cons]
        omega

theorem headerEnd_append {front : Bytes} :
    ∀ {position : Nat}, headerEnd front = some position → ∀ back,
      headerEnd (front ++ back) = some position := by
  induction front with
  | nil =>
      intro position found
      cases found
  | cons octet rest continued =>
      intro position found back
      rw [headerEnd] at found
      rw [List.cons_append, headerEnd]
      by_cases here : [13, 10, 13, 10] <+: octet :: rest
      · have still : [13, 10, 13, 10] <+: octet :: (rest ++ back) :=
          here.trans (List.prefix_append _ _)
        rw [if_pos here] at found
        rw [if_pos still, found]
      · rw [if_neg here] at found
        obtain ⟨inner, onward, rfl⟩ := Option.map_eq_some_iff.mp found
        have later := continued onward back
        have absent : ¬ [13, 10, 13, 10] <+: octet :: (rest ++ back) := by
          intro present
          have bounds := headerEnd_le onward
          refine here (List.prefix_of_prefix_length_le present
            (List.prefix_append (octet :: rest) back) ?_)
          simp only [List.length_cons, List.length_nil]
          omega
        rw [if_neg absent, later]
        rfl

/-! ## The server's reply -/

/-- A 101 response whose header fits the buffer, and the Noise response record. -/
structure Greeting where
  head : Bytes
  payload : Buffer kResponsePayloadLen
  terminated : headerEnd head = some head.length
  accepted : memmem (ascii " 101 ") head = true
  fits : head.length ≤ kUpgradeBufSize

namespace Greeting

def record (greeting : Greeting) : Bytes :=
  [controlMsgResponse, 0, 48] ++ greeting.payload.bytes

def octets (greeting : Greeting) : Bytes :=
  greeting.head ++ greeting.record

@[simp] theorem length_record (greeting : Greeting) : greeting.record.length = 51 := by
  simp [record, kResponsePayloadLen]

theorem length_octets (greeting : Greeting) :
    greeting.octets.length = greeting.head.length + 51 := by
  rw [octets, List.length_append, length_record]

variable {greeting : Greeting} {front back continuation : Bytes}

/-- The header ends where it should, as soon as it has arrived. -/
theorem headerEnd_front (stream : front ++ back = greeting.octets ++ continuation) :
    headerEnd front =
      if greeting.head.length ≤ front.length then some greeting.head.length else none := by
  have whole : greeting.head <+: front ++ back := by
    rw [stream, octets, List.append_assoc]
    exact List.prefix_append _ _
  split
  next arrived =>
    obtain ⟨rest, rfl⟩ := List.prefix_of_prefix_length_le whole (List.prefix_append _ _) arrived
    exact headerEnd_append greeting.terminated rest
  next missing =>
    obtain ⟨rest, split⟩ :=
      List.prefix_of_prefix_length_le (List.prefix_append front back) whole (by omega)
    cases found : headerEnd front with
    | none => rfl
    | some position =>
        have bounds := headerEnd_le found
        have terminated := greeting.terminated
        rw [← split, headerEnd_append found rest, split] at terminated
        have same := Option.some.inj terminated
        omega

theorem any_headerEnd_front (stream : front ++ back = greeting.octets ++ continuation) :
    (headerEnd front).any (fun position =>
      kRecordHeaderLen + kResponsePayloadLen ≤ front.length - position) =
      decide (greeting.octets.length ≤ front.length) := by
  rw [headerEnd_front stream, length_octets, kRecordHeaderLen, kResponsePayloadLen]
  split
  next arrived =>
    rw [Option.any_some, decide_eq_decide]
    omega
  next missing =>
    rw [Option.any_none, eq_comm, decide_eq_false_iff_not]
    omega

end Greeting

/-! ## Reading the reply -/

theorem receive_kept (buf : Bytes) (found : Option Nat) (tls : List (Delivery UInt8)) :
    (receive buf found tls).buf ++ arriving (receive buf found tls).tls = buf ++ arriving tls := by
  fun_induction receive buf found tls with
  | case1 buf found tls room got rest answered found' enough =>
      rw [List.append_assoc, (read_bytes answered).1]
  | case2 buf found tls room got rest answered found' short continued =>
      rw [continued, List.append_assoc, (read_bytes answered).1]
  | case3 buf found tls room answer rest other answered =>
      cases answer with
      | bytes got => exact (other got rfl).elim
      | timeout => rw [(read_timeout answered).1]
      | ended =>
          obtain ⟨rfl, rfl⟩ := read_ended answered
          rfl
  | case4 buf found tls full => rfl

theorem receive_pauses (buf : Bytes) (found : Option Nat) (tls : List (Delivery UInt8))
    (quiet : pauses tls = []) : pauses (receive buf found tls).tls = [] := by
  fun_induction receive buf found tls with
  | case1 buf found tls room got rest answered found' enough =>
      exact (read_bytes answered).2.1.trans quiet
  | case2 buf found tls room got rest answered found' short continued =>
      exact continued ((read_bytes answered).2.1.trans quiet)
  | case3 buf found tls room answer rest other answered =>
      cases answer with
      | bytes got => exact (other got rfl).elim
      | timeout =>
          rw [(read_timeout answered).2] at quiet
          cases quiet
      | ended =>
          obtain ⟨rfl, rfl⟩ := read_ended answered
          rfl
  | case4 buf found tls full => exact quiet

theorem receive_bounded {buf : Bytes} (found : Option Nat) (tls : List (Delivery UInt8))
    (bounded : buf.length ≤ kUpgradeBufSize) :
    (receive buf found tls).buf.length ≤ kUpgradeBufSize := by
  fun_induction receive buf found tls with
  | case1 buf found tls room got rest answered found' enough =>
      have short := (read_bytes answered).2.2.1
      rw [List.length_append]
      omega
  | case2 buf found tls room got rest answered found' short continued =>
      have small := (read_bytes answered).2.2.1
      refine continued ?_
      rw [List.length_append]
      omega
  | case3 buf found tls room answer rest other answered => exact bounded
  | case4 buf found tls full => exact bounded

theorem or_headerEnd {buf : Bytes} {found : Option Nat} (searched : found = headerEnd buf)
    (got : Bytes) : found.or (headerEnd (buf ++ got)) = headerEnd (buf ++ got) := by
  cases before : headerEnd buf with
  | none =>
      rw [searched, before]
      rfl
  | some position =>
      rw [searched, before, headerEnd_append before got]
      rfl

theorem receive_headerEnd {buf : Bytes} {found : Option Nat} (tls : List (Delivery UInt8))
    (searched : found = headerEnd buf) :
    (receive buf found tls).headerEnd = headerEnd (receive buf found tls).buf := by
  fun_induction receive buf found tls with
  | case1 buf found tls room got rest answered found' enough => exact or_headerEnd searched got
  | case2 buf found tls room got rest answered found' short continued =>
      exact continued (or_headerEnd searched got)
  | case3 buf found tls room answer rest other answered => exact searched
  | case4 buf found tls full => exact searched

/-- The loop breaks once the whole reply is in the buffer. -/
theorem enough_iff {greeting : Greeting} {continuation buf got back : Bytes} {found : Option Nat}
    (searched : found = headerEnd buf)
    (stream : (buf ++ got) ++ back = greeting.octets ++ continuation) :
    ((found.or (headerEnd (buf ++ got))).any fun position =>
        kRecordHeaderLen + kResponsePayloadLen ≤ (buf ++ got).length - position) = true ↔
      greeting.octets.length ≤ (buf ++ got).length := by
  rw [or_headerEnd searched got, Greeting.any_headerEnd_front stream, decide_eq_true_iff]

/-- Reading stops with the chunk that brings the last octet of the reply, or at the end of the
buffer. -/
theorem length_receive {greeting : Greeting} {continuation : Bytes}
    (small : greeting.octets.length ≤ kUpgradeBufSize) {buf : Bytes} {found : Option Nat}
    {tls : List (Delivery UInt8)} (quiet : pauses tls = [])
    (stream : buf ++ arriving tls = greeting.octets ++ continuation)
    (searched : found = headerEnd buf) (short : buf.length < greeting.octets.length) :
    (receive buf found tls).buf.length =
      min (buf.length + arrivedWith (greeting.octets.length - buf.length) tls) kUpgradeBufSize := by
  fun_induction receive buf found tls with
  | case1 buf found tls room got rest answered found' enough =>
      have kept : buf ++ got ++ arriving rest = greeting.octets ++ continuation := by
        rw [List.append_assoc, (read_bytes answered).1, stream]
      have complete := (enough_iff searched kept).mp enough
      rw [List.length_append] at complete ⊢
      have size := (arrivedWith_read answered
        (by omega : greeting.octets.length - buf.length ≤ _)).2 (by omega)
      omega
  | case2 buf found tls room got rest answered found' missing continued =>
      have kept : buf ++ got ++ arriving rest = greeting.octets ++ continuation := by
        rw [List.append_assoc, (read_bytes answered).1, stream]
      have incomplete : ¬ greeting.octets.length ≤ (buf ++ got).length :=
        fun complete => missing ((enough_iff searched kept).mpr complete)
      have onward := continued ((read_bytes answered).2.1.trans quiet) kept
        (or_headerEnd searched got) (by omega)
      rw [List.length_append] at incomplete onward
      have size := (arrivedWith_read answered
        (by omega : greeting.octets.length - buf.length ≤ _)).1 (by omega)
      rw [onward, size, Nat.sub_sub, Nat.add_assoc]
  | case3 buf found tls room answer rest other answered =>
      cases answer with
      | bytes got => exact (other got rfl).elim
      | timeout =>
          rw [(read_timeout answered).2] at quiet
          cases quiet
      | ended =>
          obtain ⟨rfl, rfl⟩ := read_ended answered
          have lengths := congrArg List.length stream
          simp only [arriving, List.append_nil, List.length_append] at lengths
          omega
  | case4 buf found tls full => omega

/-! ## The handshake -/

theorem readUpgradeResponse_ok {client next : ControlClient} {bodyCap : Nat} {body : Bytes}
    (answered : client.readUpgradeResponse bodyCap = (.ok body, next)) :
    ∃ position, (receive [] none client.tls).headerEnd = some position ∧
      body = ((receive [] none client.tls).buf.drop position).take bodyCap ∧
      next = { client with tls := (receive [] none client.tls).tls } := by
  rw [readUpgradeResponse] at answered
  cases found : (receive [] none client.tls).headerEnd with
  | none =>
      simp only [found] at answered
      cases answered
  | some position =>
      simp only [found] at answered
      split at answered
      next switching =>
        cases answered
        exact ⟨position, rfl, rfl, rfl⟩
      next refused => cases answered

/-- What a successful handshake has seen and keeps. -/
theorem handshake_ok {readMessage2 : Bytes → Option NoiseTransportKeys}
    {client next : ControlClient} {keys : NoiseTransportKeys}
    (succeeds : client.handshake readMessage2 = (.ok keys, next)) (fresh : client.pending = []) :
    ∃ body middle type payloadLen,
      client.readUpgradeResponse kUpgradeBodySize = (.ok body, middle) ∧
      decodeRecordHeader body = some (type, payloadLen) ∧
      kRecordHeaderLen + payloadLen ≤ body.length ∧ next.tls = middle.tls ∧
      next.pending = (body.drop (kRecordHeaderLen + payloadLen)).take kPendingSize := by
  rw [handshake] at succeeds
  cases answered : client.readUpgradeResponse kUpgradeBodySize with
  | mk result middle =>
  rw [answered] at succeeds
  cases result with
  | error status => cases succeeds
  | ok body =>
  obtain ⟨position, -, -, kept⟩ := readUpgradeResponse_ok answered
  simp only at succeeds
  cases decoded : decodeRecordHeader body with
  | none =>
      simp only [decoded] at succeeds
      cases succeeds
  | some header =>
      obtain ⟨type, payloadLen⟩ := header
      simp only [decoded] at succeeds
      split at succeeds
      next => cases succeeds
      split at succeeds
      next => cases succeeds
      split at succeeds
      next => cases succeeds
      next complete =>
        split at succeeds
        next => cases succeeds
        next verified =>
          refine ⟨body, middle, type, payloadLen, rfl, decoded, by omega, ?_⟩
          split at succeeds
          next more =>
            cases succeeds
            exact ⟨rfl, rfl⟩
          next exact =>
            cases succeeds
            refine ⟨rfl, ?_⟩
            rw [kept, List.drop_of_length_le (by omega), List.take_nil]
            exact fresh

section Reply

variable {greeting : Greeting} {continuation : Bytes} {tls : List (Delivery UInt8)}

/-- The record header of a body that is read from behind the greeting's header. -/
theorem decode_body {body back : Bytes} {type : UInt8} {payloadLen : Nat}
    (stream : body ++ back = greeting.record ++ continuation)
    (decoded : decodeRecordHeader body = some (type, payloadLen)) : payloadLen = 48 := by
  rw [decodeRecordHeader] at decoded
  split at decoded
  next => cases decoded
  next long =>
    rw [kRecordHeaderLen] at long
    rw [Greeting.record] at stream
    have three : ∃ first second third more, body = first :: second :: third :: more := by
      obtain _ | ⟨first, _ | ⟨second, _ | ⟨third, more⟩⟩⟩ := body
      · exact absurd (Nat.succ_pos 2) long
      · exact absurd (Nat.le_refl 2).step long
      · exact absurd (Nat.lt_succ_self 2) long
      · exact ⟨first, second, third, more, rfl⟩
    obtain ⟨first, second, third, more, rfl⟩ := three
    simp only [List.cons_append, List.cons.injEq] at stream
    cases decoded
    rw [stream.2.1, stream.2.2.1]
    show (0 : UInt8).toNat <<< 8 ||| (48 : UInt8).toNat = 48
    decide

/-- What was read past the reply and looked at, and what is still on the stream. -/
theorem unread_handshake {readMessage2 : Bytes → Option NoiseTransportKeys}
    {next : ControlClient} {keys : NoiseTransportKeys}
    (arrives : arriving tls = greeting.octets ++ continuation)
    (succeeds : ({ tls } : ControlClient).handshake readMessage2 = (.ok keys, next)) :
    greeting.octets.length ≤ (receive [] none tls).buf.length ∧
      next.tls = (receive [] none tls).tls ∧
      next.pending = (((receive [] none tls).buf.drop greeting.octets.length).take
        (kUpgradeBodySize - 51)) := by
  obtain ⟨body, middle, type, payloadLen, answered, decoded, long, sameTls, pending⟩ :=
    handshake_ok succeeds rfl
  obtain ⟨position, found, cut, kept⟩ := readUpgradeResponse_ok answered
  change body = ((receive [] none tls).buf.drop position).take kUpgradeBodySize at cut
  have stream : (receive [] none tls).buf ++ arriving (receive [] none tls).tls =
      greeting.octets ++ continuation := by
    rw [receive_kept, List.nil_append, arrives]
  have searched : (receive [] none tls).headerEnd = headerEnd (receive [] none tls).buf :=
    receive_headerEnd tls rfl
  rw [Greeting.headerEnd_front stream, found] at searched
  split at searched
  next arrived =>
    cases searched
    have past : (receive [] none tls).buf.drop greeting.head.length ++
        arriving (receive [] none tls).tls = greeting.record ++ continuation := by
      have dropped := congrArg (List.drop greeting.head.length) stream
      rw [List.drop_append_of_le_length arrived, Greeting.octets, List.append_assoc,
        List.drop_left] at dropped
      exact dropped
    have split : body ++ (((receive [] none tls).buf.drop greeting.head.length).drop
        kUpgradeBodySize ++ arriving (receive [] none tls).tls) = greeting.record ++ continuation := by
      rw [cut, ← List.append_assoc, List.take_append_drop, past]
    have payload := decode_body split decoded
    subst payload
    have inside := congrArg List.length cut
    rw [List.length_take, List.length_drop] at inside
    rw [kRecordHeaderLen] at long pending
    refine ⟨?_, ?_, ?_⟩
    · rw [Greeting.length_octets]
      omega
    · rw [sameTls, kept]
    · rw [pending, cut, List.drop_take, List.take_take, List.drop_drop, Greeting.length_octets]
      rfl
  next missing => cases searched

end Reply

/-- After a successful handshake the connection reads exactly the continuation if and only if
the chunk that brings the last octet of the reply, or the buffer, ends within 256 octets of the
header. -/
theorem continuation_kept_iff (readMessage2 : Bytes → Option NoiseTransportKeys)
    (greeting : Greeting) (continuation : Bytes) (tls : List (Delivery UInt8))
    (chunked : .timeout ∉ tls) (arrives : arriving tls = greeting.octets ++ continuation)
    (keys : NoiseTransportKeys) (next : ControlClient)
    (succeeds : ({ tls } : ControlClient).handshake readMessage2 = (.ok keys, next)) :
    (ControlConn.init next.tls keys next.pending).ReadsExactly continuation ↔
      min (arrivedWith greeting.octets.length tls) kUpgradeBufSize ≤
        greeting.head.length + kUpgradeBodySize := by
  obtain ⟨complete, sameTls, pending⟩ := unread_handshake arrives succeeds
  have quiet := pauses_eq_nil chunked
  have small : greeting.octets.length ≤ kUpgradeBufSize :=
    Nat.le_trans complete (receive_bounded none tls (Nat.zero_le _))
  have searched : none = headerEnd [] := rfl
  have size := length_receive small quiet (by rw [List.nil_append, arrives]) searched
    (by rw [Greeting.length_octets]; exact Nat.succ_pos _)
  rw [List.length_nil, Nat.zero_add, Nat.sub_zero] at size
  have stream := receive_kept [] none tls
  rw [List.nil_append, arrives] at stream
  have still : pauses next.tls = [] := by
    rw [sameTls]
    exact receive_pauses [] none tls quiet
  rw [ControlConn.readsExactly_iff still, ← size]
  generalize receive [] none tls = received at *
  have rest : continuation = received.buf.drop greeting.octets.length ++ arriving received.tls := by
    have dropped := congrArg (List.drop greeting.octets.length) stream
    rw [List.drop_append_of_le_length complete, List.drop_left] at dropped
    exact dropped.symm
  have unread : (ControlConn.init next.tls keys next.pending).unread =
      (received.buf.drop greeting.octets.length).take (kUpgradeBodySize - 51) ++
        arriving received.tls := by
    have fits : next.pending.length ≤ Tailscale.kPendingSize := by
      rw [pending, List.length_take]
      exact Nat.le_trans (Nat.min_le_left _ _) (by decide)
    rw [ControlConn.unread, ControlConn.init, if_pos fits, sameTls, pending]
  have reply := greeting.length_octets
  rw [unread, rest, List.append_cancel_right_eq, List.take_eq_self_iff, List.length_drop,
    Greeting.length_octets, kUpgradeBodySize]
  omega

/-! A short header, and everything in one chunk. -/

namespace Sample

def keys : NoiseTransportKeys := ⟨Buffer.zero 32, Buffer.zero 32⟩

def readMessage2 (_ : Bytes) : Option NoiseTransportKeys := some keys

def greeting : Greeting where
  head := ascii "HTTP/1.1 101 Switching Protocols\r\n\r\n"
  payload := Buffer.zero 48
  terminated := by decide
  accepted := by decide
  fits := by decide

def continuation (size : Nat) : Bytes := List.replicate size 7

def tls (size : Nat) : List (Delivery UInt8) :=
  putBack (greeting.octets ++ continuation size) []

def client (size : Nat) : ControlClient :=
  (({ tls := tls size } : ControlClient).handshake readMessage2).2

def conn (size : Nat) : ControlConn :=
  .init (client size).tls keys (client size).pending

theorem succeeds : ({ tls := tls 206 } : ControlClient).handshake readMessage2 =
    (.ok keys, client 206) := by decide +kernel

theorem succeeds' : ({ tls := tls 205 } : ControlClient).handshake readMessage2 =
    (.ok keys, client 205) := by decide +kernel

end Sample

theorem bundled_record_lost : ¬ ∀ (readMessage2 : Bytes → Option NoiseTransportKeys)
    (greeting : Greeting) (continuation : Bytes) (tls : List (Delivery UInt8)),
    .timeout ∉ tls → arriving tls = greeting.octets ++ continuation →
    ∀ keys next, ({ tls } : ControlClient).handshake readMessage2 = (.ok keys, next) →
      (ControlConn.init next.tls keys next.pending).ReadsExactly continuation := by
  intro kept
  have exactly := kept Sample.readMessage2 Sample.greeting (Sample.continuation 206)
    (Sample.tls 206) (by decide) (by decide +kernel) Sample.keys _ Sample.succeeds [206]
  have lost : (Sample.conn 206).readAll [206] = none := by decide +kernel
  rw [Sample.conn, exactly] at lost
  revert lost
  decide +kernel

theorem continuation_kept_iff_sample :
    ((Sample.conn 206).ReadsExactly (Sample.continuation 206) ↔ False) ∧
      ((Sample.conn 205).ReadsExactly (Sample.continuation 205) ↔ True) := by
  constructor
  · refine (continuation_kept_iff Sample.readMessage2 Sample.greeting (Sample.continuation 206)
      (Sample.tls 206) (by decide) (by decide +kernel) Sample.keys _ (Sample.succeeds)).trans ?_
    decide +kernel
  · refine (continuation_kept_iff Sample.readMessage2 Sample.greeting (Sample.continuation 205)
      (Sample.tls 205) (by decide) (by decide +kernel) Sample.keys _ (Sample.succeeds')).trans ?_
    decide +kernel

end ControlClient

end Sotoportego.Tailscale
