import Sotoportego.Tailscale.ControlConn

/-!
# What the record stream delivers

The octets ahead of a connection are sealed records. A read gives the next plaintext,
stops at a timeout between two records with nothing consumed, or fails at a timeout inside
the record.
-/

set_option autoImplicit false

namespace Sotoportego.Tailscale

open Octets Deliveries WireGuard

namespace ControlConn

/-- Records of these plaintexts, one after the other. -/
def sealRecords (crypto : Crypto) (key : Key) : UInt64 → List Bytes → Option Bytes
  | _, [] => some []
  | counter, chunk :: more => do
      let frame ← sealRecord crypto key counter chunk
      let rest ← sealRecords crypto key (counter + 1) more
      return frame ++ rest

/-- The octets that records of these plaintexts take. -/
def wireSize (chunks : List Bytes) : Nat :=
  (chunks.map fun chunk => kRecordHeaderLen + chunk.length + kTagLen).sum

/-- The octets still to be read, from whichever buffer. -/
def unread (conn : ControlConn) : Bytes :=
  conn.pending ++ arriving conn.tls

/-- The stream ahead is exactly the records of these plaintexts. -/
def Ahead (crypto : Crypto) (conn : ControlConn) (chunks : List Bytes) : Prop :=
  sealRecords crypto conn.rxKey conn.rxCounter chunks = some conn.unread

@[simp] theorem wireSize_nil : wireSize [] = 0 := rfl

theorem wireSize_cons (chunk : Bytes) (more : List Bytes) :
    wireSize (chunk :: more) = chunk.length + 19 + wireSize more := by
  simp only [wireSize, kRecordHeaderLen, kTagLen, List.map_cons, List.sum_cons]
  omega

/-! ## Reading octets -/

/-- What `_ReadFull` can do. -/
inductive FullRead (conn : ControlConn) (len : Nat) : Status × Bytes × ControlConn → Prop where
  | ok {got : Bytes} {next : ControlConn} :
      got.length = len → got ++ next.unread = conn.unread →
      pauses next.tls = pauses conn.tls → FullRead conn len (.ok, got, next)
  | wouldBlock {next : ControlConn} :
      next.unread = conn.unread →
      pauses conn.tls = conn.unread.length :: pauses next.tls →
      FullRead conn len (.wouldBlock, [], next)
  | entryNotFound {next : ControlConn} :
      0 < len → conn.unread = [] → FullRead conn len (.entryNotFound, [], next)
  | torn {got : Bytes} {next : ControlConn} :
      0 < got.length → got.length < len → got ++ next.unread = conn.unread →
      next.unread.length ∈ pauses conn.tls → FullRead conn len (.ioError, got, next)
  | short {got : Bytes} {next : ControlConn} :
      0 < got.length → got.length < len → got = conn.unread →
      FullRead conn len (.ioError, got, next)

theorem readFull_unchanged (conn : ControlConn) (len : Nat) :
    (conn.readFull len).2.2.rxKey = conn.rxKey ∧
      (conn.readFull len).2.2.rxCounter = conn.rxCounter := by
  unfold readFull
  simp only
  split <;> exact ⟨rfl, rfl⟩

theorem readFull_fullRead (conn : ControlConn) (len : Nat) :
    FullRead conn len (conn.readFull len) := by
  by_cases buffered : len ≤ conn.pending.length
  · have nothing : len - (conn.pending.take len).length = 0 := by
      rw [List.length_take]
      omega
    simp only [readFull, nothing, collect_zero, List.append_nil]
    refine .ok ?_ ?_ rfl
    · rw [List.length_take]
      omega
    · simp only [unread]
      rw [← List.append_assoc, List.take_append_drop]
  · have everything : conn.pending.take len = conn.pending := List.take_of_length_le (by omega)
    have drained : conn.pending.drop len = [] := List.drop_of_length_le (by omega)
    have whole := taken_arriving (len - conn.pending.length) conn.tls
    have lengths := length_taken (len - conn.pending.length) conn.tls
    have spent := pauses_collect (len - conn.pending.length) conn.tls
    have last := rest_of_ended (len - conn.pending.length) conn.tls
    simp only [readFull, everything, drained]
    generalize collect (len - conn.pending.length) conn.tls = read at *
    obtain ⟨stop, taken, rest⟩ := read
    have kept : conn.pending ++ taken ++ arriving rest = conn.unread := by
      rw [unread, ← whole, List.append_assoc]
    cases stop with
    | full =>
        refine .ok ?_ kept spent.symm
        rw [List.length_append, lengths.1 rfl]
        omega
    | timeout =>
        have short : taken.length < len - conn.pending.length := lengths.2 (by simp)
        by_cases started : (conn.pending ++ taken).length = 0
        · have nothing : conn.pending ++ taken = [] := List.length_eq_zero_iff.mp started
          simp only [nothing, List.nil_append] at kept ⊢
          refine .wouldBlock kept ?_
          rw [← kept]
          exact spent
        · simp only [if_neg started]
          refine .torn (Nat.pos_of_ne_zero started) ?_ kept ?_
          · rw [List.length_append]
            omega
          · simp only [spent]
            exact List.mem_cons_self
    | ended =>
        have short : taken.length < len - conn.pending.length := lengths.2 (by simp)
        have finished : rest = [] := last rfl
        subst finished
        rw [arriving, List.append_nil] at kept
        by_cases started : (conn.pending ++ taken).length = 0
        · have nothing : conn.pending ++ taken = [] := List.length_eq_zero_iff.mp started
          simp only [nothing] at kept ⊢
          exact .entryNotFound (by omega) kept.symm
        · simp only [if_neg started]
          refine .short (Nat.pos_of_ne_zero started) ?_ kept
          rw [List.length_append]
          omega

/-! ## Reading records -/

section Records

variable {crypto : Crypto} (lawful : crypto.Lawful)

include lawful

theorem sealRecord_some (key : Key) (counter : UInt64) (chunk : Bytes) :
    ∃ cipher, sealRecord crypto key counter chunk =
        some (recordHeader (chunk.length + kTagLen) ++ cipher) ∧
      cipher.length = chunk.length + kTagLen ∧
      aeadOpen crypto key counter cipher = some chunk := by
  obtain ⟨cipher, sealed, length⟩ := lawful.chachaSeal_total key (buildNonce counter) chunk []
  have opened := lawful.chachaOpen_seal _ _ _ _ _ sealed
  refine ⟨cipher, ?_, length, ?_⟩
  · rw [sealRecord, aeadSeal, sealed]
    rfl
  · rw [aeadOpen, if_neg (by rw [length, kTagLen]; omega), opened]

theorem length_sealRecords {key : Key} {chunks : List Bytes} :
    ∀ {counter : UInt64} {wire : Bytes},
      sealRecords crypto key counter chunks = some wire → wire.length = wireSize chunks := by
  induction chunks with
  | nil =>
      intro counter wire sealed
      cases sealed
      rfl
  | cons chunk more continued =>
      intro counter wire sealed
      obtain ⟨cipher, frame, length, -⟩ := sealRecord_some lawful key counter chunk
      rw [sealRecords, frame] at sealed
      cases later : sealRecords crypto key (counter + 1) more with
      | none =>
          rw [later] at sealed
          cases sealed
      | some rest =>
          rw [later] at sealed
          cases sealed
          have onward := continued later
          rw [wireSize_cons, List.length_append, List.length_append, length, onward, recordHeader,
            kTagLen]
          simp only [List.length_cons, List.length_nil]
          omega

theorem length_unread {conn : ControlConn} {chunks : List Bytes} (ahead : conn.Ahead crypto chunks) :
    conn.unread.length = wireSize chunks :=
  length_sealRecords lawful ahead

/-- The first record ahead and what follows it. -/
theorem ahead_cons {conn : ControlConn} {chunk : Bytes} {more : List Bytes}
    (ahead : conn.Ahead crypto (chunk :: more)) :
    ∃ cipher rest, conn.unread = recordHeader (chunk.length + kTagLen) ++ (cipher ++ rest) ∧
      cipher.length = chunk.length + kTagLen ∧
      aeadOpen crypto conn.rxKey conn.rxCounter cipher = some chunk ∧
      sealRecords crypto conn.rxKey (conn.rxCounter + 1) more = some rest := by
  obtain ⟨cipher, frame, length, opened⟩ :=
    sealRecord_some lawful conn.rxKey conn.rxCounter chunk
  rw [Ahead, sealRecords, frame] at ahead
  cases later : sealRecords crypto conn.rxKey (conn.rxCounter + 1) more with
  | none =>
      rw [later] at ahead
      cases ahead
  | some rest =>
      rw [later] at ahead
      refine ⟨cipher, rest, ?_, length, opened, rfl⟩
      rw [← List.append_assoc]
      exact (Option.some.inj ahead).symm

end Records

/-- What `ReadRecord` can do over a stream of whole records. -/
inductive RecordRead (crypto : Crypto) (conn : ControlConn) :
    List Bytes → Record × ControlConn → Prop where
  | opened {chunk : Bytes} {more : List Bytes} {next : ControlConn} :
      next.Ahead crypto more → pauses next.tls = pauses conn.tls →
      RecordRead crypto conn (chunk :: more) (.opened chunk, next)
  | blocked {chunks : List Bytes} {next : ControlConn} :
      next.Ahead crypto chunks → pauses conn.tls = wireSize chunks :: pauses next.tls →
      RecordRead crypto conn chunks (.blocked, next)
  | ended {next : ControlConn} : RecordRead crypto conn [] (.ended, next)
  | torn {chunk : Bytes} {more : List Bytes} {next : ControlConn} {after : Nat} :
      after ∈ pauses conn.tls → wireSize more < after → after < wireSize (chunk :: more) →
      RecordRead crypto conn (chunk :: more) (.failed, next)

theorem Ahead.of_unchanged {crypto : Crypto} {conn next : ControlConn} {chunks : List Bytes}
    (ahead : conn.Ahead crypto chunks) (key : next.rxKey = conn.rxKey)
    (counter : next.rxCounter = conn.rxCounter) (same : next.unread = conn.unread) :
    next.Ahead crypto chunks := by
  rw [Ahead, key, counter, same]
  exact ahead

theorem readRecord_nil {crypto : Crypto} {conn : ControlConn} (cap : Nat)
    (ahead : conn.Ahead crypto []) :
    RecordRead crypto conn [] (conn.readRecord crypto cap) := by
  have nothing : conn.unread = [] := (Option.some.inj ahead).symm
  have header := readFull_fullRead conn kRecordHeaderLen
  have unchanged := readFull_unchanged conn kRecordHeaderLen
  unfold readRecord
  generalize conn.readFull kRecordHeaderLen = result at *
  cases header with
  | ok length kept _ =>
      rw [nothing] at kept
      rw [(List.append_eq_nil_iff.mp kept).1] at length
      cases length
  | wouldBlock kept spent =>
      rw [nothing] at spent
      exact .blocked (ahead.of_unchanged unchanged.1 unchanged.2 kept) spent
  | entryNotFound positive finished => exact .ended
  | torn some _ kept _ =>
      rw [nothing] at kept
      rw [(List.append_eq_nil_iff.mp kept).1] at some
      cases some
  | short some _ kept =>
      rw [kept, nothing] at some
      cases some

/-- A well-formed header leads to the ciphertext. -/
theorem readRecord_of_header (crypto : Crypto) {conn next : ControlConn} {cap cipherLen : Nat}
    (read : conn.readFull kRecordHeaderLen = (.ok, recordHeader cipherLen, next))
    (tagged : kTagLen ≤ cipherLen) (small : cipherLen ≤ kMaxPlaintextPerRecord + kTagLen)
    (room : kMaxPlaintextPerRecord ≤ cap) :
    conn.readRecord crypto cap =
      match next.readFull cipherLen with
      | (.ok, cipher, last) =>
          match aeadOpen crypto last.rxKey last.rxCounter cipher with
          | some plain => (.opened plain, { last with rxCounter := last.rxCounter + 1 })
          | none => (.failed, last)
      | (_, _, last) => (.failed, last) := by
  simp only [kMaxPlaintextPerRecord, kTagLen] at tagged small room
  have decoded : (octetAt (recordHeader cipherLen) 1).toNat <<< 8 |||
      (octetAt (recordHeader cipherLen) 2).toNat = cipherLen := Octets.join16 (by omega)
  have record : octetAt (recordHeader cipherLen) 0 = controlMsgRecord := rfl
  rw [readRecord, read]
  simp only [decoded, record, ne_eq, not_true_eq_false, false_or]
  exact (if_neg (by rw [kTagLen]; omega)).trans ((if_neg (by rw [kTagLen]; omega)).trans
    ((if_neg (by rw [kMaxPlaintextPerRecord, kTagLen]; omega)).trans rfl))

theorem readRecord_cons {crypto : Crypto} (lawful : crypto.Lawful) {conn : ControlConn} {cap : Nat}
    {chunk : Bytes} {more : List Bytes} (ahead : conn.Ahead crypto (chunk :: more))
    (small : chunk.length ≤ kMaxPlaintextPerRecord) (room : kMaxPlaintextPerRecord ≤ cap) :
    RecordRead crypto conn (chunk :: more) (conn.readRecord crypto cap) := by
  obtain ⟨cipher, rest, octets, length, opened, onward⟩ := ahead_cons lawful ahead
  have total := length_unread lawful ahead
  have later : rest.length = wireSize more := length_sealRecords lawful onward
  have size : wireSize (chunk :: more) = 3 + (cipher.length + rest.length) := by
    rw [wireSize_cons, length, later, kTagLen]
    omega
  have tagged : kTagLen ≤ cipher.length := by omega
  have positive : 0 < cipher.length := Nat.lt_of_lt_of_le (by decide) tagged
  have header := readFull_fullRead conn kRecordHeaderLen
  have unchanged := readFull_unchanged conn kRecordHeaderLen
  cases result : conn.readFull kRecordHeaderLen with
  | mk status answer =>
  rw [result] at header unchanged
  cases header with
  | entryNotFound positive finished =>
      rw [finished, List.length_nil] at total
      omega
  | @wouldBlock next kept spent =>
      rw [total] at spent
      rw [readRecord, result]
      exact .blocked (ahead.of_unchanged unchanged.1 unchanged.2 kept) spent
  | @torn got next some short kept member =>
      have split := congrArg List.length kept
      rw [List.length_append, total] at split
      rw [kRecordHeaderLen] at short
      rw [readRecord, result]
      exact .torn member (by omega) (by omega)
  | short some short kept =>
      rw [kRecordHeaderLen] at short
      have split := congrArg List.length kept
      omega
  | @ok got next read kept spent =>
      rw [octets] at kept
      obtain ⟨rfl, remaining⟩ := List.append_inj kept read
      have remains := congrArg List.length remaining
      rw [List.length_append] at remains
      rw [← length] at result
      rw [readRecord_of_header crypto result tagged (by omega) room]
      have body := readFull_fullRead next cipher.length
      have still := readFull_unchanged next cipher.length
      generalize next.readFull cipher.length = read at *
      cases body with
      | entryNotFound positive finished =>
          rw [finished, List.length_nil] at remains
          omega
      | wouldBlock same waits =>
          have member : next.unread.length ∈ pauses conn.tls := by
            rw [← spent, waits]
            exact List.mem_cons_self
          exact .torn member (by rw [remains]; omega) (by rw [remains]; omega)
      | torn some short same member =>
          have split := congrArg List.length same
          rw [List.length_append, remains] at split
          rw [spent] at member
          exact .torn member (by omega) (by omega)
      | short some short same =>
          have split := congrArg List.length same
          omega
      | @ok got last exact same waits =>
          rw [remaining] at same
          obtain ⟨rfl, after⟩ := List.append_inj same exact
          have key : last.rxKey = conn.rxKey := still.1.trans unchanged.1
          have counter : last.rxCounter = conn.rxCounter := still.2.trans unchanged.2
          simp only [key, counter, opened]
          refine .opened ?_ (waits.trans spent)
          show sealRecords crypto conn.rxKey (conn.rxCounter + 1) more = some last.unread
          rw [onward, after]

theorem readRecord_recordRead {crypto : Crypto} (lawful : crypto.Lawful) {conn : ControlConn}
    {cap : Nat} {chunks : List Bytes} (ahead : conn.Ahead crypto chunks)
    (small : ∀ chunk ∈ chunks, chunk.length ≤ kMaxPlaintextPerRecord)
    (room : kMaxPlaintextPerRecord ≤ cap) :
    RecordRead crypto conn chunks (conn.readRecord crypto cap) := by
  cases chunks with
  | nil => exact readRecord_nil cap ahead
  | cons chunk more => exact readRecord_cons lawful ahead (small chunk List.mem_cons_self) room

/-! ## Writing records -/

/-- How `WriteMessage` splits. -/
def recordChunks (data : Bytes) : List Bytes :=
  if data.length ≤ kMaxPlaintextPerRecord then [data]
  else data.take kMaxPlaintextPerRecord :: recordChunks (data.drop kMaxPlaintextPerRecord)
termination_by data.length
decreasing_by
  rw [List.length_drop]
  simp only [kMaxPlaintextPerRecord] at *
  omega

@[simp] theorem flatten_recordChunks (data : Bytes) : (recordChunks data).flatten = data := by
  fun_induction recordChunks data with
  | case1 data fits => simp
  | case2 data long continued =>
      rw [List.flatten_cons, continued, List.take_append_drop]

/-- A chunk that one record can carry. -/
def Carriable (chunk : Bytes) : Prop :=
  0 < chunk.length ∧ chunk.length ≤ kMaxPlaintextPerRecord

instance : DecidablePred Carriable :=
  fun _ => inferInstanceAs (Decidable (_ ∧ _))

theorem carriable_recordChunks {data : Bytes} (some : 0 < data.length) :
    ∀ chunk ∈ recordChunks data, Carriable chunk := by
  fun_induction recordChunks data with
  | case1 data fits =>
      intro chunk member
      rw [List.mem_singleton.mp member]
      exact ⟨some, fits⟩
  | case2 data long continued =>
      intro chunk member
      cases List.mem_cons.mp member with
      | inl here =>
          rw [here, Carriable, List.length_take]
          simp only [kMaxPlaintextPerRecord] at *
          omega
      | inr later =>
          refine continued ?_ chunk later
          rw [List.length_drop]
          omega

/-- Sealing goes on from `before` to `after` by writing these chunks. -/
def Seals (crypto : Crypto) (before after : ControlConn) (chunks : List Bytes) (written : Bytes) :
    Prop :=
  after.txKey = before.txKey ∧ ∀ later rest,
    sealRecords crypto before.txKey after.txCounter later = some rest →
      sealRecords crypto before.txKey before.txCounter (chunks ++ later) = some (written ++ rest)

theorem Seals.refl (crypto : Crypto) (conn : ControlConn) : Seals crypto conn conn [] [] :=
  ⟨rfl, fun _ _ sealed => sealed⟩

theorem Seals.trans {crypto : Crypto} {first second third : ControlConn}
    {chunks more : List Bytes} {written rest : Bytes}
    (head : Seals crypto first second chunks written) (tail : Seals crypto second third more rest) :
    Seals crypto first third (chunks ++ more) (written ++ rest) := by
  refine ⟨tail.1.trans head.1, ?_⟩
  intro later remaining sealed
  rw [List.append_assoc, List.append_assoc]
  refine head.2 _ _ ?_
  have onward := tail.2 later remaining
  rw [head.1] at onward
  exact onward sealed

theorem Seals.sealRecords {crypto : Crypto} {before after : ControlConn} {chunks : List Bytes}
    {written : Bytes} (seals : Seals crypto before after chunks written) :
    ControlConn.sealRecords crypto before.txKey before.txCounter chunks = some written := by
  have closed := seals.2 [] [] rfl
  rwa [List.append_nil, List.append_nil] at closed

theorem seals_sealRecord {crypto : Crypto} {conn : ControlConn} {chunk frame : Bytes}
    (sealed : sealRecord crypto conn.txKey conn.txCounter chunk = some frame) :
    Seals crypto conn { conn with txCounter := conn.txCounter + 1 } [chunk] frame := by
  refine ⟨rfl, ?_⟩
  intro later rest onward
  rw [List.singleton_append, ControlConn.sealRecords, sealed, onward]
  rfl

/-- A message is one record and, when it is longer, the message that the rest makes. -/
theorem writeMessage_cases {crypto : Crypto} {conn next : ControlConn} {data written : Bytes}
    (wrote : conn.writeMessage crypto data = some (next, written)) :
    ∃ frame, sealRecord crypto conn.txKey conn.txCounter (data.take kMaxPlaintextPerRecord) =
        some frame ∧
      if data.length ≤ kMaxPlaintextPerRecord then
        next = { conn with txCounter := conn.txCounter + 1 } ∧ written = frame
      else ∃ more, written = frame ++ more ∧
        writeMessage crypto { conn with txCounter := conn.txCounter + 1 }
          (data.drop kMaxPlaintextPerRecord) = some (next, more) := by
  rw [writeMessage] at wrote
  obtain ⟨frame, sealed, wrote⟩ := Option.bind_eq_some_iff.mp wrote
  refine ⟨frame, sealed, ?_⟩
  by_cases fits : data.length ≤ kMaxPlaintextPerRecord
  · rw [if_pos fits] at wrote ⊢
    cases wrote
    exact ⟨rfl, rfl⟩
  · rw [if_neg fits] at wrote ⊢
    obtain ⟨⟨last, more⟩, onward, same⟩ := Option.bind_eq_some_iff.mp wrote
    cases same
    exact ⟨more, rfl, onward⟩

theorem seals_writeMessage {crypto : Crypto} {conn : ControlConn} {data : Bytes} :
    ∀ {next : ControlConn} {written : Bytes},
      conn.writeMessage crypto data = some (next, written) →
      Seals crypto conn next (recordChunks data) written := by
  fun_induction recordChunks data generalizing conn with
  | case1 data fits =>
      intro next written wrote
      obtain ⟨frame, sealed, last⟩ := writeMessage_cases wrote
      rw [if_pos fits] at last
      obtain ⟨rfl, rfl⟩ := last
      rw [List.take_of_length_le fits] at sealed
      exact seals_sealRecord sealed
  | case2 data long continued =>
      intro next written wrote
      obtain ⟨frame, sealed, last⟩ := writeMessage_cases wrote
      rw [if_neg long] at last
      obtain ⟨more, rfl, onward⟩ := last
      exact (seals_sealRecord sealed).trans (continued onward)

end ControlConn

end Sotoportego.Tailscale
