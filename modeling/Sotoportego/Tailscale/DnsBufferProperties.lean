import Sotoportego.Tailscale.CidrProperties
import Sotoportego.Tailscale.DnsBuffer
import Sotoportego.Tailscale.MagicDnsProperties

/-!
# The answers in their buffers

The readers at offsets return what the readers of octets left do, and never leave the query.
A query is answered exactly when it asks for a host of the table, but for names that go on
behind a NUL: the hosts are compared as C strings.
-/

set_option autoImplicit false

namespace Sotoportego.Tailscale.DnsBuffer

open Octets CText Checked Ipv4

/-! ## Reading -/

theorem fetch16_join {buf : Bytes} {off : Nat} (inside : off + 1 < buf.length) :
    fetch16 buf off = .ok (join16 buf off) :=
  fetch16_ok inside

/-- Both readers stop alike, and the offset is where the octets left begin. -/
theorem decodeQname_at (buf : Bytes) (off : Nat) (name : Bytes) :
    ∃ found, decodeQname buf off name = .ok found ∧
      Tailscale.decodeQname (buf.drop off) name =
        found.map (fun (stop, out) => (out, buf.drop stop)) ∧
      ∀ stop ∈ found.map Prod.fst, off < stop ∧ stop ≤ buf.length := by
  induction off, name using decodeQname.induct buf with
  | case1 off name inside continued =>
      rw [decodeQname, dif_pos inside, fetch_ok inside, ok_bind, drop_eq inside,
        Tailscale.decodeQname]
      split
      · refine ⟨_, rfl, rfl, ?_⟩
        rintro stop ⟨⟩
        exact ⟨Nat.lt_succ_self off, inside⟩
      · split
        · exact ⟨none, rfl, rfl, by simp⟩
        · have left : (buf.drop (off + 1)).length = buf.length - (off + 1) := List.length_drop
          split
          · next outside =>
            have short : (buf.drop (off + 1)).length < (octetAt buf off).toNat := by omega
            rw [if_pos short]
            exact ⟨none, rfl, rfl, by simp⟩
          · next fits =>
            have room : ¬ (buf.drop (off + 1)).length < (octetAt buf off).toNat := by omega
            rw [if_neg room, fetchRange_ok (by omega), ok_bind, List.drop_drop]
            obtain ⟨found, run, same, bounds⟩ := continued (octetAt buf off) fits
              ((buf.drop (off + 1)).take (octetAt buf off).toNat)
            refine ⟨found, run, same, ?_⟩
            intro stop member
            have bound := bounds stop member
            omega
  | case2 off name outside =>
      rw [decodeQname, dif_neg outside, drop_end outside, Tailscale.decodeQname]
      exact ⟨none, rfl, rfl, by simp⟩

theorem parseQuestion_eq (buf : Bytes) :
    parseQuestion buf = .ok (Tailscale.parseQuestion buf) := by
  rw [parseQuestion, Tailscale.parseQuestion]
  by_cases short : buf.length < 12
  · rw [if_pos short, if_pos short]
    rfl
  · rw [if_neg short, if_neg short, fetch16_join (by omega), ok_bind]
    split
    · rfl
    · rw [fetch16_join (by omega), ok_bind]
      obtain ⟨found, run, same, bounds⟩ := decodeQname_at buf 12 []
      rw [run, same]
      cases found with
      | none => rfl
      | some found =>
          obtain ⟨stop, name⟩ := found
          have bound := (bounds stop rfl).2
          have left : (buf.drop stop).length = buf.length - stop := List.length_drop
          simp only [ok_bind, Option.map_some]
          by_cases cut : stop + 4 > buf.length
          · rw [if_pos cut, if_pos (by omega)]
            rfl
          · rw [if_neg cut, if_neg (by omega), fetch16_join (by omega)]
            simp [join16, octetAt, List.getElem?_drop]

/-- A parsed query holds its header and its question. -/
theorem parseQuestion_room {query name rest : Bytes} {question : Question}
    (parsed : Tailscale.parseQuestion query = some question)
    (decoded : Tailscale.decodeQname (query.drop 12) [] = some (name, rest)) :
    12 ≤ query.length ∧ 4 ≤ rest.length ∧ question.name = name := by
  rw [Tailscale.parseQuestion] at parsed
  by_cases short : query.length < 12
  · rw [if_pos short] at parsed
    cases parsed
  · rw [if_neg short, decoded] at parsed
    split at parsed
    · cases parsed
    · simp only at parsed
      split at parsed
      · cases parsed
      · next room =>
        cases parsed
        exact ⟨Nat.not_lt.mp short, Nat.not_lt.mp room, rfl⟩

/-- A decoded name takes at least its terminating zero. -/
theorem decodeQname_shorter {buf name out rest : Bytes}
    (decoded : Tailscale.decodeQname buf name = some (out, rest)) : rest.length < buf.length := by
  obtain ⟨found, -, same, bounds⟩ := decodeQname_at buf 0 name
  rw [List.drop_zero, decoded] at same
  cases found with
  | none => cases same
  | some found =>
      obtain ⟨stop, _⟩ := found
      cases same
      have bound := bounds stop rfl
      rw [List.length_drop]
      omega

/-! ## Writing -/

theorem putRange_zeros {out : Bytes} {size : Nat} (room : size ≤ out.length) :
    putRange out 0 (List.replicate size 0) = .ok (List.replicate size 0 ++ out.drop size) := by
  have zeroed := @putRange_append [] out (List.replicate size 0) (by rwa [List.length_replicate])
  rwa [List.nil_append, List.nil_append, List.length_nil, List.length_replicate] at zeroed

/-- The header of an answer, as it is set octet by octet. -/
theorem answer_header {out : Bytes} (room : 12 ≤ out.length) (a b c : UInt8) {α : Type}
    (next : Bytes → Access α) :
    (do
      let out ← putRange out 0 (List.replicate 12 0)
      let out ← put out 0 a
      let out ← put out 1 b
      let out ← put out 2 c
      let out ← put out 3 0
      let out ← putRange out 4 [0, 1]
      let out ← putRange out 6 [0, 1]
      next out) = next ([a, b, c, 0, 0, 1, 0, 1, 0, 0, 0, 0] ++ out.drop 12) := by
  rw [putRange_zeros room]
  simp [put, putRange, List.replicate]

theorem resolve_eq (dns : MagicDns) (query out : Bytes) :
    resolve dns query out =
      .ok ((dns.resolve query out.length).1,
        (dns.resolve query out.length).2 ++ out.drop (dns.resolve query out.length).2.length) := by
  rw [resolve, parseQuestion_eq, ok_bind, MagicDns.resolve]
  cases parsed : Tailscale.parseQuestion query with
  | none => rfl
  | some question =>
      simp only
      split
      · rfl
      · split
        · rfl
        · cases (dns.lookup (dns.localName question.name)).bind scanQuad with
          | none => rfl
          | some quad =>
              obtain ⟨a, b, c, d⟩ := quad
              obtain ⟨found, run, same, bounds⟩ := decodeQname_at query 12 []
              simp only [run, same, ok_bind]
              cases found with
              | none => rfl
              | some found =>
                  obtain ⟨stop, name⟩ := found
                  obtain ⟨header, room, -⟩ := parseQuestion_room parsed same
                  obtain ⟨past, inside⟩ := bounds stop rfl
                  have left : (query.drop stop).length = query.length - stop := List.length_drop
                  have size : query.length - (query.drop stop).length = stop := by omega
                  simp only [Option.map_some, size]
                  split
                  · rfl
                  · next large =>
                    rw [fetch_ok (by omega), fetch_ok (by omega), fetch_ok (by omega)]
                    simp only [ok_bind]
                    have question : ((query.drop 12).take (stop + 4 - 12)).length = stop + 4 - 12 := by
                      rw [List.length_take, List.length_drop]
                      omega
                    rw [answer_header (by omega), fetchRange_ok (by omega), ok_bind,
                      putRange_behind (by rfl) (by rw [List.length_drop]; omega), ok_bind,
                      ← List.append_assoc, putRange_behind]
                    · have size : (MagicDns.answer query (stop + 4 - 12) a b c d).length =
                          12 + (stop + 4 - 12 + 16) := by
                        rw [MagicDns.answer, List.length_append, List.length_append, question]
                        rfl
                      rw [size, List.drop_drop, List.drop_drop, question]
                      simp [MagicDns.answer]
                    · rw [List.length_append, question]
                      rfl
                    · simp only [List.length_drop, List.length_cons, List.length_nil]
                      omega

/-! ## The answer to a query -/

def addressOctets (address : Nat) : Bytes :=
  [.ofNat (address / 2 ^ 24), .ofNat (address / 2 ^ 16), .ofNat (address / 2 ^ 8), .ofNat address]

/-- The name, the type and the class a query asks about. -/
def questionOf (query : Bytes) : Bytes :=
  match Tailscale.decodeQname (query.drop 12) [] with
  | none => []
  | some (_, rest) => (query.drop 12).take (query.length - rest.length + 4 - 12)

/-- The id of the query, its question, and one address record. The record names the octet the
question starts at. -/
def response (query : Bytes) (address : Nat) : Bytes :=
  [octetAt query 0, octetAt query 1, 0x84 ||| (octetAt query 2 &&& 0x01), 0, 0, 1, 0, 1, 0, 0, 0, 0] ++
    (questionOf query ++ ([0xc0, 12, 0, 1, 0, 1, 0, 0, 0x01, 0x2c, 0, 4] ++ addressOctets address))

def responseLength (query : Bytes) : Nat := 12 + ((questionOf query).length + 16)

theorem length_response (query : Bytes) (address : Nat) :
    (response query address).length = responseLength query := by
  rw [response, List.length_append, List.length_append]
  rfl

theorem parseIpv4_scan (text : CString) :
    TSPeerSet.parseIpv4 text =
      (scanQuad text).bind fun (a, b, c, d) =>
        if a > 255 ∨ b > 255 ∨ c > 255 ∨ d > 255 then none
        else some (((a * 256 + b) * 256 + c) * 256 + d) := by
  simp [TSPeerSet.parseIpv4, scanQuad, Option.bind_assoc]

theorem ofBytes_self (text : CString) : CString.ofBytes text.bytes = text := by
  cases text with
  | mk bytes plain =>
      exact (CString.mk.injEq _ _ _ _).mpr (ofBytes_bytes plain)

/-- What the four fields of a quad store. -/
theorem scanQuad_quad {text : CString} {address : Nat} (quad : Quad text.bytes address) :
    ∃ a b c d, scanQuad text = some (a, b, c, d) ∧
      addressOctets address = [.ofNat a, .ofNat b, .ofNat c, .ofNat d] := by
  have parsed := parseIpv4_quad quad
  rw [ofBytes_self, parseIpv4_scan] at parsed
  cases scanned : scanQuad text with
  | none =>
      rw [scanned] at parsed
      cases parsed
  | some fields =>
      obtain ⟨a, b, c, d⟩ := fields
      rw [scanned, Option.bind_some] at parsed
      simp only at parsed
      split at parsed
      · cases parsed
      · next small =>
        cases parsed
        refine ⟨a, b, c, d, rfl, ?_⟩
        simp only [addressOctets, List.cons.injEq, ← UInt8.toNat_inj, UInt8.toNat_ofNat', and_true]
        omega

/-! ## The names of the table -/

/-- The table of a domain and its hosts. -/
def table (domain : CString) (hosts : List (CString × CString)) : MagicDns :=
  hosts.foldl (fun dns entry => dns.addHost (some entry.1) (some entry.2))
    (MagicDns.setTailnetDomain {} (some domain))

theorem table_eq (domain : CString) (hosts : List (CString × CString)) :
    table domain hosts =
      { domain := lower domain, hosts := hosts.map fun entry => (lower entry.1, entry.2) } := by
  have added (hosts : List (CString × CString)) (dns : MagicDns) :
      hosts.foldl (fun dns entry => dns.addHost (some entry.1) (some entry.2)) dns =
        { dns with hosts := dns.hosts ++ hosts.map fun entry => (lower entry.1, entry.2) } := by
    induction hosts generalizing dns with
    | nil => simp
    | cons entry hosts continued => rw [List.foldl_cons, continued]; simp [MagicDns.addHost]
  exact added hosts _

/-- What a peer adds is a host with its address. -/
theorem loadPeer_table (domain : CString) (hosts : List (CString × CString)) (peer : NetmapPeer) :
    ∃ more, MagicDns.loadPeer (table domain hosts) peer = table domain (hosts ++ more) := by
  rw [MagicDns.loadPeer]
  split
  · exact ⟨[], by rw [List.append_nil]⟩
  · simp only
    split
    · exact ⟨[(.ofBytes peer.hostname, .ofBytes (firstIpv4 peer.allowedIPs))], by simp [table]⟩
    · exact ⟨[], by rw [List.append_nil]⟩

theorem loadPeers_table (domain : CString) (peers : List NetmapPeer)
    (hosts : List (CString × CString)) :
    ∃ all, peers.foldl MagicDns.loadPeer (table domain hosts) = table domain all := by
  induction peers generalizing hosts with
  | nil => exact ⟨hosts, rfl⟩
  | cons peer peers continued =>
      obtain ⟨more, added⟩ := loadPeer_table domain hosts peer
      rw [List.foldl_cons, added]
      exact continued (hosts ++ more)

theorem act_table (domain : CString) (hosts : List (CString × CString)) (op : MagicDns.Op) :
    ∃ domain' hosts', MagicDns.act (table domain hosts) op = table domain' hosts' := by
  cases op with
  | load netmap =>
      have cleared : (table domain hosts).clear = table domain [] := by
        rw [table_eq, table_eq]
        rfl
      rw [MagicDns.act, MagicDns.loadFromNetmap, cleared]
      cases netmap.dns.domains with
      | nil => exact ⟨domain, loadPeers_table domain netmap.peers []⟩
      | cons first domains => exact ⟨.ofBytes first, loadPeers_table (.ofBytes first) netmap.peers []⟩
  | setDomain given =>
      refine ⟨given.getD .empty, hosts, ?_⟩
      rw [table_eq, table_eq]
      cases given with
      | none => rfl
      | some given => rfl
  | addHost hostname ipv4 =>
      cases hostname with
      | none => exact ⟨domain, hosts, rfl⟩
      | some hostname =>
          cases ipv4 with
          | none => exact ⟨domain, hosts, rfl⟩
          | some ipv4 => exact ⟨domain, hosts ++ [(hostname, ipv4)], by simp [MagicDns.act, table]⟩

/-- Every history leaves such a table. -/
theorem exists_table (history : List MagicDns.Op) :
    ∃ domain hosts, MagicDns.after history = table domain hosts := by
  refine @Run.invariant_run _ _ MagicDns.act (fun dns => ∃ domain hosts, dns = table domain hosts)
    (fun _ => True) ?_ {} history (fun _ _ => trivial) ⟨.empty, [], rfl⟩
  rintro _ op - ⟨domain, hosts, rfl⟩
  exact act_table domain hosts op

/-- Two names that differ in case only. -/
def SameName (first second : Bytes) : Prop := first.map toLower = second.map toLower

/-- The name is the host below the domain, or the host alone. -/
def Asks (domain : CString) (name : Bytes) (host : CString) : Prop :=
  host ≠ .empty ∧
    (domain ≠ .empty ∧ SameName name (host.bytes ++ 46 :: domain.bytes) ∨
      46 ∉ name ∧ SameName name host.bytes)

instance decidableAsks (domain : CString) (name : Bytes) (host : CString) :
    Decidable (Asks domain name host) :=
  inferInstanceAs (Decidable (_ ∧ (_ ∧ (_ : Bytes) = _ ∨ _ ∧ (_ : Bytes) = _)))

theorem lower_empty (text : CString) : lower text = .empty ↔ text = .empty := by
  cases text with
  | mk bytes plain => simp [lower, CString.empty]

/-- Stripping the domain leaves the host that is asked for. -/
theorem asks_iff {name : Bytes} (lowered : name.map toLower = name) (domain host : CString)
    (hosts : List (CString × CString)) :
    Asks domain name host ↔
      (table domain hosts).localName name ≠ [] ∧
        (lower host).bytes = (table domain hosts).localName name := by
  have present : (lower host).bytes ≠ [] ↔ host ≠ .empty := by
    cases host with
    | mk bytes plain => simp [lower, CString.empty]
  have dot : toLower 46 = 46 := by decide
  have below : SameName name (host.bytes ++ 46 :: domain.bytes) ↔
      name = (lower host).bytes ++ 46 :: (lower domain).bytes := by
    rw [SameName, lowered, List.map_append, List.map_cons, dot]
    rfl
  have alone : SameName name host.bytes ↔ name = (lower host).bytes := by
    rw [SameName, lowered]
    rfl
  rw [Asks, below, alone, table_eq, MagicDns.localName]
  simp only [ne_eq, lower_empty]
  by_cases suffix : ¬ domain = .empty ∧ 46 :: (lower domain).bytes <:+ name
  · obtain ⟨set, front, rfl⟩ := suffix
    rw [if_pos ⟨set, List.suffix_append _ _⟩, List.length_append, Nat.add_sub_cancel,
      List.take_left]
    constructor
    · rintro ⟨named, ⟨-, same⟩ | ⟨plain, -⟩⟩
      · have cut := List.append_cancel_right same
        exact ⟨cut ▸ present.mpr named, cut.symm⟩
      · exact absurd (by simp) plain
    · rintro ⟨named, same⟩
      exact ⟨present.mp (same ▸ named), .inl ⟨set, by rw [same]⟩⟩
  · rw [if_neg suffix]
    by_cases plain : 46 ∉ name
    · rw [if_pos plain]
      constructor
      · rintro ⟨named, ⟨set, same⟩ | ⟨-, same⟩⟩
        · exact absurd ⟨set, _, same.symm⟩ suffix
        · exact ⟨same ▸ present.mpr named, same.symm⟩
      · rintro ⟨named, same⟩
        exact ⟨present.mp (same ▸ named), .inr ⟨plain, same.symm⟩⟩
    · rw [if_neg plain]
      constructor
      · rintro ⟨named, ⟨set, same⟩ | ⟨single, -⟩⟩
        · exact absurd ⟨set, _, same.symm⟩ suffix
        · exact absurd single plain
      · rintro ⟨named, -⟩
        exact absurd rfl named

/-- The first entry a name asks for. -/
def named (domain : CString) (hosts : List (CString × CString)) (name : Bytes) :
    Option (CString × CString) :=
  hosts.find? fun entry => Asks domain name entry.1

theorem named_eq_none {domain : CString} {hosts : List (CString × CString)} {name : Bytes}
    (lowered : name.map toLower = name)
    (nameless : (table domain hosts).localName name = [] ∨
      0 ∈ (table domain hosts).localName name) : named domain hosts name = none := by
  refine List.find?_eq_none.mpr fun entry _ asked => ?_
  obtain ⟨present, same⟩ := (asks_iff lowered domain entry.1 hosts).mp (of_decide_eq_true asked)
  obtain empty | cut := nameless
  · exact present empty
  · rw [← same] at cut
    exact (lower entry.1).no_nul cut

/-- A name without a NUL is looked up whole. -/
theorem lookup_named {domain : CString} {hosts : List (CString × CString)} {name : Bytes}
    (lowered : name.map toLower = name) (present : (table domain hosts).localName name ≠ [])
    (whole : 0 ∉ (table domain hosts).localName name) :
    (table domain hosts).lookup ((table domain hosts).localName name) =
      (named domain hosts name).map Prod.snd := by
  have asked (entry : CString × CString) :
      decide (lower entry.1 = .ofBytes ((table domain hosts).localName name)) =
        decide (Asks domain name entry.1) := by
    have same : lower entry.1 = .ofBytes ((table domain hosts).localName name) ↔
        (lower entry.1).bytes = (table domain hosts).localName name := by
      constructor
      · intro equal
        rw [equal, ofBytes_bytes whole]
      · intro equal
        rw [← equal, ofBytes_self]
    rw [decide_eq_decide, same, asks_iff lowered domain entry.1 hosts]
    exact (and_iff_right present).symm
  have entries : (table domain hosts).hosts = hosts.map fun entry => (lower entry.1, entry.2) := by
    rw [table_eq]
  rw [MagicDns.lookup, entries, List.find?_map, Option.map_map, named, ← funext asked]
  rfl

/-! ## Answers -/

/-- A query of type A asks for the entry. -/
def Due (domain : CString) (hosts : List (CString × CString)) (query : Bytes)
    (entry : CString × CString) : Prop :=
  ∃ question, Tailscale.parseQuestion query = some question ∧ question.type = 1 ∧
    named domain hosts question.name = some entry

/-- What a call leaves: an answer exactly when one is due and fits. -/
structure Answers (domain : CString) (hosts : List (CString × CString)) (query out : Bytes)
    (n : Int) (after : Bytes) : Prop where
  length : after.length = out.length
  positive : 0 < n ↔ (∃ entry, Due domain hosts query entry) ∧ responseLength query ≤ out.length
  response : 0 < n → ∃ entry address, Due domain hosts query entry ∧ Quad entry.2.bytes address ∧
    n ≤ out.length ∧ after.take n.toNat = response query address

/-- The call stays inside both buffers and leaves the right answer. -/
def Correct (domain : CString) (hosts : List (CString × CString)) (query out : Bytes) : Prop :=
  ∃ n after, resolve (table domain hosts) query out = .ok (n, after) ∧
    Answers domain hosts query out n after

/-- A query of type A for a name that goes on behind a NUL, where what stands before it is a
host, and the answer fits. -/
def CutShort (domain : CString) (hosts : List (CString × CString)) (query : Bytes) (cap : Nat) :
    Prop :=
  ∃ question, Tailscale.parseQuestion query = some question ∧ question.type = 1 ∧
    0 ∈ (table domain hosts).localName question.name ∧
    ((table domain hosts).lookup ((table domain hosts).localName question.name)).isSome ∧
    responseLength query ≤ cap

section Answering

variable {domain : CString} {hosts : List (CString × CString)}

/-- The query is of type A, and its name leads to an address. -/
def Found (domain : CString) (hosts : List (CString × CString)) (query : Bytes)
    (question : Question) (text : CString) : Prop :=
  Tailscale.parseQuestion query = some question ∧ question.type = 1 ∧
    (table domain hosts).localName question.name ≠ [] ∧
    (table domain hosts).lookup ((table domain hosts).localName question.name) = some text

/-- What is due is found, and by a whole name. -/
theorem Due.found {query : Bytes} {entry : CString × CString} (due : Due domain hosts query entry) :
    ∃ question, Found domain hosts query question entry.2 ∧
      0 ∉ (table domain hosts).localName question.name := by
  obtain ⟨question, parsed, wanted, asked⟩ := due
  have lowered := (parseQuestion_spelled parsed).1.lower
  have present : (table domain hosts).localName question.name ≠ [] := by
    intro empty
    rw [named_eq_none lowered (.inl empty)] at asked
    cases asked
  have whole : 0 ∉ (table domain hosts).localName question.name := by
    intro cut
    rw [named_eq_none lowered (.inr cut)] at asked
    cases asked
  refine ⟨question, ⟨parsed, wanted, present, ?_⟩, whole⟩
  rw [lookup_named lowered present whole, asked]
  rfl

/-- What is found by a whole name is due. -/
theorem Found.due {query : Bytes} {question : Question} {text : CString}
    (found : Found domain hosts query question text)
    (whole : 0 ∉ (table domain hosts).localName question.name) :
    ∃ host, Due domain hosts query (host, text) := by
  obtain ⟨parsed, wanted, present, looked⟩ := found
  rw [lookup_named (parseQuestion_spelled parsed).1.lower present whole] at looked
  obtain ⟨⟨host, address⟩, asked, rfl⟩ := Option.map_eq_some_iff.mp looked
  exact ⟨host, question, parsed, wanted, asked⟩

theorem Found.quad {query : Bytes} {question : Question} {text : CString}
    (found : Found domain hosts query question text)
    (quads : ∀ entry ∈ hosts, ∃ address, Quad entry.2.bytes address) :
    ∃ address, Quad text.bytes address := by
  obtain ⟨-, -, -, looked⟩ := found
  rw [MagicDns.lookup, table_eq, List.find?_map, Option.map_map] at looked
  obtain ⟨entry, first, rfl⟩ := Option.map_eq_some_iff.mp looked
  exact quads entry (List.mem_of_find?_eq_some first)

theorem Found.resolve {query : Bytes} {question : Question} {text : CString} {address : Nat}
    (found : Found domain hosts query question text) (quad : Quad text.bytes address) (cap : Nat) :
    (table domain hosts).resolve query cap =
      if responseLength query ≤ cap then ((responseLength query : Int), response query address)
      else (-1, []) := by
  obtain ⟨parsed, wanted, present, looked⟩ := found
  obtain ⟨a, b, c, d, scanned, octets⟩ := scanQuad_quad quad
  obtain ⟨⟨name, rest⟩, decoded⟩ := Option.isSome_iff_exists.mp (parseQuestion_spelled parsed).2
  obtain ⟨header, room, -⟩ := parseQuestion_room parsed decoded
  have shorter := decodeQname_shorter decoded
  rw [List.length_drop] at shorter
  have question : questionOf query = (query.drop 12).take (query.length - rest.length + 4 - 12) := by
    rw [questionOf, decoded]
  have size : (questionOf query).length = query.length - rest.length + 4 - 12 := by
    rw [question, List.length_take, List.length_drop]
    omega
  have answered : MagicDns.answer query (query.length - rest.length + 4 - 12) a b c d =
      response query address := by
    rw [MagicDns.answer, response, question, octets]
    rfl
  rw [MagicDns.resolve, parsed]
  simp only [wanted, ne_eq, not_true, if_false, if_neg present, looked, Option.bind_some, scanned,
    decoded, answered, responseLength, size]
  by_cases fits : cap < 12 + (query.length - rest.length + 4 - 12) + 16
  · rw [if_pos fits, if_neg (by omega)]
  · rw [if_neg fits, if_pos (by omega), Nat.add_assoc]

theorem resolve_unfound {query : Bytes} (cap : Nat)
    (unfound : ¬ ∃ question text, Found domain hosts query question text) :
    ((table domain hosts).resolve query cap).1 ≤ 0 ∧
      ((table domain hosts).resolve query cap).2 = [] := by
  cases parsed : Tailscale.parseQuestion query with
  | none => simp [MagicDns.resolve, parsed]
  | some question =>
      by_cases wanted : question.type = 1
      · have missing : (table domain hosts).localName question.name = [] ∨
            ((table domain hosts).lookup ((table domain hosts).localName question.name)).bind
              scanQuad = none := by
          refine or_iff_not_imp_left.mpr fun present => ?_
          cases looked : (table domain hosts).lookup _ with
          | none => rfl
          | some text => exact absurd ⟨question, text, parsed, wanted, present, looked⟩ unfound
        rw [MagicDns.resolve_unanswered parsed missing]
        exact ⟨Int.le_refl 0, rfl⟩
      · simp [MagicDns.resolve, parsed, wanted]

/-- The octets of a return that wrote nothing. -/
theorem answers_silent {query out : Bytes} {n : Int} (silent : n ≤ 0)
    (undue : ¬ ((∃ entry, Due domain hosts query entry) ∧ responseLength query ≤ out.length)) :
    Answers domain hosts query out n out where
  length := rfl
  positive := ⟨fun answered => absurd silent (by omega), fun due => absurd due undue⟩
  response answered := absurd silent (by omega)

theorem answers_due {query out : Bytes} {entry : CString × CString} {address : Nat}
    (due : Due domain hosts query entry) (quad : Quad entry.2.bytes address)
    (fits : responseLength query ≤ out.length) :
    Answers domain hosts query out (responseLength query)
      (response query address ++ out.drop (response query address).length) where
  length := by
    rw [List.length_append, List.length_drop, length_response]
    omega
  positive := by
    refine ⟨fun _ => ⟨⟨entry, due⟩, fits⟩, fun _ => ?_⟩
    rw [responseLength]
    omega
  response _ := by
    refine ⟨entry, address, due, quad, by omega, ?_⟩
    rw [Int.toNat_natCast, ← length_response query address, List.take_left]

/-- A name that was cut short is answered, though it asks for no host. -/
theorem CutShort.wrong {query out : Bytes} (cutShort : CutShort domain hosts query out.length)
    (quads : ∀ entry ∈ hosts, ∃ address, Quad entry.2.bytes address) :
    ¬ Correct domain hosts query out := by
  obtain ⟨question, parsed, wanted, cut, looked, fits⟩ := cutShort
  obtain ⟨text, looked⟩ := Option.isSome_iff_exists.mp looked
  have found : Found domain hosts query question text :=
    ⟨parsed, wanted, List.ne_nil_of_mem cut, looked⟩
  obtain ⟨address, quad⟩ := found.quad quads
  rintro ⟨n, after, run, answers⟩
  rw [resolve_eq, found.resolve quad, if_pos fits] at run
  cases run
  have answered : 0 < (responseLength query : Int) := by
    rw [responseLength]
    omega
  obtain ⟨⟨entry, due⟩, -⟩ := answers.positive.mp answered
  obtain ⟨again, ⟨parsedAgain, -⟩, whole⟩ := due.found
  rw [parsed] at parsedAgain
  cases parsedAgain
  exact whole cut

/-- The answer is right exactly when no name was cut short at a NUL. -/
theorem resolve_correct_iff (quads : ∀ entry ∈ hosts, ∃ address, Quad entry.2.bytes address)
    (query out : Bytes) :
    Correct domain hosts query out ↔ ¬ CutShort domain hosts query out.length := by
  constructor
  · exact fun correct cutShort => cutShort.wrong quads correct
  · intro uncut
    refine ⟨_, _, resolve_eq _ query out, ?_⟩
    by_cases reached : ∃ question text, Found domain hosts query question text
    · obtain ⟨question, text, found⟩ := reached
      obtain ⟨address, quad⟩ := found.quad quads
      rw [found.resolve quad]
      by_cases fits : responseLength query ≤ out.length
      · have whole : 0 ∉ (table domain hosts).localName question.name := fun cut =>
          uncut ⟨question, found.1, found.2.1, cut, by rw [found.2.2.2]; rfl, fits⟩
        obtain ⟨host, due⟩ := found.due whole
        rw [if_pos fits]
        exact answers_due due quad fits
      · rw [if_neg fits]
        exact answers_silent (by decide) fun answered => fits answered.2
    · obtain ⟨silent, nothing⟩ := resolve_unfound out.length reached
      rw [nothing]
      refine answers_silent silent fun answered => reached ?_
      obtain ⟨entry, due⟩ := answered.1
      obtain ⟨question, found, -⟩ := due.found
      exact ⟨question, entry.2, found⟩

end Answering

/-! ## Samples -/

namespace Sample

/-- One host, at 100.64.7.6. -/
def hosts : List (CString × CString) :=
  [(.ofBytes (ascii "laptop"), .ofBytes (ascii "100.64.7.6"))]

theorem hosts_quads : ∀ entry ∈ hosts, ∃ address, Quad entry.2.bytes address := by
  rintro entry (_ | ⟨_, ⟨⟩⟩)
  have field (digits : Bytes) (nonempty : digits ≠ [])
      (digit : ∀ octet ∈ digits, isDigit octet = true) (small : decimal digits ≤ 255) :
      Field digits := ⟨nonempty, digit, small⟩
  exact ⟨_, Quad.fields (field (ascii "100") (by decide) (by decide) (by decide))
    (field (ascii "64") (by decide) (by decide) (by decide))
    (field (ascii "7") (by decide) (by decide) (by decide))
    (field (ascii "6") (by decide) (by decide) (by decide))⟩

/-- A query of type A for one label. -/
def query (label : Bytes) : Bytes := oneQuestion ++ (encodeLabels [label] ++ [0, 0, 1, 0, 1])

theorem resolve_correct_laptop :
    Correct .empty hosts (query (ascii "laptop")) (List.replicate 64 0) ↔
      ¬ CutShort .empty hosts (query (ascii "laptop")) 64 :=
  resolve_correct_iff hosts_quads (query (ascii "laptop")) (List.replicate 64 0)

end Sample

/-- The label `laptop`, a NUL and an `x` get the address of `laptop`. -/
theorem resolve_cuts_name :
    ¬ ∀ (domain : CString) (hosts : List (CString × CString)),
      (∀ entry ∈ hosts, ∃ address, Quad entry.2.bytes address) →
      ∀ query out : Bytes, Correct domain hosts query out := by
  intro claim
  have parsed : (Tailscale.parseQuestion (Sample.query (ascii "laptop" ++ [0, 120]))).map
      (fun question => (question.name, question.type)) = some (ascii "laptop" ++ [0, 120], 1) := by
    decide +kernel
  obtain ⟨question, parsed, fields⟩ := Option.map_eq_some_iff.mp parsed
  obtain ⟨name, wanted⟩ := Prod.mk.inj fields
  refine @CutShort.wrong .empty Sample.hosts _ (List.replicate 64 0)
    ⟨question, parsed, wanted, ?_, ?_, by decide +kernel⟩ Sample.hosts_quads
    (claim _ _ Sample.hosts_quads _ _)
  · rw [name]
    decide +kernel
  · rw [name]
    decide +kernel

end Sotoportego.Tailscale.DnsBuffer
