import Sotoportego.Server.Base64Properties
import Sotoportego.Server.RegistryProperties
import Sotoportego.Server.VPNGate

/-!
# Catalogues as published

A catalogue is taken whole or not at all, however it is cut on the way. The servers of a
published one come out in order, each with the configuration that went in.
-/

set_option autoImplicit false

namespace Sotoportego.Server

open Octets CText

/-! ## Downloads -/

section Downloads

/-- What `Append` takes of a `recv`. -/
def GateReceived.taken : GateReceived → Bytes
  | .data bytes => (CString.ofBytes bytes).bytes
  | _ => []

def GateReceived.fails : GateReceived → Bool
  | .timedOut => true
  | .failed => true
  | _ => false

/-- What the peer sent of it. -/
def GateReceived.bytes : GateReceived → Bytes
  | .data bytes => bytes
  | _ => []

def arrived (received : List GateReceived) : Bytes := received.flatMap GateReceived.taken

theorem receiveAll_clean {received : List GateReceived}
    (clean : received.any GateReceived.fails = false) (response : Bytes) :
    receiveAll response received =
      match behindHeaders (response ++ arrived received) with
      | none => .error (ascii "Malformed HTTP response")
      | some body => .ok body := by
  induction received generalizing response with
  | nil =>
      rw [arrived, List.flatMap_nil, List.append_nil]
      rfl
  | cons first rest continued =>
      rw [List.any_cons, Bool.or_eq_false_iff] at clean
      rw [arrived, List.flatMap_cons, ← List.append_assoc]
      cases first with
      | data bytes => exact continued clean.2 _
      | interrupted =>
          have nothing : GateReceived.interrupted.taken = [] := rfl
          rw [nothing, List.append_nil]
          exact continued clean.2 response
      | timedOut => cases clean.1
      | failed => cases clean.1

theorem arrived_clean {received : List GateReceived} {stream : Bytes} (clean : 0 ∉ stream)
    (chunks : received.flatMap GateReceived.bytes = stream) :
    arrived received = stream := by
  subst chunks
  induction received with
  | nil => rfl
  | cons first rest continued =>
      rw [List.flatMap_cons, List.mem_append, not_or] at clean
      rw [arrived, List.flatMap_cons, List.flatMap_cons]
      refine congrArg₂ (· ++ ·) ?_ (continued clean.2)
      cases first with
      | data bytes => exact Tailscale.ofBytes_bytes clean.1
      | interrupted => rfl
      | timedOut => rfl
      | failed => rfl

theorem receiveAll_failed {received : List GateReceived}
    (failing : received.any GateReceived.fails = true) (response : Bytes) :
    receiveAll response received = .error (ascii "Timed out reading response from vpngate.net") ∨
      receiveAll response received =
        .error (ascii "Read error while fetching from vpngate.net") := by
  induction received generalizing response with
  | nil => cases failing
  | cons first rest continued =>
      rw [List.any_cons] at failing
      cases first with
      | data bytes => exact continued failing _
      | interrupted => exact continued failing response
      | timedOut => exact .inl rfl
      | failed => exact .inr rfl

end Downloads

/-! ## Rows -/

section Rows

variable {Position : Type} {lookup : Bytes → Option Position}

def isHeader (fields : List Bytes) : Bool := fields.head? = some (ascii "HostName")

/-- The rows of a body. The first of them that starts with `HostName` is no server. -/
def rowsOf (body : Bytes) : List (List Bytes) :=
  ((csvLines body).map splitCsvLine).eraseP isHeader

theorem visits_skipped (lines : List Bytes) (servers : List (VPNGateEntry Position)) :
    (lines.foldl (Visits.visit lookup) ⟨true, servers⟩).servers =
      servers ++ (lines.map splitCsvLine).filterMap (entryOf lookup) := by
  induction lines generalizing servers with
  | nil => simp
  | cons line lines continued =>
      rw [List.foldl_cons, Visits.visit, if_neg (by simp), continued, List.map_cons]
      cases read : entryOf lookup (splitCsvLine line) with
      | none => simp [read]
      | some entry => simp [read]

theorem visits_eq (lines : List Bytes) (servers : List (VPNGateEntry Position)) :
    (lines.foldl (Visits.visit lookup) ⟨false, servers⟩).servers =
      servers ++ ((lines.map splitCsvLine).eraseP isHeader).filterMap (entryOf lookup) := by
  induction lines generalizing servers with
  | nil => simp
  | cons line lines continued =>
      rw [List.foldl_cons, Visits.visit, List.map_cons, List.eraseP_cons]
      cases header : isHeader (splitCsvLine line) with
      | true =>
          rw [if_pos ⟨rfl, of_decide_eq_true header⟩, visits_skipped, cond_true]
      | false =>
          rw [if_neg fun both => of_decide_eq_false header both.2, continued, cond_false]
          cases read : entryOf lookup (splitCsvLine line) with
          | none => simp [read]
          | some entry => simp [read]

theorem gateServers_eq (body : Bytes) :
    gateServers lookup body = (rowsOf body).filterMap (entryOf lookup) :=
  visits_eq (csvLines body) []

/-- The message that goes with the servers of a body. -/
def listed (servers : List (VPNGateEntry Position)) : VPNGateList (VPNGateEntry Position) where
  servers
  error := if servers = [] then some (ascii "vpngate.net response had no usable servers") else none

theorem fetchThread_failed {error : Bytes} (told : error ≠ [])
    (servers : List (VPNGateEntry Position)) :
    fetchThread { ok := false, error, servers } = { error := some error } := by
  rw [fetchThread, if_pos (.inl rfl)]
  simp [told]

/-- Nothing of a download that breaks off is shown. One that the peer ends is shown whole: its
rows in order, each of them complete and placed. Where no octet is a NUL, that does not depend
on how the octets were cut. -/
theorem fetch_whole (lookup : Bytes → Option Position) (received : List GateReceived) :
    (∀ sending, sending ≠ .sent ∨ received.any GateReceived.fails = true →
        (fetchVPNGate lookup sending received).servers = [] ∧
          ∃ error, (fetchVPNGate lookup sending received).error = some error ∧ error ≠ []) ∧
      (received.any GateReceived.fails = false →
        (∀ other : List GateReceived, other.any GateReceived.fails = false →
          other.flatMap GateReceived.bytes = received.flatMap GateReceived.bytes →
          0 ∉ received.flatMap GateReceived.bytes →
            fetchVPNGate lookup .sent other = fetchVPNGate lookup .sent received) ∧
          ∀ body, behindHeaders (arrived received) = some body → body ≠ [] →
            fetchVPNGate lookup .sent received =
              listed ((rowsOf body).filterMap (entryOf lookup)) ∧
            ∀ entry ∈ (fetchVPNGate lookup .sent received).servers,
              lookup entry.countryShort = some entry.position ∧ entry.host ≠ [] ∧
                entry.configBase64 ≠ []) := by
  have refused : ∀ sending error, httpGet sending received = .error error → error ≠ [] →
      (fetchVPNGate lookup sending received).servers = [] ∧
        ∃ error, (fetchVPNGate lookup sending received).error = some error ∧ error ≠ [] := by
    intro sending error failed told
    have message : fetchVPNGate lookup sending received = { error := some error } := by
      rw [fetchVPNGate, failed]
      exact fetchThread_failed told []
    rw [message]
    exact ⟨rfl, error, rfl, told⟩
  constructor
  · intro sending broken
    cases sending with
    | noAddress => exact refused _ _ rfl (by decide)
    | noSocket => exact refused _ _ rfl (by decide)
    | noConnection => exact refused _ _ rfl (by decide)
    | noSend => exact refused _ _ rfl (by decide)
    | sent =>
        have failing := broken.resolve_left fun other => other rfl
        obtain timedOut | failed := receiveAll_failed failing []
        · exact refused .sent _ timedOut (by decide)
        · exact refused .sent _ failed (by decide)
  · intro clean
    have whole := receiveAll_clean clean []
    refine ⟨fun other otherClean same plain => ?_, fun body behind filled => ?_⟩
    · have once : receiveAll [] other = receiveAll [] received := by
        rw [receiveAll_clean otherClean, whole, arrived_clean plain rfl, arrived_clean plain same]
      rw [fetchVPNGate, fetchVPNGate, httpGet, httpGet, once]
    have message : fetchVPNGate lookup .sent received =
        listed ((rowsOf body).filterMap (entryOf lookup)) := by
      rw [List.nil_append, behind] at whole
      rw [fetchVPNGate, httpGet, whole]
      dsimp only
      rw [fetchThread, if_neg (by simp [filled]), gateServers_eq, listed]
      simp only [List.isEmpty_iff]
    refine ⟨message, fun entry member => ?_⟩
    rw [message] at member
    obtain ⟨fields, -, read⟩ := List.mem_filterMap.mp member
    unfold entryOf at read
    split at read
    next => cases read
    next =>
      split at read
      next => cases read
      next filled =>
        obtain ⟨position, placed, rfl⟩ := Option.map_eq_some_iff.mp read
        exact ⟨placed, fun bare => filled (.inl bare), fun bare => filled (.inr bare)⟩

end Rows

/-! ## Published catalogues -/

/-- A server as it is published: its first fourteen columns, and its configuration. -/
structure Listing where
  host : Bytes
  columns : List Bytes
  config : Bytes
  width : columns.length = 13
  named : host ≠ [] ∧ host ≠ ascii "HostName"
  marked : host.head? ≠ some 42 ∧ host.head? ≠ some 35
  clean : ∀ column ∈ host :: columns, 44 ∉ column ∧ 10 ∉ column ∧ 0 ∉ column
  filled : config ≠ []

namespace Listing

variable (listing : Listing)

def fields : List Bytes := listing.host :: listing.columns ++ [base64Encode listing.config]

def line : Bytes := [44].intercalate listing.fields

end Listing

/-- The lines that are no servers. -/
def banner : Bytes := ascii "*vpn_servers"

def schema : Bytes :=
  ascii "#HostName,IP,Score,Ping,Speed,CountryLong,CountryShort,NumVpnSessions,Uptime," ++
    ascii "TotalUsers,TotalTraffic,LogType,Operator,Message,OpenVPN_ConfigData_Base64"

def published (listings : List Listing) : Bytes :=
  (banner :: schema :: listings.map Listing.line ++ [[42]]).flatMap (· ++ [13, 10])

section Published

/-- A character of encoded text neither separates nor ends anything. -/
theorem base64Encode_plain (source : Bytes) : ∀ octet ∈ base64Encode source,
    octet ≠ 44 ∧ octet ≠ 10 ∧ octet ≠ 0 ∧ isTrailing octet = false := by
  have chars : ∀ group < 64, charOf group ≠ 44 ∧ charOf group ≠ 10 ∧ charOf group ≠ 0 ∧
      isTrailing (charOf group) = false := by
    decide +kernel
  intro octet member
  rcases mem_base64Encode member with rfl | ⟨group, small, rfl⟩
  · decide
  · exact chars group small

theorem base64Encode_filled {source : Bytes} (filled : source ≠ []) : base64Encode source ≠ [] := by
  unfold base64Encode
  split
  next => exact List.cons_ne_nil _ _
  next => exact List.cons_ne_nil _ _
  next => exact List.cons_ne_nil _ _
  next => exact absurd rfl filled

namespace Listing

variable (listing : Listing)

theorem fields_clean : ∀ field ∈ listing.fields, 44 ∉ field ∧ 10 ∉ field ∧ 0 ∉ field := by
  intro field member
  rcases List.mem_append.mp member with member | member
  · exact listing.clean field member
  · rw [List.mem_singleton.mp member]
    have plain := base64Encode_plain listing.config
    exact ⟨fun comma => (plain _ comma).1 rfl, fun line => (plain _ line).2.1 rfl,
      fun nul => (plain _ nul).2.2.1 rfl⟩

theorem splitCsvLine_line : splitCsvLine listing.line = listing.fields :=
  Lines.pieces_intercalate (by simp [fields]) fun field member =>
    (listing.fields_clean field member).1

theorem line_clean : 10 ∉ listing.line ∧ 0 ∉ listing.line := by
  constructor
  · intro member
    rcases Lines.mem_intercalate member with comma | ⟨field, listed, inside⟩
    · cases comma
    · exact (listing.fields_clean field listed).2.1 inside
  · intro member
    rcases Lines.mem_intercalate member with comma | ⟨field, listed, inside⟩
    · cases comma
    · exact (listing.fields_clean field listed).2.2 inside

/-- The line starts with the host and ends with the encoded configuration. -/
theorem line_ends : ∃ middle, listing.line =
    listing.host ++ middle ++ base64Encode listing.config := by
  have joined : ∀ (columns : List Bytes) (first : Bytes), ∃ middle,
      [44].intercalate (first :: columns ++ [base64Encode listing.config]) =
        first ++ middle ++ base64Encode listing.config := by
    intro columns
    induction columns with
    | nil => exact fun first => ⟨[44], by simp [List.intercalate]⟩
    | cons next columns continued =>
        intro first
        obtain ⟨middle, rest⟩ := continued next
        refine ⟨44 :: next ++ middle, ?_⟩
        rw [List.cons_append] at rest
        rw [List.cons_append, List.cons_append, Lines.intercalate_cons, rest]
        simp
  exact joined listing.columns listing.host

theorem trimmed_line : trimmed (listing.line ++ [13]) = listing.line := by
  obtain ⟨middle, ends⟩ := listing.line_ends
  have filled := base64Encode_filled listing.filled
  rw [trimmed, List.rdropWhile_concat_pos _ _ _ rfl, List.rdropWhile_eq_self_iff]
  intro nonempty
  have last : listing.line.getLast nonempty = (base64Encode listing.config).getLast filled := by
    simp only [ends, List.getLast_append_of_ne_nil _ filled]
  rw [last, Bool.not_eq_true]
  exact (base64Encode_plain _ _ (List.getLast_mem filled)).2.2.2

theorem isRow_line : isRow listing.line = true := by
  obtain ⟨middle, ends⟩ := listing.line_ends
  obtain ⟨star, hash⟩ := listing.marked
  cases host : listing.host with
  | nil => exact absurd host listing.named.1
  | cons first rest =>
      rw [host] at ends star hash
      rw [ends]
      simp only [List.head?_cons] at star hash
      simp [isRow, star, hash]

end Listing

theorem pieces_published {texts : List Bytes} (whole : ∀ text ∈ texts, 10 ∉ text) :
    Lines.pieces 10 (texts.flatMap (· ++ [13, 10])) = texts.map (· ++ [13]) ++ [[]] := by
  induction texts with
  | nil => rfl
  | cons text texts continued =>
      have first : 10 ∉ text ++ [13] := by
        simp [whole text List.mem_cons_self]
      have rest := continued fun other member => whole other (List.mem_cons_of_mem _ member)
      have split : (text :: texts).flatMap (· ++ [13, 10]) =
          (text ++ [13]) ++ 10 :: texts.flatMap (· ++ [13, 10]) := by
        simp
      rw [split, Lines.pieces_append, Lines.pieces_single first, rest]
      rfl

theorem csvLines_published (listings : List Listing) :
    csvLines (published listings) = listings.map Listing.line := by
  have whole : ∀ text ∈ banner :: schema :: listings.map Listing.line ++ [[42]], 10 ∉ text := by
    intro text member
    simp only [List.cons_append, List.mem_cons, List.mem_append, List.mem_map, List.not_mem_nil,
      or_false] at member
    rcases member with rfl | rfl | ⟨listing, -, rfl⟩ | rfl
    · decide +kernel
    · decide +kernel
    · exact listing.line_clean.1
    · decide
  have first : isRow (trimmed (banner ++ [13])) = false := by decide +kernel
  have second : isRow (trimmed (schema ++ [13])) = false := by decide +kernel
  have last : isRow (trimmed (42 :: ([] ++ [13]))) = false := by decide +kernel
  have nothing : isRow (trimmed []) = false := by decide
  have rows : ((listings.map Listing.line).map fun text => trimmed (text ++ [13])).filter isRow =
      listings.map Listing.line := by
    rw [List.map_map, List.filter_eq_self.mpr]
    · exact List.map_congr_left fun listing _ => listing.trimmed_line
    · intro text member
      obtain ⟨listing, -, rfl⟩ := List.mem_map.mp member
      change isRow (trimmed (listing.line ++ [13])) = true
      rw [listing.trimmed_line]
      exact listing.isRow_line
  rw [csvLines, published, pieces_published whole]
  simp only [List.cons_append, List.map_cons, List.map_append, List.map_map, List.map_nil,
    List.filter_cons, List.filter_append, List.filter_nil, first, second, nothing,
    last, Bool.false_eq_true, if_false, List.append_nil]
  rw [List.map_map] at rows
  simpa [Function.comp_def] using rows

theorem rowsOf_published (listings : List Listing) :
    rowsOf (published listings) = listings.map Listing.fields := by
  have split : (listings.map Listing.line).map splitCsvLine = listings.map Listing.fields := by
    rw [List.map_map]
    exact List.map_congr_left fun listing _ => listing.splitCsvLine_line
  rw [rowsOf, csvLines_published, split]
  refine List.eraseP_of_forall_not fun fields member header => ?_
  obtain ⟨listing, -, rfl⟩ := List.mem_map.mp member
  have host : listing.host = ascii "HostName" := Option.some.inj (of_decide_eq_true header)
  exact listing.named.2 host

namespace Listing

variable {Position : Type}

/-- The country code of a listing is its seventh column. -/
def countryShort (listing : Listing) : Bytes := fieldOrEmpty listing.fields 6

def placed (lookup : Bytes → Option Position) (listing : Listing) :
    Option (VPNGateEntry Position) :=
  (lookup listing.countryShort).map (entryAt listing.fields)

theorem config_field (listing : Listing) :
    fieldOrEmpty listing.fields 14 = base64Encode listing.config := by
  have width : (listing.host :: listing.columns).length = 14 := by
    rw [List.length_cons, listing.width]
  rw [fieldOrEmpty, fields, List.getD_append_right _ _ _ _ width.le, width]
  rfl

theorem entryOf_fields (lookup : Bytes → Option Position) (listing : Listing) :
    entryOf lookup listing.fields = listing.placed lookup := by
  have width : listing.fields.length = 15 := by
    simp [fields, listing.width]
  have host : fieldOrEmpty listing.fields 0 = listing.host := rfl
  rw [entryOf, if_neg (by omega), if_neg, placed, countryShort]
  rintro (bare | bare)
  · exact listing.named.1 (host.symm.trans bare)
  · exact base64Encode_filled listing.filled (listing.config_field.symm.trans bare)

/-- The configuration that is published for a server is the file its clients connect with. -/
theorem written (listing : Listing) (dir : CString) (cwd : Place) (host : CString) (files : Files) :
    ∃ path, path ≠ .empty ∧
      writeVPNGateConfig (some dir) cwd .whole host (.ofBytes (base64Encode listing.config)) files =
        (path, Function.update files (resolve cwd path) (some listing.config)) := by
  refine ⟨.ofBytes (dir.bytes ++ 47 :: sanitizeFilename host (ascii "server") ++ ascii ".ovpn"),
    fun bare => ?_, ?_⟩
  · have bytes := congrArg CString.bytes bare
    have slash : (CString.ofBytes (dir.bytes ++ 47 :: sanitizeFilename host (ascii "server") ++
        ascii ".ovpn")).bytes ≠ [] := by
      cases dirBytes : dir.bytes with
      | nil => simp [CString.ofBytes]
      | cons first rest =>
          have plain : first ≠ 0 := fun nul =>
            dir.no_nul (by rw [dirBytes, nul]; exact List.mem_cons_self)
          simp [CString.ofBytes, plain]
    exact slash bytes
  · unfold writeVPNGateConfig
    dsimp only
    rw [decodeBase64_spaced (spaced_base64Encode listing.config)]
    dsimp only
    rw [if_neg listing.filled]

end Listing

/-- The first empty line is the one that is sent. -/
theorem behindHeaders_append {head : Bytes} (body : Bytes)
    (first : ¬ [13, 10, 13, 10] <:+: head ++ [13, 10, 13]) :
    behindHeaders (head ++ [13, 10, 13, 10] ++ body) = some body := by
  induction head with
  | nil => rfl
  | cons octet head continued =>
      have later : ¬ [13, 10, 13, 10] <:+: head ++ [13, 10, 13] := fun inside =>
        first (inside.trans (List.suffix_cons octet _).isInfix)
      rw [List.cons_append, List.cons_append, behindHeaders]
      · exact continued later
      · rintro rest rfl same
        refine first (List.IsPrefix.isInfix ?_)
        have long : ([13, 10, 13, 10] : Bytes) <+: 13 :: head ++ [13, 10, 13] ++ (10 :: body) :=
          ⟨rest, by simpa using congrArg (13 :: ·) same.symm⟩
        refine List.prefix_of_prefix_length_le long (List.prefix_append _ _) ?_
        simp

theorem published_clean (listings : List Listing) : 0 ∉ published listings := by
  intro member
  rw [published, List.mem_flatMap] at member
  obtain ⟨text, listed, inside⟩ := member
  have ending : (0 : UInt8) ∉ ([13, 10] : Bytes) := by decide
  have inText := (List.mem_append.mp inside).resolve_right ending
  simp only [List.cons_append, List.mem_cons, List.mem_append, List.mem_map, List.not_mem_nil,
    or_false] at listed
  rcases listed with rfl | rfl | ⟨listing, -, rfl⟩ | rfl
  · exact absurd inText (by decide +kernel)
  · exact absurd inText (by decide +kernel)
  · exact listing.line_clean.2 inText
  · exact absurd inText (by decide)

/-- A published catalogue that arrives whole, in whatever chunks, gives the servers that can be
placed, in their order; and the file written for one of them is its configuration. -/
theorem published_served {Position : Type} (lookup : Bytes → Option Position)
    (listings : List Listing) (head : Bytes) (received : List GateReceived) (clean : 0 ∉ head)
    (first : ¬ [13, 10, 13, 10] <:+: head ++ [13, 10, 13])
    (chunks : received.flatMap GateReceived.bytes =
      head ++ [13, 10, 13, 10] ++ published listings)
    (whole : received.any GateReceived.fails = false) :
    fetchVPNGate lookup .sent received =
        listed (listings.filterMap (Listing.placed lookup)) ∧
      ∀ listing ∈ listings, ∀ entry, listing.placed lookup = some entry →
        ∀ (dir : CString) (cwd : Place) (files : Files), ∃ path, path ≠ .empty ∧
          writeVPNGateConfig (some dir) cwd .whole (.ofBytes entry.host)
              (.ofBytes entry.configBase64) files =
            (path, Function.update files (resolve cwd path) (some listing.config)) := by
  have plain : 0 ∉ head ++ [13, 10, 13, 10] ++ published listings := by
    have pause : (0 : UInt8) ∉ ([13, 10, 13, 10] : Bytes) := by decide
    simp only [List.mem_append, not_or]
    exact ⟨⟨clean, pause⟩, published_clean listings⟩
  have stream := receiveAll_clean whole []
  rw [List.nil_append, arrived_clean plain chunks, behindHeaders_append _ first] at stream
  have filled : (published listings).isEmpty = false := by
    rw [List.isEmpty_eq_false_iff, published]
    simp [banner]
  have rows : (rowsOf (published listings)).filterMap (entryOf lookup) =
      listings.filterMap (Listing.placed lookup) := by
    rw [rowsOf_published, List.filterMap_map]
    exact List.filterMap_congr fun listing _ => listing.entryOf_fields lookup
  constructor
  · rw [fetchVPNGate, httpGet, stream]
    dsimp only
    rw [fetchThread, if_neg (by simp [filled]), gateServers_eq, rows, listed]
    simp only [List.isEmpty_iff]
  · intro listing member entry placed dir cwd files
    obtain ⟨position, -, rfl⟩ := Option.map_eq_some_iff.mp placed
    have config : (entryAt listing.fields position).configBase64 =
        base64Encode listing.config := listing.config_field
    rw [config]
    exact listing.written dir cwd _ files

/-! A catalogue with one server in Japan, in two chunks. -/

namespace Sample

def japan : Bytes → Option (Int × Int) := fun country =>
  if country = ascii "JP" then some (36, 138) else none

def tokyo : Listing where
  host := ascii "public-vpn-1"
  columns :=
    [ascii "203.0.113.7", ascii "900", ascii "12", ascii "48000000", ascii "Japan", ascii "JP",
      ascii "40", ascii "1", ascii "2", ascii "3", ascii "2weeks", ascii "op", []]
  config := ascii "client"
  width := by decide
  named := by decide +kernel
  marked := by decide +kernel
  clean := by decide +kernel
  filled := by decide +kernel

def chunks : List GateReceived :=
  [.data (ascii "HTTP/1.0 200 OK" ++ [13, 10, 13]), .interrupted, .data (10 :: published [tokyo])]

end Sample

theorem published_served_tokyo :
    fetchVPNGate Sample.japan .sent Sample.chunks =
        listed ([Sample.tokyo].filterMap (Listing.placed Sample.japan)) ∧
      ∀ listing ∈ [Sample.tokyo], ∀ entry, listing.placed Sample.japan = some entry →
        ∀ (dir : CString) (cwd : Place) (files : Files), ∃ path, path ≠ .empty ∧
          writeVPNGateConfig (some dir) cwd .whole (.ofBytes entry.host)
              (.ofBytes entry.configBase64) files =
            (path, Function.update files (resolve cwd path) (some listing.config)) :=
  published_served Sample.japan [Sample.tokyo] (ascii "HTTP/1.0 200 OK") Sample.chunks
    (by decide +kernel) (by decide +kernel) (by decide +kernel) (by decide)

end Published

end Sotoportego.Server
