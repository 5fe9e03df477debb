import Sotoportego.Lib.Padding
import Sotoportego.WireGuard.ConfigParserProperties

/-!
# A config read back

The lines a configuration may be written in, in any order and layout, and what the parser
makes of each. A text that carries every field of a configuration parses to it.
-/

set_option autoImplicit false

namespace Sotoportego.WireGuard.WireGuardConfigParser

open Octets CText

/-! ## Lines -/

def Spaces (text : Bytes) : Prop := ∀ octet ∈ text, isSpace octet = true

/-- No white space at either end. -/
abbrev Trimmed (text : Bytes) : Prop := Padding.Bare isSpace text

inductive CommentLine : Bytes → Prop where
  | mk {indent rest : Bytes} {mark : UInt8} :
      Spaces indent → mark = 35 ∨ mark = 59 → CommentLine (indent ++ mark :: rest)

/-- A section header, with the name in lower case. -/
inductive HeaderLine : Bytes → Bytes → Prop where
  | mk {indent before word after tail : Bytes} :
      Spaces indent → Spaces before → Trimmed word → 93 ∉ word → Spaces after → Spaces tail →
      HeaderLine (toLower word) (indent ++ 91 :: (before ++ word ++ after ++ 93 :: tail))

/-- `key = value`, with the key in lower case. -/
inductive EntryLine : Bytes → Bytes → Bytes → Prop where
  | mk {indent word before after value tail : Bytes} :
      Spaces indent → Trimmed word → 61 ∉ word → (∀ first ∈ word.head?, first ∉ [35, 59, 91]) →
      Spaces before → Spaces after → Trimmed value → Spaces tail →
      EntryLine (toLower word) value
        (indent ++ (word ++ before ++ 61 :: (after ++ value ++ tail)))

/-! ## Texts -/

def knownKeys : Block → List Bytes
  | .interface =>
      [ascii "privatekey", ascii "address", ascii "dns", ascii "listenport", ascii "mtu"]
  | .firstPeer =>
      [ascii "publickey", ascii "presharedkey", ascii "endpoint", ascii "allowedips",
        ascii "persistentkeepalive"]

/-- Lines in a block, after a `[Peer]` or before the first, and the known entries in them. -/
inductive Layout : Option Block → Bool → List Bytes → List Entry → Prop where
  | nil {block : Option Block} {seen : Bool} : Layout block seen [] []
  | blank {block : Option Block} {seen : Bool} {raw : Bytes} {lines : List Bytes}
      {listed : List Entry} :
      Spaces raw → Layout block seen lines listed → Layout block seen (raw :: lines) listed
  | comment {block : Option Block} {seen : Bool} {raw : Bytes} {lines : List Bytes}
      {listed : List Entry} :
      CommentLine raw → Layout block seen lines listed → Layout block seen (raw :: lines) listed
  | interface {block : Option Block} {seen : Bool} {raw : Bytes} {lines : List Bytes}
      {listed : List Entry} :
      HeaderLine (ascii "interface") raw → Layout (some .interface) seen lines listed →
      Layout block seen (raw :: lines) listed
  | firstPeer {block : Option Block} {raw : Bytes} {lines : List Bytes} {listed : List Entry} :
      HeaderLine (ascii "peer") raw → Layout (some .firstPeer) true lines listed →
      Layout block false (raw :: lines) listed
  | laterPeer {block : Option Block} {raw : Bytes} {lines : List Bytes} {listed : List Entry} :
      HeaderLine (ascii "peer") raw → Layout none true lines listed →
      Layout block true (raw :: lines) listed
  | unknownSection {block : Option Block} {seen : Bool} {name raw : Bytes} {lines : List Bytes}
      {listed : List Entry} :
      HeaderLine name raw → name ≠ ascii "interface" → name ≠ ascii "peer" →
      Layout none seen lines listed → Layout block seen (raw :: lines) listed
  | entry {block : Block} {seen : Bool} {key value raw : Bytes} {lines : List Bytes}
      {listed : List Entry} :
      EntryLine key value raw → key ∈ knownKeys block → Layout (some block) seen lines listed →
      Layout (some block) seen (raw :: lines)
        ({ block := block, key := key, value := value } :: listed)
  | unknownKey {block : Block} {seen : Bool} {key value raw : Bytes} {lines : List Bytes}
      {listed : List Entry} :
      EntryLine key value raw → key ∉ knownKeys block → Layout (some block) seen lines listed →
      Layout (some block) seen (raw :: lines) listed
  | outside {seen : Bool} {raw : Bytes} {lines : List Bytes} {listed : List Entry} :
      (raw.dropWhile isSpace).head? ≠ some 91 → Layout none seen lines listed →
      Layout none seen (raw :: lines) listed

/-! ## Fields -/

/-- The value that a block gives a key. -/
def assigned (listed : List Entry) (block : Block) (key : Bytes) : Option Bytes :=
  (listed.find? fun entry => entry.block = block ∧ entry.key = key).map (·.value)

/-- An empty field needs no entry. -/
inductive WritesText : CString → Option Bytes → Prop where
  | absent : WritesText .empty none
  | present {field : CString} : WritesText field (some field.bytes)

/-- A number in decimal digits. -/
structure Digits (text : Bytes) (value : Nat) : Prop where
  nonempty : text ≠ []
  every : ∀ octet ∈ text, isDigit octet = true
  decimal : decimal text = value

inductive WritesNumber : Nat → Option Bytes → Prop where
  | absent : WritesNumber 0 none
  | present {value : Nat} {text : Bytes} : Digits text value → WritesNumber value (some text)

/-- A host without a colon as it is, any other in brackets. -/
inductive EndpointText (host : CString) (port : UInt16) : Bytes → Prop where
  | plain {digits : Bytes} :
      58 ∉ host.bytes → (∀ octet ∈ host.bytes, isSpace octet = false) →
      host.bytes.head? ≠ some 91 → Digits digits port.toNat →
      EndpointText host port (host.bytes ++ 58 :: digits)
  | bracketed {digits : Bytes} :
      93 ∉ host.bytes → Digits digits port.toNat →
      EndpointText host port (91 :: (host.bytes ++ 93 :: 58 :: digits))

inductive WritesEndpoint : CString → UInt16 → Option Bytes → Prop where
  | absent : WritesEndpoint .empty 0 none
  | present {host : CString} {port : UInt16} {text : Bytes} :
      EndpointText host port text → WritesEndpoint host port (some text)

/-- A text carries a configuration: each key once at most, each field by its entry. -/
structure Rendering (config : WireGuardConfig) (text : Bytes) (listed : List Entry) : Prop where
  layout : Layout none false (text.splitOn 10) listed
  once : (listed.map fun entry => (entry.block, entry.key)).Nodup
  privateKey : WritesText config.privateKey (assigned listed .interface (ascii "privatekey"))
  address : WritesText config.address (assigned listed .interface (ascii "address"))
  dns : WritesText config.dns (assigned listed .interface (ascii "dns"))
  listenPort : WritesNumber config.listenPort.toNat
    (assigned listed .interface (ascii "listenport"))
  mtuPositive : 0 ≤ config.mtu.toInt
  mtu : WritesNumber config.mtu.toInt.toNat (assigned listed .interface (ascii "mtu"))
  publicKey : WritesText config.peer.publicKey (assigned listed .firstPeer (ascii "publickey"))
  presharedKey : WritesText config.peer.presharedKey
    (assigned listed .firstPeer (ascii "presharedkey"))
  endpoint : WritesEndpoint config.peer.endpointHost config.peer.endpointPort
    (assigned listed .firstPeer (ascii "endpoint"))
  allowedIPs : WritesText config.peer.allowedIPs
    (assigned listed .firstPeer (ascii "allowedips"))
  keepalivePositive : 0 ≤ config.peer.persistentKeepalive.toInt
  persistentKeepalive : WritesNumber config.peer.persistentKeepalive.toInt.toNat
    (assigned listed .firstPeer (ascii "persistentkeepalive"))

/-! ## What the parser makes of a line -/

section Lines

variable {raw : Bytes} {place : Place}

theorem blank_read (blank : Spaces raw) : place.move raw = place ∧ place.entry raw = none := by
  have empty : trim raw = [] := by
    rw [trim, List.dropWhile_eq_nil_iff.mpr blank, List.rdropWhile_nil]
  simp [Place.move, Place.entry, empty]

theorem comment_read (comment : CommentLine raw) :
    place.move raw = place ∧ place.entry raw = none := by
  cases comment with
  | @mk indent rest mark early marked =>
      have solid : isSpace mark = false := by
        obtain rfl | rfl := marked <;> rfl
      have shape := @Padding.trim_around _ _ indent rest _ early solid
      rw [← trim] at shape
      simp [Place.move, Place.entry, shape, marked, ← or_assoc]

theorem not_mem_spaces {text : Bytes} (spaces : Spaces text) {mark : UInt8}
    (solid : isSpace mark = false) : mark ∉ text := by
  intro member
  rw [spaces mark member] at solid
  cases solid

theorem header_read {name : Bytes} (header : HeaderLine name raw) :
    place.move raw = WireGuardConfigParser.header name place.2 ∧ place.entry raw = none := by
  cases header with
  | @mk indent before word after tail early padded bare closed ended late =>
      have shape := @Padding.trim_around _ _ indent (before ++ word ++ after ++ 93 :: tail) _ early
        (by decide : isSpace 91 = false)
      rw [← trim, Padding.rdropWhile_append_cons (by decide : isSpace 93 = false)] at shape
      have inner : 93 ∉ before ++ word ++ after := by
        simp only [List.mem_append, not_or]
        exact ⟨⟨not_mem_spaces padded (by decide), closed⟩, not_mem_spaces ended (by decide)⟩
      have taken : (before ++ word ++ after ++ 93 :: tail.rdropWhile isSpace).takeWhile (· ≠ 93) =
          before ++ word ++ after := by
        rw [List.takeWhile_append_of_pos, List.takeWhile_cons_of_neg (by simp), List.append_nil]
        intro octet member
        rw [decide_eq_true_eq]
        rintro rfl
        exact inner member
      have named : trim (before ++ word ++ after) = word := Padding.trim_padded padded bare ended
      refine ⟨?_, ?_⟩
      · simp only [Place.move, shape]
        rw [if_neg (by decide), if_true, taken, named]
      · simp only [Place.entry, shape]
        rw [if_pos (by decide)]

/-- The trimmed line of an entry, cut at its first equals sign. -/
theorem entryLine_shape {indent word before rest : Bytes} (early : Spaces indent)
    (bare : Trimmed word) (unsplit : 61 ∉ word) (plain : ∀ first ∈ word.head?, first ∉ [35, 59, 91])
    (padded : Spaces before) :
    ∃ front, trim (indent ++ (word ++ before ++ 61 :: rest)) =
        front ++ 61 :: rest.rdropWhile isSpace ∧
      trim front = word ∧ 61 ∉ front ∧ ∀ first ∈ front.head?, first ∉ [35, 59, 91] := by
  cases word with
  | nil =>
      refine ⟨[], ?_, rfl, List.not_mem_nil, by simp⟩
      have spaces : Spaces (indent ++ before) := by
        intro octet member
        obtain first | second := List.mem_append.mp member
        · exact early octet first
        · exact padded octet second
      have shape := @Padding.trim_around _ _ (indent ++ before) rest _ spaces
        (by decide : isSpace 61 = false)
      rw [List.append_assoc] at shape
      exact shape
  | cons first word =>
      refine ⟨first :: word ++ before, ?_, ?_, ?_, ?_⟩
      · have solid := bare.first first rfl
        have shape := @Padding.trim_around _ _ indent (word ++ before ++ 61 :: rest) _ early solid
        rw [Padding.rdropWhile_append_cons (by decide : isSpace 61 = false)] at shape
        exact shape
      · exact @Padding.trim_padded _ _ [] _ _ (List.forall_mem_nil _) bare padded
      · rw [List.mem_append, not_or]
        exact ⟨unsplit, not_mem_spaces padded (by decide)⟩
      · exact plain

/-- A line that is neither a comment nor a header. -/
theorem plain_read {first : UInt8} {rest : Bytes} (shape : trim raw = first :: rest)
    (plain : first ∉ [35, 59, 91]) :
    place.move raw = place ∧ place.entry raw =
      (keyValue (first :: rest)).bind fun pair =>
        place.block.map fun block => { block := block, key := pair.1, value := pair.2 } := by
  simp only [List.mem_cons, List.not_mem_nil, or_false, not_or] at plain
  simp [Place.move, Place.entry, shape, plain]

theorem entry_read {key value : Bytes} (line : EntryLine key value raw) :
    place.move raw = place ∧ place.entry raw =
      if key = [] then none
      else place.block.map fun block => { block := block, key := key, value := value } := by
  cases line with
  | @mk indent word before after value tail early bare unsplit plain padded ended valued late =>
      obtain ⟨front, shape, named, clear, visible⟩ :=
        @entryLine_shape indent word before (after ++ value ++ tail) early bare unsplit plain padded
      have read : trim ((after ++ value ++ tail).rdropWhile isSpace) = value :=
        Padding.rdropWhile_padded ended valued late
      have before_ : ∀ octet ∈ front, decide (octet ≠ 61) = true := by
        intro octet member
        rw [decide_eq_true_eq]
        rintro rfl
        exact clear member
      have parts : keyValue (front ++ 61 :: (after ++ value ++ tail).rdropWhile isSpace) =
          if toLower word = [] then none else some (toLower word, value) := by
        rw [keyValue, if_pos (by simp), List.takeWhile_append_of_pos before_,
          List.dropWhile_append_of_pos before_, List.takeWhile_cons_of_neg (by simp),
          List.dropWhile_cons_of_neg (by simp), List.append_nil, List.drop_one, List.tail_cons,
          named, read]
      obtain ⟨first, left, whole, solid⟩ : ∃ first left,
          front ++ 61 :: (after ++ value ++ tail).rdropWhile isSpace = first :: left ∧
            first ∉ [35, 59, 91] := by
        cases front with
        | nil => exact ⟨_, _, rfl, by decide⟩
        | cons first front => exact ⟨_, _, rfl, visible first rfl⟩
      rw [whole] at shape parts
      obtain ⟨move, entry⟩ := @plain_read _ place _ _ shape solid
      rw [parts] at entry
      refine ⟨move, entry.trans ?_⟩
      split <;> rfl

theorem outside_read (unread : place.block = none)
    (noHeader : (raw.dropWhile isSpace).head? ≠ some 91) :
    place.move raw = place ∧ place.entry raw = none := by
  unfold Place.move Place.entry
  cases shape : trim raw with
  | nil => exact ⟨rfl, rfl⟩
  | cons first rest =>
      have opening : first ≠ 91 := by
        rintro rfl
        obtain ⟨dropped, whole⟩ := @List.rdropWhile_prefix _ isSpace (raw.dropWhile isSpace)
        rw [trim] at shape
        rw [shape, List.cons_append] at whole
        rw [← whole] at noHeader
        exact noHeader rfl
      simp [opening, unread]

end Lines

/-! ## What the parser makes of a text -/

def isKnown (entry : Entry) : Bool := entry.key ∈ knownKeys entry.block

/-- The place agrees with what a layout knows of it. -/
structure Stands (block : Option Block) (seen : Bool) (place : Place) : Prop where
  block : place.block = block
  seen : seen = false ↔ place.2 = 0

theorem nil_not_known (block : Block) : [] ∉ knownKeys block := by
  cases block <;> simp [knownKeys, ascii]

theorem layout_entries {block : Option Block} {seen : Bool} {lines : List Bytes}
    {listed : List Entry} (layout : Layout block seen lines listed) {place : Place}
    (stands : Stands block seen place) : (entries place lines).filter isKnown = listed := by
  induction layout generalizing place with
  | nil => rfl
  | blank blank _ continued =>
      obtain ⟨move, entry⟩ := @blank_read _ place blank
      rw [entries, move, entry]
      exact continued stands
  | comment comment _ continued =>
      obtain ⟨move, entry⟩ := @comment_read _ place comment
      rw [entries, move, entry]
      exact continued stands
  | interface line _ continued =>
      obtain ⟨move, entry⟩ := @header_read _ place _ line
      rw [entries, move, entry]
      exact continued ⟨rfl, stands.seen⟩
  | firstPeer line _ continued =>
      obtain ⟨move, entry⟩ := @header_read _ place _ line
      have first : place.2 = 0 := stands.seen.mp rfl
      rw [entries, move, entry]
      refine continued ⟨?_, ?_⟩
      · simp [header, first, Place.block, ascii]
      · simp [header, first, ascii]
  | laterPeer line _ continued =>
      obtain ⟨move, entry⟩ := @header_read _ place _ line
      have later : place.2 ≠ 0 := by
        intro none
        cases stands.seen.mpr none
      rw [entries, move, entry]
      refine continued ⟨?_, ?_⟩
      · simp [header, later, Place.block, ascii]
      · simp [header, ascii]
  | unknownSection line other another _ continued =>
      obtain ⟨move, entry⟩ := @header_read _ place _ line
      rw [entries, move, entry]
      refine continued ⟨?_, ?_⟩
      · simp [header, other, another, Place.block]
      · simpa [header, other, another] using stands.seen
  | @entry block _ key _ _ _ _ line known _ continued =>
      obtain ⟨move, entry⟩ := @entry_read _ place _ _ line
      have named : key ≠ [] := by
        rintro rfl
        exact nil_not_known block known
      rw [entries, move, entry, if_neg named, stands.block, List.filter_append]
      have kept := continued stands
      rw [kept]
      simp [isKnown, known]
  | @unknownKey block _ key _ _ _ _ line unknown _ continued =>
      obtain ⟨move, entry⟩ := @entry_read _ place _ _ line
      have kept := continued stands
      rw [entries, move, entry, stands.block, List.filter_append, kept]
      by_cases named : key = []
      · rw [if_pos named]
        rfl
      · rw [if_neg named]
        simp [isKnown, unknown]
  | outside noHeader _ continued =>
      obtain ⟨move, entry⟩ := outside_read stands.block noHeader
      rw [entries, move, entry]
      exact continued stands

theorem setEntry_unknown {config : WireGuardConfig} {entry : Entry}
    (unknown : isKnown entry = false) : setEntry config entry = config := by
  obtain ⟨block, key, value⟩ := entry
  cases block with
  | interface =>
      have others : key ∉ knownKeys .interface := by simpa [isKnown] using unknown
      simp only [knownKeys, List.mem_cons, List.not_mem_nil, or_false, not_or] at others
      simp [setEntry, interfaceEntry, others]
  | firstPeer =>
      have others : key ∉ knownKeys .firstPeer := by simpa [isKnown] using unknown
      simp only [knownKeys, List.mem_cons, List.not_mem_nil, or_false, not_or] at others
      simp [setEntry, peerEntry, others]

theorem parseText_layout {text : Bytes} {listed : List Entry}
    (layout : Layout none false (text.splitOn 10) listed) (config : WireGuardConfig) :
    parseText text config = listed.foldl setEntry config := by
  have kept := @layout_entries _ _ _ _ layout (.none, 0) ⟨rfl, by simp⟩
  rw [parseText_entries, ← kept, List.foldl_filter]
  congr 1
  funext config entry
  cases known : isKnown entry with
  | true => rfl
  | false => exact setEntry_unknown known

/-! ## What the entries leave in a field -/

section Fields

variable {Value : Type}

/-- A field is written by one key of one block, as `read` takes its value. -/
def WrittenBy (field : WireGuardConfig → Value) (block : Block) (key : Bytes)
    (read : Bytes → Option Value) : Prop :=
  ∀ config entry, field (setEntry config entry) =
    (if entry.block = block ∧ entry.key = key then read entry.value else none).getD (field config)

theorem assigned_cons (first : Entry) (later : List Entry) (block : Block) (key : Bytes) :
    assigned (first :: later) block key =
      if first.block = block ∧ first.key = key then some first.value
      else assigned later block key := by
  unfold assigned
  rw [List.find?_cons]
  by_cases same : first.block = block ∧ first.key = key
  · simp [same]
  · simp [same]

theorem assigned_eq_none {listed : List Entry} {block : Block} {key : Bytes}
    (absent : (block, key) ∉ listed.map fun entry => (entry.block, entry.key)) :
    assigned listed block key = none := by
  rw [assigned, Option.map_eq_none_iff, List.find?_eq_none]
  intro entry member same
  rw [decide_eq_true_eq] at same
  exact absent (List.mem_map.mpr ⟨entry, member, by rw [same.1, same.2]⟩)

/-- With each key once, the last entry of a key is the one that assigns it. -/
theorem last_assigned {listed : List Entry}
    (once : (listed.map fun entry => (entry.block, entry.key)).Nodup) (block : Block)
    (key : Bytes) (read : Bytes → Option Value) (old : Value) :
    (listed.filterMap fun entry =>
        if entry.block = block ∧ entry.key = key then read entry.value else none).getLast?.getD old =
      ((assigned listed block key).bind read).getD old := by
  induction listed generalizing old with
  | nil => rfl
  | cons first later continued =>
      rw [List.map_cons, List.nodup_cons] at once
      rw [LastWrite.last_cons, continued once.2, assigned_cons]
      by_cases same : first.block = block ∧ first.key = key
      · have absent := once.1
        rw [same.1, same.2] at absent
        rw [if_pos same, if_pos same, assigned_eq_none absent]
        rfl
      · rw [if_neg same, if_neg same, Option.getD_none]

theorem WrittenBy.field_eq {field : WireGuardConfig → Value} {block : Block} {key : Bytes}
    {read : Bytes → Option Value} (written : WrittenBy field block key read) {listed : List Entry}
    (once : (listed.map fun entry => (entry.block, entry.key)).Nodup) (config : WireGuardConfig) :
    field (listed.foldl setEntry config) =
      ((assigned listed block key).bind read).getD (field config) := by
  rw [LastWrite.foldl_field written, last_assigned once]

theorem interface_written {field : WireGuardConfig → Value} {wanted : Bytes}
    {read : Bytes → Option Value}
    (peer : ∀ config peer, field { config with peer := peer } = field config)
    (spec : ∀ config key value,
      field (interfaceEntry config key value) = keyed wanted read key value (field config)) :
    WrittenBy field .interface wanted read := by
  intro config entry
  obtain ⟨block, key, value⟩ := entry
  cases block with
  | interface =>
      simp only [true_and]
      exact spec config key value
  | firstPeer =>
      simp only [reduceCtorEq, false_and, if_false, Option.getD_none]
      exact peer config _

theorem firstPeer_written {field : WireGuardPeer → Value} {wanted : Bytes}
    {read : Bytes → Option Value}
    (spec : ∀ peer key value,
      field (peerEntry peer key value) = keyed wanted read key value (field peer)) :
    WrittenBy (fun config => field config.peer) .firstPeer wanted read := by
  intro config entry
  obtain ⟨block, key, value⟩ := entry
  cases block with
  | interface =>
      simp only [setEntry, interfaceEntry_peer, reduceCtorEq, false_and, if_false,
        Option.getD_none]
  | firstPeer =>
      simp only [setEntry, true_and]
      exact spec config.peer key value

/-! ### The fields of a configuration -/

theorem privateKey_written :
    WrittenBy (·.privateKey) .interface (ascii "privatekey") readText :=
  interface_written (fun _ _ => rfl) fun config key value => by rw [interfaceEntry_eq]

theorem address_written : WrittenBy (·.address) .interface (ascii "address") readText :=
  interface_written (fun _ _ => rfl) fun config key value => by rw [interfaceEntry_eq]

theorem dns_written : WrittenBy (·.dns) .interface (ascii "dns") readText :=
  interface_written (fun _ _ => rfl) fun config key value => by rw [interfaceEntry_eq]

theorem listenPort_written :
    WrittenBy (·.listenPort) .interface (ascii "listenport") (some ∘ portOf) :=
  interface_written (fun _ _ => rfl) fun config key value => by rw [interfaceEntry_eq]

theorem mtu_written : WrittenBy (·.mtu) .interface (ascii "mtu") readNumber :=
  interface_written (fun _ _ => rfl) fun config key value => by rw [interfaceEntry_eq]

theorem publicKey_written :
    WrittenBy (·.peer.publicKey) .firstPeer (ascii "publickey") readText :=
  @firstPeer_written _ (·.publicKey) _ _ fun peer key value => by rw [peerEntry_eq]

theorem presharedKey_written :
    WrittenBy (·.peer.presharedKey) .firstPeer (ascii "presharedkey") readText :=
  @firstPeer_written _ (·.presharedKey) _ _ fun peer key value => by rw [peerEntry_eq]

theorem endpointHost_written :
    WrittenBy (·.peer.endpointHost) .firstPeer (ascii "endpoint") readHost :=
  @firstPeer_written _ (·.endpointHost) _ _ fun peer key value => by rw [peerEntry_eq]

theorem endpointPort_written :
    WrittenBy (·.peer.endpointPort) .firstPeer (ascii "endpoint") readPort :=
  @firstPeer_written _ (·.endpointPort) _ _ fun peer key value => by rw [peerEntry_eq]

theorem allowedIPs_written :
    WrittenBy (·.peer.allowedIPs) .firstPeer (ascii "allowedips") readText :=
  @firstPeer_written _ (·.allowedIPs) _ _ fun peer key value => by rw [peerEntry_eq]

theorem persistentKeepalive_written :
    WrittenBy (·.peer.persistentKeepalive) .firstPeer (ascii "persistentkeepalive") readNumber :=
  @firstPeer_written _ (·.persistentKeepalive) _ _ fun peer key value => by rw [peerEntry_eq]

end Fields

/-! ## What is read back -/

section Read

theorem ofBytes_bytes (field : CString) : CString.ofBytes field.bytes = field := by
  have same : field.bytes.takeWhile (· ≠ 0) = field.bytes := by
    refine List.takeWhile_eq_self_iff.mpr fun octet member => ?_
    rw [decide_eq_true_eq]
    rintro rfl
    exact field.no_nul member
  simp only [CString.ofBytes, same]

theorem text_read {field : CString} {value : Option Bytes} (written : WritesText field value) :
    (value.bind readText).getD .empty = field := by
  cases written with
  | absent => rfl
  | present => exact ofBytes_bytes field

/-- Digits convert to their value as long as it fits. -/
theorem strtol_digits {text : Bytes} {value : Nat} (digits : Digits text value)
    (small : value < 2 ^ 63) : strtol (.ofBytes text) = value := by
  obtain ⟨nonempty, every, rfl⟩ := digits
  have plain : sign ((CString.ofBytes text).bytes.dropWhile isSpace) = (false, text) := by
    have whole : (CString.ofBytes text).bytes = text := by
      refine List.takeWhile_eq_self_iff.mpr fun octet member => ?_
      rw [decide_eq_true_eq]
      rintro rfl
      exact absurd (every 0 member) (by decide)
    rw [whole]
    cases text with
    | nil => exact absurd rfl nonempty
    | cons first rest =>
        obtain ⟨solid, minus, plus⟩ := digit_plain (every first List.mem_cons_self)
        rw [List.dropWhile_cons_of_neg (by simp [solid])]
        exact sign_plain minus plus
  have taken : text.takeWhile isDigit = text := List.takeWhile_eq_self_iff.mpr every
  simp only [strtol, plain, taken, Bool.false_eq_true, if_false]
  omega

theorem portOf_digits {text : Bytes} {port : UInt16} (digits : Digits text port.toNat) :
    portOf text = port := by
  have small := port.toNat_lt
  have value := strtol_digits digits (by omega)
  have kept : (strtol (.ofBytes text) % 2 ^ 16).toNat = port.toNat := by omega
  rw [portOf_eq, kept, UInt16.ofNat_toNat]

theorem port_read {port : UInt16} {value : Option Bytes}
    (written : WritesNumber port.toNat value) :
    (value.bind (some ∘ portOf)).getD 0 = port := by
  generalize named : port.toNat = number at written
  cases written with
  | absent => exact (UInt16.toNat_inj.mp named).symm
  | present digits =>
      rw [← named] at digits
      exact portOf_digits digits

theorem number_read {number : Int32} (positive : 0 ≤ number.toInt) {value : Option Bytes}
    (written : WritesNumber number.toInt.toNat value) :
    (value.bind readNumber).getD 0 = number := by
  generalize named : number.toInt.toNat = magnitude at written
  have small := number.toInt_lt
  cases written with
  | absent =>
      have zero : number.toInt = 0 := by omega
      exact (Int32.toInt_inj.mp zero).symm
  | @present _ text digits =>
      have value := strtol_digits digits (by omega)
      have read : atoi (.ofBytes text) = number.toInt := by
        rw [atoi, value, Int.bmod_eq_of_le] <;> omega
      change Int32.ofInt (atoi (.ofBytes text)) = number
      rw [read, Int32.ofInt_toInt]

/-! ### Endpoints -/

theorem last_solid {front digits : Bytes} {value : Nat} (written : Digits digits value) :
    ∀ octet ∈ (front ++ digits).getLast?, isSpace octet = false := by
  intro octet last
  have shape := List.dropLast_append_getLast written.nonempty
  rw [← shape, ← List.append_assoc, List.getLast?_concat] at last
  cases last
  exact (digit_plain (written.every _ (List.getLast_mem written.nonempty))).1

theorem trim_bare {text : Bytes} (bare : Trimmed text) : trim text = text := by
  have same := @Padding.trim_padded _ _ [] text [] (List.forall_mem_nil _) bare
    (List.forall_mem_nil _)
  rwa [List.nil_append, List.append_nil] at same

theorem no_colon {digits : Bytes} {value : Nat} (written : Digits digits value) :
    ∀ octet ∈ digits, decide (octet ≠ 58) = true := by
  intro octet member
  rw [decide_eq_true_eq]
  rintro rfl
  exact absurd (written.every 58 member) (by decide)

theorem endpointParts_plain {host digits : Bytes} {value : Nat} (plain : 58 ∉ host)
    (solid : ∀ octet ∈ host, isSpace octet = false) (open_ : host.head? ≠ some 91)
    (written : Digits digits value) :
    endpointParts (host ++ 58 :: digits) = (some host, some digits) := by
  have bare : Trimmed (host ++ 58 :: digits) := by
    refine ⟨?_, ?_⟩
    · cases host with
      | nil =>
          rintro octet ⟨⟩
          rfl
      | cons first host =>
          rintro octet ⟨⟩
          exact solid first List.mem_cons_self
    · have shape : host ++ 58 :: digits = (host ++ [58]) ++ digits := by simp
      rw [shape]
      exact last_solid written
  have before : ((host ++ 58 :: digits).rdropWhile (· ≠ 58)).dropLast = host := by
    rw [@Padding.rdropWhile_append_cons _ (· ≠ 58) 58 rfl host digits,
      List.rdropWhile_eq_nil_iff.mpr (no_colon written), List.dropLast_concat]
  have after : (host ++ 58 :: digits).rtakeWhile (· ≠ 58) = digits :=
    @Padding.rtakeWhile_append_cons _ (· ≠ 58) 58 rfl host digits (no_colon written)
  have inside : 58 ∈ host ++ 58 :: digits := by simp
  have opening : (host ++ 58 :: digits).head? ≠ some 91 := by
    cases host with
    | nil => simp
    | cons first host => exact open_
  unfold endpointParts
  rw [trim_bare bare]
  generalize host ++ 58 :: digits = text at *
  cases text with
  | nil => cases inside
  | cons first rest =>
      have other : first ≠ 91 := by
        rintro rfl
        exact opening rfl
      simp only [if_neg other, if_pos inside, before, after]

theorem endpointParts_bracketed {host digits : Bytes} {value : Nat} (closed : 93 ∉ host)
    (written : Digits digits value) :
    endpointParts (91 :: (host ++ 93 :: 58 :: digits)) = (some host, some digits) := by
  have bare : Trimmed (91 :: (host ++ 93 :: 58 :: digits)) := by
    refine ⟨?_, ?_⟩
    · rintro octet ⟨⟩
      rfl
    · have shape : 91 :: (host ++ 93 :: 58 :: digits) = (91 :: host ++ [93, 58]) ++ digits := by simp
      rw [shape]
      exact last_solid written
  have before : ∀ octet ∈ host, decide (octet ≠ 93) = true := by
    intro octet member
    rw [decide_eq_true_eq]
    rintro rfl
    exact closed member
  have taken : (host ++ 93 :: 58 :: digits).takeWhile (· ≠ 93) = host := by
    rw [List.takeWhile_append_of_pos before, List.takeWhile_cons_of_neg (by simp),
      List.append_nil]
  have left : (host ++ 93 :: 58 :: digits).dropWhile (· ≠ 93) = 93 :: 58 :: digits := by
    rw [List.dropWhile_append_of_pos before, List.dropWhile_cons_of_neg (by simp)]
  unfold endpointParts
  rw [trim_bare bare]
  simp only [if_true, taken, left]
  simp

theorem endpoint_read {host : CString} {port : UInt16} {value : Option Bytes}
    (written : WritesEndpoint host port value) :
    (value.bind readHost).getD .empty = host ∧ (value.bind readPort).getD 0 = port := by
  cases written with
  | absent => exact ⟨rfl, rfl⟩
  | present text =>
      cases text with
      | plain colonless solid opening digits =>
          rw [Option.bind_some, Option.bind_some, readHost, readPort,
            endpointParts_plain colonless solid opening digits]
          exact ⟨ofBytes_bytes host, portOf_digits digits⟩
      | bracketed closed digits =>
          rw [Option.bind_some, Option.bind_some, readHost, readPort,
            endpointParts_bracketed closed digits]
          exact ⟨ofBytes_bytes host, portOf_digits digits⟩

end Read

/-- A default configuration ends as the one that the text carries. -/
theorem parseText_rendering {config : WireGuardConfig} {text : Bytes} {listed : List Entry}
    (rendering : Rendering config text listed) : parseText text {} = config := by
  rw [parseText_layout rendering.layout]
  have once := rendering.once
  obtain ⟨endpointHost, endpointPort⟩ := endpoint_read rendering.endpoint
  have privateKey := (privateKey_written.field_eq once {}).trans (text_read rendering.privateKey)
  have address := (address_written.field_eq once {}).trans (text_read rendering.address)
  have dns := (dns_written.field_eq once {}).trans (text_read rendering.dns)
  have listenPort := (listenPort_written.field_eq once {}).trans (port_read rendering.listenPort)
  have mtu := (mtu_written.field_eq once {}).trans
    (number_read rendering.mtuPositive rendering.mtu)
  have publicKey := (publicKey_written.field_eq once {}).trans (text_read rendering.publicKey)
  have presharedKey := (presharedKey_written.field_eq once {}).trans
    (text_read rendering.presharedKey)
  have allowedIPs := (allowedIPs_written.field_eq once {}).trans (text_read rendering.allowedIPs)
  have keepalive := (persistentKeepalive_written.field_eq once {}).trans
    (number_read rendering.keepalivePositive rendering.persistentKeepalive)
  have host := (endpointHost_written.field_eq once {}).trans endpointHost
  have port := (endpointPort_written.field_eq once {}).trans endpointPort
  generalize listed.foldl setEntry {} = parsed at *
  obtain ⟨_, _, _, _, _, ⟨_, _, _, _, _, _⟩⟩ := parsed
  obtain ⟨_, _, _, _, _, ⟨_, _, _, _, _, _⟩⟩ := config
  simp_all

namespace RenderingSample

instance (text : Bytes) : Decidable (Spaces text) :=
  inferInstanceAs (Decidable (∀ octet ∈ text, isSpace octet = true))

def text : Bytes :=
  ascii " [InterFace] \r\n# mine\nListenPort = 51820\r\n[peer]\nEndPoint=[fe80::1]:443\nTable = off\n" ++
    ascii "[Peer]\nEndpoint = gateway:1\n"

def config : WireGuardConfig :=
  { listenPort := 51820
    peer := { endpointHost := .ofBytes (ascii "fe80::1"), endpointPort := 443 } }

def listed : List Entry :=
  [{ block := .interface, key := ascii "listenport", value := ascii "51820" },
    { block := .firstPeer, key := ascii "endpoint", value := ascii "[fe80::1]:443" }]

theorem lines : text.splitOn 10 =
    [ascii " [InterFace] \r", ascii "# mine", ascii "ListenPort = 51820\r", ascii "[peer]",
      ascii "EndPoint=[fe80::1]:443", ascii "Table = off", ascii "[Peer]",
      ascii "Endpoint = gateway:1", []] := by
  decide +kernel

theorem trimmed {value : Bytes} (first : ∀ octet ∈ value.head?, isSpace octet = false)
    (last : ∀ octet ∈ value.getLast?, isSpace octet = false) : Trimmed value :=
  ⟨first, last⟩

theorem header {name raw : Bytes} (indent word tail : Bytes)
    (shape : indent ++ 91 :: ([] ++ word ++ [] ++ 93 :: tail) = raw) (named : toLower word = name)
    (spaces : Spaces indent ∧ Spaces tail) (bare : Trimmed word) (closed : 93 ∉ word) :
    HeaderLine name raw := by
  subst shape named
  exact .mk spaces.1 (List.forall_mem_nil _) bare closed (List.forall_mem_nil _) spaces.2

theorem entry {key value raw : Bytes} (word padding tail : Bytes)
    (shape : [] ++ (word ++ padding ++ 61 :: (padding ++ value ++ tail)) = raw)
    (named : toLower word = key) (spaces : Spaces padding ∧ Spaces tail) (bare : Trimmed word)
    (unsplit : 61 ∉ word) (plain : ∀ first ∈ word.head?, first ∉ [35, 59, 91])
    (valued : Trimmed value) : EntryLine key value raw := by
  subst shape named
  exact .mk (List.forall_mem_nil _) bare unsplit plain spaces.1 spaces.1 valued spaces.2

theorem layout : Layout none false (text.splitOn 10) listed := by
  have interface : HeaderLine (ascii "interface") (ascii " [InterFace] \r") :=
    header [32] (ascii "InterFace") [32, 13] (by decide +kernel) (by decide +kernel) (by decide)
      (trimmed (by decide +kernel) (by decide +kernel)) (by decide +kernel)
  have comment : CommentLine (ascii "# mine") := @CommentLine.mk [] (ascii " mine") 35
    (List.forall_mem_nil _) (.inl rfl)
  have listen : EntryLine (ascii "listenport") (ascii "51820") (ascii "ListenPort = 51820\r") :=
    entry (ascii "ListenPort") [32] [13] (by decide +kernel) (by decide +kernel) (by decide)
      (trimmed (by decide +kernel) (by decide +kernel)) (by decide +kernel) (by decide +kernel)
      (trimmed (by decide +kernel) (by decide +kernel))
  have peer : HeaderLine (ascii "peer") (ascii "[peer]") :=
    header [] (ascii "peer") [] (by decide +kernel) (by decide +kernel) (by decide)
      (trimmed (by decide +kernel) (by decide +kernel)) (by decide +kernel)
  have later : HeaderLine (ascii "peer") (ascii "[Peer]") :=
    header [] (ascii "Peer") [] (by decide +kernel) (by decide +kernel) (by decide)
      (trimmed (by decide +kernel) (by decide +kernel)) (by decide +kernel)
  have endpoint : EntryLine (ascii "endpoint") (ascii "[fe80::1]:443")
      (ascii "EndPoint=[fe80::1]:443") :=
    entry (ascii "EndPoint") [] [] (by decide +kernel) (by decide +kernel) (by decide)
      (trimmed (by decide +kernel) (by decide +kernel)) (by decide +kernel) (by decide +kernel)
      (trimmed (by decide +kernel) (by decide +kernel))
  have unknown : EntryLine (ascii "table") (ascii "off") (ascii "Table = off") :=
    entry (ascii "Table") [32] [] (by decide +kernel) (by decide +kernel) (by decide)
      (trimmed (by decide +kernel) (by decide +kernel)) (by decide +kernel) (by decide +kernel)
      (trimmed (by decide +kernel) (by decide +kernel))
  rw [lines]
  refine .interface interface (.comment comment (.entry listen (by decide +kernel) ?_))
  refine .firstPeer peer (.entry endpoint (by decide +kernel) ?_)
  refine .unknownKey unknown (by decide +kernel) (.laterPeer later ?_)
  exact .outside (by decide +kernel) (.outside (by decide) .nil)

theorem rendering : Rendering config text listed where
  layout := layout
  once := by decide +kernel
  privateKey := .absent
  address := .absent
  dns := .absent
  listenPort := .present ⟨by decide +kernel, by decide +kernel, by decide +kernel⟩
  mtuPositive := by decide
  mtu := .absent
  publicKey := .absent
  presharedKey := .absent
  endpoint := .present (.bracketed (by decide +kernel)
    ⟨by decide +kernel, by decide +kernel, by decide +kernel⟩)
  allowedIPs := .absent
  keepalivePositive := by decide
  persistentKeepalive := .absent

end RenderingSample

open RenderingSample in
theorem parseText_rendering_bracketed : parseText text {} = config :=
  parseText_rendering rendering

end Sotoportego.WireGuard.WireGuardConfigParser
