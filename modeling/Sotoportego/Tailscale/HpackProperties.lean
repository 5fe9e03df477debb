import Sotoportego.Tailscale.Hpack

/-!
# The decoder against the header compression it implements

Instructions have a meaning over a table that drops its oldest entries. What the decoder
returns for their octets is that meaning, and its table is the abstract one.
-/

set_option autoImplicit false

namespace Sotoportego.Tailscale

open Octets CText PrefixCode

namespace Hpack

/-! ## The Huffman code -/

/-- The length and the code of every symbol. -/
def words : List (Nat × Nat) := kHuffLen.zip kHuffCode

theorem length_words : words.length = 256 := by decide +kernel

def word (symbol : UInt8) : Nat × Nat :=
  words.get ⟨symbol.toNat, length_words ▸ symbol.toNat_lt⟩

def huffmanWord (symbol : UInt8) : List Bool :=
  toBits (word symbol).1 (word symbol).2

theorem word_mem (symbol : UInt8) : word symbol ∈ words :=
  List.get_mem _ _

theorem words_bounded : ∀ entry ∈ words, 0 < entry.1 ∧ entry.1 ≤ 30 ∧ entry.2 < 2 ^ entry.1 := by
  decide +kernel

theorem words_ascending :
    Ascending ((words.map (block 30)).insertionSort fun left right => left.1 ≤ right.1) := by
  decide +kernel

theorem words_apart : (words.map (block 30)).Pairwise Apart := by
  have sorted := words_ascending.pairwise (by
    intro taken member
    obtain ⟨entry, -, rfl⟩ := List.mem_map.mp ((List.mem_insertionSort _).mp member)
    exact Nat.mul_le_mul_right _ (Nat.le_succ _))
  exact ((List.perm_insertionSort _ _).pairwise_iff Apart.symm).mp sorted

theorem word_apart {left right : UInt8} (different : left ≠ right) :
    Apart (block 30 (word left)) (block 30 (word right)) := by
  have ordered : ∀ {first second : UInt8}, first.toNat < second.toNat →
      Apart (block 30 (word first)) (block 30 (word second)) := by
    intro first second less
    exact List.pairwise_iff_get.mp (List.pairwise_map.mp words_apart) _ _ less
  have distinct : left.toNat ≠ right.toNat := fun same => different (UInt8.toNat_inj.mp same)
  cases Nat.lt_or_gt_of_ne distinct with
  | inl less => exact ordered less
  | inr greater => exact (ordered greater).symm

theorem value_huffmanWord (symbol : UInt8) :
    ((huffmanWord symbol).length, value (huffmanWord symbol)) = word symbol := by
  rw [huffmanWord, length_toBits, value_toBits (words_bounded _ (word_mem symbol)).2.2]

theorem huffmanWord_apart {left right : UInt8} (begins : huffmanWord left <+: huffmanWord right) :
    left = right := by
  by_contra different
  have fits : (huffmanWord right).length ≤ 30 := by
    rw [huffmanWord, length_toBits]
    exact (words_bounded _ (word_mem right)).2.1
  refine not_apart_of_prefix begins fits ?_
  rw [value_huffmanWord, value_huffmanWord]
  exact word_apart different

theorem word_injective {left right : UInt8} (same : word left = word right) : left = right := by
  refine huffmanWord_apart ?_
  rw [huffmanWord, same]
  exact List.prefix_refl _

theorem toNat_ofNat_position {position : Nat} (inside : position < words.length) :
    (UInt8.ofNat position).toNat = position := by
  rw [length_words] at inside
  rw [UInt8.toNat_ofNat']
  exact Nat.mod_eq_of_lt inside

theorem words_getElem {position : Nat} (inside : position < words.length) :
    words[position] = word (UInt8.ofNat position) := by
  simp only [word, toNat_ofNat_position inside, List.get_eq_getElem]

theorem huffmanSymbol_iff (bits : List Bool) (symbol : UInt8) :
    huffmanSymbol (value bits) bits.length = some symbol ↔ huffmanWord symbol = bits := by
  have tested : ∀ entry : Nat × Nat, (entry.1 == bits.length && entry.2 == value bits) = true ↔
      entry = (bits.length, value bits) := by
    intro entry
    rw [Bool.and_eq_true, beq_iff_eq, beq_iff_eq, Prod.ext_iff]
  constructor
  · intro found
    obtain ⟨position, located, rfl⟩ := Option.map_eq_some_iff.mp found
    change words.findIdx? _ = some position at located
    obtain ⟨inside, passed, -⟩ := List.findIdx?_eq_some_iff_getElem.mp located
    have entry := (tested _).mp passed
    rw [words_getElem inside] at entry
    rw [huffmanWord, entry, toBits_value]
  · rintro rfl
    rw [huffmanSymbol, Option.map_eq_some_iff]
    refine ⟨symbol.toNat, ?_, UInt8.ofNat_toNat⟩
    show words.findIdx? _ = some symbol.toNat
    rw [List.findIdx?_eq_some_iff_getElem]
    refine ⟨length_words ▸ symbol.toNat_lt, ?_, ?_⟩
    · rw [tested, value_huffmanWord]
      rfl
    · intro earlier before passed
      rw [tested, value_huffmanWord] at passed
      have inside : earlier < words.length :=
        Nat.lt_trans before (length_words ▸ symbol.toNat_lt)
      have same := word_injective ((words_getElem inside).symm.trans passed)
      rw [← same, toNat_ofNat_position inside] at before
      exact Nat.lt_irrefl _ before

/-- The code as the bit reader sees it. -/
def huffmanLookup (bits : List Bool) : Option UInt8 :=
  huffmanSymbol (value bits) bits.length

theorem huffman_lawful : Lawful 30 huffmanWord huffmanLookup where
  lookup_iff := huffmanSymbol_iff
  nonempty symbol := by
    have positive := (words_bounded _ (word_mem symbol)).1
    intro nothing
    have none := congrArg List.length nothing
    rw [huffmanWord, length_toBits, List.length_nil] at none
    omega
  length_le symbol := by
    rw [huffmanWord, length_toBits]
    exact (words_bounded _ (word_mem symbol)).2.1
  apart _ _ := huffmanWord_apart

def HuffmanState.ofFeed (feed : Feed UInt8) : HuffmanState where
  acc := value feed.held
  accLen := feed.held.length
  out := feed.out

/-- The bit loop holds the bits as a number and their count. -/
theorem huffmanBit_ofFeed (state : Feed UInt8) (bit : Bool) :
    huffmanBit (.ofFeed state) bit = (feed 30 huffmanLookup state bit).map .ofFeed := by
  have held : 2 * value state.held + bit.toNat = value (state.held ++ [bit]) :=
    (value_concat _ _).symm
  have length : state.held.length + 1 = (state.held ++ [bit]).length := by
    rw [List.length_append, List.length_singleton]
  by_cases long : 30 < (HuffmanState.ofFeed state).accLen + 1
  · have exceeds : 30 < state.held.length + 1 := long
    rw [feed, if_pos exceeds, huffmanBit, if_pos long]
    rfl
  · have within : ¬ 30 < state.held.length + 1 := long
    rw [feed, if_neg within, huffmanBit, if_neg long, huffmanLookup]
    simp only [HuffmanState.ofFeed, held, length]
    cases huffmanSymbol (value (state.held ++ [bit])) (state.held ++ [bit]).length with
    | none => rfl
    | some symbol => rfl

theorem foldlM_huffmanBit (bits : List Bool) (state : Feed UInt8) :
    bits.foldlM huffmanBit (.ofFeed state) =
      (bits.foldlM (feed 30 huffmanLookup) state).map .ofFeed := by
  induction bits generalizing state with
  | nil => rfl
  | cons bit bits continued =>
      rw [List.foldlM_cons, List.foldlM_cons, huffmanBit_ofFeed]
      cases feed 30 huffmanLookup state bit with
      | none => rfl
      | some next => exact continued next

/-- No symbol has a word of ones. -/
theorem ones_unknown {more : List Bool} {count : Nat} (short : count ≤ 30) (some : more ≠ [])
    (begins : more <+: List.replicate count true) : huffmanLookup more = none := by
  have ones : more = List.replicate more.length true :=
    List.eq_replicate_of_mem fun bit member =>
      List.eq_of_mem_replicate (begins.subset member)
  have bounded := begins.length_le
  rw [List.length_replicate] at bounded
  have positive := List.length_pos_of_ne_nil some
  have quiet : ∀ length ≤ 30, 0 < length → huffmanSymbol (2 ^ length - 1) length = none := by
    decide +kernel
  rw [huffmanLookup, ones, value_replicate_true, List.length_replicate]
  exact quiet _ (by omega) positive

/-- Octets that spell a text in the code, filled up with ones. -/
def HuffmanCoded (packed text : Bytes) : Prop :=
  ∃ pad < 8, packed.flatMap octetBits = text.flatMap huffmanWord ++ List.replicate pad true

theorem huffmanDecode_coded {packed text : Bytes} (coded : HuffmanCoded packed text) :
    huffmanDecode packed = some text := by
  obtain ⟨pad, short, spelled⟩ := coded
  have fed := huffman_lawful.foldlM_feed_padded text
    (by rw [List.length_replicate]; omega : (List.replicate pad true).length ≤ 30)
    fun more some begins => ones_unknown (by omega) some begins
  have read : (packed.flatMap octetBits).foldlM huffmanBit {} =
      some ⟨2 ^ pad - 1, pad, text⟩ := by
    rw [spelled]
    refine (foldlM_huffmanBit _ {}).trans ?_
    rw [fed, Option.map_some, HuffmanState.ofFeed]
    simp only [value_replicate_true, List.length_replicate]
  rw [huffmanDecode, read]
  simp only [Nat.and_self, ne_eq, not_true_eq_false, and_false, if_false]
  rw [if_neg (by omega)]

/-! ## Integers and strings -/

open HpackEncoder (encodeInteger encodeMore)

theorem last_octet : ∀ low < 128,
    UInt8.ofNat low &&& 0x80 = 0 ∧ (UInt8.ofNat low &&& 0x7f).toNat = low := by
  decide +kernel

theorem more_octet : ∀ low < 128,
    UInt8.ofNat (low ||| 0x80) &&& 0x80 ≠ 0 ∧ (UInt8.ofNat (low ||| 0x80) &&& 0x7f).toNat = low := by
  decide +kernel

theorem accumulate {value low shift : Nat} (small : value + low * 2 ^ shift < 2 ^ 32) :
    (value + low <<< shift % 2 ^ 32) % 2 ^ 32 = value + low * 2 ^ shift := by
  rw [Nat.shiftLeft_eq, Nat.mod_eq_of_lt (by omega : low * 2 ^ shift < 2 ^ 32),
    Nat.mod_eq_of_lt small]

/-- Groups of seven bits that stay below 2^32 never reach the limit on the shift. -/
theorem continueInteger_encodeMore {more : Nat} (rest : Bytes) :
    ∀ {value shift : Nat}, 7 ∣ shift → shift ≤ 28 → value + more * 2 ^ shift < 2 ^ 32 →
      continueInteger value shift (encodeMore more ++ rest) =
        some (value + more * 2 ^ shift, rest) := by
  fun_induction encodeMore more with
  | case1 more long continued =>
      intro value shift seven bounded small
      have masked : more &&& 0x7f = more % 128 := Nat.and_two_pow_sub_one_eq_mod more 7
      have octet := more_octet (more % 128) (Nat.mod_lt _ (by decide))
      have split : more % 128 * 2 ^ shift + more >>> 7 * 2 ^ (shift + 7) = more * 2 ^ shift := by
        rw [Nat.shiftRight_eq_div_pow, Nat.pow_add, Nat.mul_comm (2 ^ shift), ← Nat.mul_assoc,
          ← Nat.add_mul]
        congr 1
        omega
      have within : shift + 7 < 32 := by
        have bound : 2 ^ (shift + 7) < 2 ^ 32 := by
          have scaled : 128 * 2 ^ shift ≤ more * 2 ^ shift := Nat.mul_le_mul_right _ long
          rw [Nat.pow_add]
          omega
        exact (Nat.pow_lt_pow_iff_right (by decide)).mp bound
      rw [List.cons_append, continueInteger, masked, octet.2, accumulate (by omega)]
      rw [if_neg octet.1, if_neg (by omega), continued (by omega) (by omega) (by omega)]
      rw [Nat.add_assoc, split]
  | case2 more short =>
      intro value shift _ _ small
      have octet := last_octet more (by omega)
      rw [List.singleton_append, continueInteger, octet.2, accumulate (by omega)]
      rw [if_pos octet.1]

/-- The flag bits stand above the low bits of an integer. -/
def Flagged (prefixBits : Nat) (mask : UInt8) : Prop :=
  ∀ low < 2 ^ prefixBits, (mask ||| UInt8.ofNat low).toNat &&& (2 ^ prefixBits - 1) = low

theorem decodeInteger_encodeInteger {prefixBits : Nat} {mask : UInt8}
    (flagged : Flagged prefixBits mask) {value : Nat} (small : value < 2 ^ 32) (rest : Bytes) :
    decodeInteger prefixBits (encodeInteger prefixBits mask value ++ rest) = some (value, rest) := by
  have positive : 0 < 2 ^ prefixBits := Nat.two_pow_pos _
  rw [encodeInteger]
  split
  next short =>
    rw [List.singleton_append, decodeInteger, flagged value (by omega)]
    simp only [short, if_true]
  next long =>
    rw [List.cons_append, decodeInteger, flagged _ (by omega)]
    simp only [Nat.lt_irrefl, if_false]
    rw [continueInteger_encodeMore rest (by omega) (by omega) (by omega), Nat.pow_zero, Nat.mul_one]
    congr 2
    omega

/-- The first octet carries the flags. -/
theorem octetAt_encodeInteger (prefixBits : Nat) (mask : UInt8) (value : Nat) (rest : Bytes) :
    octetAt (encodeInteger prefixBits mask value ++ rest) 0 =
      mask ||| UInt8.ofNat (min value (2 ^ prefixBits - 1)) := by
  rw [encodeInteger]
  split
  next short =>
    rw [Nat.min_eq_left (Nat.le_of_lt short)]
    rfl
  next long =>
    rw [Nat.min_eq_right (Nat.le_of_not_lt long)]
    rfl

/-- A string in either form. -/
inductive StringCoded : Bytes → Bytes → Prop where
  | raw {text : Bytes} : 0 ∉ text → text.length < 2 ^ 28 →
      StringCoded (encodeInteger 7 0 text.length ++ text) text
  | huffman {packed text : Bytes} : 0 ∉ text → packed.length < 2 ^ 28 →
      HuffmanCoded packed text → StringCoded (encodeInteger 7 0x80 packed.length ++ packed) text

theorem flagged_string (mask : UInt8) (one : mask = 0 ∨ mask = 0x80) : Flagged 7 mask := by
  unfold Flagged
  cases one with
  | inl raw =>
      rw [raw]
      decide +kernel
  | inr huffman =>
      rw [huffman]
      decide +kernel

/-- The flag says which form a string has. -/
theorem string_flag (size : Nat) :
    (0 ||| UInt8.ofNat (min size (2 ^ 7 - 1))) &&& 0x80 = 0 ∧
      (0x80 ||| UInt8.ofNat (min size (2 ^ 7 - 1))) &&& 0x80 ≠ 0 := by
  have flags : ∀ low < 128, (0 ||| UInt8.ofNat low) &&& 0x80 = 0 ∧
      (0x80 ||| UInt8.ofNat low) &&& 0x80 ≠ 0 := by
    decide +kernel
  exact flags _ (by omega)

theorem decodeString_coded {octets text : Bytes} (coded : StringCoded octets text) (rest : Bytes) :
    decodeString (octets ++ rest) = some (text, rest) := by
  cases coded with
  | raw no_nul small =>
      have whole : text.takeWhile (· ≠ 0) = text := by
        rw [List.takeWhile_eq_self_iff]
        intro octet member
        exact decide_eq_true fun nul => no_nul (nul ▸ member)
      rw [List.append_assoc, decodeString, octetAt_encodeInteger, (string_flag _).1,
        decodeInteger_encodeInteger (flagged_string 0 (.inl rfl)) (by omega)]
      simp only [List.length_append, ne_eq, not_true_eq_false, if_false, List.take_left, List.drop_left]
      rw [if_neg (by omega)]
      exact congrArg some (Prod.ext whole rfl)
  | @huffman packed text no_nul small spelled =>
      rw [List.append_assoc, decodeString, octetAt_encodeInteger,
        decodeInteger_encodeInteger (flagged_string 0x80 (.inr rfl)) (by omega)]
      simp only [List.length_append, List.take_left, List.drop_left]
      rw [if_neg (by omega), if_pos (string_flag _).2, huffmanDecode_coded spelled]
      rfl

/-! ## The table -/

def tableSize (entries : List HpackHeader) : Nat :=
  (entries.map HpackHeader.size).sum

/-- The newest entries that fit together. -/
def newest : Nat → List HpackHeader → List HpackHeader
  | _, [] => []
  | max, entry :: older =>
      if entry.size ≤ max then entry :: newest (max - entry.size) older else []

@[simp] theorem tableSize_cons (entry : HpackHeader) (older : List HpackHeader) :
    tableSize (entry :: older) = entry.size + tableSize older := rfl

theorem tableSize_concat (newer : List HpackHeader) (oldest : HpackHeader) :
    tableSize (newer ++ [oldest]) = tableSize newer + oldest.size := by
  simp [tableSize]

theorem tableSize_newest_le (max : Nat) (entries : List HpackHeader) :
    tableSize (newest max entries) ≤ max := by
  induction entries generalizing max with
  | nil => exact Nat.zero_le _
  | cons entry older continued =>
      rw [newest]
      split
      next fits =>
        have rest := continued (max - entry.size)
        rw [tableSize_cons]
        omega
      next => exact Nat.zero_le _

theorem newest_of_fits {max : Nat} {entries : List HpackHeader} (fits : tableSize entries ≤ max) :
    newest max entries = entries := by
  induction entries generalizing max with
  | nil => rfl
  | cons entry older continued =>
      rw [tableSize_cons] at fits
      rw [newest, if_pos (by omega), continued (by omega)]

/-- The oldest entry goes first. -/
theorem newest_concat {max : Nat} {newer : List HpackHeader} {oldest : HpackHeader}
    (exceeds : max < tableSize (newer ++ [oldest])) :
    newest max (newer ++ [oldest]) = newest max newer := by
  induction newer generalizing max with
  | nil =>
      have larger : ¬ oldest.size ≤ max := Nat.not_le_of_lt exceeds
      rw [List.nil_append, newest, newest, if_neg larger]
  | cons entry newer continued =>
      rw [List.cons_append, tableSize_cons] at exceeds
      rw [List.cons_append, newest, newest]
      split
      next fits => rw [continued (by omega)]
      next => rfl

/-- The dynamic table: first in, first out, within a size. -/
structure HeaderTable where
  entries : List HpackHeader := []
  max : Nat := 4096
  fits : tableSize entries ≤ max := by decide

namespace HeaderTable

def resize (max : Nat) (table : HeaderTable) : HeaderTable where
  entries := newest max table.entries
  max
  fits := tableSize_newest_le max table.entries

/-- An entry larger than the table empties it. -/
def insert (entry : HpackHeader) (table : HeaderTable) : HeaderTable where
  entries := newest table.max (entry :: table.entries)
  max := table.max
  fits := tableSize_newest_le table.max _

/-- The static entries come before the dynamic ones. -/
def address (table : HeaderTable) (index : Nat) : Option HpackHeader :=
  if index = 0 then none else (kStatic.drop 1 ++ table.entries)[index - 1]?

/-- The decoder with this table. -/
def decoder (table : HeaderTable) : HpackDecoder where
  dynamic := table.entries
  dynamicSize := tableSize table.entries
  maxDynamicSize := table.max

end HeaderTable

theorem evict_eq (entries : List HpackHeader) (max : Nat) :
    HpackDecoder.evict ⟨entries, tableSize entries, max⟩ =
      ⟨newest max entries, tableSize (newest max entries), max⟩ := by
  induction entries using List.reverseRecOn with
  | nil =>
      rw [HpackDecoder.evict]
      simp [newest]
  | append_singleton newer oldest continued =>
      rw [HpackDecoder.evict]
      by_cases exceeds : max < tableSize (newer ++ [oldest])
      · have dropped : (newer ++ [oldest]).dropLast = newer := List.dropLast_concat
        have less : tableSize (newer ++ [oldest]) - oldest.size = tableSize newer := by
          rw [tableSize_concat, Nat.add_sub_cancel]
        rw [if_pos exceeds]
        split
        next last found =>
          rw [List.getLast?_concat] at found
          cases found
          rw [newest_concat exceeds, ← continued]
          simp only [dropped, less]
        next found =>
          rw [List.getLast?_concat] at found
          cases found
      · rw [if_neg exceeds, newest_of_fits (Nat.le_of_not_lt exceeds)]

theorem setMaxDynamicSize_decoder (max : Nat) (table : HeaderTable) :
    table.decoder.setMaxDynamicSize max = (table.resize max).decoder :=
  evict_eq table.entries max

theorem addDynamic_decoder (entry : HpackHeader) (table : HeaderTable) :
    table.decoder.addDynamic entry = (table.insert entry).decoder := by
  have added := evict_eq (entry :: table.entries) table.max
  rw [tableSize_cons, Nat.add_comm] at added
  exact added

theorem lookup_decoder (table : HeaderTable) (index : Nat) :
    table.decoder.lookup index = table.address index := by
  have count : (kStatic.drop 1).length = kStaticCount := by decide +kernel
  rw [HpackDecoder.lookup, HeaderTable.address]
  split
  next => rfl
  next positive =>
    split
    next inside =>
      rw [List.getElem?_append_left (by omega), List.getElem?_drop]
      congr 1
      omega
    next beyond =>
      rw [List.getElem?_append_right (by omega), count, Nat.sub_right_comm]
      rfl

/-! ## Instructions -/

inductive NameRef where
  | indexed (index : Nat)
  | literal (text : Bytes)
  deriving DecidableEq

inductive Indexing where
  | incremental
  | without
  | never
  deriving DecidableEq

inductive Field where
  | indexed (index : Nat)
  | literal (indexing : Indexing) (name : NameRef) (value : Bytes)
  | sizeUpdate (size : Nat)
  deriving DecidableEq

def NameRef.meaning (table : HeaderTable) : NameRef → Option Bytes
  | .indexed index => (table.address index).map HpackHeader.name
  | .literal text => some text

/-- The headers that an instruction adds and the table after it; `none` is a decoding error. -/
def Field.meaning (table : HeaderTable) : Field → Option (List HpackHeader × HeaderTable)
  | .indexed index => (table.address index).map fun entry => ([entry], table)
  | .literal .incremental name value =>
      (name.meaning table).map fun name => ([⟨name, value⟩], table.insert ⟨name, value⟩)
  | .literal .without name value | .literal .never name value =>
      (name.meaning table).map fun name => ([⟨name, value⟩], table)
  | .sizeUpdate size => some ([], table.resize size)

def meaning : HeaderTable → List Field → Option (List HpackHeader × HeaderTable)
  | table, [] => some ([], table)
  | table, field :: fields =>
      (field.meaning table).bind fun (headers, next) =>
        (meaning next fields).map fun (more, last) => (headers ++ more, last)

def Indexing.prefixBits : Indexing → Nat
  | .incremental => 6
  | .without => 4
  | .never => 4

def Indexing.mask : Indexing → UInt8
  | .incremental => 0x40
  | .without => 0
  | .never => 0x10

inductive NameCoded (indexing : Indexing) : NameRef → Bytes → Prop where
  | indexed {index : Nat} : 0 < index → index < 2 ^ 28 →
      NameCoded indexing (.indexed index) (encodeInteger indexing.prefixBits indexing.mask index)
  | literal {text octets : Bytes} : StringCoded octets text →
      NameCoded indexing (.literal text)
        (encodeInteger indexing.prefixBits indexing.mask 0 ++ octets)

inductive FieldCoded : Field → Bytes → Prop where
  | indexed {index : Nat} : index < 2 ^ 28 →
      FieldCoded (.indexed index) (encodeInteger 7 0x80 index)
  | literal {indexing : Indexing} {name : NameRef} {value nameOctets valueOctets : Bytes} :
      NameCoded indexing name nameOctets → StringCoded valueOctets value →
      FieldCoded (.literal indexing name value) (nameOctets ++ valueOctets)
  | sizeUpdate {size : Nat} : size ≤ 4096 →
      FieldCoded (.sizeUpdate size) (encodeInteger 5 0x20 size)

inductive BlockCoded : List Field → Bytes → Prop where
  | nil : BlockCoded [] []
  | cons {field : Field} {fields : List Field} {octets rest : Bytes} :
      FieldCoded field octets → BlockCoded fields rest →
      BlockCoded (field :: fields) (octets ++ rest)

theorem flagged_indexing (indexing : Indexing) : Flagged indexing.prefixBits indexing.mask := by
  unfold Flagged
  cases indexing <;> decide +kernel

theorem decodeName_coded {indexing : Indexing} {name : NameRef} {octets : Bytes}
    (coded : NameCoded indexing name octets) (table : HeaderTable) (rest : Bytes) :
    HpackDecoder.decodeName indexing.prefixBits table.decoder (octets ++ rest) =
      (name.meaning table).map (·, rest) := by
  cases coded with
  | indexed positive small =>
      rw [HpackDecoder.decodeName, decodeInteger_encodeInteger (flagged_indexing indexing) (by omega)]
      simp only [ne_eq, Nat.pos_iff_ne_zero.mp positive, not_false_eq_true, if_true,
        lookup_decoder, NameRef.meaning, Option.map_map]
      rfl
  | literal coded =>
      rw [List.append_assoc, HpackDecoder.decodeName,
        decodeInteger_encodeInteger (flagged_indexing indexing) (by decide)]
      simp only [ne_eq, not_true_eq_false, if_false, decodeString_coded coded]
      rfl

theorem decodeLiteral_coded {indexing : Indexing} {name : NameRef}
    {nameOctets valueOctets value : Bytes} (named : NameCoded indexing name nameOctets)
    (valued : StringCoded valueOctets value) (table : HeaderTable) (rest : Bytes) :
    HpackDecoder.decodeLiteral indexing.prefixBits table.decoder
        (nameOctets ++ valueOctets ++ rest) =
      (name.meaning table).map fun name => (⟨name, value⟩, rest) := by
  rw [List.append_assoc, HpackDecoder.decodeLiteral, decodeName_coded named]
  cases name.meaning table with
  | none => rfl
  | some text =>
      simp only [Option.map_some, decodeString_coded valued]

/-! ## Blocks -/

/-- The flags of an indexed field, a size update and the literals. -/
theorem first_octet (value : Nat) :
    (0x80 ||| UInt8.ofNat (min value (2 ^ 7 - 1))) &&& 0x80 ≠ 0 ∧
    ((0x20 ||| UInt8.ofNat (min value (2 ^ 5 - 1))) &&& 0x80 = 0 ∧
      (0x20 ||| UInt8.ofNat (min value (2 ^ 5 - 1))) &&& 0x40 = 0 ∧
      (0x20 ||| UInt8.ofNat (min value (2 ^ 5 - 1))) &&& 0x20 ≠ 0) ∧
    ((0x40 ||| UInt8.ofNat (min value (2 ^ 6 - 1))) &&& 0x80 = 0 ∧
      (0x40 ||| UInt8.ofNat (min value (2 ^ 6 - 1))) &&& 0x40 ≠ 0) ∧
    ∀ mask : UInt8, mask = 0 ∨ mask = 0x10 →
      (mask ||| UInt8.ofNat (min value (2 ^ 4 - 1))) &&& 0x80 = 0 ∧
      (mask ||| UInt8.ofNat (min value (2 ^ 4 - 1))) &&& 0x40 = 0 ∧
      (mask ||| UInt8.ofNat (min value (2 ^ 4 - 1))) &&& 0x20 = 0 := by
  have indexed : ∀ low < 128, (0x80 ||| UInt8.ofNat low) &&& 0x80 ≠ 0 := by decide +kernel
  have update : ∀ low < 32, (0x20 ||| UInt8.ofNat low) &&& 0x80 = 0 ∧
      (0x20 ||| UInt8.ofNat low) &&& 0x40 = 0 ∧ (0x20 ||| UInt8.ofNat low) &&& 0x20 ≠ 0 := by
    decide +kernel
  have incremental : ∀ low < 64, (0x40 ||| UInt8.ofNat low) &&& 0x80 = 0 ∧
      (0x40 ||| UInt8.ofNat low) &&& 0x40 ≠ 0 := by
    decide +kernel
  have without : ∀ low < 16, ∀ mask : UInt8, mask = 0 ∨ mask = 0x10 →
      (mask ||| UInt8.ofNat low) &&& 0x80 = 0 ∧ (mask ||| UInt8.ofNat low) &&& 0x40 = 0 ∧
        (mask ||| UInt8.ofNat low) &&& 0x20 = 0 := by
    intro low small mask one
    revert low
    cases one with
    | inl zero =>
        rw [zero]
        decide +kernel
    | inr never =>
        rw [never]
        decide +kernel
  exact ⟨indexed _ (by omega), update _ (by omega), incremental _ (by omega), without _ (by omega)⟩

theorem octetAt_name {indexing : Indexing} {name : NameRef} {octets : Bytes}
    (coded : NameCoded indexing name octets) (rest : Bytes) :
    ∃ value, octetAt (octets ++ rest) 0 =
      indexing.mask ||| UInt8.ofNat (min value (2 ^ indexing.prefixBits - 1)) := by
  cases coded with
  | indexed positive small => exact ⟨_, octetAt_encodeInteger _ _ _ _⟩
  | literal coded =>
      rw [List.append_assoc]
      exact ⟨_, octetAt_encodeInteger _ _ _ _⟩

theorem decodeField_coded {field : Field} {octets : Bytes} (coded : FieldCoded field octets)
    (table : HeaderTable) (rest : Bytes) :
    table.decoder.decodeField (octets ++ rest) =
      (field.meaning table).map fun (headers, next) => (headers, next.decoder, rest) := by
  cases coded with
  | @indexed index small =>
      have flagged : Flagged 7 0x80 := flagged_string _ (.inr rfl)
      rw [HpackDecoder.decodeField, octetAt_encodeInteger,
        decodeInteger_encodeInteger flagged (by omega)]
      simp only [(first_octet index).1, ne_eq, not_false_eq_true, if_true, lookup_decoder,
        Field.meaning, Option.map_map]
      rfl
  | @sizeUpdate size small =>
      have flagged : Flagged 5 0x20 := by
        unfold Flagged
        decide +kernel
      have flags := (first_octet size).2.1
      rw [HpackDecoder.decodeField, octetAt_encodeInteger,
        decodeInteger_encodeInteger flagged (by omega)]
      simp only [flags.1, flags.2.1, flags.2.2, ne_eq, not_true_eq_false, not_false_eq_true,
        if_true, if_false, Option.map_some, setMaxDynamicSize_decoder, Field.meaning]
  | @literal indexing name value nameOctets valueOctets named valued =>
      have decoded := decodeLiteral_coded named valued table rest
      obtain ⟨low, octet⟩ := octetAt_name named (valueOctets ++ rest)
      rw [← List.append_assoc] at octet
      rw [HpackDecoder.decodeField, octet]
      cases indexing with
      | incremental =>
          have flags := (first_octet low).2.2.1
          simp only [Indexing.prefixBits, Indexing.mask] at decoded ⊢
          simp only [flags.1, flags.2, ne_eq, not_true_eq_false, not_false_eq_true, if_true,
            if_false, decoded, Field.meaning, Option.map_map]
          congr 1
          funext text
          simp only [Function.comp_apply, addDynamic_decoder]
      | without =>
          have flags := (first_octet low).2.2.2 0 (.inl rfl)
          simp only [Indexing.prefixBits, Indexing.mask] at decoded ⊢
          simp only [flags.1, flags.2.1, flags.2.2, ne_eq, not_true_eq_false, if_false, decoded,
            Field.meaning, Option.map_map]
          rfl
      | never =>
          have flags := (first_octet low).2.2.2 0x10 (.inr rfl)
          simp only [Indexing.prefixBits, Indexing.mask] at decoded ⊢
          simp only [flags.1, flags.2.1, flags.2.2, ne_eq, not_true_eq_false, if_false, decoded,
            Field.meaning, Option.map_map]
          rfl

theorem encodeInteger_ne_nil (prefixBits : Nat) (mask : UInt8) (value : Nat) :
    encodeInteger prefixBits mask value ≠ [] := by
  rw [encodeInteger]
  split
  next => exact List.cons_ne_nil _ _
  next => exact List.cons_ne_nil _ _

theorem fieldCoded_ne_nil {field : Field} {octets : Bytes} (coded : FieldCoded field octets) :
    octets ≠ [] := by
  cases coded with
  | indexed => exact encodeInteger_ne_nil _ _ _
  | sizeUpdate => exact encodeInteger_ne_nil _ _ _
  | literal named =>
      cases named with
      | indexed => exact List.append_ne_nil_of_left_ne_nil (encodeInteger_ne_nil _ _ _) _
      | literal =>
          exact List.append_ne_nil_of_left_ne_nil
            (List.append_ne_nil_of_left_ne_nil (encodeInteger_ne_nil _ _ _) _) _

/-- One instruction, and then the rest of the block. -/
theorem decode_field {field : Field} {octets : Bytes} (coded : FieldCoded field octets)
    (table : HeaderTable) (rest : Bytes) :
    table.decoder.decode (octets ++ rest) =
      match field.meaning table with
      | none => (false, [], table.decoder)
      | some (headers, next) =>
          ((next.decoder.decode rest).1, headers ++ (next.decoder.decode rest).2.1,
            (next.decoder.decode rest).2.2) := by
  have some : octets ++ rest ≠ [] :=
    List.append_ne_nil_of_left_ne_nil (fieldCoded_ne_nil coded) _
  rw [HpackDecoder.decode, if_neg some]
  split
  next rejected =>
    rw [decodeField_coded coded, Option.map_eq_none_iff] at rejected
    rw [rejected]
  next headers next after found =>
    rw [decodeField_coded coded, Option.map_eq_some_iff] at found
    obtain ⟨result, meant, same⟩ := found
    cases same
    rw [meant]

/-- What `Decode` returns for a block is its meaning. -/
theorem decode_block {fields : List Field} {octets : Bytes} (coded : BlockCoded fields octets)
    (table : HeaderTable) :
    match meaning table fields with
    | some (headers, next) => table.decoder.decode octets = (true, headers, next.decoder)
    | none => (table.decoder.decode octets).1 = false := by
  induction coded generalizing table with
  | nil =>
      rw [meaning, HpackDecoder.decode, if_pos rfl]
  | @cons field fields octets rest first _ continued =>
      rw [meaning, decode_field first]
      cases field.meaning table with
      | none => rfl
      | some result =>
          have onward := continued result.2
          simp only [Option.bind_some]
          cases meant : meaning result.2 fields with
          | none =>
              rw [meant] at onward
              exact onward
          | some later =>
              rw [meant] at onward
              simp only [Option.map_some, onward]

/-! ## Sequences of blocks -/

def meanings : HeaderTable → List (List Field) → Option (List (List HpackHeader) × HeaderTable)
  | table, [] => some ([], table)
  | table, fields :: blocks =>
      (meaning table fields).bind fun (headers, next) =>
        (meanings next blocks).map fun (more, last) => (headers :: more, last)

/-- Blocks decoded one after the other; `none` when one is rejected. -/
def decodeBlocks : HpackDecoder → List Bytes → Option (List (List HpackHeader) × HpackDecoder)
  | decoder, [] => some ([], decoder)
  | decoder, block :: blocks =>
      match decoder.decode block with
      | (true, headers, next) =>
          (decodeBlocks next blocks).map fun (more, last) => (headers :: more, last)
      | (false, _, _) => none

theorem decodeBlocks_coded {blocks : List (List Field)} {wires : List Bytes}
    (coded : List.Forall₂ BlockCoded blocks wires) (table : HeaderTable) :
    decodeBlocks table.decoder wires =
      (meanings table blocks).map fun (headers, last) => (headers, last.decoder) := by
  induction coded generalizing table with
  | nil => rfl
  | @cons fields octets blocks wires first _ continued =>
      have decoded := decode_block first table
      rw [decodeBlocks, meanings]
      cases meant : meaning table fields with
      | none =>
          rw [meant] at decoded
          generalize table.decoder.decode octets = result at *
          obtain ⟨status, headers, next⟩ := result
          change status = false at decoded
          rw [decoded]
          rfl
      | some result =>
          rw [meant] at decoded
          simp only [decoded, continued, Option.bind_some, Option.map_map]
          rfl

theorem address_past {table : HeaderTable} {index : Nat}
    (past : kStaticCount + table.entries.length < index) : table.address index = none := by
  have count : (kStatic.drop 1).length = kStaticCount := by decide +kernel
  rw [HeaderTable.address, if_neg (by omega), List.getElem?_eq_none_iff, List.length_append, count]
  omega

theorem decoder_refines (blocks : List (List Field)) (wires : List Bytes)
    (coded : List.Forall₂ BlockCoded blocks wires) :
    decodeBlocks {} wires =
        (meanings {} blocks).map (fun (headers, table) => (headers, table.decoder)) ∧
      ∀ headers decoder, decodeBlocks {} wires = some (headers, decoder) →
        decoder.dynamicSize = tableSize decoder.dynamic ∧
        decoder.dynamicSize ≤ decoder.maxDynamicSize ∧
        ∀ index, kStaticCount + decoder.dynamic.length < index → index < 2 ^ 28 → ∀ rest,
          (decoder.decode (encodeInteger 7 0x80 index ++ rest)).1 = false := by
  have refined : decodeBlocks {} wires =
      (meanings {} blocks).map fun (headers, last) => (headers, last.decoder) :=
    decodeBlocks_coded coded {}
  refine ⟨refined, ?_⟩
  intro headers decoder decoded
  rw [refined, Option.map_eq_some_iff] at decoded
  obtain ⟨⟨headers', table⟩, -, same⟩ := decoded
  cases same
  refine ⟨rfl, table.fits, ?_⟩
  intro index past small rest
  rw [decode_field (.indexed small)]
  simp only [Field.meaning, address_past past, Option.map_none]

/-! Two requests to one host, the second of which refers to an entry of the first. -/

namespace Sample

def packed : Bytes :=
  [0xf1, 0xe3, 0xc2, 0xe5, 0xf2, 0x3a, 0x6b, 0xa0, 0xab, 0x90, 0xf4, 0xff]

def blocks : List (List Field) :=
  [[.indexed 2, .literal .incremental (.indexed 1) (ascii "www.example.com")], [.indexed 62]]

def wires : List Bytes :=
  [encodeInteger 7 0x80 2 ++
      ((encodeInteger 6 0x40 1 ++ (encodeInteger 7 0x80 packed.length ++ packed)) ++ []),
    encodeInteger 7 0x80 62 ++ []]

theorem coded : List.Forall₂ BlockCoded blocks wires := by
  have spelled : HuffmanCoded packed (ascii "www.example.com") :=
    ⟨7, by decide, by decide +kernel⟩
  refine .cons (.cons (.indexed (by decide)) (.cons (.literal (.indexed (by decide) (by decide))
    (.huffman (by decide) (by decide) spelled)) .nil)) (.cons (.cons (.indexed (by decide)) .nil) .nil)

end Sample

theorem decoder_refines_sample :
    (decodeBlocks {} Sample.wires).map Prod.fst =
      some [[header ":method" "GET", header ":authority" "www.example.com"],
        [header ":authority" "www.example.com"]] := by
  rw [(decoder_refines Sample.blocks Sample.wires Sample.coded).1, Option.map_map]
  decide +kernel

end Hpack

end Sotoportego.Tailscale
