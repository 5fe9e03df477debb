import Mathlib.Data.List.DropRight
import Sotoportego.Tailscale.JsonProperties
import Sotoportego.Tailscale.JsonText

/-!
# The reader reads every text of a value

Each production of the grammar is read back by the parser for it, whatever follows. The texts
of elements and members are read into an accumulator, so the induction over a derivation runs
along the loops of the source.
-/

set_option autoImplicit false

namespace Sotoportego.Tailscale.JsonText

open Octets CText JsonParser

/-! ## White space -/

theorem skipWs_space {gap : Bytes} (space : Space gap) (rest : Bytes) :
    skipWs (gap ++ rest) = skipWs rest := by
  rw [skipWs, skipWs]
  apply List.dropWhile_append_of_pos
  intro octet member
  obtain rfl | rfl | rfl | rfl := space octet member
  all_goals rfl

theorem skipWs_solid {octet : UInt8} (solid : isWs octet = false) (rest : Bytes) :
    skipWs (octet :: rest) = octet :: rest :=
  List.dropWhile_cons_of_neg (by simp [solid])

theorem skipWs_before {gap : Bytes} (space : Space gap) {octet : UInt8}
    (solid : isWs octet = false) (rest : Bytes) :
    skipWs (gap ++ octet :: rest) = octet :: rest := by
  rw [skipWs_space space, skipWs_solid solid]

/-! ## Escapes -/

theorem escapeAt_short {letter : UInt8} {value : Nat} (short : (letter, value) ∈ shortEscapes)
    (rest : Bytes) : escapeAt (letter :: rest) = some ([UInt8.ofNat value], rest) := by
  simp only [shortEscapes, List.mem_cons, Prod.mk.injEq, List.not_mem_nil, or_false] at short
  obtain ⟨rfl, rfl⟩ | ⟨rfl, rfl⟩ | ⟨rfl, rfl⟩ | ⟨rfl, rfl⟩ | ⟨rfl, rfl⟩ | ⟨rfl, rfl⟩ |
    ⟨rfl, rfl⟩ | ⟨rfl, rfl⟩ := short
  all_goals rfl

/-- The escape of four digits, and of eight where they make a pair. -/
theorem escapeAt_unicode {first second third fourth : UInt8} {unit : Nat}
    (digits : hex4 first second third fourth = some unit) (rest : Bytes) :
    escapeAt (117 :: first :: second :: third :: fourth :: rest) =
      match if 0xd800 ≤ unit ∧ unit ≤ 0xdbff then JsonParser.lowSurrogate rest else none with
      | some (low, after) => some (appendPair unit low, after)
      | none => some (appendUtf8 unit, rest) := by
  have read : (unicodeEscape (first :: second :: third :: fourth :: rest)).map Parsed.pair =
      match if 0xd800 ≤ unit ∧ unit ≤ 0xdbff then JsonParser.lowSurrogate rest else none with
      | some (low, after) => some (appendPair unit low, after)
      | none => some (appendUtf8 unit, rest) := by
    rw [unicodeEscape]
    split
    next none =>
      rw [digits] at none
      cases none
    next same =>
      rw [digits] at same
      cases same
      split
      next low after pair => simp only [Option.map_some, Parsed.pair, pair]
      next pair => simp only [Option.map_some, Parsed.pair, pair]
  rw [← read, escapeAt, escape]
  simp only
  repeat rw [if_neg (by decide)]
  rw [if_pos trivial]
  cases unicodeEscape (first :: second :: third :: fourth :: rest) with
  | none => rfl
  | some parsed => rfl

theorem hex4_written {unit : Nat} {octets : Bytes} (written : UnitWritten unit octets) :
    ∃ first second third fourth, octets = [92, 117, first, second, third, fourth] ∧
      hex4 first second third fourth = some unit := by
  cases written with
  | @intro p q r s a b c d first second third fourth =>
      exact ⟨p, q, r, s, rfl, by simp [hex4, first, second, third, fourth]⟩

/-- A mark stands above the bits of the character. -/
theorem mark_or {mark bits value : Nat} (above : mark % 2 ^ bits = 0) (low : value < 2 ^ bits) :
    mark ||| value = value + mark := by
  have high : mark / 2 ^ bits * 2 ^ bits = mark := Nat.div_mul_cancel (Nat.dvd_of_mod_eq_zero above)
  have joined := join_below (mark / 2 ^ bits) low
  rw [Nat.shiftLeft_eq, high] at joined
  rw [joined, Nat.add_comm]

theorem low_six (value : Nat) : 0x80 ||| (value &&& 0x3f) = value % 64 + 0x80 := by
  rw [Nat.and_two_pow_sub_one_eq_mod value 6]
  exact @mark_or 0x80 6 _ rfl (Nat.mod_lt _ (by decide))

theorem appendUtf8_eq {character : Char} (small : character.toNat < 0x10000) :
    appendUtf8 character.toNat = String.utf8EncodeChar character := by
  have spelled : character.val.toNat = character.toNat := rfl
  simp only [appendUtf8, String.utf8EncodeChar, spelled, low_six, Nat.shiftRight_eq_div_pow]
  generalize character.toNat = unit at small ⊢
  by_cases one : unit < 0x80
  · rw [if_pos one, if_pos (by omega : unit ≤ 0x7f)]
  · rw [if_neg one, if_neg (by omega : ¬ unit ≤ 0x7f)]
    by_cases two : unit < 0x800
    · rw [if_pos two, if_pos (by omega : unit ≤ 0x7ff), @mark_or 0xc0 6 _ rfl (by omega)]
      simp only [Nat.reducePow]
      rw [Nat.mod_eq_of_lt (by omega : unit / 64 < 32)]
    · rw [if_neg two, if_neg (by omega : ¬ unit ≤ 0x7ff), if_pos (by omega : unit ≤ 0xffff),
        @mark_or 0xe0 5 _ rfl (by omega)]
      simp only [Nat.reducePow]
      rw [Nat.mod_eq_of_lt (by omega : unit / 4096 < 16)]

/-- Characters stop at `0x10ffff` and leave the surrogates out. -/
theorem char_valid (character : Char) :
    character.toNat < 0xd800 ∨ 0xdfff < character.toNat ∧ character.toNat < 0x110000 :=
  character.valid

theorem appendPair_eq {character : Char} (large : 0x10000 ≤ character.toNat) :
    appendPair (highSurrogate character) (lowSurrogate character) =
      String.utf8EncodeChar character := by
  have bound := char_valid character
  have spelled : character.val.toNat = character.toNat := rfl
  have full : 0x10000 + ((highSurrogate character - 0xd800) <<< 10) +
      (lowSurrogate character - 0xdc00) = character.toNat := by
    rw [highSurrogate, lowSurrogate, Nat.shiftLeft_eq]
    omega
  simp only [appendPair, full, String.utf8EncodeChar, spelled, low_six, Nat.shiftRight_eq_div_pow]
  clear full spelled
  generalize character.toNat = unit at large bound ⊢
  rw [if_neg (by omega), if_neg (by omega), if_neg (by omega), if_neg (by omega),
    if_neg (by omega), if_neg (by omega), @mark_or 0xf0 4 _ rfl (by omega)]
  simp only [Nat.reducePow]
  rw [Nat.mod_eq_of_lt (by omega : unit / 262144 < 8)]

/-! ## Strings -/

theorem bodyAt_plain {octets : Bytes} (plain : ∀ octet ∈ octets, octet ≠ 34 ∧ octet ≠ 92)
    (out rest : Bytes) : bodyAt out (octets ++ rest) = bodyAt (out ++ octets) rest := by
  induction octets generalizing out with
  | nil => rw [List.nil_append, List.append_nil]
  | cons octet octets continued =>
      obtain ⟨notQuote, notEscape⟩ := plain octet List.mem_cons_self
      rw [List.cons_append, bodyAt_octet notQuote notEscape,
        continued fun later member => plain later (List.mem_cons_of_mem _ member),
        List.append_assoc, List.singleton_append]

/-- Whatever way a character is written, its encoding is appended. -/
theorem bodyAt_char {character : Char} {octets : Bytes} (written : CharWritten character octets)
    (out rest : Bytes) :
    bodyAt out (octets ++ rest) = bodyAt (out ++ String.utf8EncodeChar character) rest := by
  have valid := char_valid character
  cases written with
  | raw _ notQuote notEscape =>
      apply bodyAt_plain
      intro octet member
      refine ⟨?_, ?_⟩
      · rintro rfl
        exact notQuote (Utf8.mem_octets_small (by decide) member).symm
      · rintro rfl
        exact notEscape (Utf8.mem_octets_small (by decide) member).symm
  | short listed =>
      have small : character.toNat < 0x80 := by
        simp only [shortEscapes, List.mem_cons, Prod.mk.injEq, List.not_mem_nil, or_false] at listed
        omega
      rw [List.cons_append, List.singleton_append, bodyAt_escape, escapeAt_short listed,
        Utf8.octets_ascii small]
      rfl
  | unit small read =>
      obtain ⟨first, second, third, fourth, rfl, digits⟩ := hex4_written read
      have alone : ¬ (0xd800 ≤ character.toNat ∧ character.toNat ≤ 0xdbff) := by omega
      simp only [List.cons_append, List.nil_append]
      rw [bodyAt_escape, escapeAt_unicode digits, if_neg alone, ← appendUtf8_eq small]
      rfl
  | surrogates large high low =>
      obtain ⟨first, second, third, fourth, rfl, leading⟩ := hex4_written high
      obtain ⟨fifth, sixth, seventh, eighth, rfl, trailing⟩ := hex4_written low
      have begins : 0xd800 ≤ highSurrogate character ∧ highSurrogate character ≤ 0xdbff := by
        rw [highSurrogate]
        omega
      have follows : 0xdc00 ≤ lowSurrogate character ∧ lowSurrogate character ≤ 0xdfff := by
        rw [lowSurrogate]
        omega
      have pair (rest : Bytes) : JsonParser.lowSurrogate
          (92 :: 117 :: fifth :: sixth :: seventh :: eighth :: rest) =
            some (lowSurrogate character, rest) := by
        simp only [JsonParser.lowSurrogate, trailing]
        rw [if_pos follows]
      simp only [List.cons_append, List.nil_append]
      rw [bodyAt_escape, escapeAt_unicode leading, if_pos begins, pair, ← appendPair_eq large]
      rfl

theorem bodyAt_chars {characters : List Char} {octets : Bytes}
    (written : CharsWritten characters octets) (out rest : Bytes) :
    bodyAt out (octets ++ 34 :: rest) = some (out ++ Utf8.encode characters, rest) := by
  induction written generalizing out with
  | nil =>
      rw [List.nil_append, bodyAt_quote, Utf8.encode_nil, List.append_nil]
  | @cons character characters first others head _ continued =>
      rw [List.append_assoc, bodyAt_char head, continued, Utf8.encode_cons, List.append_assoc]

theorem stringAt_written {text : Text} {octets : Bytes} (written : StringWritten text octets)
    (rest : Bytes) : stringAt (octets ++ rest) = some (text.utf8, rest) := by
  cases written with
  | quoted body =>
      rw [List.cons_append, stringAt_quote, List.append_assoc, List.singleton_append,
        bodyAt_chars body]
      rfl

/-! ## Numbers -/

theorem continues_iff (octet : UInt8) : Continues octet ↔ isNumeric octet = true := by
  simp [Continues, isNumeric, or_assoc]

theorem numeric_digits {octets : Bytes} (digits : Digits octets) :
    ∀ octet ∈ octets, isNumeric octet = true := by
  intro octet member
  rw [isNumeric, digits.2 octet member]
  rfl

theorem numeric_lexeme (lexeme : Lexeme) : ∀ octet ∈ lexeme.octets, isNumeric octet = true := by
  intro octet member
  rw [Lexeme.octets, List.mem_append, List.mem_append, List.mem_append] at member
  obtain sign | whole | fraction | exponent := member
  · split at sign
    · rw [List.mem_singleton.mp sign]
      rfl
    · cases sign
  · exact numeric_digits lexeme.whole_valid.1 octet whole
  · obtain empty | ⟨digits, valid, spelled⟩ := lexeme.fraction_valid
    · rw [empty] at fraction
      cases fraction
    · rw [spelled] at fraction
      obtain rfl | later := List.mem_cons.mp fraction
      · rfl
      · exact numeric_digits valid octet later
  · obtain empty | ⟨letter, sign, digits, known, signed, valid, spelled⟩ := lexeme.exponent_valid
    · rw [empty] at exponent
      cases exponent
    · rw [spelled, List.mem_cons, List.mem_append] at exponent
      obtain rfl | signs | later := exponent
      · obtain rfl | rfl := known
        · rfl
        · rfl
      · obtain rfl | rfl | rfl := signed
        · cases signs
        · rw [List.mem_singleton.mp signs]
          rfl
        · rw [List.mem_singleton.mp signs]
          rfl
      · exact numeric_digits valid octet later

/-- A number begins with a digit or its minus. -/
theorem lexeme_head (lexeme : Lexeme) :
    ∃ octet tail, lexeme.octets = octet :: tail ∧ (octet = 45 ∨ isDigit octet = true) := by
  rw [Lexeme.octets]
  split
  · exact ⟨45, _, rfl, .inl rfl⟩
  · cases whole : lexeme.whole with
    | nil => exact absurd whole lexeme.whole_valid.1.1
    | cons octet tail =>
        refine ⟨octet, _, rfl, .inr (lexeme.whole_valid.1.2 octet ?_)⟩
        rw [whole]
        exact List.mem_cons_self

theorem head_not_special {octet : UInt8} (starts : octet = 45 ∨ isDigit octet = true) :
    isWs octet = false ∧ octet ≠ 123 ∧ octet ≠ 91 ∧ octet ≠ 34 ∧ octet ≠ 116 ∧ octet ≠ 102 ∧
      octet ≠ 110 ∧ octet ≠ 93 := by
  have every : ∀ value : Fin 256, UInt8.ofNat value = 45 ∨ isDigit (UInt8.ofNat value) = true →
      isWs (UInt8.ofNat value) = false ∧ UInt8.ofNat value ≠ 123 ∧ UInt8.ofNat value ≠ 91 ∧
      UInt8.ofNat value ≠ 34 ∧ UInt8.ofNat value ≠ 116 ∧ UInt8.ofNat value ≠ 102 ∧
      UInt8.ofNat value ≠ 110 ∧ UInt8.ofNat value ≠ 93 := by
    decide +kernel
  have found := every ⟨octet.toNat, octet.toNat_lt⟩
  simp only [UInt8.ofNat_toNat] at found
  exact found starts

theorem numberAt_lexeme (lexeme : Lexeme) {rest : Bytes}
    (ends : ∀ octet ∈ rest.head?, ¬ Continues octet) :
    numberAt (lexeme.octets ++ rest) =
      some (.number (strtod (.ofBytes lexeme.octets)), rest) := by
  simp only [continues_iff] at ends
  have numeric := numeric_lexeme lexeme
  obtain ⟨octet, tail, spelled, -⟩ := lexeme_head lexeme
  rw [spelled, List.forall_mem_cons] at numeric
  have kept : (tail ++ rest).takeWhile isNumeric = tail := by
    cases rest with
    | nil => rw [List.append_nil, List.takeWhile_eq_self_iff.mpr numeric.2]
    | cons next rest =>
        rw [List.takeWhile_append_of_pos numeric.2, List.takeWhile_cons_of_neg (ends next rfl),
          List.append_nil]
  have left : (tail ++ rest).dropWhile isNumeric = rest := by
    rw [List.dropWhile_append_of_pos numeric.2]
    cases rest with
    | nil => rfl
    | cons next rest => exact List.dropWhile_cons_of_neg (ends next rfl)
  rw [spelled, List.cons_append, numberAt, parseNumber, if_pos numeric.1]
  simp only [Option.map_some, Parsed.pair, kept, left]

/-! ## Values -/

theorem ends_space {value : Value} {gap : Bytes} (space : Space gap) {octet : UInt8}
    (punctuation : octet = 44 ∨ octet = 93 ∨ octet = 125) (rest : Bytes) :
    Ends value (gap ++ octet :: rest) := by
  intro lexeme _ next first
  cases gap with
  | nil =>
      cases first
      obtain rfl | rfl | rfl := punctuation
      all_goals decide
  | cons white gap =>
      cases first
      obtain rfl | rfl | rfl | rfl := space next List.mem_cons_self
      all_goals decide

/-- A value begins with neither white space nor the end of an array. -/
theorem value_head {value : Value} {octets : Bytes} (written : ValueWritten value octets) :
    ∃ octet tail, octets = octet :: tail ∧ isWs octet = false ∧ octet ≠ 93 := by
  cases written with
  | null => exact ⟨_, _, rfl, rfl, by decide⟩
  | true => exact ⟨_, _, rfl, rfl, by decide⟩
  | false => exact ⟨_, _, rfl, rfl, by decide⟩
  | number =>
      obtain ⟨octet, tail, spelled, starts⟩ := lexeme_head _
      obtain ⟨solid, -, -, -, -, -, -, open'⟩ := head_not_special starts
      exact ⟨octet, tail, spelled, solid, open'⟩
  | string quoted =>
      cases quoted with
      | quoted => exact ⟨_, _, rfl, rfl, by decide⟩
  | emptyArray => exact ⟨_, _, rfl, rfl, by decide⟩
  | array => exact ⟨_, _, rfl, rfl, by decide⟩
  | emptyObject => exact ⟨_, _, rfl, rfl, by decide⟩
  | object => exact ⟨_, _, rfl, rfl, by decide⟩

theorem skipWs_value {value : Value} {octets gap : Bytes} (written : ValueWritten value octets)
    (space : Space gap) (rest : Bytes) : skipWs (gap ++ (octets ++ rest)) = octets ++ rest := by
  obtain ⟨octet, tail, rfl, solid, -⟩ := value_head written
  exact skipWs_before space solid _

theorem skipWs_string {text : Text} {octets gap : Bytes} (written : StringWritten text octets)
    (space : Space gap) (rest : Bytes) : skipWs (gap ++ (octets ++ rest)) = octets ++ rest := by
  cases written with
  | quoted => exact skipWs_before space rfl _

theorem skipWs_skipWs (input : Bytes) : skipWs (skipWs input) = skipWs input :=
  List.dropWhile_idempotent _ input

theorem elementsAt_skipWs (read : List JsonValue) (input : Bytes) :
    elementsAt read (skipWs input) = elementsAt read input := by
  rw [elementsAt_eq, elementsAt_eq, skipWs_skipWs]

theorem membersAt_skipWs (read : List (Bytes × JsonValue)) (input : Bytes) :
    membersAt read (skipWs input) = membersAt read input := by
  rw [membersAt_eq, membersAt_eq, skipWs_skipWs]

/-- An array or object without members. -/
theorem valueAt_empty {gap : Bytes} (space : Space gap) (rest : Bytes) :
    valueAt (91 :: (gap ++ 93 :: rest)) = some (.array [], rest) ∧
      valueAt (123 :: (gap ++ 125 :: rest)) = some (.object [], rest) := by
  refine ⟨?_, ?_⟩
  · rw [valueAt_of_skipWs (skipWs_solid rfl _), valueFrom, if_neg (by decide), if_pos rfl,
      skipWs_before space rfl]
    rfl
  · rw [valueAt_of_skipWs (skipWs_solid rfl _), valueFrom, if_pos rfl, skipWs_before space rfl]
    rfl

/-- A container that holds something. -/
theorem valueAt_array {body : Bytes} {octet : UInt8} {tail : Bytes}
    (starts : skipWs body = octet :: tail) (filled : octet ≠ 93) :
    valueAt (91 :: body) =
      (elementsAt [] body).map fun (elements, after) => (.array elements, after) := by
  rw [valueAt_of_skipWs (skipWs_solid rfl _), valueFrom, if_neg (by decide), if_pos rfl, starts,
    ← elementsAt_skipWs [] body, starts]
  split
  next after closed =>
    cases closed
    exact absurd rfl filled
  next => rfl

theorem valueAt_object {body : Bytes} {octet : UInt8} {tail : Bytes}
    (starts : skipWs body = octet :: tail) (filled : octet ≠ 125) :
    valueAt (123 :: body) =
      (membersAt [] body).map fun (members, after) => (.object members, after) := by
  rw [valueAt_of_skipWs (skipWs_solid rfl _), valueFrom, if_pos rfl, starts,
    ← membersAt_skipWs [] body, starts]
  split
  next after closed =>
    cases closed
    exact absurd rfl filled
  next => rfl

/-! ## Keys -/

theorem ofBytes_utf8 (text : Text) : (CString.ofBytes text.utf8).bytes = text.utf8 := by
  rw [CString.ofBytes]
  refine List.takeWhile_eq_self_iff.mpr ?_
  intro octet member
  refine decide_eq_true fun nul => Utf8.no_nul text.no_nul ?_
  rw [← nul]
  exact member

theorem same_key {left right : Text} (same : CString.ofBytes left.utf8 = CString.ofBytes right.utf8) :
    left = right := by
  have octets := congrArg CString.bytes same
  rw [ofBytes_utf8, ofBytes_utf8] at octets
  have characters := Utf8.encode_injective octets
  cases left
  cases right
  simpa using characters

theorem meanings_eq (elements : List Value) : meanings elements = elements.map meaning := by
  induction elements with
  | nil => rfl
  | cons element elements continued => exact congrArg (meaning element :: ·) continued

theorem memberMeanings_eq (members : List (Text × Value)) :
    memberMeanings members = members.map fun member => (member.1.utf8, meaning member.2) := by
  induction members with
  | nil => rfl
  | cons member members continued => exact congrArg ((_, meaning member.2) :: ·) continued

theorem fresh_key {seen members : List (Text × Value)} {key : Text} {value : Value}
    (keys : ((seen ++ (key, value) :: members).map Prod.fst).Nodup) : key ∉ seen.map Prod.fst := by
  rw [List.map_append, List.map_cons] at keys
  exact fun found => (List.nodup_append.mp keys).2.2 key found key List.mem_cons_self rfl

/-- A new key is added at the end. -/
theorem insertMember_fresh {seen : List (Text × Value)} {key : Text}
    (fresh : key ∉ seen.map Prod.fst) (value : Value) :
    insertMember (memberMeanings seen) key.utf8 (meaning value) =
      memberMeanings (seen ++ [(key, value)]) := by
  have unseen : ¬ (memberMeanings seen).any
      (fun member => CString.ofBytes member.1 = CString.ofBytes key.utf8) = true := by
    rw [memberMeanings_eq, List.any_map, List.any_eq_true]
    rintro ⟨member, listed, same⟩
    have found := same_key (of_decide_eq_true same)
    exact fresh (found ▸ List.mem_map_of_mem listed)
  rw [insertMember, if_neg unseen, memberMeanings_eq, memberMeanings_eq, List.map_append]
  rfl

/-! ## Values -/

/-- Elements do not begin with the end of their array. -/
theorem elements_start {elements : List Value} {octets : Bytes}
    (written : ElementsWritten elements octets) (rest : Bytes) :
    ∃ octet tail, skipWs (octets ++ rest) = octet :: tail ∧ octet ≠ 93 := by
  cases written with
  | last before value after =>
      obtain ⟨octet, tail, spelled, -, filled⟩ := value_head value
      rw [List.append_assoc, List.append_assoc, skipWs_value value before, spelled]
      exact ⟨_, _, rfl, filled⟩
  | more before value after others =>
      obtain ⟨octet, tail, spelled, -, filled⟩ := value_head value
      rw [List.append_assoc, List.append_assoc, skipWs_value value before, spelled]
      exact ⟨_, _, rfl, filled⟩

theorem members_start {members : List (Text × Value)} {octets : Bytes}
    (written : MembersWritten members octets) (rest : Bytes) :
    ∃ octet tail, skipWs (octets ++ rest) = octet :: tail ∧ octet ≠ 125 := by
  cases written with
  | last space name =>
      rw [List.append_assoc, List.append_assoc, skipWs_string name space]
      cases name with
      | quoted => exact ⟨_, _, rfl, by decide⟩
  | more space name =>
      rw [List.append_assoc, List.append_assoc, skipWs_string name space]
      cases name with
      | quoted => exact ⟨_, _, rfl, by decide⟩

theorem wordAt_word {word : String} {value : JsonValue} {octet : UInt8} {tail : Bytes}
    (spelled : ascii word = octet :: tail) (rest : Bytes) :
    wordAt word value (ascii word ++ rest) = some (value, rest) := by
  have begins : (ascii word).isPrefixOf (octet :: (tail ++ rest)) = true := by
    rw [List.isPrefixOf_iff_prefix, spelled]
    exact List.prefix_append _ _
  rw [spelled, List.cons_append, wordAt, parseWord, if_pos begins]
  simp [Parsed.pair, spelled]

theorem valueAt_word {word : String} {value : JsonValue} {octet : UInt8} {tail : Bytes}
    (spelled : ascii word = octet :: tail) (solid : isWs octet = false)
    (chosen : ∀ rest, valueFrom octet rest = wordAt word value (octet :: rest)) (rest : Bytes) :
    valueAt (ascii word ++ rest) = some (value, rest) := by
  rw [← wordAt_word spelled, spelled, List.cons_append, valueAt_of_skipWs (skipWs_solid solid _),
    chosen]

mutual

/-- The reader reads every text of a value, and stops after it. -/
theorem valueAt_written {value : Value} {octets : Bytes} (written : ValueWritten value octets)
    (distinct : Distinct value) {rest : Bytes} (ends : Ends value rest) :
    valueAt (octets ++ rest) = some (meaning value, rest) := by
  cases written with
  | null => exact valueAt_word (by decide : _ = 110 :: ascii "ull") rfl (fun _ => rfl) rest
  | true => exact valueAt_word (by decide : _ = 116 :: ascii "rue") rfl (fun _ => rfl) rest
  | false => exact valueAt_word (by decide : _ = 102 :: ascii "alse") rfl (fun _ => rfl) rest
  | @number lexeme =>
      obtain ⟨octet, tail, spelled, starts⟩ := lexeme_head lexeme
      obtain ⟨solid, brace, bracket, quote, t, f, n, -⟩ := head_not_special starts
      have read := numberAt_lexeme lexeme (ends lexeme rfl)
      rw [spelled, List.cons_append] at read ⊢
      rw [valueAt_of_skipWs (skipWs_solid solid _), valueFrom, if_neg brace, if_neg bracket,
        if_neg quote, if_neg t, if_neg f, if_neg n, read, ← spelled]
      rfl
  | @string text _ quoted =>
      have read := stringAt_written quoted rest
      cases quoted with
      | quoted body =>
          rw [List.cons_append, stringAt_quote] at read
          rw [List.cons_append, valueAt_of_skipWs (skipWs_solid rfl _), valueFrom,
            if_neg (by decide), if_neg (by decide), if_pos rfl, read]
          rfl
  | emptyArray space =>
      rw [List.cons_append, List.append_assoc, List.singleton_append, (valueAt_empty space rest).1]
      rfl
  | array listed =>
      cases distinct with
      | array each =>
          obtain ⟨octet, tail, starts, filled⟩ := elements_start listed (93 :: rest)
          have read := elementsAt_written listed [] each rest
          rw [List.cons_append, List.append_assoc, List.singleton_append,
            valueAt_array starts filled]
          exact congrArg _ read
  | emptyObject space =>
      rw [List.cons_append, List.append_assoc, List.singleton_append, (valueAt_empty space rest).2]
      rfl
  | object listed =>
      cases distinct with
      | object keys each =>
          obtain ⟨octet, tail, starts, filled⟩ := members_start listed (125 :: rest)
          have read := membersAt_written listed [] keys each rest
          rw [List.cons_append, List.append_assoc, List.singleton_append,
            valueAt_object starts filled]
          exact congrArg _ read

theorem elementsAt_written {elements : List Value} {octets : Bytes}
    (written : ElementsWritten elements octets) (seen : List Value)
    (each : ∀ element ∈ elements, Distinct element) (rest : Bytes) :
    elementsAt (meanings seen) (octets ++ 93 :: rest) =
      some (meanings (seen ++ elements), rest) := by
  cases written with
  | @last element before octets after first value second =>
      have read := valueAt_written value (each element List.mem_cons_self)
        (ends_space second (.inr (.inl rfl)) rest)
      rw [List.append_assoc, List.append_assoc, elementsAt_eq, skipWs_value value first, read]
      simp only [Option.bind_some, skipWs_before second (show isWs 93 = false from rfl)]
      rw [meanings_eq, meanings_eq, List.map_append]
      rfl
  | @more element elements before octets after others first value second following =>
      have read := valueAt_written value (each element List.mem_cons_self)
        (ends_space second (.inl rfl) (others ++ 93 :: rest))
      have later := elementsAt_written following (seen ++ [element])
        (fun other member => each other (List.mem_cons_of_mem _ member)) rest
      simp only [List.append_assoc, List.cons_append]
      rw [elementsAt_eq, skipWs_value value first, read]
      simp only [Option.bind_some, skipWs_before second (show isWs 44 = false from rfl)]
      rw [meanings_eq, List.map_append, ← meanings_eq] at later
      rw [List.append_assoc] at later
      exact later

theorem membersAt_written {members : List (Text × Value)} {octets : Bytes}
    (written : MembersWritten members octets) (seen : List (Text × Value))
    (keys : ((seen ++ members).map Prod.fst).Nodup)
    (each : ∀ member ∈ members, Distinct member.2) (rest : Bytes) :
    membersAt (memberMeanings seen) (octets ++ 125 :: rest) =
      some (memberMeanings (seen ++ members), rest) := by
  cases written with
  | @last key value first name second third octets fourth space named between before written after =>
      have read := valueAt_written written (each (key, value) List.mem_cons_self)
        (ends_space after (.inr (.inr rfl)) rest)
      simp only [List.append_assoc, List.cons_append]
      rw [membersAt_eq, skipWs_string named space, stringAt_written named]
      simp only [Option.bind_some, skipWs_before between (show isWs 58 = false from rfl)]
      rw [skipWs_value written before, read]
      simp only [Option.bind_some, skipWs_before after (show isWs 125 = false from rfl)]
      rw [insertMember_fresh (fresh_key keys)]
  | @more key value members first name second third octets fourth others space named between before
      written after following =>
      have read := valueAt_written written (each (key, value) List.mem_cons_self)
        (ends_space after (.inl rfl) (others ++ 125 :: rest))
      have later := membersAt_written following (seen ++ [(key, value)])
        (by rw [List.append_assoc]; exact keys)
        (fun other member => each other (List.mem_cons_of_mem _ member)) rest
      simp only [List.append_assoc, List.cons_append]
      rw [membersAt_eq, skipWs_string named space, stringAt_written named]
      simp only [Option.bind_some, skipWs_before between (show isWs 58 = false from rfl)]
      rw [skipWs_value written before, read]
      simp only [Option.bind_some, skipWs_before after (show isWs 44 = false from rfl)]
      rw [insertMember_fresh (fresh_key keys), later, List.append_assoc]
      rfl

end

/-- Whatever stands before and after it, the value is returned. -/
theorem parse_written (value : Value) (distinct : Distinct value) (before octets rest : Bytes)
    (space : Space before) (written : ValueWritten value octets) (ends : Ends value rest) :
    parse (before ++ (octets ++ rest)) = some (meaning value) := by
  have read := valueAt_written written distinct ends
  obtain ⟨octet, tail, rfl, solid, -⟩ := value_head written
  rw [List.cons_append, valueAt_of_skipWs (skipWs_solid solid _)] at read
  rw [parse_eq, List.cons_append, valueAt_of_skipWs (skipWs_before space solid _), read]
  rfl

/-! An object of an array and an empty object, with each kind of escape. -/

namespace Sample

def key : Text := ⟨[Char.ofNat 107], by simp⟩

def other : Text := ⟨[Char.ofNat 111], by simp⟩

/-- An accented letter, a face and a line feed. -/
def face : Text := ⟨[Char.ofNat 0xe9, Char.ofNat 0x1f600, Char.ofNat 10], by simp⟩

def amount : Lexeme where
  minus := true
  whole := [49]
  fraction := [46, 53]
  exponent := [101, 51]
  whole_valid := by
    refine ⟨⟨by decide, by decide⟩, by decide⟩
  fraction_valid := .inr ⟨[53], ⟨by decide, by decide⟩, rfl⟩
  exponent_valid := .inr ⟨101, [], [51], .inl rfl, .inl rfl, ⟨by decide, by decide⟩, rfl⟩

def value : Value :=
  .object [(key, .array [.number amount, .string face]), (other, .object [])]

theorem distinct : Distinct value := by
  refine .object (by simp [key, other]) ?_
  simp only [List.forall_mem_cons]
  refine ⟨.array ?_, .object (by simp) (by simp), by simp⟩
  simp only [List.forall_mem_cons]
  exact ⟨.number, .string, by simp⟩

def faceOctets : Bytes :=
  34 :: ((String.utf8EncodeChar (Char.ofNat 0xe9) ++
    (([92, 117, 100, 56, 51, 68] ++ [92, 117, 68, 101, 48, 48]) ++ ([92, 110] ++ []))) ++ [34])

theorem face_written : StringWritten face faceOctets := by
  have high : UnitWritten 0xd83d [92, 117, 100, 56, 51, 68] :=
    @UnitWritten.intro 100 56 51 68 13 8 3 13 rfl rfl rfl rfl
  have low : UnitWritten 0xde00 [92, 117, 68, 101, 48, 48] :=
    @UnitWritten.intro 68 101 48 48 13 14 0 0 rfl rfl rfl rfl
  refine .quoted (.cons (.raw (by decide) (by decide) (by decide)) (.cons ?_ (.cons ?_ .nil)))
  · exact .surrogates (by decide) high low
  · exact .short (by decide)

/-- The elements of the array, with white space before the comma. -/
def elementOctets : Bytes :=
  [] ++ (amount.octets ++ ([32] ++ 44 :: ([] ++ (faceOctets ++ []))))

def lastOctets : Bytes :=
  [9] ++ ((34 :: (([111] ++ []) ++ [34])) ++ ([] ++ 58 :: ([] ++ ((123 :: ([32] ++ [125])) ++ []))))

def octets : Bytes :=
  123 :: (([] ++ ((34 :: (([107] ++ []) ++ [34])) ++ ([32] ++ 58 :: ([10] ++
    ((91 :: (elementOctets ++ [93])) ++ ([] ++ 44 :: lastOctets)))))) ++ [125])

theorem written : ValueWritten value octets := by
  have none : Space [] := by simp [Space]
  have white (octet : UInt8) (blank : octet = 32 ∨ octet = 9 ∨ octet = 10 ∨ octet = 13) :
      Space [octet] := by simpa [Space] using blank
  have plain (letter : Char) (raw : 0x20 ≤ letter.toNat) (quote : letter.toNat ≠ 34)
      (slash : letter.toNat ≠ 92) : CharsWritten [letter] (String.utf8EncodeChar letter ++ []) :=
    .cons (.raw raw quote slash) .nil
  have elements : ElementsWritten [.number amount, .string face] elementOctets :=
    .more none .number (white 32 (by decide)) (.last none (.string face_written) none)
  refine .object (.more none (.quoted (plain _ ?_ ?_ ?_)) (white 32 (by decide))
    (white 10 (by decide)) (.array elements) none
    (.last (white 9 (by decide)) (.quoted (plain _ ?_ ?_ ?_)) none none
      (.emptyObject (white 32 (by decide))) none))
  all_goals decide

end Sample

theorem parse_written_sample :
    parse ([32] ++ (Sample.octets ++ [120])) = some (meaning Sample.value) :=
  parse_written Sample.value Sample.distinct [32] Sample.octets [120]
    (by simp [Space]) Sample.written (fun _ number => by cases number)

end Sotoportego.Tailscale.JsonText
