import Sotoportego.Tailscale.JsonCursor
import Sotoportego.Tailscale.JsonProperties

/-!
# The cursor stays inside the text

Every function of the cursor model returns, with fuel for three calls per octet, and what it
returns is what the reader makes of the octets left at the cursor.
-/

set_option autoImplicit false

namespace Sotoportego.Tailscale.JsonCursor

open Octets CText Checked JsonParser

section Scanning

variable {text : Bytes} {α : Type}

/-- A parser at a cursor returns what the reader returns for the octets left there, and its
cursor has moved on within the text. -/
def Agrees (text : Bytes) (p : Nat) (scanned : Access (Scanned α)) (parsed : Option (α × Bytes)) :
    Prop :=
  (scanned = .ok none ∧ parsed = none) ∨
    ∃ value q, scanned = .ok (some (value, q)) ∧ parsed = some (value, text.drop q) ∧
      p < q ∧ q ≤ text.length

theorem Agrees.rejected {p : Nat} {scanned : Access (Scanned α)} {parsed : Option (α × Bytes)}
    (scan : scanned = .ok none) (parse : parsed = none) : Agrees text p scanned parsed :=
  .inl ⟨scan, parse⟩

theorem Agrees.read {p q : Nat} {scanned : Access (Scanned α)} {parsed : Option (α × Bytes)}
    {value : α} (scan : scanned = .ok (some (value, q)))
    (parse : parsed = some (value, text.drop q)) (forward : p < q) (inside : q ≤ text.length) :
    Agrees text p scanned parsed :=
  .inr ⟨value, q, scan, parse, forward, inside⟩

theorem Agrees.from {p later : Nat} {scanned : Access (Scanned α)} {parsed : Option (α × Bytes)}
    (agrees : Agrees text later scanned parsed) (behind : p ≤ later) :
    Agrees text p scanned parsed := by
  obtain rejected | ⟨value, q, scan, parse, forward, inside⟩ := agrees
  · exact .inl rejected
  · exact .inr ⟨value, q, scan, parse, Nat.lt_of_le_of_lt behind forward, inside⟩

/-- The model and the reader branch on one condition. -/
theorem Agrees.ite {p : Nat} {condition : Prop} [Decidable condition]
    {first second : Access (Scanned α)} {left right : Option (α × Bytes)}
    (holds : Agrees text p first left) (fails : Agrees text p second right) :
    Agrees text p (if condition then first else second) (if condition then left else right) := by
  split
  · exact holds
  · exact fails

/-! ## White space -/

theorem skipWs_ok {fuel p : Nat} (bound : p ≤ text.length) (enough : text.length - p < fuel) :
    ∃ q, skipWs text fuel p = .ok q ∧ text.drop q = JsonParser.skipWs (text.drop p) ∧
      p ≤ q ∧ q ≤ text.length := by
  induction fuel generalizing p with
  | zero => omega
  | succ fuel continued =>
      rw [skipWs]
      by_cases inside : p < text.length
      · rw [if_pos inside, fetch_ok inside, ok_bind, drop_eq inside]
        cases white : isWs (octetAt text p) with
        | true =>
            rw [if_pos rfl, move_ok (Nat.le_succ p) inside, ok_bind]
            obtain ⟨q, scan, left, forward, within⟩ := continued inside (by omega)
            refine ⟨q, scan, left.trans ?_, by omega, within⟩
            exact (List.dropWhile_cons_of_pos white).symm
        | false =>
            refine ⟨p, rfl, ?_, Nat.le_refl p, bound⟩
            rw [JsonParser.skipWs, List.dropWhile_cons_of_neg (by simp [white]), drop_eq inside]
      · rw [if_neg inside, drop_end inside]
        exact ⟨p, rfl, drop_end inside, Nat.le_refl p, bound⟩

/-! ## Escapes -/

/-- The octets left where four more are inside. -/
theorem drop_four {p : Nat} (inside : p + 4 ≤ text.length) :
    text.drop p = octetAt text p :: octetAt text (p + 1) :: octetAt text (p + 2) ::
      octetAt text (p + 3) :: text.drop (p + 4) := by
  rw [drop_eq (by omega), drop_eq (by omega : p + 1 < _), drop_eq (by omega : p + 1 + 1 < _),
    drop_eq (by omega : p + 1 + 1 + 1 < _)]

theorem hex4_ok {p : Nat} (inside : p + 4 ≤ text.length) :
    hex4 text 4 p 0 = .ok (JsonParser.hex4 (octetAt text p) (octetAt text (p + 1))
      (octetAt text (p + 2)) (octetAt text (p + 3))) := by
  simp only [hex4, JsonParser.hex4, fetch_ok (by omega : p < text.length),
    fetch_ok (by omega : p + 1 < text.length), fetch_ok (by omega : p + 1 + 1 < text.length),
    fetch_ok (by omega : p + 1 + 1 + 1 < text.length), ok_bind]
  cases hexNibble (octetAt text p) with
  | none => rfl
  | some a =>
      cases hexNibble (octetAt text (p + 1)) with
      | none => rfl
      | some b =>
          cases hexNibble (octetAt text (p + 2)) with
          | none => simp
          | some c =>
              cases hexNibble (octetAt text (p + 3)) with
              | none => simp
              | some d => simp

/-- The low surrogate as the reader looks for it. -/
def pairAt (unit : Nat) (rest : Bytes) : Option (Nat × Bytes) :=
  if 0xd800 ≤ unit ∧ unit ≤ 0xdbff then JsonParser.lowSurrogate rest else none

theorem lowSurrogate_short {input : Bytes} (short : input.length < 6) :
    JsonParser.lowSurrogate input = none := by
  cases read : JsonParser.lowSurrogate input with
  | none => rfl
  | some found =>
      exfalso
      unfold JsonParser.lowSurrogate at read
      split at read
      next =>
        simp only [List.length_cons] at short
        omega
      next => cases read

theorem lowSurrogate_six (slash letter first second third fourth : UInt8) (rest : Bytes) :
    JsonParser.lowSurrogate (slash :: letter :: first :: second :: third :: fourth :: rest) =
      if slash = 92 then
        if letter = 117 then
          (JsonParser.hex4 first second third fourth).bind fun low =>
            if 0xdc00 ≤ low ∧ low ≤ 0xdfff then some (low, rest) else none
        else none
      else none := by
  by_cases backslash : slash = 92
  · by_cases unicode : letter = 117
    · rw [if_pos backslash, if_pos unicode, backslash, unicode, JsonParser.lowSurrogate]
      cases JsonParser.hex4 first second third fourth with
      | none => rfl
      | some low => rfl
    · rw [if_pos backslash, if_neg unicode]
      unfold JsonParser.lowSurrogate
      split
      next same =>
        cases same
        exact absurd rfl unicode
      next => rfl
  · rw [if_neg backslash]
    unfold JsonParser.lowSurrogate
    split
    next same =>
      cases same
      exact absurd rfl backslash
    next => rfl

theorem lowSurrogate_ok {p : Nat} (bound : p ≤ text.length) (unit : Nat) :
    Agrees text p (lowSurrogate text p unit) (pairAt unit (text.drop p)) := by
  rw [lowSurrogate, pairAt]
  by_cases high : 0xd800 ≤ unit ∧ unit ≤ 0xdbff
  · rw [if_pos high]
    by_cases six : p + 6 ≤ text.length
    · rw [if_pos ⟨high.1, high.2, six⟩, fetch_ok (by omega), ok_bind,
        drop_eq (by omega : p < text.length), drop_eq (by omega : p + 1 < text.length),
        drop_four (by omega : p + 1 + 1 + 4 ≤ text.length), lowSurrogate_six]
      by_cases slash : octetAt text p = 92
      · rw [if_pos slash, if_pos slash, fetch_ok (by omega), ok_bind]
        by_cases letter : octetAt text (p + 1) = 117
        · rw [if_pos letter, if_pos letter, hex4_ok (by omega), ok_bind]
          simp only [Nat.add_assoc, Nat.reduceAdd]
          cases JsonParser.hex4 (octetAt text (p + 2)) (octetAt text (p + 3))
              (octetAt text (p + 4)) (octetAt text (p + 5)) with
          | none => exact .rejected rfl rfl
          | some low =>
              simp only [Option.bind_some]
              by_cases within : 0xdc00 ≤ low ∧ low ≤ 0xdfff
              · rw [if_pos within, if_pos within, move_ok (by omega) six]
                exact .read rfl rfl (by omega) six
              · rw [if_neg within, if_neg within]
                exact .rejected rfl rfl
        · rw [if_neg letter, if_neg letter]
          exact .rejected rfl rfl
      · rw [if_neg slash, if_neg slash]
        exact .rejected rfl rfl
    · rw [if_neg fun all => six all.2.2]
      exact .rejected rfl (lowSurrogate_short (by rw [List.length_drop]; omega))
  · rw [if_neg high, if_neg fun all => high ⟨all.1, all.2.1⟩]
    exact .rejected rfl rfl

/-- `\u` as the reader continues. -/
def unicodeAt (input : Bytes) : Option (Bytes × Bytes) :=
  (JsonParser.unicodeEscape input).map Parsed.pair

theorem unicodeAt_short {input : Bytes} (short : input.length < 4) : unicodeAt input = none := by
  rw [unicodeAt]
  unfold JsonParser.unicodeEscape
  split
  next =>
    simp only [List.length_cons] at short
    omega
  next => rfl

theorem unicodeAt_four (first second third fourth : UInt8) (rest : Bytes) :
    unicodeAt (first :: second :: third :: fourth :: rest) =
      (JsonParser.hex4 first second third fourth).bind fun unit =>
        match pairAt unit rest with
        | some (low, after) => some (appendPair unit low, after)
        | none => some (appendUtf8 unit, rest) := by
  rw [unicodeAt, JsonParser.unicodeEscape]
  split
  next none =>
    rw [none]
    rfl
  next unit digits =>
    rw [digits, Option.bind_some, pairAt]
    split
    next low after pair => simp only [Option.map_some, Parsed.pair, pair]
    next pair => simp only [Option.map_some, Parsed.pair, pair]

theorem unicodeEscape_ok {p : Nat} (bound : p ≤ text.length) :
    Agrees text p (unicodeEscape text p) (unicodeAt (text.drop p)) := by
  rw [unicodeEscape]
  by_cases four : text.length < p + 4
  · rw [if_pos four]
    exact .rejected rfl (unicodeAt_short (by rw [List.length_drop]; omega))
  · have inside : p + 4 ≤ text.length := Nat.le_of_not_lt four
    rw [if_neg four, hex4_ok inside, ok_bind, drop_four inside, unicodeAt_four]
    cases JsonParser.hex4 (octetAt text p) (octetAt text (p + 1)) (octetAt text (p + 2))
        (octetAt text (p + 3)) with
    | none => exact .rejected rfl rfl
    | some unit =>
        simp only [Option.bind_some, move_ok (Nat.le_add_right p 4) inside, ok_bind]
        obtain ⟨scan, alone⟩ | ⟨low, q, scan, pair, forward, within⟩ := lowSurrogate_ok inside unit
        · rw [scan, alone]
          exact .read rfl rfl (by omega) inside
        · rw [scan, pair]
          exact .read rfl rfl (by omega) within

theorem escapeAt_cons (kind : UInt8) (rest : Bytes) :
    escapeAt (kind :: rest) =
      if kind = 34 then some ([34], rest)
      else if kind = 92 then some ([92], rest)
      else if kind = 47 then some ([47], rest)
      else if kind = 98 then some ([8], rest)
      else if kind = 102 then some ([12], rest)
      else if kind = 110 then some ([10], rest)
      else if kind = 114 then some ([13], rest)
      else if kind = 116 then some ([9], rest)
      else if kind = 117 then unicodeAt rest
      else none := by
  rw [escapeAt, JsonParser.escape, unicodeAt]
  cases JsonParser.unicodeEscape rest with
  | none =>
      simp only [apply_ite (Option.map Parsed.pair), Option.map_some, Option.map_none, Parsed.pair]
  | some read =>
      simp only [apply_ite (Option.map Parsed.pair), Option.map_some, Option.map_none, Parsed.pair]

theorem escapeAt_nil : escapeAt [] = none := rfl

theorem escape_ok (p : Nat) :
    Agrees text p (escape text p) (escapeAt (text.drop p)) := by
  rw [escape]
  by_cases inside : p < text.length
  · have moved : p < p + 1 := Nat.lt_succ_self p
    rw [if_pos inside, fetch_ok inside, ok_bind, move_ok (Nat.le_of_lt moved) inside, ok_bind,
      drop_eq inside, escapeAt_cons]
    have single (octet : UInt8) : Agrees text p (.ok (some ([octet], p + 1)))
        (some ([octet], text.drop (p + 1))) :=
      .read rfl rfl moved inside
    refine .ite (single 34) (.ite (single 92) (.ite (single 47) (.ite (single 8)
      (.ite (single 12) (.ite (single 10) (.ite (single 13) (.ite (single 9) (.ite ?_ ?_))))))))
    · exact (unicodeEscape_ok inside).from (Nat.le_of_lt moved)
    · exact .rejected rfl rfl
  · rw [if_neg inside, drop_end inside]
    exact .rejected rfl escapeAt_nil

/-! ## Strings and numbers -/

theorem stringBody_ok {fuel p : Nat} (bound : p ≤ text.length) (enough : text.length - p < fuel)
    (out : Bytes) : Agrees text p (stringBody text fuel out p) (bodyAt out (text.drop p)) := by
  induction fuel generalizing p out with
  | zero => omega
  | succ fuel continued =>
      rw [stringBody]
      by_cases inside : p < text.length
      · have moved : p < p + 1 := Nat.lt_succ_self p
        rw [if_pos inside, fetch_ok inside, ok_bind, move_ok (Nat.le_of_lt moved) inside, ok_bind,
          drop_eq inside]
        by_cases quote : octetAt text p = 34
        · rw [if_pos quote, quote, bodyAt_quote]
          exact .read rfl rfl moved inside
        · rw [if_neg quote]
          by_cases slash : octetAt text p = 92
          · rw [if_pos slash, slash, bodyAt_escape]
            obtain ⟨scan, parse⟩ | ⟨octets, q, scan, parse, forward, within⟩ :=
              @escape_ok text (p + 1)
            · rw [scan, parse]
              exact .rejected rfl rfl
            · rw [scan, parse]
              exact (continued within (by omega) (out ++ octets)).from (by omega)
          · rw [if_neg slash, bodyAt_octet quote slash]
            exact (continued inside (by omega) _).from (Nat.le_of_lt moved)
      · rw [if_neg inside, drop_end inside]
        exact .rejected rfl (bodyAt_nil out)

theorem stringAt_nil : stringAt [] = none := rfl

theorem stringAt_cons (octet : UInt8) (rest : Bytes) :
    stringAt (octet :: rest) = if octet = 34 then bodyAt [] rest else none := by
  by_cases quote : octet = 34
  · rw [if_pos quote, quote, stringAt_quote]
  · rw [stringAt, JsonParser.parseString, if_neg quote, if_neg quote]
    rfl

theorem parseString_ok {fuel p : Nat} (enough : text.length - p < fuel) :
    Agrees text p (parseString text fuel p) (stringAt (text.drop p)) := by
  rw [parseString]
  by_cases inside : p < text.length
  · have moved : p < p + 1 := Nat.lt_succ_self p
    rw [if_pos inside, fetch_ok inside, ok_bind, drop_eq inside, stringAt_cons]
    refine .ite ?_ (.rejected rfl rfl)
    rw [move_ok (Nat.le_of_lt moved) inside, ok_bind]
    exact (stringBody_ok inside (by omega) []).from (Nat.le_of_lt moved)
  · rw [if_neg inside, drop_end inside]
    exact .rejected rfl stringAt_nil

theorem numberEnd_ok {fuel p : Nat} (bound : p ≤ text.length) (enough : text.length - p < fuel) :
    ∃ q, numberEnd text fuel p = .ok q ∧ p ≤ q ∧ q ≤ text.length ∧
      text.drop q = (text.drop p).dropWhile isNumeric ∧
      (text.drop p).take (q - p) = (text.drop p).takeWhile isNumeric := by
  induction fuel generalizing p with
  | zero => omega
  | succ fuel continued =>
      rw [numberEnd]
      by_cases inside : p < text.length
      · rw [if_pos inside, fetch_ok inside, ok_bind, drop_eq inside]
        cases numeric : isNumeric (octetAt text p) with
        | true =>
            rw [if_pos rfl, move_ok (Nat.le_succ p) inside, ok_bind]
            obtain ⟨q, scan, forward, within, left, taken⟩ := continued inside (by omega)
            refine ⟨q, scan, by omega, within, ?_, ?_⟩
            · rw [left, List.dropWhile_cons_of_pos numeric]
            · rw [List.takeWhile_cons_of_pos numeric, ← taken, ← List.take_succ_cons]
              congr 1
              omega
        | false =>
            have stop : ¬ isNumeric (octetAt text p) = true := by simp [numeric]
            refine ⟨p, rfl, Nat.le_refl p, bound, ?_, ?_⟩
            · rw [List.dropWhile_cons_of_neg stop, drop_eq inside]
            · rw [List.takeWhile_cons_of_neg stop, Nat.sub_self, List.take_zero]
      · rw [if_neg inside, drop_end inside]
        exact ⟨p, rfl, Nat.le_refl p, bound, drop_end inside, by simp⟩

theorem numberAt_cons (octet : UInt8) (rest : Bytes) :
    numberAt (octet :: rest) =
      if isNumeric octet = true then
        some (.number (strtod (.ofBytes (octet :: rest.takeWhile isNumeric))),
          rest.dropWhile isNumeric)
      else none := by
  rw [numberAt, JsonParser.parseNumber]
  split
  next => rfl
  next => rfl

theorem parseNumber_ok {fuel p : Nat} (inside : p < text.length) (enough : text.length - p < fuel) :
    Agrees text p (parseNumber text fuel p) (numberAt (text.drop p)) := by
  obtain ⟨q, scan, forward, within, left, taken⟩ := numberEnd_ok (Nat.le_of_lt inside) enough
  rw [parseNumber, scan, ok_bind]
  rw [drop_eq inside] at left taken ⊢
  rw [numberAt_cons]
  by_cases numeric : isNumeric (octetAt text p) = true
  · rw [List.takeWhile_cons_of_pos numeric] at taken
    rw [List.dropWhile_cons_of_pos numeric] at left
    have moved : ¬ q = p := by
      rintro rfl
      rw [Nat.sub_self, List.take_zero] at taken
      cases taken
    rw [if_neg moved, if_pos numeric, fetchRange_ok (by omega), ok_bind, ← left, ← taken,
      ← drop_eq inside]
    exact .read rfl rfl (by omega) within
  · rw [List.takeWhile_cons_of_neg numeric, List.take_eq_nil_iff] at taken
    have stays : q = p := by
      obtain none | empty := taken
      · omega
      · cases empty
    rw [if_pos stays, if_neg numeric]
    exact .rejected rfl rfl

/-! ## Literals -/

theorem wordAt_cons (word : String) (value : JsonValue) (octet : UInt8) (rest : Bytes) :
    wordAt word value (octet :: rest) =
      if ascii word <+: octet :: rest then some (value, rest.drop ((ascii word).length - 1))
      else none := by
  rw [wordAt, JsonParser.parseWord]
  by_cases begins : ascii word <+: octet :: rest
  · rw [if_pos begins, if_pos (List.isPrefixOf_iff_prefix.mpr begins)]
    rfl
  · rw [if_neg begins, if_neg (fun found => begins (List.isPrefixOf_iff_prefix.mp found))]
    rfl

theorem parseWord_ok {p : Nat} (inside : p < text.length) {word : String} (value : JsonValue)
    (filled : 0 < (ascii word).length) :
    Agrees text p (parseWord text word value p) (wordAt word value (text.drop p)) := by
  rw [parseWord, drop_eq inside, wordAt_cons, ← drop_eq inside]
  by_cases fits : p + (ascii word).length ≤ text.length
  · have same : ((text.drop p).take (ascii word).length = ascii word) ↔
        ascii word <+: text.drop p := by
      rw [List.prefix_iff_eq_take, eq_comm]
    have after : (text.drop (p + 1)).drop ((ascii word).length - 1) =
        text.drop (p + (ascii word).length) := by
      rw [List.drop_drop]
      congr 1
      omega
    rw [if_pos fits, fetchRange_ok fits, ok_bind, after]
    by_cases begins : ascii word <+: text.drop p
    · rw [if_pos begins, if_pos (same.mpr begins), move_ok (Nat.le_add_right _ _) fits]
      exact .read rfl rfl (by omega) fits
    · rw [if_neg begins, if_neg fun found => begins (same.mp found)]
      exact .rejected rfl rfl
  · have short : ¬ ascii word <+: text.drop p := by
      intro begins
      have bounded := begins.length_le
      rw [List.length_drop] at bounded
      omega
    rw [if_neg fits, if_neg short]
    exact .rejected rfl rfl

/-! ## Values -/

theorem Agrees.map {β : Type} {p : Nat} {scanned : Access (Scanned α)}
    {parsed : Option (α × Bytes)} (wrap : α → β) (agrees : Agrees text p scanned parsed) :
    Agrees text p (do return (← scanned).map fun (value, q) => (wrap value, q))
      (parsed.map fun (value, rest) => (wrap value, rest)) := by
  obtain ⟨scan, parse⟩ | ⟨value, q, scan, parse, forward, inside⟩ := agrees
  · rw [scan, parse]
    exact .rejected rfl rfl
  · rw [scan, parse]
    exact .read rfl rfl forward inside

/-- A container whose first octet is no closing bracket. -/
theorem valueFrom_object {rest : Bytes} (open' : ∀ after, JsonParser.skipWs rest ≠ 125 :: after) :
    valueFrom 123 rest =
      (membersAt [] (JsonParser.skipWs rest)).map fun (members, after) =>
        (.object members, after) := by
  rw [valueFrom, if_pos rfl]
  split
  next after closed => exact absurd closed (open' after)
  next => rfl

theorem valueFrom_array {rest : Bytes} (open' : ∀ after, JsonParser.skipWs rest ≠ 93 :: after) :
    valueFrom 91 rest =
      (elementsAt [] (JsonParser.skipWs rest)).map fun (elements, after) =>
        (.array elements, after) := by
  rw [valueFrom, if_neg (by decide), if_pos rfl]
  split
  next after closed => exact absurd closed (open' after)
  next => rfl

theorem valueFrom_closed {rest after : Bytes} :
    (JsonParser.skipWs rest = 125 :: after → valueFrom 123 rest = some (.object [], after)) ∧
      (JsonParser.skipWs rest = 93 :: after → valueFrom 91 rest = some (.array [], after)) := by
  refine ⟨?_, ?_⟩
  · intro closed
    rw [valueFrom, if_pos rfl, closed]
    rfl
  · intro closed
    rw [valueFrom, if_neg (by decide), if_pos rfl, closed]
    rfl

/-- What follows the value of a member. -/
def memberEnd (seen : List (Bytes × JsonValue)) (input : Bytes) :
    Option (List (Bytes × JsonValue) × Bytes) :=
  match input with
  | [] => none
  | octet :: rest =>
      if octet = 44 then membersAt seen rest else if octet = 125 then some (seen, rest) else none

/-- What follows the key of a member. -/
def memberColon (seen : List (Bytes × JsonValue)) (key input : Bytes) :
    Option (List (Bytes × JsonValue) × Bytes) :=
  match input with
  | [] => none
  | octet :: rest =>
      if octet = 58 then
        (valueAt (JsonParser.skipWs rest)).bind fun (value, after) =>
          memberEnd (insertMember seen key value) (JsonParser.skipWs after)
      else none

theorem membersAt_steps (seen : List (Bytes × JsonValue)) (input : Bytes) :
    membersAt seen input = (stringAt (JsonParser.skipWs input)).bind fun (key, after) =>
      memberColon seen key (JsonParser.skipWs after) := by
  rw [membersAt_eq]
  congr 1
  funext pair
  obtain ⟨key, after⟩ := pair
  simp only
  split
  next afterColon colon =>
    rw [colon, memberColon, if_pos rfl]
    congr 1
    funext pair
    obtain ⟨value, rest⟩ := pair
    simp only
    split
    next comma =>
      rw [comma]
      rfl
    next brace =>
      rw [brace]
      rfl
    next comma brace =>
      cases ending : JsonParser.skipWs rest with
      | nil => rfl
      | cons octet rest =>
          rw [memberEnd, if_neg fun same => comma rest (by rw [ending, same]),
            if_neg fun same => brace rest (by rw [ending, same])]
  next other =>
    cases spelled : JsonParser.skipWs after with
    | nil => rfl
    | cons octet rest =>
        rw [memberColon, if_neg fun same => other rest (by rw [spelled, same])]

/-- What follows an element. -/
def elementEnd (seen : List JsonValue) (input : Bytes) : Option (List JsonValue × Bytes) :=
  match input with
  | [] => none
  | octet :: rest =>
      if octet = 44 then elementsAt seen rest else if octet = 93 then some (seen, rest) else none

theorem elementsAt_steps (seen : List JsonValue) (input : Bytes) :
    elementsAt seen input = (valueAt (JsonParser.skipWs input)).bind fun (value, after) =>
      elementEnd (seen ++ [value]) (JsonParser.skipWs after) := by
  rw [elementsAt_eq]
  congr 1
  funext pair
  obtain ⟨value, after⟩ := pair
  simp only
  split
  next comma =>
    rw [comma]
    rfl
  next bracket =>
    rw [bracket]
    rfl
  next comma bracket =>
    cases spelled : JsonParser.skipWs after with
    | nil => rfl
    | cons octet rest =>
        rw [elementEnd, if_neg fun same => comma rest (by rw [spelled, same]),
          if_neg fun same => bracket rest (by rw [spelled, same])]

/-- After an opening bracket: the empty container, or what `filled` makes of the rest. -/
theorem opened_ok {fuel p : Nat} (inside : p < text.length) (enough : text.length - p ≤ fuel)
    {closing : UInt8} {empty : JsonValue} {filled : Nat → Access (Scanned JsonValue)}
    {parsed : Option (JsonValue × Bytes)}
    (closed : ∀ after, JsonParser.skipWs (text.drop (p + 1)) = closing :: after →
      parsed = some (empty, after))
    (further : ∀ q, p < q → q ≤ text.length →
      text.drop q = JsonParser.skipWs (text.drop (p + 1)) →
      (∀ after, text.drop q ≠ closing :: after) → Agrees text q (filled q) parsed) :
    Agrees text p
      (do
        let p ← move text p (p + 1)
        let p ← skipWs text fuel p
        if p < text.length then
          if (← fetch text p) = closing then return some (empty, ← move text p (p + 1))
          else filled p
        else filled p)
      parsed := by
  obtain ⟨q, scan, left, forward, within⟩ := skipWs_ok inside (by omega : _ < fuel)
  have later := further q forward within left
  rw [move_ok (Nat.le_succ p) inside, ok_bind, scan, ok_bind]
  by_cases more : q < text.length
  · rw [if_pos more, fetch_ok more, ok_bind]
    rw [drop_eq more] at left later
    by_cases same : octetAt text q = closing
    · rw [same] at left
      rw [if_pos same, move_ok (Nat.le_succ q) more, closed _ left.symm]
      exact .read rfl rfl (by omega) more
    · rw [if_neg same]
      exact (later fun after found => same (List.head_eq_of_cons_eq found)).from (by omega)
  · rw [drop_end more] at later
    rw [if_neg more]
    exact (later fun after found => nomatch found).from (by omega)

/-- After an element of a container: a comma and the next one, or the closing bracket. -/
theorem separator_ok {fuel p : Nat} (bound : p ≤ text.length) (enough : text.length - p < fuel)
    {closing : UInt8} {whole : JsonValue} {next : Nat → Access (Scanned JsonValue)}
    {rest ending : Bytes → Option (JsonValue × Bytes)} (nil : ending [] = none)
    (cons : ∀ octet input, ending (octet :: input) =
      if octet = 44 then rest input
      else if octet = closing then some (whole, input) else none)
    (further : ∀ q, p < q → q ≤ text.length → Agrees text q (next q) (rest (text.drop q))) :
    Agrees text p
      (do
        let p ← skipWs text fuel p
        if p < text.length then
          let ch ← fetch text p
          if ch = 44 then next (← move text p (p + 1))
          else if ch = closing then return some (whole, ← move text p (p + 1))
          else return none
        else return none)
      (ending (JsonParser.skipWs (text.drop p))) := by
  obtain ⟨q, scan, left, forward, within⟩ := skipWs_ok bound enough
  rw [scan, ok_bind, ← left]
  by_cases inside : q < text.length
  · rw [if_pos inside, fetch_ok inside, ok_bind, drop_eq inside, cons]
    refine .ite ?_ (.ite ?_ (.rejected rfl rfl))
    · rw [move_ok (Nat.le_succ q) inside, ok_bind]
      exact (further (q + 1) (by omega) inside).from (by omega)
    · rw [move_ok (Nat.le_succ q) inside, ok_bind]
      exact .read rfl rfl (by omega) inside
  · rw [if_neg inside, drop_end inside]
    exact .rejected rfl nil

theorem memberEnd_cons (seen : List (Bytes × JsonValue)) (octet : UInt8) (input : Bytes) :
    ((memberEnd seen (octet :: input)).map fun (members, after) =>
        (JsonValue.object members, after)) =
      if octet = 44 then
        (membersAt seen input).map fun (members, after) => (.object members, after)
      else if octet = 125 then some (.object seen, input) else none := by
  rw [memberEnd, apply_ite (Option.map _), apply_ite (Option.map _)]
  rfl

theorem elementEnd_cons (seen : List JsonValue) (octet : UInt8) (input : Bytes) :
    ((elementEnd seen (octet :: input)).map fun (elements, after) =>
        (JsonValue.array elements, after)) =
      if octet = 44 then
        (elementsAt seen input).map fun (elements, after) => (.array elements, after)
      else if octet = 93 then some (.array seen, input) else none := by
  rw [elementEnd, apply_ite (Option.map _), apply_ite (Option.map _)]
  rfl

variable (text)

mutual

theorem parseValue_ok : ∀ fuel p, p ≤ text.length → 3 * (text.length - p) + 3 ≤ fuel →
    Agrees text p (parseValue text fuel p) (valueAt (text.drop p))
  | 0, p, _, enough => by omega
  | fuel + 1, p, bound, enough => by
      obtain ⟨q, scan, left, forward, within⟩ := skipWs_ok bound (by omega : _ < fuel)
      rw [parseValue, scan, ok_bind]
      by_cases inside : q < text.length
      · rw [if_pos inside, fetch_ok inside, ok_bind]
        rw [drop_eq inside] at left
        rw [valueAt_of_skipWs left.symm]
        refine Agrees.from ?_ forward
        by_cases brace : octetAt text q = 123
        · rw [if_pos brace, brace]
          exact parseObject_ok fuel q inside (by omega)
        · rw [if_neg brace]
          by_cases bracket : octetAt text q = 91
          · rw [if_pos bracket, bracket]
            exact parseArray_ok fuel q inside (by omega)
          · rw [if_neg bracket, valueFrom, if_neg brace, if_neg bracket, ← drop_eq inside]
            by_cases quote : octetAt text q = 34
            · have string := @parseString_ok text fuel q (by omega)
              rw [drop_eq inside, quote, stringAt_quote] at string
              rw [if_pos quote, if_pos quote]
              exact string.map JsonValue.string
            · rw [if_neg quote, if_neg quote]
              exact .ite (parseWord_ok inside _ (by decide)) (.ite (parseWord_ok inside _ (by decide))
                (.ite (parseWord_ok inside _ (by decide)) (parseNumber_ok inside (by omega))))
      · rw [drop_end inside] at left
        rw [if_neg inside, valueAt_nil left.symm]
        exact .rejected rfl rfl

theorem parseObject_ok : ∀ fuel p, p < text.length → 3 * (text.length - p) + 2 ≤ fuel →
    Agrees text p (parseObject text fuel p) (valueFrom 123 (text.drop (p + 1)))
  | 0, p, _, enough => by omega
  | fuel + 1, p, inside, enough => by
      rw [parseObject]
      refine opened_ok inside (by omega) (fun after => valueFrom_closed.1) ?_
      intro q forward within left other
      rw [left] at other
      rw [valueFrom_object other, ← left]
      exact members_ok fuel [] q within (by omega)

theorem members_ok : ∀ fuel seen p, p ≤ text.length → 3 * (text.length - p) + 4 ≤ fuel →
    Agrees text p (members text fuel seen p)
      ((membersAt seen (text.drop p)).map fun (members, after) => (.object members, after))
  | 0, seen, p, _, enough => by omega
  | fuel + 1, seen, p, bound, enough => by
      obtain ⟨q, scan, left, forward, within⟩ := skipWs_ok bound (by omega : _ < fuel)
      rw [members, scan, ok_bind, membersAt_steps, ← left]
      refine Agrees.from ?_ forward
      obtain ⟨scan, parse⟩ | ⟨key, r, scan, parse, keyed, within⟩ :=
        @parseString_ok text fuel q (by omega)
      · rw [scan, parse]
        exact .rejected rfl rfl
      · rw [scan, parse, ok_bind, Option.bind_some]
        obtain ⟨s, scan, left, forward, within⟩ := skipWs_ok within (by omega : _ < fuel)
        simp only [scan, ok_bind, ← left]
        by_cases inside : s < text.length
        · rw [if_pos inside, fetch_ok inside, ok_bind, drop_eq inside, memberColon]
          by_cases colon : octetAt text s = 58
          · rw [if_pos colon, if_pos colon, move_ok (Nat.le_succ s) inside, ok_bind]
            obtain ⟨t, scan, left, forward, within⟩ := skipWs_ok inside (by omega : _ < fuel)
            rw [scan, ok_bind, ← left]
            obtain ⟨scan, parse⟩ | ⟨value, u, scan, parse, valued, within⟩ :=
              parseValue_ok fuel t within (by omega)
            · rw [scan, parse]
              exact .rejected rfl rfl
            · rw [scan, parse, ok_bind, Option.bind_some]
              refine Agrees.from ?_ (by omega : q ≤ u)
              refine @separator_ok text _ _ within (by omega) 125 (.object _)
                (members text fuel _) _ (fun input => (memberEnd _ input).map _) rfl
                (memberEnd_cons _) ?_
              intro v later inside
              exact members_ok fuel _ v inside (by omega)
          · rw [if_neg colon, if_neg colon]
            exact .rejected rfl rfl
        · rw [if_neg inside, drop_end inside]
          exact .rejected rfl rfl

theorem parseArray_ok : ∀ fuel p, p < text.length → 3 * (text.length - p) + 2 ≤ fuel →
    Agrees text p (parseArray text fuel p) (valueFrom 91 (text.drop (p + 1)))
  | 0, p, _, enough => by omega
  | fuel + 1, p, inside, enough => by
      rw [parseArray]
      refine opened_ok inside (by omega) (fun after => valueFrom_closed.2) ?_
      intro q forward within left other
      rw [left] at other
      rw [valueFrom_array other, ← left]
      exact elements_ok fuel [] q within (by omega)

theorem elements_ok : ∀ fuel seen p, p ≤ text.length → 3 * (text.length - p) + 4 ≤ fuel →
    Agrees text p (elements text fuel seen p)
      ((elementsAt seen (text.drop p)).map fun (elements, after) => (.array elements, after))
  | 0, seen, p, _, enough => by omega
  | fuel + 1, seen, p, bound, enough => by
      obtain ⟨q, scan, left, forward, within⟩ := skipWs_ok bound (by omega : _ < fuel)
      rw [elements, scan, ok_bind, elementsAt_steps, ← left]
      refine Agrees.from ?_ forward
      obtain ⟨scan, parse⟩ | ⟨value, r, scan, parse, valued, within⟩ :=
        parseValue_ok fuel q within (by omega)
      · rw [scan, parse]
        exact .rejected rfl rfl
      · rw [scan, parse, ok_bind, Option.bind_some]
        refine Agrees.from ?_ (Nat.le_of_lt valued)
        refine @separator_ok text _ _ within (by omega) 93 (.array _) (elements text fuel _) _
          (fun input => (elementEnd _ input).map _) rfl (elementEnd_cons _) ?_
        intro s later inside
        exact elements_ok fuel _ s inside (by omega)

end

end Scanning

/-- With fuel for three calls per octet the parser returns on every text: nothing is read
outside it, and the cursor moves neither back nor past the end. What it returns is what the
reader returns. -/
theorem parse_inside (text : Bytes) (more : Nat) :
    ∃ result, parse text (3 * text.length + 3 + more) = .ok result ∧
      result.map Prod.fst = JsonParser.parse text ∧ ∀ found ∈ result, found.2 ≤ text.length := by
  have value := parseValue_ok text (3 * text.length + 3 + more) 0 (Nat.zero_le _) (by omega)
  rw [List.drop_zero] at value
  rw [parse, parse_eq]
  obtain ⟨scan, read⟩ | ⟨value, q, scan, read, -, within⟩ := value
  · rw [scan, read]
    refine ⟨none, rfl, rfl, ?_⟩
    rintro found ⟨⟩
  · obtain ⟨r, skipped, -, -, inside⟩ :=
      skipWs_ok within (by omega : text.length - q < 3 * text.length + 3 + more)
    rw [scan, read]
    refine ⟨some (value, r), ?_, rfl, ?_⟩
    · simp only [ok_bind, skipped, pure_ok]
    · rintro found ⟨⟩
      exact inside

end Sotoportego.Tailscale.JsonCursor
