import Sotoportego.Tailscale.MapStream
import Sotoportego.Tailscale.RegisterProperties

/-!
# The request texts read back

What the JSON reader makes of the texts that `Register` and `MapStream` build, with every
string between its quotes as it is.
-/

set_option autoImplicit false

namespace Sotoportego.Tailscale

open Octets CText

namespace JsonParser

open Register (Plain bodyAt_plain)

/-! ## Texts of members and values -/

/-- A member up to its value. -/
def labelled (name : String) (rest : Bytes) : Bytes :=
  34 :: (ascii name ++ 34 :: 58 :: rest)

def quoted (text rest : Bytes) : Bytes :=
  34 :: (text ++ 34 :: rest)

theorem valueAt_skipWs (input : Bytes) : valueAt (skipWs input) = valueAt input := by
  cases start : skipWs input with
  | nil => rw [valueAt_nil start, valueAt_nil rfl]
  | cons octet rest =>
      have again : skipWs (octet :: rest) = octet :: rest := by rw [← start, skipWs_skipWs]
      rw [valueAt_of_skipWs start, valueAt_of_skipWs again]

theorem membersAt_labelled {name : String} (plain : Plain (ascii name) = true)
    (members : List (Bytes × JsonValue)) (input : Bytes) :
    membersAt members (labelled name input) = (valueAt input).bind fun (value, afterValue) =>
      match skipWs afterValue with
      | 44 :: afterComma => membersAt (insertMember members (ascii name) value) afterComma
      | 125 :: after => some (insertMember members (ascii name) value, after)
      | _ => none := by
  have open_ : skipWs (labelled name input) = labelled name input := rfl
  rw [membersAt_eq, open_, labelled, stringAt_quote, bodyAt_plain plain, ← valueAt_skipWs input]
  rfl

/-- A value and a comma. -/
theorem membersAt_next {name : String} (plain : Plain (ascii name) = true)
    {members : List (Bytes × JsonValue)} {input rest : Bytes} {value : JsonValue}
    (read : valueAt input = some (value, 44 :: rest)) :
    membersAt members (labelled name input) =
      membersAt (insertMember members (ascii name) value) rest := by
  rw [membersAt_labelled plain, read]
  rfl

/-- A value and the closing brace. -/
theorem membersAt_last {name : String} (plain : Plain (ascii name) = true)
    {members : List (Bytes × JsonValue)} {input rest : Bytes} {value : JsonValue}
    (read : valueAt input = some (value, 125 :: rest)) :
    membersAt members (labelled name input) =
      some (insertMember members (ascii name) value, rest) := by
  rw [membersAt_labelled plain, read]
  rfl

theorem valueAt_quoted {text : Bytes} (plain : Plain text = true) (rest : Bytes) :
    valueAt (quoted text rest) = some (.string text, rest) := by
  rw [valueAt_of_skipWs (show skipWs (quoted text rest) = 34 :: (text ++ 34 :: rest) from rfl),
    valueFrom, if_neg (by decide), if_neg (by decide), if_pos rfl, bodyAt_plain plain]
  rfl

theorem valueAt_braced {name : String} {input rest : Bytes} {members : List (Bytes × JsonValue)}
    (read : membersAt [] (labelled name input) = some (members, rest)) :
    valueAt (123 :: labelled name input) = some (.object members, rest) := by
  rw [valueAt_of_skipWs (show skipWs (123 :: labelled name input) = 123 :: labelled name input
    from rfl), valueFrom, if_pos rfl]
  have open_ : skipWs (labelled name input) = 34 :: (ascii name ++ 34 :: 58 :: input) := rfl
  rw [open_]
  simp only
  rw [← labelled, read]
  rfl

theorem valueAt_word (flag : Bool) (rest : Bytes) :
    valueAt (ascii (if flag then "true" else "false") ++ rest) = some (.bool flag, rest) := by
  cases flag with
  | true =>
      have start : skipWs (ascii "true" ++ rest) = 116 :: 114 :: 117 :: 101 :: rest := rfl
      refine (valueAt_of_skipWs start).trans ?_
      rw [valueFrom, if_neg (by decide), if_neg (by decide), if_neg (by decide), if_pos rfl,
        wordAt, parseWord, if_pos (by simp [ascii])]
      rfl
  | false =>
      have start : skipWs (ascii "false" ++ rest) = 102 :: 97 :: 108 :: 115 :: 101 :: rest := rfl
      refine (valueAt_of_skipWs start).trans ?_
      rw [valueFrom, if_neg (by decide), if_neg (by decide), if_neg (by decide),
        if_neg (by decide), if_pos rfl, wordAt, parseWord, if_pos (by simp [ascii])]
      rfl

theorem isDigit_ascii {character : Char} (digit : character.isDigit = true) :
    isDigit (UInt8.ofNat character.toNat) = true := by
  simp only [Char.isDigit, Bool.and_eq_true, decide_eq_true_eq, ge_iff_le,
    UInt32.le_iff_toNat_le] at digit
  have low : 48 ≤ character.toNat := digit.1
  have high : character.toNat ≤ 57 := digit.2
  simp only [isDigit, Bool.and_eq_true, decide_eq_true_eq, UInt8.le_iff_toNat_le,
    UInt8.reduceToNat, UInt8.toNat_ofNat']
  omega

theorem isDigit_toString (number : Nat) :
    ∀ octet ∈ ascii (toString number), isDigit octet = true := by
  intro octet member
  obtain ⟨character, inside, rfl⟩ := List.mem_map.mp member
  have digits : (toString number).toList = Nat.toDigits 10 number := Nat.toList_repr
  rw [digits] at inside
  exact isDigit_ascii (Nat.isDigit_of_mem_toDigits (by decide) (by decide) inside)

theorem valueAt_number {digits : Bytes} (some : digits ≠ [])
    (every : ∀ octet ∈ digits, isDigit octet = true) (rest : Bytes) :
    valueAt (digits ++ 44 :: rest) =
      .some (.number (strtod (.ofBytes digits)), 44 :: rest) := by
  cases digits with
  | nil => exact (some rfl).elim
  | cons digit digits =>
      have first := every digit List.mem_cons_self
      have other (octet : UInt8) (notDigit : isDigit octet = false) : digit ≠ octet := by
        rintro rfl
        rw [first] at notDigit
        cases notDigit
      have notSpace : isWs digit = false := by
        simp [isWs, other 32 rfl, other 9 rfl, other 10 rfl, other 13 rfl]
      have numeric : ∀ octet ∈ digits, isNumeric octet = true := by
        intro octet member
        simp [isNumeric, every octet (List.mem_cons_of_mem _ member)]
      have start : skipWs (digit :: (digits ++ 44 :: rest)) = digit :: (digits ++ 44 :: rest) :=
        List.dropWhile_cons_of_neg (notSpace ▸ Bool.false_ne_true)
      rw [List.cons_append, valueAt_of_skipWs start, valueFrom, if_neg (other 123 rfl),
        if_neg (other 91 rfl), if_neg (other 34 rfl), if_neg (other 116 rfl),
        if_neg (other 102 rfl), if_neg (other 110 rfl), numberAt, parseNumber,
        if_pos (by simp [isNumeric, first]), Option.map_some, Parsed.pair]
      have taken : (digits ++ 44 :: rest).takeWhile isNumeric = digits := by
        rw [List.takeWhile_append_of_pos numeric]
        exact List.append_nil digits
      have dropped : (digits ++ 44 :: rest).dropWhile isNumeric = 44 :: rest :=
        List.dropWhile_append_of_pos numeric
      simp only [taken, dropped]

/-! ## A string that is not plain is not read back -/

/-- What reading `text` and a quote gives: at most the text, and all of it only if it is plain;
or, when the text ends in a backslash, something that runs on to the next quote. -/
def ReadShort (text onward out value : Bytes) : Prop :=
  (∃ read, value = out ++ read ∧ read.length ≤ text.length ∧
      (read.length = text.length → Plain text = true)) ∨
    ∃ front back, text = front ++ [92] ∧ value = back ++ onward

theorem ReadShort.longer {text onward out value added : Bytes}
    (short : ReadShort text onward (out ++ added) value) (skipped : Bytes)
    (lost : added.length < skipped.length) :
    ReadShort (skipped ++ text) onward out value := by
  rcases short with ⟨read, rfl, bound, -⟩ | ⟨front, back, rfl, rfl⟩
  · refine .inl ⟨added ++ read, List.append_assoc _ _ _, ?_, fun same => ?_⟩
    · rw [List.length_append, List.length_append]
      omega
    · rw [List.length_append, List.length_append] at same
      omega
  · exact .inr ⟨skipped ++ front, back, (List.append_assoc _ _ _).symm, rfl⟩

theorem hex4_quote {first second third fourth : UInt8} {value : Nat}
    (read : hex4 first second third fourth = some value) :
    first ≠ 34 ∧ second ≠ 34 ∧ third ≠ 34 ∧ fourth ≠ 34 := by
  have digit {octet : UInt8} {nibble : Nat} (read : hexNibble octet = some nibble) :
      octet ≠ 34 := by
    rintro rfl
    cases read
  simp only [hex4, bind, Option.bind_eq_some_iff] at read
  obtain ⟨a, first, b, second, c, third, d, fourth, -⟩ := read
  exact ⟨digit first, digit second, digit third, digit fourth⟩

theorem length_appendUtf8 (codePoint : Nat) : (appendUtf8 codePoint).length ≤ 3 := by
  rw [appendUtf8]
  split
  next => exact Nat.le_add_left 1 2
  next =>
    split
    next => exact Nat.le_succ 2
    next => exact Nat.le_refl 3

theorem length_appendPair (high low : Nat) : (appendPair high low).length ≤ 4 := by
  simp only [appendPair]
  split
  next => exact Nat.le_add_left 1 3
  next =>
    split
    next => exact Nat.le_add_left 2 2
    next =>
      split
      next => exact Nat.le_succ_of_le (length_appendUtf8 _)
      next => exact Nat.le_refl 4

def unicodeAt (input : Bytes) : Option (Bytes × Bytes) :=
  (unicodeEscape input).map Parsed.pair

theorem unicodeAt_read {input after value : Bytes} (read : unicodeAt input = some (value, after)) :
    ∃ first second third fourth rest codePoint,
      input = first :: second :: third :: fourth :: rest ∧
      hex4 first second third fourth = some codePoint ∧
      ((value = appendUtf8 codePoint ∧ after = rest) ∨
        ∃ low, lowSurrogate rest = some (low, after) ∧ value = appendPair codePoint low) := by
  obtain ⟨parsed, found, same⟩ := Option.map_eq_some_iff.mp read
  cases same
  unfold unicodeEscape at found
  split at found
  next first second third fourth rest =>
    split at found
    next => cases found
    next codePoint digits =>
      refine ⟨first, second, third, fourth, rest, codePoint, rfl, digits, ?_⟩
      split at found
      next low after pair =>
        have same := Option.some.inj found
        have value : parsed.value = appendPair codePoint low := by rw [← same]
        have left : after = parsed.rest := by rw [← same]
        split at pair
        next =>
          rw [left] at pair
          exact .inr ⟨low, pair, value⟩
        next => cases pair
      next =>
        cases found
        exact .inl ⟨rfl, rfl⟩
  next => cases found

theorem escapeAt_read {input after value : Bytes} (read : escapeAt input = some (value, after)) :
    ∃ kind rest, input = kind :: rest ∧
      ((value.length = 1 ∧ after = rest) ∨ kind = 117 ∧ unicodeAt rest = some (value, after)) := by
  obtain ⟨parsed, found, same⟩ := Option.map_eq_some_iff.mp read
  cases same
  unfold escape at found
  split at found
  next => cases found
  next kind rest =>
    refine ⟨kind, rest, rfl, ?_⟩
    by_cases unicode : kind = 117
    · subst unicode
      refine .inr ⟨rfl, ?_⟩
      rw [if_neg (by decide), if_neg (by decide), if_neg (by decide), if_neg (by decide),
        if_neg (by decide), if_neg (by decide), if_neg (by decide), if_neg (by decide),
        if_pos rfl] at found
      rw [unicodeAt]
      split at found
      next escaped escape =>
        cases found
        rw [escape]
        rfl
      next => cases found
    · refine .inl ?_
      rw [if_neg unicode] at found
      split_ifs at found <;> cases found <;> exact ⟨rfl, rfl⟩

/-- The next quote lies behind what the four digits take. -/
theorem inside_of_no_quote {text rest taken after : Bytes} (noQuote : 34 ∉ taken)
    (input : text ++ 34 :: rest = taken ++ after) :
    ∃ later, text = taken ++ later ∧ after = later ++ 34 :: rest := by
  obtain ⟨later, same, split⟩ | ⟨later, same, split⟩ := List.append_eq_append_iff.mp input
  · cases later with
    | nil => exact ⟨[], by simp [same], by simpa using split.symm⟩
    | cons octet later =>
        cases split
        exact (noQuote (same ▸ List.mem_append_right _ List.mem_cons_self)).elim
  · exact ⟨later, same, split⟩

theorem lowSurrogate_read {input after : Bytes} {low : Nat}
    (read : lowSurrogate input = some (low, after)) :
    ∃ first second third fourth, input = [92, 117, first, second, third, fourth] ++ after ∧
      hex4 first second third fourth = some low := by
  unfold lowSurrogate at read
  split at read
  next first second third fourth rest =>
    split at read
    next digits =>
      split at read
      next =>
        cases read
        exact ⟨first, second, third, fourth, rfl, digits⟩
      next => cases read
    next => cases read
  next => cases read

/-- What a unicode escape reads lies in front of the next quote. -/
theorem unicodeAt_inside {text rest value after : Bytes}
    (read : unicodeAt (text ++ 34 :: rest) = some (value, after)) :
    ∃ skipped later, text = skipped ++ later ∧ after = later ++ 34 :: rest ∧
      value.length ≤ skipped.length := by
  obtain ⟨first, second, third, fourth, tail, codePoint, input, digits, result⟩ :=
    unicodeAt_read read
  obtain ⟨notFirst, notSecond, notThird, notFourth⟩ := hex4_quote digits
  have noQuote : 34 ∉ [first, second, third, fourth] := by
    simp [notFirst.symm, notSecond.symm, notThird.symm, notFourth.symm]
  have input : text ++ 34 :: rest = [first, second, third, fourth] ++ tail := input
  obtain ⟨later, split, onward⟩ := inside_of_no_quote noQuote input
  rcases result with ⟨same, rfl⟩ | ⟨low, pair, same⟩
  · have bound := length_appendUtf8 codePoint
    rw [← same] at bound
    exact ⟨_, later, split, onward, Nat.le_succ_of_le bound⟩
  · obtain ⟨first', second', third', fourth', again, digits'⟩ := lowSurrogate_read pair
    obtain ⟨notFirst', notSecond', notThird', notFourth'⟩ := hex4_quote digits'
    have noQuote' : 34 ∉ [92, 117, first', second', third', fourth'] := by
      simp [notFirst'.symm, notSecond'.symm, notThird'.symm, notFourth'.symm]
    rw [onward] at again
    obtain ⟨last, split', onward'⟩ := inside_of_no_quote noQuote' again
    refine ⟨[first, second, third, fourth] ++ [92, 117, first', second', third', fourth'], last,
      ?_, onward', ?_⟩
    · rw [split, split', List.append_assoc]
    · have bound := length_appendPair codePoint low
      rw [← same] at bound
      exact Nat.le_trans bound (Nat.le_add_left 4 6)

theorem readShort_of_bodyAt {text onward rest out value after : Bytes}
    (plain : Plain onward = true)
    (read : bodyAt out (text ++ 34 :: (onward ++ 34 :: rest)) = some (value, after)) :
    ReadShort text onward out value := by
  induction size : text.length using Nat.strong_induction_on generalizing text out with
  | h size continued =>
      cases text with
      | nil =>
          rw [List.nil_append, bodyAt_quote] at read
          cases read
          exact .inl ⟨[], (List.append_nil _).symm, Nat.le_refl _, fun _ => rfl⟩
      | cons octet text =>
          by_cases quote : octet = 34
          · subst quote
            rw [List.cons_append, bodyAt_quote] at read
            cases read
            exact .inl ⟨[], (List.append_nil _).symm, Nat.zero_le _, nofun⟩
          · by_cases escape : octet = 92
            · subst escape
              rw [List.cons_append, bodyAt_escape] at read
              obtain ⟨⟨added, left⟩, escaped, read⟩ := Option.bind_eq_some_iff.mp read
              obtain ⟨kind, later, input, result⟩ := escapeAt_read escaped
              cases text with
              | nil =>
                  cases input
                  rcases result with ⟨-, rfl⟩ | ⟨unicode, -⟩
                  · simp only at read
                    rw [bodyAt_plain plain] at read
                    cases read
                    exact .inr ⟨[], out ++ added, rfl, rfl⟩
                  · exact absurd unicode (by decide)
              | cons next text =>
                  cases input
                  rcases result with ⟨single, rfl⟩ | ⟨rfl, unicode⟩
                  · have fewer : text.length < (92 :: kind :: text).length :=
                      Nat.lt_succ_of_lt (Nat.lt_succ_self _)
                    have short := continued text.length (size ▸ fewer) read rfl
                    exact short.longer [92, kind] (single ▸ Nat.one_lt_two)
                  · obtain ⟨skipped, later, rfl, rfl, bound⟩ := unicodeAt_inside unicode
                    have fewer : later.length < (92 :: 117 :: (skipped ++ later)).length := by
                      rw [List.length_cons, List.length_cons, List.length_append]
                      omega
                    have short := continued later.length (size ▸ fewer) read rfl
                    exact short.longer (92 :: 117 :: skipped)
                      (Nat.lt_of_le_of_lt bound (Nat.lt_succ_of_lt (Nat.lt_succ_self _)))
            · rw [List.cons_append, bodyAt_octet quote escape] at read
              have short := continued text.length (by simp [← size]) read rfl
              rcases short with ⟨more, rfl, bound, whole⟩ | ⟨front, back, rfl, rfl⟩
              · refine .inl ⟨octet :: more, List.append_assoc _ _ _, Nat.succ_le_succ bound,
                  fun same => ?_⟩
                have rest := whole (Nat.succ.inj same)
                simp only [Plain, List.all_cons, Bool.and_eq_true, decide_eq_true_eq]
                exact ⟨⟨quote, escape⟩, rest⟩
              · exact .inr ⟨octet :: front, back, rfl, rfl⟩

/-- A string is read back only if it has no quote and no backslash. -/
theorem plain_of_bodyAt {text onward rest after : Bytes} (plain : Plain onward = true)
    (some : onward ≠ [])
    (read : bodyAt [] (text ++ 34 :: (onward ++ 34 :: rest)) = .some (text, after)) :
    Plain text = true := by
  rcases readShort_of_bodyAt plain read with ⟨same, value, -, whole⟩ | ⟨front, back, ends, value⟩
  · exact whole (congrArg List.length value).symm
  · have last := congrArg List.getLast? (ends.symm.trans value)
    rw [List.getLast?_concat, List.getLast?_append_of_ne_nil _ some] at last
    have inside := List.all_eq_true.mp plain 92 (List.mem_of_getLast? last.symm)
    exact absurd inside (by decide)

/-! ## Members that stay -/

theorem prefix_insertMember (members : List (Bytes × JsonValue)) (name : Bytes)
    (value : JsonValue) : members <+: insertMember members name value := by
  rw [insertMember]
  split
  next => exact List.prefix_rfl
  next => exact List.prefix_append _ _

theorem prefix_foldl_insertEntry (entries : List JsonParser.Entry)
    (members : List (Bytes × JsonValue)) :
    members <+: entries.foldl insertEntry members := by
  induction entries generalizing members with
  | nil => exact List.prefix_rfl
  | cons entry entries continued =>
      exact (prefix_insertMember members entry.name entry.value).trans (continued _)

theorem find_of_prefix {members all : List (Bytes × JsonValue)} (extended : members <+: all)
    {key : String} {value : JsonValue} (found : (JsonValue.object members).find key = some value) :
    (JsonValue.object all).find key = some value := by
  obtain ⟨more, rfl⟩ := extended
  rw [find_eq] at found ⊢
  rw [List.find?_append, Option.map_or, found, Option.some_or]

/-- The first value under a new name is the one that a lookup finds in the end. -/
theorem find_labelled {name : String} (plain : Plain (ascii name) = true)
    {members all : List (Bytes × JsonValue)} {input after : Bytes}
    (read : membersAt members (labelled name input) = some (all, after))
    (fresh : (JsonValue.object members).find name = none) :
    ∃ value rest, valueAt input = some (value, rest) ∧
      (JsonValue.object all).find name = some value := by
  rw [membersAt_labelled plain] at read
  obtain ⟨⟨value, rest⟩, found, read⟩ := Option.bind_eq_some_iff.mp read
  refine ⟨value, rest, found, ?_⟩
  have inserted :
      (JsonValue.object (insertMember members (ascii name) value)).find name = some value := by
    have same : JsonParser.named name (ascii name) = true := decide_eq_true rfl
    rw [find_insertMember, fresh, same]
    rfl
  simp only at read
  split at read
  next afterComma comma =>
    rw [membersAt_entries read]
    exact find_of_prefix (prefix_foldl_insertEntry _ _) inserted
  next brace =>
    cases read
    exact inserted
  next => cases read

theorem plain_of_find {name next : String} (plain : Plain (ascii name) = true)
    {members all : List (Bytes × JsonValue)} {text rest after : Bytes} (onward : Bytes)
    (read : membersAt members (labelled name (quoted text (onward ++ labelled next rest))) =
      some (all, after))
    (fresh : (JsonValue.object members).find name = none)
    (plainOnward : Plain onward = true) (some : onward ≠ [])
    (found : ((JsonValue.object all).find name).bind JsonValue.asString? = .some text) :
    Plain text = true := by
  obtain ⟨value, left, string, same⟩ := find_labelled plain read fresh
  have start : skipWs (quoted text (onward ++ labelled next rest)) =
      34 :: (text ++ 34 :: (onward ++ labelled next rest)) := rfl
  rw [valueAt_of_skipWs start, valueFrom, if_neg (by decide), if_neg (by decide), if_pos rfl]
    at string
  obtain ⟨⟨out, later⟩, body, pair⟩ := Option.map_eq_some_iff.mp string
  cases pair
  rw [same] at found
  cases found
  exact plain_of_bodyAt plainOnward some body

end JsonParser

/-! ## The two request texts -/

open JsonParser
open Register (Plain given)
open WireGuard (Key)

def versionLabel (version : UInt16) (rest : Bytes) : Bytes :=
  labelled "Version" (ascii (toString version.toNat) ++ 44 :: rest)

/-- A key with its kind in front of its digits. -/
def keyLabel (name kind : String) (key : Key) (rest : Bytes) : Bytes :=
  labelled name (quoted (ascii kind ++ (toHex key.bytes).bytes) (44 :: rest))

def hostinfoLabel (hostname rest : Bytes) : Bytes :=
  labelled "Hostinfo" (123 :: labelled "IPNVersion" (quoted (ascii "0.1.0") (44 ::
    labelled "Hostname" (quoted hostname (44 :: labelled "OS" (quoted (ascii "haiku")
      (125 :: rest)))))))

def authLabel (authKey : Option CString) (rest : Bytes) : Bytes :=
  match authKey with
  | some authKey =>
      labelled "Auth" (123 :: labelled "AuthKey" (quoted authKey.bytes (125 :: 44 :: rest)))
  | none => rest

def followupLabel (followup : Option CString) (rest : Bytes) : Bytes :=
  match followup with
  | some followup => labelled "Followup" (quoted followup.bytes (44 :: rest))
  | none => rest

def hostnameOf (hostname : Option CString) : Bytes :=
  (hostname.getD (.ofBytes (ascii "haiku"))).bytes

theorem hostinfo_append (hostname : Option CString) (rest : Bytes) :
    Register.hostinfo hostname ++ rest = hostinfoLabel (hostnameOf hostname) rest := by
  simp only [Register.hostinfo, List.append_assoc]
  rfl

theorem registerBody_eq (version : UInt16) (nodePub : Key)
    (hostname authKey followup : Option CString) :
    Register.body version nodePub hostname authKey followup =
      123 :: versionLabel version (keyLabel "NodeKey" "nodekey:" nodePub
        (authLabel (given authKey) (followupLabel (given followup)
          (hostinfoLabel (hostnameOf hostname) [125])))) := by
  simp only [Register.body, List.append_assoc]
  rw [hostinfo_append]
  cases given authKey with
  | none =>
      cases given followup with
      | none => rfl
      | some followup =>
          simp only [List.append_assoc]
          rfl
  | some authKey =>
      cases given followup with
      | none =>
          simp only [List.append_assoc]
          rfl
      | some followup =>
          simp only [List.append_assoc]
          rfl

def flagLabel (name : String) (flag : Bool) (rest : Bytes) : Bytes :=
  labelled name (ascii (if flag then "true" else "false") ++ 44 :: rest)

theorem mapBody_eq (version : UInt16) (nodePub discoPub : Key)
    (hostname endpointsJson : Option CString) (stream : Bool) :
    MapStream.body version nodePub discoPub hostname endpointsJson stream =
      123 :: versionLabel version (keyLabel "NodeKey" "nodekey:" nodePub
        (keyLabel "DiscoKey" "discokey:" discoPub (flagLabel "Stream" stream
          (flagLabel "OmitPeers" (!stream)
            (labelled "Endpoints" (91 :: ((endpointsJson.getD .empty).bytes ++ 93 :: 44 ::
              hostinfoLabel (hostnameOf hostname) [125]))))))) := by
  simp only [MapStream.body, List.append_assoc]
  rw [hostinfo_append]
  cases stream with
  | true => rfl
  | false => rfl

/-! ## Reading them -/

theorem plain_toHex (source : Bytes) : Plain (toHex source).bytes = true := by
  have digit : ∀ position < 16, octetAt hexDigits position ≠ 34 ∧ octetAt hexDigits position ≠ 92 := by
    decide
  refine List.all_eq_true.mpr fun octet member => ?_
  have inside := (List.takeWhile_prefix _).subset member
  obtain ⟨source, -, pair⟩ := List.mem_flatMap.mp inside
  have high : source.toNat / 16 < 16 := by
    have bound := source.toNat_lt
    omega
  have low : source.toNat % 16 < 16 := Nat.mod_lt _ (by decide)
  simp only [List.mem_cons, List.not_mem_nil, or_false] at pair
  cases pair with
  | inl same =>
      rw [same]
      simpa using digit _ high
  | inr same =>
      rw [same]
      simpa using digit _ low

theorem plain_append {front back : Bytes} (first : Plain front = true) (second : Plain back = true) :
    Plain (front ++ back) = true := by
  rw [Plain, List.all_append, Bool.and_eq_true]
  exact ⟨first, second⟩

section Reading

variable (members : List (Bytes × JsonValue)) (rest : Bytes)

theorem membersAt_version (version : UInt16) :
    membersAt members (versionLabel version rest) =
      membersAt (insertMember members (ascii "Version")
        (.number (strtod (.ofBytes (ascii (toString version.toNat)))))) rest := by
  have some : ascii (toString version.toNat) ≠ [] := by
    have digits : (toString version.toNat).toList = Nat.toDigits 10 version.toNat := Nat.toList_repr
    rw [ascii, digits]
    simp [Nat.toDigits_ne_nil]
  exact membersAt_next (by decide) (valueAt_number some (isDigit_toString _) rest)

theorem membersAt_key {name kind : String} (plainName : Plain (ascii name) = true)
    (plainKind : Plain (ascii kind) = true) (key : Key) :
    membersAt members (keyLabel name kind key rest) =
      membersAt (insertMember members (ascii name)
        (.string (ascii kind ++ (toHex key.bytes).bytes))) rest :=
  membersAt_next plainName (valueAt_quoted (plain_append plainKind (plain_toHex _)) _)

theorem membersAt_flag {name : String} (plainName : Plain (ascii name) = true) (flag : Bool) :
    membersAt members (flagLabel name flag rest) =
      membersAt (insertMember members (ascii name) (.bool flag)) rest :=
  membersAt_next plainName (valueAt_word flag _)

def hostinfoValue (hostname : Bytes) : JsonValue :=
  .object [(ascii "IPNVersion", .string (ascii "0.1.0")), (ascii "Hostname", .string hostname),
    (ascii "OS", .string (ascii "haiku"))]

theorem membersAt_hostinfo {hostname : Bytes} (plain : Plain hostname = true) :
    membersAt members (hostinfoLabel hostname (125 :: rest)) =
      some (insertMember members (ascii "Hostinfo") (hostinfoValue hostname), rest) := by
  refine membersAt_last (by decide) (valueAt_braced ?_)
  rw [membersAt_next (by decide) (valueAt_quoted (by decide) _),
    membersAt_next (by decide) (valueAt_quoted plain _),
    membersAt_last (by decide) (valueAt_quoted (by decide) _)]
  rfl

def authMembers (authKey : Option CString) : List (Bytes × JsonValue) :=
  match authKey with
  | some authKey =>
      insertMember members (ascii "Auth") (.object [(ascii "AuthKey", .string authKey.bytes)])
  | none => members

theorem membersAt_auth {authKey : Option CString}
    (plain : ∀ text ∈ authKey, Plain text.bytes = true) :
    membersAt members (authLabel authKey rest) = membersAt (authMembers members authKey) rest := by
  cases authKey with
  | none => rfl
  | some authKey =>
      refine membersAt_next (by decide) (valueAt_braced ?_)
      rw [membersAt_last (by decide) (valueAt_quoted (plain authKey rfl) _)]
      rfl

def followupMembers (followup : Option CString) : List (Bytes × JsonValue) :=
  match followup with
  | some followup => insertMember members (ascii "Followup") (.string followup.bytes)
  | none => members

theorem membersAt_followup {followup : Option CString}
    (plain : ∀ text ∈ followup, Plain text.bytes = true) :
    membersAt members (followupLabel followup rest) =
      membersAt (followupMembers members followup) rest := by
  cases followup with
  | none => rfl
  | some followup => exact membersAt_next (by decide) (valueAt_quoted (plain followup rfl) _)

end Reading

/-! ## What a faithful request says -/

def memberNames : JsonValue → List Bytes
  | .object members => members.map Prod.fst
  | _ => []

/-- The request has these strings and no member other than these and those of its parts. -/
structure Carries (root : JsonValue) (name : Bytes) (key url : Option Bytes)
    (names : List String) : Prop where
  hostname : ((root.find "Hostinfo").bind fun hostinfo => hostinfo.find "Hostname").bind
    JsonValue.asString? = some name
  authKey : ((root.find "Auth").bind fun auth => auth.find "AuthKey").bind
    JsonValue.asString? = key
  followup : (root.find "Followup").bind JsonValue.asString? = url
  names : memberNames root = names.map ascii
  hostinfoNames : (root.find "Hostinfo").map memberNames =
    some (["IPNVersion", "Hostname", "OS"].map ascii)
  authNames : (root.find "Auth").map memberNames = key.map fun _ => [ascii "AuthKey"]

def Faithful (body name : Bytes) (key url : Option Bytes) (names : List String) : Prop :=
  ∃ root, JsonParser.parse body = some root ∧ root.isObject = true ∧
    Carries root name key url names

theorem parse_braced {name : String} {input rest : Bytes} {members : List (Bytes × JsonValue)}
    (read : membersAt [] (labelled name input) = some (members, rest)) :
    JsonParser.parse (123 :: labelled name input) = some (.object members) := by
  rw [parse_eq, valueAt_braced read]
  rfl

/-- The members that `Register` writes. -/
def registerNames (authKey followup : Option CString) : List String :=
  ["Version", "NodeKey"] ++ (given authKey).toList.map (fun _ => "Auth") ++
    (given followup).toList.map (fun _ => "Followup") ++ ["Hostinfo"]

theorem insertMember_new {members : List (Bytes × JsonValue)} {name : String} {value : JsonValue}
    (fresh : (JsonValue.object members).find name = none) :
    insertMember members (ascii name) value = members ++ [(ascii name, value)] := by
  rw [insertMember, if_neg]
  rw [find_eq, Option.map_eq_none_iff, List.find?_eq_none] at fresh
  rw [List.any_eq_true]
  rintro ⟨member, inside, same⟩
  exact fresh member inside same

/-- The first two members of both requests. -/
def firstMembers (version : UInt16) (nodePub : Key) : List (Bytes × JsonValue) :=
  [(ascii "Version", .number (strtod (.ofBytes (ascii (toString version.toNat))))),
    (ascii "NodeKey", .string (ascii "nodekey:" ++ (toHex nodePub.bytes).bytes))]

theorem membersAt_first (version : UInt16) (nodePub : Key) (rest : Bytes) :
    membersAt [] (versionLabel version (keyLabel "NodeKey" "nodekey:" nodePub rest)) =
      membersAt (firstMembers version nodePub) rest := by
  rw [membersAt_version, membersAt_key _ _ (by decide) (by decide)]
  rfl

theorem register_faithful {version : UInt16} {nodePub : Key}
    {hostname authKey followup : Option CString} (plainName : Plain (hostnameOf hostname) = true)
    (plainKey : ∀ text ∈ given authKey, Plain text.bytes = true)
    (plainUrl : ∀ text ∈ given followup, Plain text.bytes = true) :
    Faithful (Register.body version nodePub hostname authKey followup) (hostnameOf hostname)
      ((given authKey).map CString.bytes) ((given followup).map CString.bytes)
      (registerNames authKey followup) := by
  have read : membersAt [] (versionLabel version (keyLabel "NodeKey" "nodekey:" nodePub
      (authLabel (given authKey) (followupLabel (given followup)
        (hostinfoLabel (hostnameOf hostname) [125]))))) =
      some (insertMember (followupMembers (authMembers (firstMembers version nodePub) (given authKey))
        (given followup)) (ascii "Hostinfo") (hostinfoValue (hostnameOf hostname)), []) := by
    rw [membersAt_first, membersAt_auth _ _ plainKey, membersAt_followup _ _ plainUrl,
      membersAt_hostinfo _ _ plainName]
  rw [registerBody_eq]
  refine ⟨_, parse_braced read, rfl, ?_⟩
  rw [registerNames]
  cases given authKey with
  | none =>
      cases given followup with
      | none => exact ⟨rfl, rfl, rfl, rfl, rfl, rfl⟩
      | some followup => exact ⟨rfl, rfl, rfl, rfl, rfl, rfl⟩
  | some authKey =>
      cases given followup with
      | none => exact ⟨rfl, rfl, rfl, rfl, rfl, rfl⟩
      | some followup => exact ⟨rfl, rfl, rfl, rfl, rfl, rfl⟩

/-! ## Strings of a faithful request are plain -/

theorem exists_members {name : String} {input rest : Bytes} {value : JsonValue}
    (read : valueAt (123 :: labelled name input) = some (value, rest)) :
    ∃ members, membersAt [] (labelled name input) = some (members, rest) ∧
      value = .object members := by
  have start : skipWs (123 :: labelled name input) = 123 :: labelled name input := rfl
  have open_ : skipWs (labelled name input) = 34 :: (ascii name ++ 34 :: 58 :: input) := rfl
  rw [valueAt_of_skipWs start, valueFrom, if_pos rfl, open_] at read
  obtain ⟨⟨members, after⟩, found, same⟩ := Option.map_eq_some_iff.mp read
  cases same
  exact ⟨members, found, rfl⟩

theorem exists_members_of_parse {name : String} {input : Bytes} {root : JsonValue}
    (parsed : JsonParser.parse (123 :: labelled name input) = some root) :
    ∃ members rest, membersAt [] (labelled name input) = some (members, rest) ∧
      root = .object members := by
  rw [parse_eq] at parsed
  obtain ⟨⟨value, rest⟩, read, same⟩ := Option.map_eq_some_iff.mp parsed
  obtain ⟨members, found, object⟩ := exists_members read
  exact ⟨members, rest, found, same.symm.trans object⟩

section Plainness

variable {members all : List (Bytes × JsonValue)} {after rest : Bytes}

theorem plain_of_hostinfo {hostname : Bytes}
    (read : membersAt members (hostinfoLabel hostname rest) = some (all, after))
    (fresh : (JsonValue.object members).find "Hostinfo" = none)
    (found : (((JsonValue.object all).find "Hostinfo").bind fun hostinfo =>
      hostinfo.find "Hostname").bind JsonValue.asString? = some hostname) :
    Plain hostname = true := by
  obtain ⟨value, left, braced, same⟩ := find_labelled (by decide) read fresh
  obtain ⟨inner, inside, rfl⟩ := exists_members braced
  rw [same, Option.bind_some] at found
  rw [membersAt_next (by decide) (valueAt_quoted (by decide) _)] at inside
  exact plain_of_find (by decide) [44] inside rfl (by decide) (by decide) found

theorem plain_of_auth {authKey : CString} {next : String}
    (read : membersAt members (authLabel (some authKey) (labelled next rest)) = some (all, after))
    (fresh : (JsonValue.object members).find "Auth" = none)
    (found : (((JsonValue.object all).find "Auth").bind fun auth => auth.find "AuthKey").bind
      JsonValue.asString? = some authKey.bytes) : Plain authKey.bytes = true := by
  obtain ⟨value, left, braced, same⟩ := find_labelled (by decide) read fresh
  obtain ⟨inner, inside, rfl⟩ := exists_members braced
  rw [same, Option.bind_some] at found
  exact plain_of_find (by decide) [125, 44] inside rfl (by decide) (by decide) found

theorem plain_of_followup {followup : CString} {next : String}
    (read : membersAt members (followupLabel (some followup) (labelled next rest)) =
      some (all, after))
    (fresh : (JsonValue.object members).find "Followup" = none)
    (found : ((JsonValue.object all).find "Followup").bind JsonValue.asString? =
      some followup.bytes) : Plain followup.bytes = true :=
  plain_of_find (by decide) [44] read fresh (by decide) (by decide) found

end Plainness

theorem plain_of_register {version : UInt16} {nodePub : Key}
    {hostname authKey followup : Option CString} {names : List String}
    (faithful : Faithful (Register.body version nodePub hostname authKey followup)
      (hostnameOf hostname) ((given authKey).map CString.bytes)
      ((given followup).map CString.bytes) names) :
    Plain (hostnameOf hostname) = true ∧ (∀ text ∈ given authKey, Plain text.bytes = true) ∧
      ∀ text ∈ given followup, Plain text.bytes = true := by
  obtain ⟨root, parsed, -, carries⟩ := faithful
  rw [registerBody_eq] at parsed
  obtain ⟨all, rest, read, rfl⟩ := exists_members_of_parse parsed
  rw [← versionLabel, membersAt_first] at read
  have plainKey : ∀ text ∈ given authKey, Plain text.bytes = true := by
    intro text member
    have found := carries.authKey
    rw [Option.mem_def.mp member] at read found
    cases key : given followup with
    | none =>
        rw [key] at read
        exact plain_of_auth read rfl found
    | some url =>
        rw [key] at read
        exact plain_of_auth read rfl found
  rw [membersAt_auth _ _ plainKey] at read
  have plainUrl : ∀ text ∈ given followup, Plain text.bytes = true := by
    intro text member
    have found := carries.followup
    rw [Option.mem_def.mp member] at read found
    refine plain_of_followup read ?_ found
    cases given authKey with
    | none => rfl
    | some key => rfl
  rw [membersAt_followup _ _ plainUrl] at read
  refine ⟨plain_of_hostinfo read ?_ carries.hostname, plainKey, plainUrl⟩
  cases given authKey with
  | none =>
      cases given followup with
      | none => rfl
      | some url => rfl
  | some key =>
      cases given followup with
      | none => rfl
      | some url => rfl

/-! ## The map request -/

/-- What stands between the brackets of an array. -/
def Elements (text : Bytes) : Prop :=
  ∀ rest, ∃ elements, valueAt (91 :: (text ++ 93 :: rest)) = some (.array elements, rest)

/-- What the backend passes without an address. -/
theorem elements_empty : Elements [] := by
  intro rest
  have start : skipWs (91 :: 93 :: rest) = 91 :: 93 :: rest := rfl
  refine ⟨[], (valueAt_of_skipWs start).trans ?_⟩
  rw [valueFrom, if_neg (by decide), if_pos rfl]
  rfl

/-- What it passes with one. -/
theorem elements_quoted {text : Bytes} (plain : Plain text = true) : Elements (quoted text []) := by
  intro rest
  have start : skipWs (91 :: (quoted text [] ++ 93 :: rest)) =
      91 :: quoted text (93 :: rest) := by
    rw [quoted, quoted, List.cons_append, List.append_assoc]
    rfl
  have open_ : skipWs (quoted text (93 :: rest)) = 34 :: (text ++ 34 :: 93 :: rest) := rfl
  refine ⟨[.string text], (valueAt_of_skipWs start).trans ?_⟩
  rw [valueFrom, if_neg (by decide), if_pos rfl, open_]
  simp only
  rw [elementsAt_eq, valueAt_skipWs, ← quoted, valueAt_quoted plain]
  rfl

/-- The members that `Begin` writes. -/
def mapNames : List String :=
  ["Version", "NodeKey", "DiscoKey", "Stream", "OmitPeers", "Endpoints", "Hostinfo"]

def mapMembers (version : UInt16) (nodePub discoPub : Key) (stream : Bool)
    (elements : List JsonValue) : List (Bytes × JsonValue) :=
  firstMembers version nodePub ++
    [(ascii "DiscoKey", .string (ascii "discokey:" ++ (toHex discoPub.bytes).bytes))] ++
    [(ascii "Stream", .bool stream)] ++ [(ascii "OmitPeers", .bool !stream)] ++
    [(ascii "Endpoints", .array elements)]

section Map

variable {version : UInt16} {nodePub discoPub : Key} {hostname endpointsJson : Option CString}
  {stream : Bool}

theorem membersAt_map {endpoints rest : Bytes} (elements : Elements endpoints) :
    ∃ values, membersAt [] (versionLabel version (keyLabel "NodeKey" "nodekey:" nodePub
      (keyLabel "DiscoKey" "discokey:" discoPub (flagLabel "Stream" stream
        (flagLabel "OmitPeers" (!stream)
          (labelled "Endpoints" (91 :: (endpoints ++ 93 :: 44 :: rest)))))))) =
      membersAt (mapMembers version nodePub discoPub stream values) rest := by
  obtain ⟨values, read⟩ := elements (44 :: rest)
  refine ⟨values, ?_⟩
  rw [membersAt_first, membersAt_key _ _ (by decide) (by decide), insertMember_new (by rfl),
    membersAt_flag _ _ (by decide), insertMember_new (by rfl), membersAt_flag _ _ (by decide),
    insertMember_new (by rfl), membersAt_next (by decide) read, insertMember_new (by rfl),
    mapMembers]

theorem map_faithful_iff (elements : Elements (endpointsJson.getD .empty).bytes) :
    Faithful (MapStream.body version nodePub discoPub hostname endpointsJson stream)
      (hostnameOf hostname) none none mapNames ↔ Plain (hostnameOf hostname) = true := by
  obtain ⟨values, first⟩ := @membersAt_map version nodePub discoPub stream _
    (hostinfoLabel (hostnameOf hostname) [125]) elements
  rw [mapBody_eq]
  constructor
  · rintro ⟨root, parsed, -, carries⟩
    obtain ⟨all, rest, read, rfl⟩ := exists_members_of_parse parsed
    rw [← versionLabel, first] at read
    exact plain_of_hostinfo read rfl carries.hostname
  · intro plain
    have read := first.trans (membersAt_hostinfo _ _ plain)
    rw [insertMember_new (by rfl)] at read
    exact ⟨_, parse_braced read, rfl, rfl, rfl, rfl, rfl, rfl, rfl⟩

end Map

theorem requests_faithful_iff (version : UInt16) (nodePub discoPub : Key)
    (hostname authKey followup endpointsJson : Option CString) (stream : Bool)
    (elements : Elements (endpointsJson.getD .empty).bytes) :
    (Faithful (Register.body version nodePub hostname authKey followup) (hostnameOf hostname)
        ((given authKey).map CString.bytes) ((given followup).map CString.bytes)
        (registerNames authKey followup) ↔
      Plain (hostnameOf hostname) = true ∧ (∀ text ∈ given authKey, Plain text.bytes = true) ∧
        ∀ text ∈ given followup, Plain text.bytes = true) ∧
      (Faithful (MapStream.body version nodePub discoPub hostname endpointsJson stream)
          (hostnameOf hostname) none none mapNames ↔ Plain (hostnameOf hostname) = true) :=
  ⟨⟨plain_of_register, fun ⟨name, key, url⟩ => register_faithful name key url⟩,
    map_faithful_iff elements⟩

/-! A profile whose name has quotes in it. -/

namespace RequestSample

def key : Key := .zero 32

def hostname : CString := .ofBytes (ascii "my \"vpn\"")

end RequestSample

theorem hostname_spliced : ¬ ∀ (version : UInt16) (nodePub discoPub : Key)
    (hostname authKey followup endpointsJson : Option CString) (stream : Bool),
    Elements (endpointsJson.getD .empty).bytes →
    Faithful (Register.body version nodePub hostname authKey followup) (hostnameOf hostname)
        ((given authKey).map CString.bytes) ((given followup).map CString.bytes)
        (registerNames authKey followup) ∧
      Faithful (MapStream.body version nodePub discoPub hostname endpointsJson stream)
        (hostnameOf hostname) none none mapNames := by
  intro always
  have faithful := (always 1 RequestSample.key RequestSample.key (some RequestSample.hostname) none
    none none true elements_empty).1
  exact absurd (plain_of_register faithful).1 (by decide)

theorem requests_faithful_iff_sample :
    ¬ Faithful (Register.body 1 RequestSample.key (some RequestSample.hostname) none none)
        RequestSample.hostname.bytes none none (registerNames none none) ∧
      Faithful (MapStream.body 1 RequestSample.key RequestSample.key none none true)
        (ascii "haiku") none none mapNames := by
  constructor
  · intro faithful
    have plain := (requests_faithful_iff 1 RequestSample.key RequestSample.key
      (some RequestSample.hostname) none none none true elements_empty).1.mp faithful
    exact absurd plain.1 (by decide)
  · exact (requests_faithful_iff 1 RequestSample.key RequestSample.key none none none none true
      elements_empty).2.mpr (by decide)

end Sotoportego.Tailscale
