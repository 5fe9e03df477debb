import Sotoportego.Tailscale.JsonProperties
import Sotoportego.Tailscale.Register

/-!
# The response scan against the JSON reader

The members of the top-level object with the places in the text where they were read.
-/

set_option autoImplicit false

namespace Sotoportego.Tailscale

open Octets CText

namespace JsonParser

theorem stringAt_shorter {input rest : Bytes} {text : Bytes}
    (read : stringAt input = some (text, rest)) : rest.length < input.length := by
  obtain ⟨parsed, -, same⟩ := Option.map_eq_some_iff.mp read
  cases same
  exact parsed.shorter

theorem valueAt_shorter {input rest : Bytes} {value : JsonValue}
    (read : valueAt input = some (value, rest)) : rest.length < input.length := by
  obtain ⟨parsed, -, same⟩ := Option.map_eq_some_iff.mp read
  cases same
  exact parsed.shorter

theorem afterComma_shorter {input name afterName afterColon afterValue afterComma : Bytes}
    {value : JsonValue} (key : stringAt (skipWs input) = some (name, afterName))
    (colon : skipWs afterName = 58 :: afterColon)
    (found : valueAt (skipWs afterColon) = some (value, afterValue))
    (comma : skipWs afterValue = 44 :: afterComma) : afterComma.length < input.length := by
  have first := length_skipWs_le input
  have second := stringAt_shorter key
  have third := length_skipWs_le afterName
  have fourth := length_skipWs_le afterColon
  have fifth := valueAt_shorter found
  have sixth := length_skipWs_le afterValue
  rw [colon, List.length_cons] at third
  rw [comma, List.length_cons] at sixth
  omega

/-! ## The members as they stand in the text -/

/-- A member of an object; `text` is the document from the opening quote of the name. -/
structure Entry where
  text : Bytes
  name : Bytes
  afterName : Bytes
  afterColon : Bytes
  value : JsonValue

/-- The members that `parse_object` reads from here on. -/
def entries (input : Bytes) : List Entry :=
  match _ : stringAt (skipWs input) with
  | none => []
  | some (name, afterName) =>
      match _ : skipWs afterName with
      | 58 :: afterColon =>
          match _ : valueAt (skipWs afterColon) with
          | none => []
          | some (value, afterValue) =>
              ⟨skipWs input, name, afterName, afterColon, value⟩ ::
                match _ : skipWs afterValue with
                | 44 :: afterComma => entries afterComma
                | _ => []
      | _ => []
termination_by input.length
decreasing_by
  rename_i key colon found comma
  exact afterComma_shorter key colon found comma

/-- The members of the object that the text is. -/
def topEntries (text : Bytes) : List Entry :=
  match skipWs text with
  | 123 :: rest =>
      match skipWs rest with
      | 125 :: _ => []
      | _ => entries (skipWs rest)
  | _ => []

/-- An entry with everything that was read for it. -/
structure Entry.Read (entry : Entry) : Prop where
  quoted : skipWs entry.text = entry.text
  name : stringAt entry.text = some (entry.name, entry.afterName)
  colon : skipWs entry.afterName = 58 :: entry.afterColon
  value : ∃ rest, valueAt (skipWs entry.afterColon) = some (entry.value, rest)

theorem skipWs_skipWs (input : Bytes) : skipWs (skipWs input) = skipWs input := by
  induction input with
  | nil => rfl
  | cons octet rest continued =>
      cases space : isWs octet with
      | true =>
          have dropped : skipWs (octet :: rest) = skipWs rest := List.dropWhile_cons_of_pos space
          rw [dropped, continued]
      | false =>
          have kept : skipWs (octet :: rest) = octet :: rest :=
            List.dropWhile_cons_of_neg (space ▸ Bool.false_ne_true)
          rw [kept, kept]

theorem entries_read {input : Bytes} : ∀ entry ∈ entries input, entry.Read := by
  induction size : input.length using Nat.strong_induction_on generalizing input with
  | h size continued =>
      rw [entries]
      split
      next => nofun
      next name afterName key =>
        split
        next afterColon colon =>
          split
          next => nofun
          next value afterValue found =>
            intro entry member
            cases List.mem_cons.mp member with
            | inl same =>
                subst same
                exact ⟨skipWs_skipWs input, key, colon, afterValue, found⟩
            | inr later =>
                split at later
                next afterComma comma =>
                  exact continued _ (size ▸ afterComma_shorter key colon found comma) rfl entry later
                next => cases later
        next => nofun

theorem topEntries_read {text : Bytes} : ∀ entry ∈ topEntries text, entry.Read := by
  rw [topEntries]
  split
  next rest start =>
    split
    next => nofun
    next => exact entries_read
  next => nofun

def insertEntry (members : List (Bytes × JsonValue)) (entry : Entry) : List (Bytes × JsonValue) :=
  insertMember members entry.name entry.value

theorem entries_cons {input name afterName afterColon afterValue : Bytes} {value : JsonValue}
    (key : stringAt (skipWs input) = some (name, afterName))
    (colon : skipWs afterName = 58 :: afterColon)
    (found : valueAt (skipWs afterColon) = some (value, afterValue)) :
    entries input = ⟨skipWs input, name, afterName, afterColon, value⟩ ::
      match skipWs afterValue with
      | 44 :: afterComma => entries afterComma
      | _ => [] := by
  rw [entries]
  split
  next other => simp [key] at other
  next other =>
    rw [key] at other
    cases other
    split
    next other =>
      rw [colon] at other
      cases other
      split
      next other => simp [found] at other
      next other =>
        rw [found] at other
        cases other
        congr 1
        split
        next comma => simp only [comma]
        next notComma =>
          split
          next comma => exact (notComma _ comma).elim
          next => rfl
    next notColon => exact (notColon _ colon).elim

theorem membersAt_entries {input rest : Bytes} {members all : List (Bytes × JsonValue)}
    (read : membersAt members input = some (all, rest)) :
    all = (entries input).foldl insertEntry members := by
  induction size : input.length using Nat.strong_induction_on generalizing input members with
  | h size continued =>
      rw [membersAt_eq] at read
      obtain ⟨⟨name, afterName⟩, key, read⟩ := Option.bind_eq_some_iff.mp read
      simp only at read
      split at read
      next afterColon colon =>
        obtain ⟨⟨value, afterValue⟩, found, read⟩ := Option.bind_eq_some_iff.mp read
        simp only at read
        rw [entries_cons key colon found, List.foldl_cons]
        split at read
        next afterComma comma =>
          rw [comma]
          exact continued _ (size ▸ afterComma_shorter key colon found comma) read rfl
        next after brace =>
          rw [brace]
          cases read
          rfl
        next => cases read
      next => cases read

/-- The names that a lookup of the key stops at. -/
def named (key : String) (name : Bytes) : Bool :=
  CString.ofBytes name = CString.ofBytes (ascii key)

theorem find_eq (key : String) (members : List (Bytes × JsonValue)) :
    (JsonValue.object members).find key =
      (members.find? fun member => named key member.1).map Prod.snd := rfl

theorem find_insertMember (key : String) (members : List (Bytes × JsonValue)) (name : Bytes)
    (value : JsonValue) :
    (JsonValue.object (insertMember members name value)).find key =
      ((JsonValue.object members).find key).or (if named key name then some value else none) := by
  rw [insertMember]
  split
  next known =>
    cases same : named key name with
    | true =>
        obtain ⟨member, inside, equal⟩ := List.any_eq_true.mp known
        have found : ((JsonValue.object members).find key).isSome := by
          rw [find_eq, Option.isSome_map, List.find?_isSome]
          exact ⟨member, inside,
            decide_eq_true ((of_decide_eq_true equal).trans (of_decide_eq_true same))⟩
        rw [Option.or_of_isSome found]
    | false => simp
  next =>
    rw [find_eq, find_eq, List.find?_append, Option.map_or]
    congr 1
    cases same : named key name with
    | true => simp [same]
    | false => simp [same]

/-- The first member with the name wins. -/
theorem find_foldl_insertEntry (key : String) (entries : List Entry)
    (members : List (Bytes × JsonValue)) :
    (JsonValue.object (entries.foldl insertEntry members)).find key =
      ((JsonValue.object members).find key).or
        ((entries.find? fun entry => named key entry.name).map Entry.value) := by
  induction entries generalizing members with
  | nil => simp
  | cons entry entries continued =>
      rw [List.foldl_cons, continued, insertEntry, find_insertMember, Option.or_assoc]
      congr 1
      cases same : named key entry.name with
      | true => simp [same]
      | false => simp [same]

theorem wordAt_read {word : String} {value read : JsonValue} {input rest : Bytes}
    (found : wordAt word value input = some (read, rest)) :
    read = value ∧ (ascii word).isPrefixOf input = true := by
  cases input with
  | nil => cases found
  | cons octet input =>
      rw [wordAt, parseWord] at found
      split at found
      next inside =>
        cases found
        exact ⟨rfl, inside⟩
      next => cases found

theorem numberAt_read {input rest : Bytes} {value : JsonValue}
    (found : numberAt input = some (value, rest)) :
    (∃ number, value = .number number) ∧ ∃ octet more, input = octet :: more ∧ isNumeric octet := by
  cases input with
  | nil => cases found
  | cons octet input =>
      rw [numberAt, parseNumber] at found
      split at found
      next numeric =>
        cases found
        exact ⟨⟨_, rfl⟩, octet, input, rfl, numeric⟩
      next => cases found

/-- What the first octet says about the value. -/
structure Kind (octet : UInt8) (rest : Bytes) (value : JsonValue) : Prop where
  object : value.isObject = true → octet = 123
  string : octet ≠ 34 → value.asString? = none
  boolean : value.asBool false = (ascii "true").isPrefixOf (octet :: rest)
  starts : octet ≠ 32 ∧ octet ≠ 58

theorem not_true_of_ne {octet : UInt8} (other : octet ≠ 116) (rest : Bytes) :
    (ascii "true").isPrefixOf (octet :: rest) = false := by
  have first : ascii "true" = 116 :: ascii "rue" := rfl
  rw [first, List.isPrefixOf, beq_eq_false_iff_ne.mpr other.symm, Bool.false_and]

theorem valueFrom_kind {octet : UInt8} {rest after : Bytes} {value : JsonValue}
    (read : valueFrom octet rest = some (value, after)) : Kind octet rest value := by
  rw [valueFrom] at read
  split at read
  next brace =>
    subst brace
    have plain : ∃ members, value = .object members := by
      split at read
      next => exact ⟨[], by cases read; rfl⟩
      next =>
        obtain ⟨pair, -, same⟩ := Option.map_eq_some_iff.mp read
        cases same
        exact ⟨_, rfl⟩
    obtain ⟨members, rfl⟩ := plain
    exact ⟨fun _ => rfl, fun _ => rfl, (not_true_of_ne (by decide) rest).symm, by decide⟩
  next =>
    split at read
    next bracket =>
      subst bracket
      have plain : ∃ elements, value = .array elements := by
        split at read
        next => exact ⟨[], by cases read; rfl⟩
        next =>
          obtain ⟨pair, -, same⟩ := Option.map_eq_some_iff.mp read
          cases same
          exact ⟨_, rfl⟩
      obtain ⟨elements, rfl⟩ := plain
      exact ⟨fun wrong => Bool.noConfusion wrong, fun _ => rfl,
        (not_true_of_ne (by decide) rest).symm, by decide⟩
    next =>
      split at read
      next quote =>
        subst quote
        obtain ⟨pair, -, same⟩ := Option.map_eq_some_iff.mp read
        cases same
        exact ⟨fun wrong => Bool.noConfusion wrong, fun other => (other rfl).elim,
          (not_true_of_ne (by decide) rest).symm, by decide⟩
      next =>
        split at read
        next start =>
          subst start
          obtain ⟨rfl, inside⟩ := wordAt_read read
          exact ⟨fun wrong => Bool.noConfusion wrong, fun _ => rfl, inside.symm, by decide⟩
        next notTrue =>
          have other := (not_true_of_ne notTrue rest).symm
          split at read
          next start =>
            subst start
            obtain ⟨rfl, -⟩ := wordAt_read read
            exact ⟨fun wrong => Bool.noConfusion wrong, fun _ => rfl, other, by decide⟩
          next =>
            split at read
            next start =>
              subst start
              obtain ⟨rfl, -⟩ := wordAt_read read
              exact ⟨fun wrong => Bool.noConfusion wrong, fun _ => rfl, other, by decide⟩
            next =>
              obtain ⟨⟨number, rfl⟩, first, more, same, numeric⟩ := numberAt_read read
              cases same
              refine ⟨fun wrong => Bool.noConfusion wrong, fun _ => rfl, other, ?_, ?_⟩
              · rintro rfl
                exact absurd numeric (by decide)
              · rintro rfl
                exact absurd numeric (by decide)

theorem topEntries_empty {text rest after : Bytes} (start : skipWs text = 123 :: rest)
    (brace : skipWs rest = 125 :: after) : topEntries text = [] := by
  rw [topEntries, start]
  simp only [brace]

theorem topEntries_members {text rest : Bytes} (start : skipWs text = 123 :: rest)
    (notBrace : ∀ after, skipWs rest = 125 :: after → False) :
    topEntries text = entries (skipWs rest) := by
  rw [topEntries, start]
  simp only

theorem find_parse {text : Bytes} {root : JsonValue} (parsed : parse text = some root)
    (object : root.isObject = true) (key : String) :
    root.find key =
      ((topEntries text).find? fun entry => named key entry.name).map Entry.value := by
  rw [parse_eq] at parsed
  obtain ⟨⟨value, after⟩, read, same⟩ := Option.map_eq_some_iff.mp parsed
  cases same
  cases start : skipWs text with
  | nil => simp [valueAt_nil start] at read
  | cons octet rest =>
      rw [valueAt_of_skipWs start] at read
      cases (valueFrom_kind read).object object
      rw [valueFrom, if_pos rfl] at read
      split at read
      next brace =>
        cases read
        rw [topEntries_empty start brace]
        rfl
      next notBrace =>
        obtain ⟨⟨members, later⟩, found, same⟩ := Option.map_eq_some_iff.mp read
        cases same
        rw [topEntries_members start notBrace, membersAt_entries found, find_foldl_insertEntry]
        rfl

end JsonParser

/-! ## The scan -/

namespace Register

open JsonParser

/-- Every escape before the closing quote stands for its second octet. -/
def PlainEscapes : Bytes → Bool
  | [] => true
  | 34 :: _ => true
  | 92 :: octet :: rest => (octet = 34 || octet = 92 || octet = 47) && PlainEscapes rest
  | _ :: rest => PlainEscapes rest

/-- What `PlainEscapes` says of a value that is a string. -/
def PlainValue : Bytes → Bool
  | 34 :: rest => PlainEscapes rest
  | _ => true

def Spaces (text : Bytes) : Bool :=
  (text.takeWhile isWs).all (· = 32)

/-- The quoted key first occurs in the text as the name of the first member with this name (and
nowhere if there is none), only spaces stand around the colon, and the escapes of a string
value are plain. -/
structure Scannable (doc : Bytes) (key : String) : Prop where
  located : findFirst (needle key) doc =
    ((topEntries doc).find? fun entry => JsonParser.named key entry.name).map JsonParser.Entry.text
  spaced : ∀ entry ∈ (topEntries doc).find? fun entry => JsonParser.named key entry.name,
    Spaces entry.afterName = true ∧ Spaces entry.afterColon = true
  plain : ∀ entry ∈ (topEntries doc).find? fun entry => JsonParser.named key entry.name,
    PlainValue (skipWs entry.afterColon) = true

/-- A name without quotes and backslashes. -/
def Plain (text : Bytes) : Bool :=
  text.all fun octet => octet ≠ 34 && octet ≠ 92

theorem bodyAt_plain {text : Bytes} (plain : Plain text = true) (out rest : Bytes) :
    bodyAt out (text ++ 34 :: rest) = some (out ++ text, rest) := by
  induction text generalizing out with
  | nil => rw [List.nil_append, bodyAt_quote, List.append_nil]
  | cons octet text continued =>
      simp only [Plain, List.all_cons, Bool.and_eq_true, decide_eq_true_eq] at plain
      rw [List.cons_append, bodyAt_octet plain.1.1 plain.1.2, continued plain.2, List.append_assoc]
      rfl

theorem escapeAt_plain {octet : UInt8} (simple : octet = 34 ∨ octet = 92 ∨ octet = 47)
    (rest : Bytes) : escapeAt (octet :: rest) = some ([octet], rest) := by
  rw [escapeAt, escape]
  rcases simple with same | same | same
  · subst same
    rfl
  · subst same
    rfl
  · subst same
    rfl

theorem bodyAt_unescape {input : Bytes} (plain : PlainEscapes input = true) {out text rest : Bytes}
    (read : bodyAt out input = some (text, rest)) : text = out ++ unescape input := by
  fun_induction unescape input generalizing out with
  | case1 => simp [bodyAt_nil] at read
  | case2 input =>
      rw [bodyAt_quote] at read
      cases read
      rw [List.append_nil]
  | case3 octet input continued =>
      rw [PlainEscapes, Bool.and_eq_true, Bool.or_eq_true, Bool.or_eq_true, decide_eq_true_eq,
        decide_eq_true_eq, decide_eq_true_eq, or_assoc] at plain
      rw [bodyAt_escape, escapeAt_plain plain.1, Option.bind_some] at read
      rw [continued plain.2 read, List.append_assoc]
      rfl
  | case4 octet input notQuote notEscape continued =>
      by_cases escape : octet = 92
      · subst escape
        cases input with
        | nil => simp [bodyAt_escape, escapeAt, JsonParser.escape] at read
        | cons next input => exact (notEscape next input rfl rfl).elim
      · rw [bodyAt_octet notQuote escape] at read
        have onward : PlainEscapes input = true := by
          rw [PlainEscapes] at plain
          · exact plain
          · exact notQuote
          · exact notEscape
        rw [continued onward read, List.append_assoc]
        rfl

/-- What is found is an end of the text that begins with the needle. -/
theorem findFirst_found {needle doc found : Bytes} (first : findFirst needle doc = some found) :
    needle <+: found ∧ found <:+ doc := by
  induction doc with
  | nil =>
      rw [findFirst] at first
      split at first
      next empty =>
        cases first
        exact ⟨empty ▸ List.prefix_rfl, List.suffix_rfl⟩
      next => cases first
  | cons octet doc continued =>
      rw [findFirst] at first
      split at first
      next inside =>
        cases first
        exact ⟨List.isPrefixOf_iff_prefix.mp inside, List.suffix_rfl⟩
      next =>
        obtain ⟨front, back⟩ := continued first
        exact ⟨front, back.trans (List.suffix_cons octet doc)⟩

/-- The first occurrence stays the first when more text follows. -/
theorem findFirst_append {needle doc found : Bytes} (first : findFirst needle doc = some found)
    (more : Bytes) : findFirst needle (doc ++ more) = some (found ++ more) := by
  induction doc with
  | nil =>
      rw [findFirst] at first
      split at first
      next empty =>
        cases first
        cases more with
        | nil => rw [List.append_nil, findFirst, if_pos empty]
        | cons octet more =>
            rw [List.nil_append, findFirst, empty]
            rfl
      next => cases first
  | cons octet doc continued =>
      rw [List.cons_append, findFirst]
      rw [findFirst] at first
      split at first
      next inside =>
        cases first
        have longer := (List.isPrefixOf_iff_prefix.mp inside).trans (List.prefix_append _ more)
        rw [List.cons_append] at longer
        rw [if_pos (List.isPrefixOf_iff_prefix.mpr longer)]
        rfl
      next outside =>
        -- The needle fits before `more`, so it does not reach into it from here.
        have room : needle.length ≤ (octet :: doc).length := by
          have front := (findFirst_found first).1.length_le
          have back := (findFirst_found first).2.length_le
          rw [List.length_cons]
          omega
        rw [if_neg, continued first]
        intro inside
        have reach := List.isPrefixOf_iff_prefix.mp inside
        rw [← List.cons_append] at reach
        exact outside (List.isPrefixOf_iff_prefix.mpr
          (List.prefix_of_prefix_length_le reach (List.prefix_append _ _) room))

theorem skipColon_spaces {text : Bytes} (spaces : Spaces text = true) :
    skipColon text = skipColon (skipWs text) := by
  have split : text.takeWhile isWs ++ skipWs text = text := List.takeWhile_append_dropWhile
  have skipped : ∀ octet ∈ text.takeWhile isWs, (octet = 32 || octet = 58 : Bool) = true := by
    intro octet member
    have space := List.all_eq_true.mp spaces octet member
    rw [space, Bool.true_or]
  calc skipColon text = skipColon (text.takeWhile isWs ++ skipWs text) := by rw [split]
    _ = skipColon (skipWs text) := List.dropWhile_append_of_pos skipped

section Scannable

variable {doc : Bytes} {key : String}

/-- Where the scan stands after the name and the colon: at the value of the member. -/
theorem Scannable.lands (scannable : Scannable doc key) (plainKey : Plain (ascii key) = true)
    {entry : JsonParser.Entry}
    (member : entry ∈ (topEntries doc).find? fun entry => JsonParser.named key entry.name) :
    ∃ k octet rest after, findFirst (needle key) doc = some k ∧
      skipColon (k.drop (needle key).length) = octet :: rest ∧
      skipWs entry.afterColon = octet :: rest ∧
      valueFrom octet rest = some (entry.value, after) := by
  have read := topEntries_read entry (List.mem_of_find?_eq_some member)
  have found : findFirst (needle key) doc = some entry.text := by
    rw [scannable.located, Option.mem_def.mp member]
    rfl
  obtain ⟨afterName, text⟩ := (findFirst_found found).1
  have opened : entry.text = 34 :: (ascii key ++ 34 :: afterName) := by
    rw [← text, needle, List.append_assoc, List.append_assoc]
    rfl
  have same : entry.afterName = afterName := by
    have name := read.name
    rw [opened, stringAt_quote, bodyAt_plain plainKey] at name
    exact (congrArg Prod.snd (Option.some.inj name)).symm
  obtain ⟨spacedName, spacedColon⟩ := scannable.spaced entry member
  obtain ⟨after, value⟩ := read.value
  cases start : skipWs entry.afterColon with
  | nil => 
      have none : skipWs (skipWs entry.afterColon) = [] := by rw [skipWs_skipWs, start]
      rw [valueAt_nil none] at value
      cases value
  | cons octet rest =>
      have again : skipWs (skipWs entry.afterColon) = octet :: rest := by rw [skipWs_skipWs, start]
      rw [valueAt_of_skipWs again] at value
      refine ⟨entry.text, octet, rest, after, found, ?_, rfl, value⟩
      have dropped : entry.text.drop (needle key).length = entry.afterName := by
        rw [← text, List.drop_left, same]
      obtain ⟨notSpace, notColon⟩ := (valueFrom_kind value).starts
      rw [dropped, skipColon_spaces spacedName, read.colon]
      calc skipColon (58 :: entry.afterColon) = skipColon entry.afterColon :=
            List.dropWhile_cons_of_pos (by decide)
        _ = skipColon (octet :: rest) := by rw [skipColon_spaces spacedColon, start]
        _ = octet :: rest := List.dropWhile_cons_of_neg (by simp [notSpace, notColon])

/-- The text of a top-level string member, the empty text without one. -/
def textMember (root : JsonValue) (key : String) : Bytes :=
  ((root.find key).bind JsonValue.asString?).getD []

/-- The value of a top-level boolean member, false without one. -/
def flagMember (root : JsonValue) (key : String) : Bool :=
  ((root.find key).map (JsonValue.asBool false)).getD false

theorem jsonString_eq (scannable : Scannable doc key) (plainKey : Plain (ascii key) = true)
    {root : JsonValue} (parsed : parse doc = some root) (object : root.isObject = true) :
    (jsonString doc key).getD [] = textMember root key := by
  rw [textMember, find_parse parsed object, jsonString]
  cases member : (topEntries doc).find? fun entry => JsonParser.named key entry.name with
  | none =>
      rw [scannable.located, member]
      rfl
  | some entry =>
      obtain ⟨k, octet, rest, after, found, scanned, start, value⟩ :=
        scannable.lands plainKey member
      rw [found]
      simp only [scanned, Option.map_some, Option.bind_some]
      split
      next text quote =>
        cases quote
        rw [valueFrom, if_neg (by decide), if_neg (by decide), if_pos rfl] at value
        obtain ⟨⟨out, later⟩, body, same⟩ := Option.map_eq_some_iff.mp value
        have string : JsonValue.string out = entry.value := congrArg Prod.fst same
        have plain := scannable.plain entry member
        rw [start] at plain
        rw [← string, bodyAt_unescape plain body]
        rfl
      next notQuote =>
        have other : octet ≠ 34 := fun quote => notQuote rest (by rw [quote])
        rw [(valueFrom_kind value).string other]

theorem jsonBool_eq (scannable : Scannable doc key) (plainKey : Plain (ascii key) = true)
    {root : JsonValue} (parsed : parse doc = some root) (object : root.isObject = true) :
    jsonBool doc key = flagMember root key := by
  rw [flagMember, find_parse parsed object, jsonBool]
  cases member : (topEntries doc).find? fun entry => JsonParser.named key entry.name with
  | none =>
      rw [scannable.located, member]
      rfl
  | some entry =>
      obtain ⟨k, octet, rest, after, found, scanned, -, value⟩ :=
        scannable.lands plainKey member
      rw [found]
      simp only [scanned, Option.map_some]
      exact (valueFrom_kind value).boolean.symm

end Scannable

/-- The fields of a response are those of the object that it is. -/
structure Agrees (result : RegisterResult) (root : JsonValue) : Prop where
  authURL : result.authURL = textMember root "AuthURL"
  error : result.error = textMember root "Error"
  machineAuthorized : result.machineAuthorized = flagMember root "MachineAuthorized"
  nodeKeyExpired : result.nodeKeyExpired = flagMember root "NodeKeyExpired"

theorem response_agrees (status : Int) (resp : CString) (root : JsonValue)
    (parsed : parse resp.bytes = some root) (object : root.isObject = true) :
    let result := RegisterResult.ofResponse status resp.bytes
    (Scannable resp.bytes "AuthURL" → result.authURL = textMember root "AuthURL") ∧
      (Scannable resp.bytes "Error" → result.error = textMember root "Error") ∧
      (Scannable resp.bytes "MachineAuthorized" →
        result.machineAuthorized = flagMember root "MachineAuthorized") ∧
      (Scannable resp.bytes "NodeKeyExpired" →
        result.nodeKeyExpired = flagMember root "NodeKeyExpired") :=
  ⟨fun scannable => jsonString_eq scannable (by decide) parsed object,
    fun scannable => jsonString_eq scannable (by decide) parsed object,
    fun scannable => jsonBool_eq scannable (by decide) parsed object,
    fun scannable => jsonBool_eq scannable (by decide) parsed object⟩

/-! A flag of the login in front of that of the machine. -/

namespace Sample

def nested : CString :=
  .ofBytes (ascii "\x7b\"User\":\x7b\"MachineAuthorized\":true\x7d,\"MachineAuthorized\":false\x7d")

def flat : CString :=
  .ofBytes (ascii "\x7b\"AuthURL\":\"https:\\/\\/host\\/a\",\"MachineAuthorized\" : true\x7d")

theorem nested_read : (parse nested.bytes).isSome = true := by decide +kernel

theorem flat_read : (parse flat.bytes).isSome = true := by decide +kernel

end Sample

theorem nested_flag_scanned : ¬ ∀ (status : Int) (resp : CString) (root : JsonValue),
    parse resp.bytes = some root → root.isObject = true →
    Agrees (.ofResponse status resp.bytes) root := by
  intro always
  have agrees := always 200 Sample.nested _ (Option.some_get Sample.nested_read).symm
    (by decide +kernel)
  have scanned := agrees.machineAuthorized
  revert scanned
  decide +kernel

theorem response_agrees_sample : ∃ root, parse Sample.flat.bytes = some root ∧
    Agrees (.ofResponse 200 Sample.flat.bytes) root := by
  have scannable (key : String)
      (listed : key ∈ ["AuthURL", "Error", "MachineAuthorized", "NodeKeyExpired"]) :
      Scannable Sample.flat.bytes key := by
    simp only [List.mem_cons, List.not_mem_nil, or_false] at listed
    rcases listed with rfl | rfl | rfl | rfl <;>
      exact ⟨by decide +kernel, by decide +kernel, by decide +kernel⟩
  have parsed := (Option.some_get Sample.flat_read).symm
  have agrees := response_agrees 200 Sample.flat _ parsed (by decide +kernel)
  exact ⟨_, parsed, agrees.1 (scannable _ (by decide)),
    agrees.2.1 (scannable _ (by decide)), agrees.2.2.1 (scannable _ (by decide)),
    agrees.2.2.2 (scannable _ (by decide))⟩

end Register

end Sotoportego.Tailscale
