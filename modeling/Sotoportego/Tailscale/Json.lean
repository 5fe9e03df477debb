import Sotoportego.Lib.CText

/-!
# The JSON reader of the control plane

A value carries only the data its kind uses. The cursor of the source is the text that is
left; every parser returns what it read together with a strictly shorter rest, so the
recursion needs no fuel.
-/

set_option autoImplicit false

namespace Sotoportego.Tailscale

open Octets CText

inductive JsonValue where
  | null
  | bool (value : Bool)
  | number (value : Float.Model)
  | string (value : Bytes)
  | array (elements : List JsonValue)
  | object (members : List (Bytes × JsonValue))

namespace JsonValue

def isObject : JsonValue → Bool
  | object _ => true
  | _ => false

/-- Member lookup. Both keys are compared up to a NUL, as `BString` compares. -/
def find (key : String) : JsonValue → Option JsonValue
  | object members =>
      (members.find? fun member => CString.ofBytes member.1 = CString.ofBytes (ascii key)).map
        Prod.snd
  | _ => none

def asString? : JsonValue → Option Bytes
  | string value => some value
  | _ => none

def asArray? : JsonValue → Option (List JsonValue)
  | array elements => some elements
  | _ => none

def asBool (fallback : Bool) : JsonValue → Bool
  | bool value => value
  | _ => fallback

def asNumber (fallback : Float.Model) : JsonValue → Float.Model
  | number value => value
  | _ => fallback

end JsonValue

namespace JsonParser

/-- What a parser read from `input`, and what it left. -/
structure Parsed (α : Type) (input : Bytes) where
  value : α
  rest : Bytes
  shorter : rest.length < input.length

def isWs (octet : UInt8) : Bool :=
  octet = 32 || octet = 9 || octet = 10 || octet = 13

def skipWs (input : Bytes) : Bytes :=
  input.dropWhile isWs

theorem length_skipWs_le (input : Bytes) : (skipWs input).length ≤ input.length :=
  (List.dropWhile_suffix _).length_le

/-- The UTF-8 octets of a code point below `0x10000`. -/
def appendUtf8 (codePoint : Nat) : Bytes :=
  if codePoint < 0x80 then [UInt8.ofNat codePoint]
  else if codePoint < 0x800 then
    [UInt8.ofNat (0xc0 ||| (codePoint >>> 6)), UInt8.ofNat (0x80 ||| (codePoint &&& 0x3f))]
  else
    [UInt8.ofNat (0xe0 ||| (codePoint >>> 12)),
      UInt8.ofNat (0x80 ||| ((codePoint >>> 6) &&& 0x3f)),
      UInt8.ofNat (0x80 ||| (codePoint &&& 0x3f))]

def hex4 (first second third fourth : UInt8) : Option Nat := do
  let a ← hexNibble first
  let b ← hexNibble second
  let c ← hexNibble third
  let d ← hexNibble fourth
  return ((a * 16 + b) * 16 + c) * 16 + d

/-- The octets appended for a surrogate pair. -/
def appendPair (high low : Nat) : Bytes :=
  let full := 0x10000 + ((high - 0xd800) <<< 10) + (low - 0xdc00)
  if full < 0x80 then [UInt8.ofNat full]
  else if full < 0x800 then
    [UInt8.ofNat (0xc0 ||| (full >>> 6)), UInt8.ofNat (0x80 ||| (full &&& 0x3f))]
  else if full < 0x10000 then appendUtf8 full
  else
    [UInt8.ofNat (0xf0 ||| (full >>> 18)), UInt8.ofNat (0x80 ||| ((full >>> 12) &&& 0x3f)),
      UInt8.ofNat (0x80 ||| ((full >>> 6) &&& 0x3f)), UInt8.ofNat (0x80 ||| (full &&& 0x3f))]

/-- The low half that may follow a high surrogate: an escape `\uDC00` to `\uDFFF`. -/
def lowSurrogate (input : Bytes) : Option (Nat × Bytes) :=
  match input with
  | 92 :: 117 :: first :: second :: third :: fourth :: rest =>
      match hex4 first second third fourth with
      | some low => if 0xdc00 ≤ low ∧ low ≤ 0xdfff then some (low, rest) else none
      | none => none
  | _ => none

theorem lowSurrogate_shorter {input rest : Bytes} {low : Nat}
    (read : lowSurrogate input = some (low, rest)) : rest.length < input.length := by
  unfold lowSurrogate at read
  split at read
  · split at read
    · split at read
      · cases read
        simp only [List.length_cons]
        omega
      · cases read
    · cases read
  · cases read

/-- The `\uXXXX` escape, after its `u`. -/
def unicodeEscape (input : Bytes) : Option (Parsed Bytes input) :=
  match input with
  | first :: second :: third :: fourth :: rest =>
      match hex4 first second third fourth with
      | none => none
      | some codePoint =>
          match pair : if 0xd800 ≤ codePoint ∧ codePoint ≤ 0xdbff then lowSurrogate rest
              else none with
          | some (low, after) =>
              some ⟨appendPair codePoint low, after, by
                have read : lowSurrogate rest = some (low, after) := by
                  split at pair
                  · exact pair
                  · cases pair
                have := lowSurrogate_shorter read
                simp only [List.length_cons]
                omega⟩
          | none => some ⟨appendUtf8 codePoint, rest, by simp only [List.length_cons]; omega⟩
  | _ => none

/-- One escape, after its backslash: the octets it stands for. -/
def escape (input : Bytes) : Option (Parsed Bytes input) :=
  match input with
  | [] => none
  | kind :: rest =>
      let single (octet : UInt8) : Option (Parsed Bytes (kind :: rest)) :=
        some ⟨[octet], rest, by simp⟩
      if kind = 34 then single 34
      else if kind = 92 then single 92
      else if kind = 47 then single 47
      else if kind = 98 then single 8
      else if kind = 102 then single 12
      else if kind = 110 then single 10
      else if kind = 114 then single 13
      else if kind = 116 then single 9
      else if kind = 117 then
        match unicodeEscape rest with
        | some read => some ⟨read.value, read.rest, Nat.lt_succ_of_lt read.shorter⟩
        | none => none
      else none

/-- The string after its opening quote. -/
def stringBody (out : Bytes) (input : Bytes) : Option (Parsed Bytes input) :=
  match input with
  | [] => none
  | octet :: rest =>
      if octet = 34 then some ⟨out, rest, by simp⟩
      else if octet = 92 then
        match escape rest with
        | none => none
        | some escaped =>
            have := escaped.shorter
            match stringBody (out ++ escaped.value) escaped.rest with
            | some body =>
                some ⟨body.value, body.rest, by
                  have := body.shorter
                  simp only [List.length_cons]
                  omega⟩
            | none => none
      else
        match stringBody (out ++ [octet]) rest with
        | some body => some ⟨body.value, body.rest, Nat.lt_succ_of_lt body.shorter⟩
        | none => none
termination_by input.length
decreasing_by
  · simp only [List.length_cons]
    omega
  · simp

def parseString (input : Bytes) : Option (Parsed Bytes input) :=
  match input with
  | [] => none
  | octet :: rest =>
      if octet = 34 then
        match stringBody [] rest with
        | some body => some ⟨body.value, body.rest, Nat.lt_succ_of_lt body.shorter⟩
        | none => none
      else none

def isNumeric (octet : UInt8) : Bool :=
  isDigit octet || octet = 45 || octet = 43 || octet = 46 || octet = 101 || octet = 69

/-- The longest run of number characters, whatever their order. -/
def parseNumber (input : Bytes) : Option (Parsed JsonValue input) :=
  match input with
  | [] => none
  | octet :: rest =>
      if isNumeric octet then
        some ⟨.number (strtod (CString.ofBytes (octet :: rest.takeWhile isNumeric))),
          rest.dropWhile isNumeric,
          Nat.lt_succ_of_le (List.dropWhile_suffix _).length_le⟩
      else none

/-- A literal word at the cursor. -/
def parseWord (word : String) (value : JsonValue) (input : Bytes) :
    Option (Parsed JsonValue input) :=
  match input with
  | [] => none
  | octet :: rest =>
      if (ascii word).isPrefixOf (octet :: rest) then
        some ⟨value, rest.drop ((ascii word).length - 1),
          Nat.lt_succ_of_le (List.drop_suffix _ _).length_le⟩
      else none

/-- A key seen before keeps its first value. -/
def insertMember (members : List (Bytes × JsonValue)) (key : Bytes) (value : JsonValue) :
    List (Bytes × JsonValue) :=
  if members.any fun member => CString.ofBytes member.1 = CString.ofBytes key then members
  else members ++ [(key, value)]

mutual

def parseValue (input : Bytes) : Option (Parsed JsonValue input) :=
  have bound := length_skipWs_le input
  match start : skipWs input with
  | [] => none
  | octet :: rest =>
      have inside : rest.length < input.length := by
        rw [start, List.length_cons] at bound
        omega
      have skipped := length_skipWs_le rest
      let widen (read : Option (Parsed JsonValue (octet :: rest))) :
          Option (Parsed JsonValue input) :=
        read.map fun found => ⟨found.value, found.rest, by
          have := found.shorter
          rw [start] at bound
          omega⟩
      if octet = 123 then
        match next : skipWs rest with
        | 125 :: after => some ⟨.object [], after, by
            rw [next, List.length_cons] at skipped
            omega⟩
        | _ =>
            (parseMembers [] (skipWs rest)).map fun found =>
              ⟨.object found.value, found.rest, by
                have := found.shorter
                omega⟩
      else if octet = 91 then
        match next : skipWs rest with
        | 93 :: after => some ⟨.array [], after, by
            rw [next, List.length_cons] at skipped
            omega⟩
        | _ =>
            (parseElements [] (skipWs rest)).map fun found =>
              ⟨.array found.value, found.rest, by
                have := found.shorter
                omega⟩
      else if octet = 34 then
        widen ((parseString (octet :: rest)).map fun found =>
          ⟨.string found.value, found.rest, found.shorter⟩)
      else if octet = 116 then widen (parseWord "true" (.bool true) (octet :: rest))
      else if octet = 102 then widen (parseWord "false" (.bool false) (octet :: rest))
      else if octet = 110 then widen (parseWord "null" .null (octet :: rest))
      else widen (parseNumber (octet :: rest))
termination_by 2 * input.length
decreasing_by all_goals omega

/-- The members of an object, after its brace or a comma, up to the closing brace. -/
def parseMembers (members : List (Bytes × JsonValue)) (input : Bytes) :
    Option (Parsed (List (Bytes × JsonValue)) input) :=
  have first := length_skipWs_le input
  match parseString (skipWs input) with
  | none => none
  | some key =>
      have keyShorter := key.shorter
      have second := length_skipWs_le key.rest
      match colon : skipWs key.rest with
      | 58 :: afterColon =>
          have third := length_skipWs_le afterColon
          have colonInside : afterColon.length < input.length := by
            rw [colon, List.length_cons] at second
            omega
          match parseValue (skipWs afterColon) with
          | none => none
          | some found =>
              have valueShorter := found.shorter
              have fourth := length_skipWs_le found.rest
              match close : skipWs found.rest with
              | 44 :: afterComma =>
                  have commaInside : afterComma.length < input.length := by
                    rw [close, List.length_cons] at fourth
                    omega
                  (parseMembers (insertMember members key.value found.value) afterComma).map
                    fun later => ⟨later.value, later.rest, by
                      have := later.shorter
                      omega⟩
              | 125 :: after =>
                  some ⟨insertMember members key.value found.value, after, by
                    rw [close, List.length_cons] at fourth
                    omega⟩
              | _ => none
      | _ => none
termination_by 2 * input.length
decreasing_by all_goals omega

/-- The elements of an array, after its bracket or a comma, up to the closing bracket. -/
def parseElements (elements : List JsonValue) (input : Bytes) :
    Option (Parsed (List JsonValue) input) :=
  have first := length_skipWs_le input
  match parseValue (skipWs input) with
  | none => none
  | some found =>
      have valueShorter := found.shorter
      have bound := length_skipWs_le found.rest
      match close : skipWs found.rest with
      | 44 :: afterComma =>
          have commaInside : afterComma.length < input.length := by
            rw [close, List.length_cons] at bound
            omega
          (parseElements (elements ++ [found.value]) afterComma).map
            fun later => ⟨later.value, later.rest, by
              have := later.shorter
              omega⟩
      | 93 :: after =>
          some ⟨elements ++ [found.value], after, by
            rw [close, List.length_cons] at bound
            omega⟩
      | _ => none
termination_by 2 * input.length + 1
decreasing_by all_goals omega

end

/-- Bytes after the first value are tolerated. -/
def parse (text : Bytes) : Option JsonValue :=
  (parseValue text).map Parsed.value

end JsonParser

end Sotoportego.Tailscale
