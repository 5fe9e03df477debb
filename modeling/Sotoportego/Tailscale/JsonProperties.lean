import Sotoportego.Tailscale.Json

/-!
# What the JSON reader returns

The parsers without their length proofs, and the equations between them.
-/

set_option autoImplicit false

namespace Sotoportego.Tailscale

open Octets CText

namespace JsonParser

/-- The value and the text that is left. -/
def Parsed.pair {α : Type} {input : Bytes} (parsed : Parsed α input) : α × Bytes :=
  (parsed.value, parsed.rest)

def escapeAt (input : Bytes) : Option (Bytes × Bytes) :=
  (escape input).map Parsed.pair

def bodyAt (out input : Bytes) : Option (Bytes × Bytes) :=
  (stringBody out input).map Parsed.pair

def stringAt (input : Bytes) : Option (Bytes × Bytes) :=
  (parseString input).map Parsed.pair

def valueAt (input : Bytes) : Option (JsonValue × Bytes) :=
  (parseValue input).map Parsed.pair

def membersAt (members : List (Bytes × JsonValue)) (input : Bytes) :
    Option (List (Bytes × JsonValue) × Bytes) :=
  (parseMembers members input).map Parsed.pair

def elementsAt (elements : List JsonValue) (input : Bytes) : Option (List JsonValue × Bytes) :=
  (parseElements elements input).map Parsed.pair

def wordAt (word : String) (value : JsonValue) (input : Bytes) : Option (JsonValue × Bytes) :=
  (parseWord word value input).map Parsed.pair

def numberAt (input : Bytes) : Option (JsonValue × Bytes) :=
  (parseNumber input).map Parsed.pair

theorem parse_eq (text : Bytes) : parse text = (valueAt text).map Prod.fst := by
  rw [parse, valueAt, Option.map_map]
  rfl

theorem bodyAt_nil (out : Bytes) : bodyAt out [] = none := by
  rw [bodyAt, stringBody]
  rfl

theorem bodyAt_quote (out rest : Bytes) : bodyAt out (34 :: rest) = some (out, rest) := by
  rw [bodyAt, stringBody]
  rfl

theorem bodyAt_escape (out rest : Bytes) :
    bodyAt out (92 :: rest) =
      (escapeAt rest).bind fun (value, after) => bodyAt (out ++ value) after := by
  rw [bodyAt, stringBody, if_neg (by decide), if_pos rfl, escapeAt]
  cases escape rest with
  | none => rfl
  | some escaped =>
      simp only [Option.map_some, Option.bind_some, Parsed.pair, bodyAt]
      cases stringBody (out ++ escaped.value) escaped.rest with
      | none => rfl
      | some body => rfl

theorem bodyAt_octet {octet : UInt8} (notQuote : octet ≠ 34) (notEscape : octet ≠ 92)
    (out rest : Bytes) : bodyAt out (octet :: rest) = bodyAt (out ++ [octet]) rest := by
  rw [bodyAt, stringBody, if_neg notQuote, if_neg notEscape, bodyAt]
  cases stringBody (out ++ [octet]) rest with
  | none => rfl
  | some body => rfl

theorem stringAt_quote (rest : Bytes) : stringAt (34 :: rest) = bodyAt [] rest := by
  rw [stringAt, parseString, bodyAt]
  simp only [if_true]
  cases stringBody [] rest with
  | none => rfl
  | some body => rfl

theorem membersAt_eq (members : List (Bytes × JsonValue)) (input : Bytes) :
    membersAt members input = (stringAt (skipWs input)).bind fun (key, afterKey) =>
      match skipWs afterKey with
      | 58 :: afterColon =>
          (valueAt (skipWs afterColon)).bind fun (value, afterValue) =>
            match skipWs afterValue with
            | 44 :: afterComma => membersAt (insertMember members key value) afterComma
            | 125 :: after => some (insertMember members key value, after)
            | _ => none
      | _ => none := by
  rw [membersAt, parseMembers, stringAt]
  cases parseString (skipWs input) with
  | none => rfl
  | some key =>
      simp only [Option.map_some, Option.bind_some, Parsed.pair]
      split
      next afterColon colon =>
        simp only [colon, valueAt]
        cases parseValue (skipWs afterColon) with
        | none => rfl
        | some found =>
            simp only [Option.map_some, Option.bind_some, Parsed.pair]
            split
            next afterComma close =>
              simp only [close, membersAt, Option.map_map]
              rfl
            next after close =>
              simp only [close]
              rfl
            next notComma notBrace =>
              split
              next afterComma close => exact (notComma _ close).elim
              next after close => exact (notBrace _ close).elim
              next => rfl
      next notColon =>
        split
        next afterColon colon => exact (notColon _ colon).elim
        next => rfl

theorem elementsAt_eq (elements : List JsonValue) (input : Bytes) :
    elementsAt elements input = (valueAt (skipWs input)).bind fun (value, afterValue) =>
      match skipWs afterValue with
      | 44 :: afterComma => elementsAt (elements ++ [value]) afterComma
      | 93 :: after => some (elements ++ [value], after)
      | _ => none := by
  rw [elementsAt, parseElements, valueAt]
  cases parseValue (skipWs input) with
  | none => rfl
  | some found =>
      simp only [Option.map_some, Option.bind_some, Parsed.pair]
      split
      next afterComma close =>
        simp only [close, elementsAt, Option.map_map]
        rfl
      next after close =>
        simp only [close]
        rfl
      next notComma notBracket =>
        split
        next afterComma close => exact (notComma _ close).elim
        next after close => exact (notBracket _ close).elim
        next => rfl

/-- A value from its first octet on. -/
def valueFrom (octet : UInt8) (rest : Bytes) : Option (JsonValue × Bytes) :=
  if octet = 123 then
    match skipWs rest with
    | 125 :: after => some (.object [], after)
    | _ => (membersAt [] (skipWs rest)).map fun (members, after) => (.object members, after)
  else if octet = 91 then
    match skipWs rest with
    | 93 :: after => some (.array [], after)
    | _ => (elementsAt [] (skipWs rest)).map fun (elements, after) => (.array elements, after)
  else if octet = 34 then (bodyAt [] rest).map fun (text, after) => (.string text, after)
  else if octet = 116 then wordAt "true" (.bool true) (octet :: rest)
  else if octet = 102 then wordAt "false" (.bool false) (octet :: rest)
  else if octet = 110 then wordAt "null" .null (octet :: rest)
  else numberAt (octet :: rest)

theorem valueAt_of_skipWs {input rest : Bytes} {octet : UInt8}
    (start : skipWs input = octet :: rest) : valueAt input = valueFrom octet rest := by
  have widened {target : Bytes} (read : Option (Parsed JsonValue (octet :: rest)))
      (widen : Parsed JsonValue (octet :: rest) → Parsed JsonValue target)
      (same : ∀ parsed, (widen parsed).pair = parsed.pair) :
      (read.map widen).map Parsed.pair = read.map Parsed.pair := by
    rw [Option.map_map]
    exact congrArg (read.map ·) (funext same)
  rw [valueAt, parseValue]
  simp only
  split
  next empty => simp [start] at empty
  next octet' rest' start' =>
    rw [start'] at start
    cases start
    rw [valueFrom]
    split
    next =>
      split
      next after next =>
        simp only [next]
        rfl
      next notBrace =>
        split
        next after next => exact (notBrace _ next).elim
        next =>
          rw [membersAt, Option.map_map, Option.map_map]
          rfl
    next =>
      split
      next =>
        split
        next after next =>
          simp only [next]
          rfl
        next notBracket =>
          split
          next after next => exact (notBracket _ next).elim
          next =>
            rw [elementsAt, Option.map_map, Option.map_map]
            rfl
      next =>
        split
        next quote =>
          subst quote
          rw [← stringAt_quote, stringAt, Option.map_map, Option.map_map, Option.map_map]
          rfl
        next =>
          split
          next => exact widened _ _ fun _ => rfl
          next =>
            split
            next => exact widened _ _ fun _ => rfl
            next =>
              split
              next => exact widened _ _ fun _ => rfl
              next => exact widened _ _ fun _ => rfl

theorem valueAt_nil {input : Bytes} (none : skipWs input = []) : valueAt input = .none := by
  rw [valueAt, parseValue]
  simp only
  split
  next => rfl
  next octet rest start => simp [none] at start

end JsonParser

end Sotoportego.Tailscale
