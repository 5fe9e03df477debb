import Sotoportego.Lib.Checked
import Sotoportego.Tailscale.Json

/-!
# The JSON reader at its cursor

The parser as it walks the buffer: a position, every read and every move of the cursor checked
against the bounds, and fuel for the loops and the recursion. `none` is a `false` return; the
values are those of the reader.
-/

set_option autoImplicit false

namespace Sotoportego.Tailscale.JsonCursor

open Octets CText Checked JsonParser

/-- What a parser returns: `false`, or a value and the cursor behind it. -/
abbrev Scanned (α : Type) := Option (α × Nat)

variable (text : Bytes)

def skipWs : Nat → Nat → Access Nat
  | 0, _ => .error .fuel
  | fuel + 1, p =>
      if p < text.length then do
        let ch ← fetch text p
        if isWs ch then skipWs fuel (← move text p (p + 1)) else return p
      else return p

/-- `hex4`: stops at the first character that is no digit. -/
def hex4 : Nat → Nat → Nat → Access (Option Nat)
  | 0, _, value => return some value
  | count + 1, p, value => do
      match hexNibble (← fetch text p) with
      | some digit => hex4 count (p + 1) (value * 16 + digit)
      | none => return none

/-- The low surrogate behind a high one, when six more characters spell it. -/
def lowSurrogate (p unit : Nat) : Access (Option (Nat × Nat)) :=
  if 0xd800 ≤ unit ∧ unit ≤ 0xdbff ∧ p + 6 ≤ text.length then do
    if (← fetch text p) = 92 then
      if (← fetch text (p + 1)) = 117 then
        match ← hex4 text 4 (p + 2) 0 with
        | some low =>
            if 0xdc00 ≤ low ∧ low ≤ 0xdfff then return some (low, ← move text p (p + 6))
            else return none
        | none => return none
      else return none
    else return none
  else return none

/-- After `\u`. -/
def unicodeEscape (p : Nat) : Access (Scanned Bytes) :=
  if text.length < p + 4 then return none
  else do
    match ← hex4 text 4 p 0 with
    | none => return none
    | some unit =>
        let p ← move text p (p + 4)
        match ← lowSurrogate text p unit with
        | some (low, p) => return some (appendPair unit low, p)
        | none => return some (appendUtf8 unit, p)

/-- After the backslash. -/
def escape (p : Nat) : Access (Scanned Bytes) :=
  if p < text.length then do
    let esc ← fetch text p
    let p ← move text p (p + 1)
    if esc = 34 then return some ([34], p)
    else if esc = 92 then return some ([92], p)
    else if esc = 47 then return some ([47], p)
    else if esc = 98 then return some ([8], p)
    else if esc = 102 then return some ([12], p)
    else if esc = 110 then return some ([10], p)
    else if esc = 114 then return some ([13], p)
    else if esc = 116 then return some ([9], p)
    else if esc = 117 then unicodeEscape text p
    else return none
  else return none

def stringBody : Nat → Bytes → Nat → Access (Scanned Bytes)
  | 0, _, _ => .error .fuel
  | fuel + 1, out, p =>
      if p < text.length then do
        let ch ← fetch text p
        let p ← move text p (p + 1)
        if ch = 34 then return some (out, p)
        else if ch = 92 then
          match ← escape text p with
          | some (octets, p) => stringBody fuel (out ++ octets) p
          | none => return none
        else stringBody fuel (out ++ [ch]) p
      else return none

def parseString (fuel p : Nat) : Access (Scanned Bytes) :=
  if p < text.length then do
    if (← fetch text p) = 34 then stringBody text fuel [] (← move text p (p + 1))
    else return none
  else return none

/-- The end of the run of number characters. -/
def numberEnd : Nat → Nat → Access Nat
  | 0, _ => .error .fuel
  | fuel + 1, p =>
      if p < text.length then do
        if isNumeric (← fetch text p) then numberEnd fuel (← move text p (p + 1)) else return p
      else return p

def parseNumber (fuel start : Nat) : Access (Scanned JsonValue) := do
  let p ← numberEnd text fuel start
  if p = start then return none
  else
    let tmp ← fetchRange text start (p - start)
    return some (.number (strtod (.ofBytes tmp)), p)

/-- A literal: the length is tested before the characters are compared. -/
def parseWord (word : String) (value : JsonValue) (p : Nat) : Access (Scanned JsonValue) :=
  let count := (ascii word).length
  if p + count ≤ text.length then do
    if (← fetchRange text p count) = ascii word then return some (value, ← move text p (p + count))
    else return none
  else return none

mutual

def parseObject : Nat → Nat → Access (Scanned JsonValue)
  | 0, _ => .error .fuel
  | fuel + 1, p => do
      let p ← move text p (p + 1)
      let p ← skipWs text fuel p
      if p < text.length then
        if (← fetch text p) = 125 then return some (.object [], ← move text p (p + 1))
        else members fuel [] p
      else members fuel [] p

def members : Nat → List (Bytes × JsonValue) → Nat → Access (Scanned JsonValue)
  | 0, _, _ => .error .fuel
  | fuel + 1, seen, p => do
      let p ← skipWs text fuel p
      match ← parseString text fuel p with
      | none => return none
      | some (key, p) =>
          let p ← skipWs text fuel p
          if p < text.length then
            if (← fetch text p) = 58 then
              let p ← move text p (p + 1)
              let p ← skipWs text fuel p
              match ← parseValue fuel p with
              | none => return none
              | some (value, p) =>
                  let seen := insertMember seen key value
                  let p ← skipWs text fuel p
                  if p < text.length then
                    let ch ← fetch text p
                    if ch = 44 then members fuel seen (← move text p (p + 1))
                    else if ch = 125 then return some (.object seen, ← move text p (p + 1))
                    else return none
                  else return none
            else return none
          else return none

def parseArray : Nat → Nat → Access (Scanned JsonValue)
  | 0, _ => .error .fuel
  | fuel + 1, p => do
      let p ← move text p (p + 1)
      let p ← skipWs text fuel p
      if p < text.length then
        if (← fetch text p) = 93 then return some (.array [], ← move text p (p + 1))
        else elements fuel [] p
      else elements fuel [] p

def elements : Nat → List JsonValue → Nat → Access (Scanned JsonValue)
  | 0, _, _ => .error .fuel
  | fuel + 1, seen, p => do
      let p ← skipWs text fuel p
      match ← parseValue fuel p with
      | none => return none
      | some (value, p) =>
          let seen := seen ++ [value]
          let p ← skipWs text fuel p
          if p < text.length then
            let ch ← fetch text p
            if ch = 44 then elements fuel seen (← move text p (p + 1))
            else if ch = 93 then return some (.array seen, ← move text p (p + 1))
            else return none
          else return none

def parseValue : Nat → Nat → Access (Scanned JsonValue)
  | 0, _ => .error .fuel
  | fuel + 1, p => do
      let p ← skipWs text fuel p
      if p < text.length then
        let ch ← fetch text p
        if ch = 123 then parseObject fuel p
        else if ch = 91 then parseArray fuel p
        else if ch = 34 then
          return (← parseString text fuel p).map fun (octets, p) => (.string octets, p)
        else if ch = 116 then parseWord text "true" (.bool true) p
        else if ch = 102 then parseWord text "false" (.bool false) p
        else if ch = 110 then parseWord text "null" .null p
        else parseNumber text fuel p
      else return none

end

/-- `Parse`: the white space behind the value is skipped, further bytes are tolerated. -/
def parse (fuel : Nat) : Access (Scanned JsonValue) := do
  match ← parseValue text fuel 0 with
  | none => return none
  | some (value, p) => return some (value, ← skipWs text fuel p)

end Sotoportego.Tailscale.JsonCursor
