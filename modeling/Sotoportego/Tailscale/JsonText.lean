import Sotoportego.Lib.Utf8
import Sotoportego.Tailscale.Json

/-!
# JSON texts

The values that JSON has, the texts that RFC 8259 allows for each of them, and what a value
becomes in the reader. White space, escapes and the case of their digits are the writer's choice.
-/

set_option autoImplicit false

namespace Sotoportego.Tailscale.JsonText

open Octets CText

/-! ## Values -/

/-- Unicode text without a NUL. -/
structure Text where
  characters : List Char
  no_nul : ∀ character ∈ characters, character.toNat ≠ 0

def Text.utf8 (text : Text) : Bytes := Utf8.encode text.characters

def Digits (octets : Bytes) : Prop :=
  octets ≠ [] ∧ ∀ octet ∈ octets, isDigit octet = true

/-- Digits without a leading zero, or one zero. -/
def Whole (octets : Bytes) : Prop :=
  Digits octets ∧ (octets.head? = some 48 → octets = [48])

def Fraction (octets : Bytes) : Prop :=
  octets = [] ∨ ∃ digits, Digits digits ∧ octets = 46 :: digits

def Exponent (octets : Bytes) : Prop :=
  octets = [] ∨ ∃ letter sign digits, (letter = 101 ∨ letter = 69) ∧
    (sign = [] ∨ sign = [43] ∨ sign = [45]) ∧ Digits digits ∧ octets = letter :: (sign ++ digits)

/-- A number as it is written. -/
structure Lexeme where
  minus : Bool
  whole : Bytes
  fraction : Bytes
  exponent : Bytes
  whole_valid : Whole whole
  fraction_valid : Fraction fraction
  exponent_valid : Exponent exponent

def Lexeme.octets (lexeme : Lexeme) : Bytes :=
  (if lexeme.minus then [45] else []) ++ (lexeme.whole ++ (lexeme.fraction ++ lexeme.exponent))

inductive Value where
  | null
  | bool (value : Bool)
  | number (lexeme : Lexeme)
  | string (text : Text)
  | array (elements : List Value)
  | object (members : List (Text × Value))

/-- The keys of every object are pairwise distinct. -/
inductive Distinct : Value → Prop where
  | null : Distinct .null
  | bool {value : Bool} : Distinct (.bool value)
  | number {lexeme : Lexeme} : Distinct (.number lexeme)
  | string {text : Text} : Distinct (.string text)
  | array {elements : List Value} : (∀ element ∈ elements, Distinct element) →
      Distinct (.array elements)
  | object {members : List (Text × Value)} : (members.map Prod.fst).Nodup →
      (∀ member ∈ members, Distinct member.2) → Distinct (.object members)

mutual

/-- The value in the reader: strings in UTF-8, numbers converted from their lexeme. -/
def meaning : Value → JsonValue
  | .null => .null
  | .bool value => .bool value
  | .number lexeme => .number (strtod (.ofBytes lexeme.octets))
  | .string text => .string text.utf8
  | .array elements => .array (meanings elements)
  | .object members => .object (memberMeanings members)

def meanings : List Value → List JsonValue
  | [] => []
  | element :: elements => meaning element :: meanings elements

def memberMeanings : List (Text × Value) → List (Bytes × JsonValue)
  | [] => []
  | (key, value) :: members => (key.utf8, meaning value) :: memberMeanings members

end

/-! ## Texts -/

/-- Insignificant white space. -/
def Space (octets : Bytes) : Prop :=
  ∀ octet ∈ octets, octet = 32 ∨ octet = 9 ∨ octet = 10 ∨ octet = 13

/-- The short escapes: the letter after the backslash, and the character. -/
def shortEscapes : List (UInt8 × Nat) :=
  [(34, 34), (92, 92), (47, 47), (98, 8), (102, 12), (110, 10), (114, 13), (116, 9)]

/-- `\u` and four hexadecimal digits of either case. -/
inductive UnitWritten : Nat → Bytes → Prop where
  | intro {first second third fourth : UInt8} {a b c d : Nat} :
      hexNibble first = some a → hexNibble second = some b → hexNibble third = some c →
      hexNibble fourth = some d →
      UnitWritten (((a * 16 + b) * 16 + c) * 16 + d) [92, 117, first, second, third, fourth]

def highSurrogate (character : Char) : Nat := 0xd800 + (character.toNat - 0x10000) / 0x400

def lowSurrogate (character : Char) : Nat := 0xdc00 + (character.toNat - 0x10000) % 0x400

inductive CharWritten : Char → Bytes → Prop where
  | raw {character : Char} : 0x20 ≤ character.toNat → character.toNat ≠ 34 →
      character.toNat ≠ 92 → CharWritten character (String.utf8EncodeChar character)
  | short {character : Char} {letter : UInt8} : (letter, character.toNat) ∈ shortEscapes →
      CharWritten character [92, letter]
  | unit {character : Char} {octets : Bytes} : character.toNat < 0x10000 →
      UnitWritten character.toNat octets → CharWritten character octets
  | surrogates {character : Char} {high low : Bytes} : 0x10000 ≤ character.toNat →
      UnitWritten (highSurrogate character) high → UnitWritten (lowSurrogate character) low →
      CharWritten character (high ++ low)

inductive CharsWritten : List Char → Bytes → Prop where
  | nil : CharsWritten [] []
  | cons {character : Char} {characters : List Char} {first rest : Bytes} :
      CharWritten character first → CharsWritten characters rest →
      CharsWritten (character :: characters) (first ++ rest)

/-- A string with its quotes. -/
inductive StringWritten : Text → Bytes → Prop where
  | quoted {text : Text} {body : Bytes} : CharsWritten text.characters body →
      StringWritten text (34 :: (body ++ [34]))

mutual

/-- A value without the white space around it. -/
inductive ValueWritten : Value → Bytes → Prop where
  | null : ValueWritten .null (ascii "null")
  | true : ValueWritten (.bool true) (ascii "true")
  | false : ValueWritten (.bool false) (ascii "false")
  | number {lexeme : Lexeme} : ValueWritten (.number lexeme) lexeme.octets
  | string {text : Text} {octets : Bytes} : StringWritten text octets →
      ValueWritten (.string text) octets
  | emptyArray {gap : Bytes} : Space gap → ValueWritten (.array []) (91 :: (gap ++ [93]))
  | array {elements : List Value} {body : Bytes} : ElementsWritten elements body →
      ValueWritten (.array elements) (91 :: (body ++ [93]))
  | emptyObject {gap : Bytes} : Space gap → ValueWritten (.object []) (123 :: (gap ++ [125]))
  | object {members : List (Text × Value)} {body : Bytes} : MembersWritten members body →
      ValueWritten (.object members) (123 :: (body ++ [125]))

/-- One element or more, with the white space around each of them. -/
inductive ElementsWritten : List Value → Bytes → Prop where
  | last {element : Value} {before octets after : Bytes} : Space before →
      ValueWritten element octets → Space after →
      ElementsWritten [element] (before ++ (octets ++ after))
  | more {element : Value} {elements : List Value} {before octets after rest : Bytes} :
      Space before → ValueWritten element octets → Space after → ElementsWritten elements rest →
      ElementsWritten (element :: elements) (before ++ (octets ++ (after ++ 44 :: rest)))

/-- One member or more, with the white space around each key and value. -/
inductive MembersWritten : List (Text × Value) → Bytes → Prop where
  | last {key : Text} {value : Value} {first name second third octets fourth : Bytes} :
      Space first → StringWritten key name → Space second → Space third →
      ValueWritten value octets → Space fourth →
      MembersWritten [(key, value)]
        (first ++ (name ++ (second ++ 58 :: (third ++ (octets ++ fourth)))))
  | more {key : Text} {value : Value} {members : List (Text × Value)}
      {first name second third octets fourth rest : Bytes} :
      Space first → StringWritten key name → Space second → Space third →
      ValueWritten value octets → Space fourth → MembersWritten members rest →
      MembersWritten ((key, value) :: members)
        (first ++ (name ++ (second ++ 58 :: (third ++ (octets ++ (fourth ++ 44 :: rest))))))

end

/-- The octets that numbers consist of. -/
def Continues (octet : UInt8) : Prop :=
  isDigit octet = true ∨ octet = 45 ∨ octet = 43 ∨ octet = 46 ∨ octet = 101 ∨ octet = 69

instance (octet : UInt8) : Decidable (Continues octet) :=
  inferInstanceAs (Decidable (_ ∨ _))

/-- The next octet cannot extend a number before it. -/
def Ends (value : Value) (rest : Bytes) : Prop :=
  ∀ lexeme, value = .number lexeme → ∀ octet ∈ rest.head?, ¬ Continues octet

end Sotoportego.Tailscale.JsonText
