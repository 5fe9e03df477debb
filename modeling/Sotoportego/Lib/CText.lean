import Mathlib.Data.List.TakeWhile
import Sotoportego.Lib.Octets

/-!
# C strings and the number conversions of the C library

`strtol`, `strtoul`, `atoi` and `strtod` on octets, and the narrowing of a double to a
signed integer. A double is the binary64 model of the core library.
-/

set_option autoImplicit false

namespace CText

open Octets

/-- The text a `char *` denotes: no octet of it is NUL. -/
structure CString where
  bytes : Bytes
  no_nul : 0 ∉ bytes
  deriving DecidableEq

def CString.empty : CString := ⟨[], by simp⟩

/-- What a C function sees of an octet string: everything before the first NUL. -/
def CString.ofBytes (source : Bytes) : CString :=
  ⟨source.takeWhile (· ≠ 0), fun member => by
    have passed := List.mem_takeWhile_imp member
    simp at passed⟩

def isSpace (octet : UInt8) : Bool :=
  octet = 32 || (9 ≤ octet && octet ≤ 13)

def isDigit (octet : UInt8) : Bool :=
  48 ≤ octet && octet ≤ 57

def hexNibble (octet : UInt8) : Option Nat :=
  if 48 ≤ octet && octet ≤ 57 then some (octet.toNat - 48)
  else if 97 ≤ octet && octet ≤ 102 then some (octet.toNat - 97 + 10)
  else if 65 ≤ octet && octet ≤ 70 then some (octet.toNat - 65 + 10)
  else none

/-- The value of a run of decimal digits. -/
def decimal (digits : Bytes) : Nat :=
  digits.foldl (fun value digit => 10 * value + (digit.toNat - 48)) 0

/-- An optional sign, and what follows it. -/
def sign : Bytes → Bool × Bytes
  | 45 :: rest => (true, rest)
  | 43 :: rest => (false, rest)
  | rest => (false, rest)

/-- `strtol` in base ten with a 64-bit `long`: saturates at both ends, zero without digits. -/
def strtol (text : CString) : Int :=
  let (negative, rest) := sign (text.bytes.dropWhile isSpace)
  let magnitude : Int := decimal (rest.takeWhile isDigit)
  if negative then max (-magnitude) (-2 ^ 63) else min magnitude (2 ^ 63 - 1)

/-- `atoi`, which is `strtol` cut to an `int`. -/
def atoi (text : CString) : Int :=
  (strtol text).bmod (2 ^ 32)

/-- The value of a text that `strtol` reads to its end. -/
def wholeNumber (text : CString) : Option Int :=
  let (_, rest) := sign (text.bytes.dropWhile isSpace)
  if rest ≠ [] && rest.all isDigit then some (strtol text) else none

/-- One `%u` conversion of `sscanf`: the value stored and the text left, or no match. -/
def scanUnsigned (source : Bytes) : Option (Nat × Bytes) :=
  let (negative, rest) := sign (source.dropWhile isSpace)
  let digits := rest.takeWhile isDigit
  let magnitude := decimal digits
  let long :=
    if 2 ^ 64 ≤ magnitude then 2 ^ 64 - 1
    else if negative then (2 ^ 64 - magnitude) % 2 ^ 64 else magnitude
  if digits = [] then none else some (long % 2 ^ 32, rest.dropWhile isDigit)

theorem digit_plain {octet : UInt8} (digit : isDigit octet = true) :
    isSpace octet = false ∧ octet ≠ 45 ∧ octet ≠ 43 := by
  simp only [isDigit, isSpace, Bool.and_eq_true, decide_eq_true_eq, Bool.or_eq_false_iff,
    Bool.and_eq_false_iff, decide_eq_false_iff_not, UInt8.le_iff_toNat_le,
    ← UInt8.toNat_inj, ne_eq, UInt8.reduceToNat] at *
  omega

theorem sign_plain {octet : UInt8} {rest : Bytes} (minus : octet ≠ 45) (plus : octet ≠ 43) :
    sign (octet :: rest) = (false, octet :: rest) := by
  unfold sign
  split
  · next same =>
    cases same
    exact absurd rfl minus
  · next same =>
    cases same
    exact absurd rfl plus
  · rfl

/-- A conversion takes a run of digits up to the text that ends it. -/
theorem scanUnsigned_append {digits rest : Bytes} (nonempty : digits ≠ [])
    (every : ∀ octet ∈ digits, isDigit octet = true) (small : decimal digits < 2 ^ 32)
    (ends : ∀ octet ∈ rest.head?, isDigit octet = false) :
    scanUnsigned (digits ++ rest) = some (decimal digits, rest) := by
  have taken : (digits ++ rest).takeWhile isDigit = digits := by
    rw [List.takeWhile_append_of_pos every]
    cases rest with
    | nil => simp
    | cons head rest => simp [ends head rfl]
  have left : (digits ++ rest).dropWhile isDigit = rest := by
    rw [List.dropWhile_append_of_pos every]
    cases rest with
    | nil => rfl
    | cons head rest => simp [ends head rfl]
  have plain : sign ((digits ++ rest).dropWhile isSpace) = (false, digits ++ rest) := by
    cases digits with
    | nil => exact absurd rfl nonempty
    | cons first digits =>
        obtain ⟨noSpace, minus, plus⟩ := digit_plain (every first List.mem_cons_self)
        rw [List.cons_append, List.dropWhile_cons, noSpace]
        exact sign_plain minus plus
  have fits : ¬ 2 ^ 64 ≤ decimal digits := by omega
  simp only [scanUnsigned, plain, taken, left, if_neg nonempty, if_neg fits, Bool.false_eq_true,
    if_false, Nat.mod_eq_of_lt small]

/-- The exponent part of a decimal floating literal, if there is one. -/
def exponent : Bytes → Int
  | mark :: rest =>
      let (negative, digits) := sign rest
      let magnitude : Int := decimal (digits.takeWhile isDigit)
      if mark = 101 || mark = 69 then (if negative then -magnitude else magnitude) else 0
  | [] => 0

/-- `strtod` on decimal text, rounded to nearest. Hexadecimal, infinity and NaN forms are
left out: they hold letters that no caller passes. -/
def strtod (text : CString) : Float.Model :=
  let (negative, rest) := sign (text.bytes.dropWhile isSpace)
  let whole := rest.takeWhile isDigit
  let afterWhole := rest.dropWhile isDigit
  let (fraction, tail) :=
    match afterWhole with
    | 46 :: point => (point.takeWhile isDigit, point.dropWhile isDigit)
    | _ => ([], afterWhole)
  -- A literal without a digit converts nothing and yields zero.
  let shift : Int := if whole ++ fraction = [] then 0 else exponent tail
  let magnitude := Float.Model.ofScientific (decimal (whole ++ fraction)) (shift - fraction.length)
  if negative then magnitude.neg else magnitude

/-- The double an `int` converts to. -/
def doubleOfInt (value : Int) : Float.Model :=
  let magnitude := Float.Model.ofScientific value.natAbs 0
  if value < 0 then magnitude.neg else magnitude

/-- The conversion of a double to a signed integer of `width` bits. C++ leaves values out of
range undefined; the machine instruction yields the least integer for them. -/
def truncate (width : Nat) (value : Float.Model) : Int :=
  let least : Int := -2 ^ (width - 1)
  let whole := value.unpack.toInt least least
  if least ≤ whole ∧ whole < 2 ^ (width - 1) then whole else least

end CText
