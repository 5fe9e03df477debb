import Mathlib.Data.List.Basic
import Mathlib.Data.UInt
import Mathlib.Tactic.NormNum
import Mathlib.Tactic.Positivity

/-!
# Octet strings

Fixed-size buffers, slices at an offset, and the arithmetic behind joining
octets in little-endian order. Nothing here depends on a message format.
-/

set_option autoImplicit false

namespace Octets

abbrev Bytes := List UInt8

section Bounds

variable {α : Type*} {p : α → Prop} [DecidablePred p]

-- The members of a bound are tried, and not all values of a finite type.
instance decidableForallOption (bound : Option α) : Decidable (∀ value ∈ bound, p value) :=
  Option.decidableForallMem bound

instance decidableForallList (bound : List α) : Decidable (∀ value ∈ bound, p value) :=
  List.decidableBAll p bound

end Bounds

/-- The octets of an ASCII literal. -/
def ascii (text : String) : Bytes :=
  text.toList.map fun character => UInt8.ofNat character.toNat

/-- A buffer of exactly `size` octets. -/
structure Buffer (size : Nat) where
  bytes : Bytes
  length_bytes : bytes.length = size
  deriving DecidableEq

attribute [simp] Buffer.length_bytes

theorem Buffer.ext_bytes {size : Nat} {left right : Buffer size}
    (same : left.bytes = right.bytes) : left = right := by
  cases left
  cases right
  simp_all

/-- The buffer a `memset` with zero leaves. -/
def Buffer.zero (size : Nat) : Buffer size :=
  ⟨List.replicate size 0, by simp⟩

/-- The octet at a position; a position past the end reads as zero. -/
def octetAt (source : Bytes) (position : Nat) : UInt8 :=
  source.getD position 0

/-- The `size` octets that start at `offset`. -/
def slice (size : Nat) (source : Bytes) (offset : Nat) : Buffer size :=
  ⟨(List.range size).map fun position => octetAt source (offset + position), by simp⟩

theorem octetAt_append_left {leading : Bytes} {position : Nat}
    (inside : position < leading.length) (rest : Bytes) :
    octetAt (leading ++ rest) position = octetAt leading position := by
  simp [octetAt, List.getElem?_append_left inside]

theorem octetAt_append_right {leading : Bytes} {position : Nat}
    (outside : leading.length ≤ position) (rest : Bytes) :
    octetAt (leading ++ rest) position = octetAt rest (position - leading.length) := by
  simp [octetAt, List.getElem?_append_right outside]

theorem octetAt_append_length (leading rest : Bytes) :
    octetAt (leading ++ rest) leading.length = octetAt rest 0 := by
  rw [octetAt_append_right (Nat.le_refl _), Nat.sub_self]

theorem octetAt_append_length_add (leading rest : Bytes) (position : Nat) :
    octetAt (leading ++ rest) (leading.length + position) = octetAt rest position := by
  rw [octetAt_append_right (Nat.le_add_right _ _), Nat.add_sub_cancel_left]

theorem slice_append_right {size : Nat} {leading : Bytes} {offset : Nat}
    (outside : leading.length ≤ offset) (rest : Bytes) :
    slice size (leading ++ rest) offset = slice size rest (offset - leading.length) := by
  apply Buffer.ext_bytes
  simp only [slice, List.map_inj_left]
  intro position _
  rw [octetAt_append_right (by omega)]
  congr 1
  omega

theorem slice_bytes_append {size : Nat} (buffer : Buffer size) (rest : Bytes) :
    slice size (buffer.bytes ++ rest) 0 = buffer := by
  apply Buffer.ext_bytes
  apply List.ext_getElem
  · simp [slice]
  · intro position _ inside
    have bounded : position < buffer.bytes.length := inside
    simp [slice, octetAt, List.getElem?_append_left bounded,
      List.getElem?_eq_getElem bounded]

/-- A buffer is read back at the offset where it was written. -/
theorem slice_placed {size : Nat} (offset : Nat) (leading : Bytes) (placed : leading.length = offset)
    (buffer : Buffer size) (rest : Bytes) :
    slice size (leading ++ (buffer.bytes ++ rest)) offset = buffer := by
  subst placed
  rw [slice_append_right (Nat.le_refl _), Nat.sub_self, slice_bytes_append]

@[simp] theorem slice_bytes {size : Nat} (buffer : Buffer size) :
    slice size buffer.bytes 0 = buffer := by
  simpa using slice_bytes_append buffer []

theorem bytes_slice_of_length {size : Nat} {source : Bytes} (exact : source.length = size) :
    (slice size source 0).bytes = source := by
  have same := slice_bytes (⟨source, exact⟩ : Buffer size)
  exact congrArg Buffer.bytes same

/-! Joining one more octet above `shift` already joined bits. -/

theorem or_octet {value shift width : Nat} (fits : shift + 8 ≤ width) :
    value % 2 ^ shift ||| (value / 2 ^ shift % 256) <<< shift % 2 ^ width =
      value % 2 ^ (shift + 8) := by
  have split : value % 2 ^ (shift + 8) =
      2 ^ shift * (value / 2 ^ shift % 256) + value % 2 ^ shift := by
    rw [Nat.pow_add, Nat.mod_mul, Nat.add_comm]
  have small : (value / 2 ^ shift % 256) <<< shift < 2 ^ width := by
    rw [Nat.shiftLeft_eq]
    calc value / 2 ^ shift % 256 * 2 ^ shift < 2 ^ 8 * 2 ^ shift :=
          Nat.mul_lt_mul_of_pos_right (Nat.mod_lt _ (by decide)) (by positivity)
      _ = 2 ^ (shift + 8) := by rw [← Nat.pow_add, Nat.add_comm]
      _ ≤ 2 ^ width := Nat.pow_le_pow_right (by decide) fits
  rw [Nat.mod_eq_of_lt small, split, Nat.shiftLeft_eq, Nat.mul_comm _ (2 ^ shift),
    Nat.two_pow_add_eq_or_of_lt (Nat.mod_lt _ (by positivity)), Nat.or_comm]

theorem join32 (value : UInt32) :
    value.toUInt8.toUInt32 ||| ((value >>> 8).toUInt8.toUInt32 <<< 8) |||
      ((value >>> 16).toUInt8.toUInt32 <<< 16) |||
      ((value >>> 24).toUInt8.toUInt32 <<< 24) = value := by
  apply UInt32.toNat_inj.mp
  have bound := value.toNat_lt
  have first := @or_octet value.toNat 8 32
  have second := @or_octet value.toNat 16 32
  have third := @or_octet value.toNat 24 32
  simp [Nat.shiftRight_eq_div_pow] at *
  rw [first, second, third]

/-! Joining in big-endian order. -/

theorem join_below (high : Nat) {low bits : Nat} (fits : low < 2 ^ bits) :
    high <<< bits ||| low = high * 2 ^ bits + low := by
  rw [← Nat.shiftLeft_add_eq_or_of_lt fits, Nat.shiftLeft_eq]

theorem join16 {value : Nat} (small : value < 2 ^ 16) :
    (UInt8.ofNat (value >>> 8)).toNat <<< 8 ||| (UInt8.ofNat (value &&& 0xff)).toNat = value := by
  have masked : value &&& 0xff = value % 2 ^ 8 := Nat.and_two_pow_sub_one_eq_mod value 8
  rw [join_below _ (UInt8.toNat_lt _), masked]
  simp only [UInt8.toNat_ofNat', Nat.shiftRight_eq_div_pow]
  omega

theorem toNat_joined (high low : UInt8) :
    (high.toUInt16 <<< 8 ||| low.toUInt16).toNat = high.toNat * 2 ^ 8 + low.toNat := by
  have small : high.toNat <<< 8 < 2 ^ 16 := by
    have bound := high.toNat_lt
    rw [Nat.shiftLeft_eq]
    omega
  have joined := join_below high.toNat low.toNat_lt
  rw [UInt16.toNat_or, UInt16.toNat_shiftLeft]
  simp only [UInt8.toNat_toUInt16]
  rw [← joined]
  congr 1
  exact Nat.mod_eq_of_lt small

theorem joinWord (value : UInt16) :
    (value >>> 8).toUInt8.toUInt16 <<< 8 ||| value.toUInt8.toUInt16 = value := by
  apply UInt16.toNat_inj.mp
  have bound := value.toNat_lt
  have joined := join16 bound
  have masked : value.toNat &&& 255 = value.toNat % 256 := Nat.and_two_pow_sub_one_eq_mod _ 8
  have small : (value.toNat / 256 % 256) <<< 8 < 65536 := by
    rw [Nat.shiftLeft_eq]
    omega
  simp [Nat.shiftRight_eq_div_pow, masked] at *
  rw [Nat.mod_eq_of_lt small]
  exact joined

theorem join24 {value : Nat} (small : value < 2 ^ 24) :
    (UInt8.ofNat (value >>> 16)).toNat <<< 16 ||| (UInt8.ofNat (value >>> 8)).toNat <<< 8 |||
      (UInt8.ofNat (value &&& 0xff)).toNat = value := by
  have masked : value &&& 0xff = value % 2 ^ 8 := Nat.and_two_pow_sub_one_eq_mod value 8
  have low : (UInt8.ofNat (value >>> 8)).toNat <<< 8 ||| (UInt8.ofNat (value % 2 ^ 8)).toNat =
      value % 2 ^ 16 := by
    rw [join_below _ (UInt8.toNat_lt _)]
    simp only [UInt8.toNat_ofNat', Nat.shiftRight_eq_div_pow]
    omega
  rw [masked, Nat.or_assoc, low, join_below _ (Nat.mod_lt _ (by decide))]
  simp only [UInt8.toNat_ofNat', Nat.shiftRight_eq_div_pow]
  omega

/-- The 31 low bits survive their masked big-endian form. -/
theorem join31 {value : UInt32} (small : value < 2 ^ 31) :
    ((value >>> 24 &&& 0x7f).toUInt8.toUInt32 <<< 24 ||| (value >>> 16).toUInt8.toUInt32 <<< 16 |||
      (value >>> 8).toUInt8.toUInt32 <<< 8 ||| (value &&& 0xff).toUInt8.toUInt32) &&& 0x7fffffff =
      value := by
  have bound : value.toNat < 2 ^ 31 := small
  have top : value >>> 24 &&& (0x7f : UInt32) = value >>> 24 := by
    apply UInt32.toNat_inj.mp
    have masked := Nat.and_two_pow_sub_one_eq_mod (value.toNat >>> 24) 7
    have below : value.toNat >>> 24 < 2 ^ 7 := by
      rw [Nat.shiftRight_eq_div_pow]
      omega
    rw [Nat.mod_eq_of_lt below] at masked
    simpa using masked
  have bottom : (value &&& 0xff).toUInt8 = value.toUInt8 := by
    apply UInt8.toNat_inj.mp
    have masked := Nat.and_two_pow_sub_one_eq_mod (value.toNat % 256) 8
    simpa using masked
  have whole : value &&& 0x7fffffff = value := by
    apply UInt32.toNat_inj.mp
    have masked := Nat.and_two_pow_sub_one_eq_mod value.toNat 31
    rw [Nat.mod_eq_of_lt bound] at masked
    simpa using masked
  have joined := join32 value
  rw [UInt32.or_comm, UInt32.or_comm (value.toUInt8.toUInt32 ||| _),
    UInt32.or_comm value.toUInt8.toUInt32, ← UInt32.or_assoc, ← UInt32.or_assoc] at joined
  rw [top, bottom, joined, whole]

end Octets
