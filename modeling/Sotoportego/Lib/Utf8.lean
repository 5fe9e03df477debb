import Sotoportego.Lib.Octets

/-!
# UTF-8

The encoding of a list of characters, and what its octets tell of it.
-/

set_option autoImplicit false

namespace Utf8

open Octets

def encode (characters : List Char) : Bytes :=
  characters.flatMap String.utf8EncodeChar

@[simp] theorem encode_nil : encode [] = [] := rfl

@[simp] theorem encode_cons (character : Char) (characters : List Char) :
    encode (character :: characters) = String.utf8EncodeChar character ++ encode characters :=
  List.flatMap_cons

theorem encode_injective {left right : List Char} (same : encode left = encode right) :
    left = right := by
  have octets : left.utf8Encode = right.utf8Encode := congrArg List.toByteArray same
  rw [← String.toByteArray_ofList, ← String.toByteArray_ofList, String.toByteArray_inj] at octets
  exact String.ofList_injective octets

/-- A character below 128 is its own octet. -/
theorem octets_ascii {character : Char} (small : character.toNat < 0x80) :
    String.utf8EncodeChar character = [UInt8.ofNat character.toNat] := by
  have fits : character.val.toNat ≤ 0x7f := Nat.le_of_lt_succ small
  rw [String.utf8EncodeChar]
  simp only [if_pos fits]
  rfl

/-- The octets of all other characters are marked. -/
theorem octets_marked {character : Char} (large : 0x80 ≤ character.toNat) :
    ∀ octet ∈ String.utf8EncodeChar character, 0x80 ≤ octet.toNat := by
  have exceeds : ¬ character.val.toNat ≤ 0x7f := Nat.not_le_of_lt large
  rw [String.utf8EncodeChar]
  simp only [if_neg exceeds]
  split
  next =>
    simp only [List.forall_mem_cons, UInt8.toNat_ofNat']
    refine ⟨by omega, by omega, by simp⟩
  next =>
    split
    next =>
      simp only [List.forall_mem_cons, UInt8.toNat_ofNat']
      refine ⟨by omega, by omega, by omega, by simp⟩
    next =>
      simp only [List.forall_mem_cons, UInt8.toNat_ofNat']
      refine ⟨by omega, by omega, by omega, by omega, by simp⟩

/-- An octet below 128 stands for itself only. -/
theorem mem_octets_small {character : Char} {octet : UInt8} (small : octet.toNat < 0x80)
    (member : octet ∈ String.utf8EncodeChar character) : octet.toNat = character.toNat := by
  by_cases plain : character.toNat < 0x80
  · rw [octets_ascii plain, List.mem_singleton] at member
    rw [member, UInt8.toNat_ofNat']
    omega
  · exact absurd (octets_marked (Nat.le_of_not_lt plain) octet member) (Nat.not_le_of_lt small)

theorem no_nul {characters : List Char} (none : ∀ character ∈ characters, character.toNat ≠ 0) :
    0 ∉ encode characters := by
  intro member
  obtain ⟨character, listed, octet⟩ := List.mem_flatMap.mp member
  exact none character listed (mem_octets_small (by decide) octet).symm

end Utf8
