import Sotoportego.Tailscale.HpackProperties

/-!
# Huffman strings

What `huffman_decode` accepts: exactly the words of the tables one after the other, filled up
with fewer than eight ones.
-/

set_option autoImplicit false

namespace Sotoportego.Tailscale

open Octets PrefixCode

namespace Hpack

/-! ## Octets and their bits -/

theorem octetBits_value : ∀ b7 b6 b5 b4 b3 b2 b1 b0 : Bool,
    octetBits (UInt8.ofNat (value [b7, b6, b5, b4, b3, b2, b1, b0])) =
      [b7, b6, b5, b4, b3, b2, b1, b0] := by
  decide +kernel

theorem flatMap_packed {bits : List Bool} (whole : bits.length % 8 = 0) :
    (packed bits).flatMap octetBits = bits := by
  fun_induction packed bits with
  | case1 b7 b6 b5 b4 b3 b2 b1 b0 rest continued =>
      have shorter : rest.length % 8 = 0 := by
        simp only [List.length_cons] at whole
        omega
      rw [List.flatMap_cons, octetBits_value, continued shorter]
      rfl
  | case2 bits few =>
      match bits with
      | [] => rfl
      | [_] | [_, _] | [_, _, _] | [_, _, _, _] | [_, _, _, _, _] | [_, _, _, _, _, _]
      | [_, _, _, _, _, _, _] => simp at whole
      | b7 :: b6 :: b5 :: b4 :: b3 :: b2 :: b1 :: b0 :: rest =>
          exact absurd rfl (few b7 b6 b5 b4 b3 b2 b1 b0 rest)

/-- The words of a text, filled up with ones. -/
def huffmanEncode (text : Bytes) : Bytes :=
  packed (fill (text.flatMap huffmanWord))

theorem huffmanEncode_coded (text : Bytes) : HuffmanCoded (huffmanEncode text) text :=
  ⟨_, Nat.mod_lt _ (by decide), flatMap_packed (length_fill _)⟩

/-! ## What is accepted -/

theorem replicate_of_value {bits : List Bool} (ones : value bits = 2 ^ bits.length - 1) :
    bits = List.replicate bits.length true := by
  have same : value (List.replicate bits.length true) = value bits := by
    rw [value_replicate_true, ones]
  have spelled := toBits_value (List.replicate bits.length true)
  rw [same, List.length_replicate, toBits_value] at spelled
  exact spelled

/-- A number of so many bits all of which are set. -/
theorem eq_mask {number length : Nat} (small : number < 2 ^ length)
    (set : number &&& (2 ^ length - 1) = 2 ^ length - 1) : number = 2 ^ length - 1 := by
  rw [Nat.and_two_pow_sub_one_eq_mod, Nat.mod_eq_of_lt small] at set
  exact set

theorem coded_of_huffmanDecode {packed text : Bytes}
    (decoded : huffmanDecode packed = some text) : HuffmanCoded packed text := by
  have bridge : (packed.flatMap octetBits).foldlM huffmanBit {} =
      ((packed.flatMap octetBits).foldlM (feed 30 huffmanLookup) {}).map .ofFeed :=
    foldlM_huffmanBit _ {}
  rw [huffmanDecode, bridge] at decoded
  cases fed : (packed.flatMap octetBits).foldlM (feed 30 huffmanLookup) {} with
  | none =>
      rw [fed] at decoded
      cases decoded
  | some state =>
      have spelled := huffman_lawful.foldlM_feed_spelled fed
      have small := value_lt state.held
      simp only [fed, Option.map_some, HuffmanState.ofFeed] at decoded
      split at decoded
      next => cases decoded
      next short =>
        split at decoded
        next => cases decoded
        next filled =>
          cases decoded
          have ones : state.held = List.replicate state.held.length true := by
            refine replicate_of_value ?_
            cases Nat.eq_zero_or_pos state.held.length with
            | inl none =>
                rw [List.length_eq_zero_iff.mp none]
                rfl
            | inr some =>
                simp only [not_and, Decidable.not_not] at filled
                exact eq_mask small (filled some)
          refine ⟨state.held.length, by omega, ?_⟩
          rw [← ones, spelled]
          rfl

/-- The end-of-string code, thirty ones, is no symbol and ends no string. -/
theorem huffmanDecode_eos {packed text : Bytes} {rest : List Bool}
    (spelled : packed.flatMap octetBits =
      text.flatMap huffmanWord ++ (List.replicate 30 true ++ rest)) :
    huffmanDecode packed = none := by
  have unknown : ∀ more, more ≠ [] → more <+: List.replicate 30 true → huffmanLookup more = none :=
    fun more some begins => ones_unknown (Nat.le_refl 30) some begins
  have bridge : (packed.flatMap octetBits).foldlM huffmanBit {} =
      ((packed.flatMap octetBits).foldlM (feed 30 huffmanLookup) {}).map .ofFeed :=
    foldlM_huffmanBit _ {}
  rw [huffmanDecode, bridge, spelled]
  cases rest with
  | nil =>
      rw [List.append_nil, huffman_lawful.foldlM_feed_padded text (by simp) unknown]
      rfl
  | cons bit rest =>
      rw [huffman_lawful.foldlM_feed_overrun text List.length_replicate unknown]
      rfl

/-- Every text has an encoding and is read back from it, and nothing else is accepted. -/
theorem huffman_decoding :
    (∀ text : Bytes, huffmanDecode (huffmanEncode text) = some text) ∧
      (∀ packed text : Bytes, huffmanDecode packed = some text ↔ HuffmanCoded packed text) ∧
      (∀ left right, huffmanWord left <+: huffmanWord right → left = right) ∧
      ∀ (packed text : Bytes) (rest : List Bool), packed.flatMap octetBits =
        text.flatMap huffmanWord ++ (List.replicate 30 true ++ rest) →
        huffmanDecode packed = none :=
  ⟨fun text => huffmanDecode_coded (huffmanEncode_coded text),
    fun _ _ => ⟨coded_of_huffmanDecode, huffmanDecode_coded⟩,
    fun _ _ => huffmanWord_apart, fun _ _ _ => huffmanDecode_eos⟩

end Hpack

end Sotoportego.Tailscale
