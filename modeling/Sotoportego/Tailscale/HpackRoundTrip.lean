import Sotoportego.Tailscale.HpackProperties

/-!
# From the encoder to the decoder

What `AddHeader` emits is read back by a decoder in any state, which stays as it was: the
encoder refers to the static table alone and never fills the dynamic one.
-/

set_option autoImplicit false

namespace Sotoportego.Tailscale

open Octets CText

namespace HpackDecoder

open Hpack
open HpackEncoder (encodeInteger encodeRawString addHeader)

theorem length_kStatic : kStatic.length = kStaticCount + 1 := by decide +kernel

/-- A position in the search is the index of its entry, whatever the dynamic table holds. -/
theorem lookup_found (decoder : HpackDecoder) {found : HpackHeader → Bool} {position : Nat}
    (located : (kStatic.drop 1).findIdx? found = some position) :
    position < kStaticCount ∧ ∃ entry, decoder.lookup (position + 1) = some entry ∧
      found entry = true := by
  obtain ⟨inside, passed, -⟩ := List.findIdx?_eq_some_iff_getElem.mp located
  rw [List.length_drop, length_kStatic] at inside
  have small : position < kStaticCount := by omega
  have entry : decoder.lookup (position + 1) = kStatic[position + 1]? := by
    rw [lookup, if_neg (Nat.succ_ne_zero position), if_pos (Nat.succ_le_of_lt small)]
  rw [List.getElem_drop] at passed
  have counted : 1 + position < kStatic.length := by
    rw [length_kStatic]
    omega
  refine ⟨small, kStatic[1 + position], ?_, passed⟩
  rw [entry, Nat.add_comm, List.getElem?_eq_getElem]

theorem decodeString_encodeRawString {text : CString} (short : text.bytes.length < 2 ^ 28)
    (rest : Bytes) : decodeString (encodeRawString text ++ rest) = some (text.bytes, rest) :=
  decodeString_coded (.raw text.no_nul short) rest

/-- A literal without indexing: what the first octet says of it, and what is read of it. -/
theorem decodeField_literal {decoder : HpackDecoder} {index : Nat} {octets rest : Bytes}
    {name : Bytes} {value : CString} (short : value.bytes.length < 2 ^ 28)
    (named : decoder.decodeName 4
        (encodeInteger 4 0 index ++ (octets ++ (encodeRawString value ++ rest))) =
      some (name, encodeRawString value ++ rest)) :
    decoder.decodeField (encodeInteger 4 0 index ++ (octets ++ (encodeRawString value ++ rest))) =
      some ([⟨name, value.bytes⟩], decoder, rest) := by
  have flags := (first_octet index).2.2.2 0 (.inl rfl)
  rw [decodeField, octetAt_encodeInteger]
  simp only [flags.1, flags.2.1, flags.2.2, ne_eq, not_true_eq_false, if_false, decodeLiteral,
    named, decodeString_encodeRawString short, Option.map_some]

theorem flagged_literal : Flagged 4 0 := flagged_indexing .without

theorem decodeField_addHeader (decoder : HpackDecoder) {name value : CString}
    (nameShort : name.bytes.length < 2 ^ 28) (valueShort : value.bytes.length < 2 ^ 28)
    (rest : Bytes) :
    decoder.decodeField (addHeader name value ++ rest) =
      some ([⟨name.bytes, value.bytes⟩], decoder, rest) := by
  rw [addHeader]
  split
  next position located =>
    obtain ⟨inside, entry, found, same⟩ := decoder.lookup_found located
    simp only [Bool.and_eq_true, decide_eq_true_eq] at same
    have small : position + 1 < 2 ^ 32 := by
      have count : kStaticCount = 61 := rfl
      omega
    have header : entry = ⟨name.bytes, value.bytes⟩ := by
      rw [← same.1, ← same.2]
    rw [decodeField, octetAt_encodeInteger,
      decodeInteger_encodeInteger (flagged_string 0x80 (.inr rfl)) small]
    simp only [(first_octet (position + 1)).1, ne_eq, not_false_eq_true, if_true, found, header,
      Option.map_some]
  next =>
    split
    next position located =>
      obtain ⟨inside, entry, found, same⟩ := decoder.lookup_found located
      have small : position + 1 < 2 ^ 32 := by
        have count : kStaticCount = 61 := rfl
        omega
      rw [List.append_assoc]
      refine @decodeField_literal decoder (position + 1) [] rest name.bytes value valueShort ?_
      rw [decodeName, decodeInteger_encodeInteger flagged_literal small]
      simp only [ne_eq, Nat.succ_ne_zero, not_false_eq_true, if_true, found, Option.map_some,
        of_decide_eq_true same]
      rfl
    next =>
      have zero : (0 : UInt8) :: encodeRawString name ++ encodeRawString value ++ rest =
          encodeInteger 4 0 0 ++ (encodeRawString name ++ (encodeRawString value ++ rest)) := by
        rw [List.append_assoc]
        rfl
      rw [zero]
      refine decodeField_literal valueShort ?_
      rw [decodeName, decodeInteger_encodeInteger flagged_literal (by decide)]
      simp only [ne_eq, not_true_eq_false, if_false, decodeString_encodeRawString nameShort]

theorem addHeader_ne_nil (name value : CString) : addHeader name value ≠ [] := by
  rw [addHeader]
  split
  next => exact encodeInteger_ne_nil _ _ _
  next =>
    split
    next => exact List.append_ne_nil_of_left_ne_nil (encodeInteger_ne_nil _ _ _) _
    next => exact List.cons_ne_nil _ _

/-- The header blocks of any fields, one after the other. -/
def encodeHeaders (headers : List (CString × CString)) : Bytes :=
  headers.flatMap fun header => addHeader header.1 header.2

theorem headers_round_trip (decoder : HpackDecoder) (headers : List (CString × CString))
    (short : ∀ header ∈ headers,
      header.1.bytes.length < 2 ^ 28 ∧ header.2.bytes.length < 2 ^ 28) :
    decoder.decode (encodeHeaders headers) =
      (true, headers.map fun header => ⟨header.1.bytes, header.2.bytes⟩, decoder) := by
  induction headers with
  | nil =>
      rw [encodeHeaders, List.flatMap_nil, decode, if_pos rfl]
      rfl
  | cons header headers continued =>
      obtain ⟨nameShort, valueShort⟩ := short header List.mem_cons_self
      have onward := continued fun later member => short later (List.mem_cons_of_mem _ member)
      have field := decoder.decodeField_addHeader nameShort valueShort (encodeHeaders headers)
      rw [encodeHeaders, List.flatMap_cons, decode,
        if_neg (List.append_ne_nil_of_left_ne_nil (addHeader_ne_nil _ _) _)]
      split
      next rejected =>
        rw [encodeHeaders] at field
        rw [field] at rejected
        cases rejected
      next found =>
        rw [encodeHeaders] at field
        rw [field] at found
        cases found
        rw [encodeHeaders] at onward
        simp only [onward, List.map_cons, List.singleton_append]

theorem headers_round_trip_sample :
    decode { dynamic := [header "a" "b"], dynamicSize := 34 }
        (encodeHeaders [(.ofBytes (ascii ":method"), .ofBytes (ascii "GET")),
          (.ofBytes (ascii ":path"), .ofBytes (ascii "/machine/map")),
          (.ofBytes (ascii "ts-lb"), .ofBytes (ascii "x"))]) =
      (true, [header ":method" "GET", header ":path" "/machine/map", header "ts-lb" "x"],
        { dynamic := [header "a" "b"], dynamicSize := 34 }) :=
  headers_round_trip _ _ (by decide +kernel)

end HpackDecoder

end Sotoportego.Tailscale
