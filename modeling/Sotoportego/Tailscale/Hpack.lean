import Sotoportego.Lib.CText
import Sotoportego.Lib.PrefixCode

/-!
# Header compression

`HpackDecoder`: integers, strings and header fields, with the dynamic table they fill; and
what `HpackEncoder` emits.
-/

set_option autoImplicit false

namespace Sotoportego.Tailscale

open Octets CText

structure HpackHeader where
  name : Bytes
  value : Bytes
  deriving DecidableEq

namespace Hpack

def header (name value : String) : HpackHeader :=
  ⟨ascii name, ascii value⟩

/-- `kStatic`, from index 0 on. -/
def kStatic : List HpackHeader :=
  [
    header "" "", header ":authority" "", header ":method" "GET", header ":method" "POST",
    header ":path" "/", header ":path" "/index.html", header ":scheme" "http",
    header ":scheme" "https", header ":status" "200", header ":status" "204",
    header ":status" "206", header ":status" "304", header ":status" "400",
    header ":status" "404", header ":status" "500", header "accept-charset" "",
    header "accept-encoding" "gzip, deflate", header "accept-language" "",
    header "accept-ranges" "", header "accept" "", header "access-control-allow-origin" "",
    header "age" "", header "allow" "", header "authorization" "", header "cache-control" "",
    header "content-disposition" "", header "content-encoding" "", header "content-language" "",
    header "content-length" "", header "content-location" "", header "content-range" "",
    header "content-type" "", header "cookie" "", header "date" "", header "etag" "",
    header "expect" "", header "expires" "", header "from" "", header "host" "",
    header "if-match" "", header "if-modified-since" "", header "if-none-match" "",
    header "if-range" "", header "if-unmodified-since" "", header "last-modified" "",
    header "link" "", header "location" "", header "max-forwards" "",
    header "proxy-authenticate" "", header "proxy-authorization" "", header "range" "",
    header "referer" "", header "refresh" "", header "retry-after" "", header "server" "",
    header "set-cookie" "", header "strict-transport-security" "", header "transfer-encoding" "",
    header "user-agent" "", header "vary" "", header "via" "", header "www-authenticate" ""]

def kStaticCount : Nat := 61

/-- The code of each octet value, in the low bits. -/
def kHuffCode : List Nat :=
  [0x1ff8, 0x7fffd8, 0xfffffe2, 0xfffffe3, 0xfffffe4, 0xfffffe5, 0xfffffe6, 0xfffffe7, 0xfffffe8,
   0xffffea, 0x3ffffffc, 0xfffffe9, 0xfffffea, 0x3ffffffd, 0xfffffeb, 0xfffffec, 0xfffffed,
   0xfffffee, 0xfffffef, 0xffffff0, 0xffffff1, 0xffffff2, 0x3ffffffe, 0xffffff3, 0xffffff4,
   0xffffff5, 0xffffff6, 0xffffff7, 0xffffff8, 0xffffff9, 0xffffffa, 0xffffffb, 0x14, 0x3f8,
   0x3f9, 0xffa, 0x1ff9, 0x15, 0xf8, 0x7fa, 0x3fa, 0x3fb, 0xf9, 0x7fb, 0xfa, 0x16, 0x17, 0x18,
   0x0, 0x1, 0x2, 0x19, 0x1a, 0x1b, 0x1c, 0x1d, 0x1e, 0x1f, 0x5c, 0xfb, 0x7ffc, 0x20, 0xffb,
   0x3fc, 0x1ffa, 0x21, 0x5d, 0x5e, 0x5f, 0x60, 0x61, 0x62, 0x63, 0x64, 0x65, 0x66, 0x67, 0x68,
   0x69, 0x6a, 0x6b, 0x6c, 0x6d, 0x6e, 0x6f, 0x70, 0x71, 0x72, 0xfc, 0x73, 0xfd, 0x1ffb, 0x7fff0,
   0x1ffc, 0x3ffc, 0x22, 0x7ffd, 0x3, 0x23, 0x4, 0x24, 0x5, 0x25, 0x26, 0x27, 0x6, 0x74, 0x75,
   0x28, 0x29, 0x2a, 0x7, 0x2b, 0x76, 0x2c, 0x8, 0x9, 0x2d, 0x77, 0x78, 0x79, 0x7a, 0x7b, 0x7ffe,
   0x7fc, 0x3ffd, 0x1ffd, 0xffffffc, 0xfffe6, 0x3fffd2, 0xfffe7, 0xfffe8, 0x3fffd3, 0x3fffd4,
   0x3fffd5, 0x7fffd9, 0x3fffd6, 0x7fffda, 0x7fffdb, 0x7fffdc, 0x7fffdd, 0x7fffde, 0xffffeb,
   0x7fffdf, 0xffffec, 0xffffed, 0x3fffd7, 0x7fffe0, 0xffffee, 0x7fffe1, 0x7fffe2, 0x7fffe3,
   0x7fffe4, 0x1fffdc, 0x3fffd8, 0x7fffe5, 0x3fffd9, 0x7fffe6, 0x7fffe7, 0xffffef, 0x3fffda,
   0x1fffdd, 0xfffe9, 0x3fffdb, 0x3fffdc, 0x7fffe8, 0x7fffe9, 0x1fffde, 0x7fffea, 0x3fffdd,
   0x3fffde, 0xfffff0, 0x1fffdf, 0x3fffdf, 0x7fffeb, 0x7fffec, 0x1fffe0, 0x1fffe1, 0x3fffe0,
   0x1fffe2, 0x7fffed, 0x3fffe1, 0x7fffee, 0x7fffef, 0xfffea, 0x3fffe2, 0x3fffe3, 0x3fffe4,
   0x7ffff0, 0x3fffe5, 0x3fffe6, 0x7ffff1, 0x3ffffe0, 0x3ffffe1, 0xfffeb, 0x7fff1, 0x3fffe7,
   0x7ffff2, 0x3fffe8, 0x1ffffec, 0x3ffffe2, 0x3ffffe3, 0x3ffffe4, 0x7ffffde, 0x7ffffdf,
   0x3ffffe5, 0xfffff1, 0x1ffffed, 0x7fff2, 0x1fffe3, 0x3ffffe6, 0x7ffffe0, 0x7ffffe1, 0x3ffffe7,
   0x7ffffe2, 0xfffff2, 0x1fffe4, 0x1fffe5, 0x3ffffe8, 0x3ffffe9, 0xffffffd, 0x7ffffe3,
   0x7ffffe4, 0x7ffffe5, 0xfffec, 0xfffff3, 0xfffed, 0x1fffe6, 0x3fffe9, 0x1fffe7, 0x1fffe8,
   0x7ffff3, 0x3fffea, 0x3fffeb, 0x1ffffee, 0x1ffffef, 0xfffff4, 0xfffff5, 0x3ffffea, 0x7ffff4,
   0x3ffffeb, 0x7ffffe6, 0x3ffffec, 0x3ffffed, 0x7ffffe7, 0x7ffffe8, 0x7ffffe9, 0x7ffffea,
   0x7ffffeb, 0xffffffe, 0x7ffffec, 0x7ffffed, 0x7ffffee, 0x7ffffef, 0x7fffff0, 0x3ffffee]

/-- The length of each code. -/
def kHuffLen : List Nat :=
  [13, 23, 28, 28, 28, 28, 28, 28, 28, 24, 30, 28, 28, 30, 28, 28, 28, 28, 28, 28, 28, 28, 30,
   28, 28, 28, 28, 28, 28, 28, 28, 28, 6, 10, 10, 12, 13, 6, 8, 11, 10, 10, 8, 11, 8, 6, 6, 6, 5,
   5, 5, 6, 6, 6, 6, 6, 6, 6, 7, 8, 15, 6, 12, 10, 13, 6, 7, 7, 7, 7, 7, 7, 7, 7, 7, 7, 7, 7, 7,
   7, 7, 7, 7, 7, 7, 7, 7, 7, 8, 7, 8, 13, 19, 13, 14, 6, 15, 5, 6, 5, 6, 5, 6, 6, 6, 5, 7, 7, 6,
   6, 6, 5, 6, 7, 6, 5, 5, 6, 7, 7, 7, 7, 7, 15, 11, 14, 13, 28, 20, 22, 20, 20, 22, 22, 22, 23,
   22, 23, 23, 23, 23, 23, 24, 23, 24, 24, 22, 23, 24, 23, 23, 23, 23, 21, 22, 23, 22, 23, 23,
   24, 22, 21, 20, 22, 22, 23, 23, 21, 23, 22, 22, 24, 21, 22, 23, 23, 21, 21, 22, 21, 23, 22,
   23, 23, 20, 22, 22, 22, 23, 22, 22, 23, 26, 26, 20, 19, 22, 23, 22, 25, 26, 26, 26, 27, 27,
   26, 24, 25, 19, 21, 26, 27, 27, 26, 27, 24, 21, 21, 26, 26, 28, 27, 27, 27, 20, 24, 20, 21,
   22, 21, 21, 23, 22, 22, 25, 25, 24, 24, 26, 23, 26, 27, 26, 26, 27, 27, 27, 27, 27, 28, 27,
   27, 27, 27, 27, 26]

/-! ## Huffman strings -/

structure HuffmanState where
  acc : Nat := 0
  accLen : Nat := 0
  out : Bytes := []
  deriving DecidableEq

/-- The first symbol with this code. -/
def huffmanSymbol (acc accLen : Nat) : Option UInt8 :=
  ((kHuffLen.zip kHuffCode).findIdx? fun entry => entry.1 == accLen && entry.2 == acc).map
    UInt8.ofNat

/-- One bit; `acc` never has more than the 30 bits that `accLen` counts. -/
def huffmanBit (state : HuffmanState) (bit : Bool) : Option HuffmanState :=
  let acc := 2 * state.acc + bit.toNat
  let accLen := state.accLen + 1
  if 30 < accLen then none
  else
    match huffmanSymbol acc accLen with
    | some symbol => some { out := state.out ++ [symbol] }
    | none => some { state with acc, accLen }

def octetBits (octet : UInt8) : List Bool :=
  [7, 6, 5, 4, 3, 2, 1, 0].map fun bit : UInt8 => (octet >>> bit) &&& 1 == 1

def huffmanDecode (input : Bytes) : Option Bytes :=
  match (input.flatMap octetBits).foldlM huffmanBit {} with
  | none => none
  | some state =>
      let padMask := 2 ^ state.accLen - 1
      if 8 ≤ state.accLen then none
      else if 0 < state.accLen ∧ state.acc &&& padMask ≠ padMask then none
      else some state.out

/-! ## Integers and strings -/

/-- The octets after a full prefix, seven bits each. -/
def continueInteger (value shift : Nat) : Bytes → Option (Nat × Bytes)
  | [] => none
  | octet :: rest =>
      let value := (value + (octet &&& 0x7f).toNat <<< shift % 2 ^ 32) % 2 ^ 32
      if octet &&& 0x80 = 0 then some (value, rest)
      else if 28 < shift + 7 then none
      else continueInteger value (shift + 7) rest

def decodeInteger (prefixBits : Nat) : Bytes → Option (Nat × Bytes)
  | [] => none
  | octet :: rest =>
      let mask := 2 ^ prefixBits - 1
      let value := octet.toNat &&& mask
      if value < mask then some (value, rest) else continueInteger value 0 rest

def decodeString (input : Bytes) : Option (Bytes × Bytes) :=
  let huffman := octetAt input 0 &&& 0x80 ≠ 0
  match decodeInteger 7 input with
  | none => none
  | some (strLen, rest) =>
      if rest.length < strLen then none
      else if huffman then (huffmanDecode (rest.take strLen)).map (·, rest.drop strLen)
      else some ((rest.take strLen).takeWhile (· ≠ 0), rest.drop strLen)

/-! Every field takes at least one octet. -/

theorem continueInteger_shorter {value shift result : Nat} {input rest : Bytes}
    (decoded : continueInteger value shift input = some (result, rest)) :
    rest.length < input.length := by
  induction input generalizing value shift with
  | nil => cases decoded
  | cons octet input continued =>
      rw [continueInteger] at decoded
      split at decoded
      next =>
        cases decoded
        exact Nat.lt_succ_self _
      next =>
        split at decoded
        next => cases decoded
        next => exact Nat.lt_succ_of_lt (continued decoded)

theorem decodeInteger_shorter {prefixBits result : Nat} {input rest : Bytes}
    (decoded : decodeInteger prefixBits input = some (result, rest)) :
    rest.length < input.length := by
  cases input with
  | nil => cases decoded
  | cons octet input =>
      rw [decodeInteger] at decoded
      split at decoded
      next =>
        cases decoded
        exact Nat.lt_succ_self _
      next => exact Nat.lt_succ_of_lt (continueInteger_shorter decoded)

theorem decodeString_shorter {input text rest : Bytes}
    (decoded : decodeString input = some (text, rest)) : rest.length < input.length := by
  rw [decodeString] at decoded
  cases integer : decodeInteger 7 input with
  | none =>
      rw [integer] at decoded
      cases decoded
  | some result =>
      obtain ⟨strLen, after⟩ := result
      have shorter := decodeInteger_shorter integer
      have dropped : (after.drop strLen).length < input.length := by
        rw [List.length_drop]
        omega
      simp only [integer] at decoded
      split at decoded
      next => cases decoded
      next =>
        split at decoded
        next =>
          obtain ⟨out, -, same⟩ := Option.map_eq_some_iff.mp decoded
          cases same
          exact dropped
        next =>
          cases decoded
          exact dropped

end Hpack

open Hpack

/-! ## The decoder -/

structure HpackDecoder where
  /-- The newest entry first. -/
  dynamic : List HpackHeader := []
  dynamicSize : Nat := 0
  maxDynamicSize : Nat := 4096
  deriving DecidableEq

def HpackHeader.size (header : HpackHeader) : Nat :=
  header.name.length + header.value.length + 32

namespace HpackDecoder

def evict (decoder : HpackDecoder) : HpackDecoder :=
  if decoder.maxDynamicSize < decoder.dynamicSize then
    match _ : decoder.dynamic.getLast? with
    | some oldest =>
        evict { decoder with
          dynamic := decoder.dynamic.dropLast
          dynamicSize := decoder.dynamicSize - oldest.size }
    | none => decoder
  else decoder
termination_by decoder.dynamic.length
decreasing_by
  have some := List.length_pos_of_mem (List.mem_of_getLast? (by assumption))
  rw [List.length_dropLast]
  omega

def setMaxDynamicSize (maxSize : Nat) (decoder : HpackDecoder) : HpackDecoder :=
  evict { decoder with maxDynamicSize := maxSize }

def lookup (decoder : HpackDecoder) (index : Nat) : Option HpackHeader :=
  if index = 0 then none
  else if index ≤ kStaticCount then kStatic[index]?
  else decoder.dynamic[index - kStaticCount - 1]?

def addDynamic (header : HpackHeader) (decoder : HpackDecoder) : HpackDecoder :=
  evict { decoder with
    dynamic := header :: decoder.dynamic
    dynamicSize := decoder.dynamicSize + header.size }

/-- The name of a literal, from a table or from the block. -/
def decodeName (prefixBits : Nat) (decoder : HpackDecoder) (input : Bytes) :
    Option (Bytes × Bytes) :=
  match decodeInteger prefixBits input with
  | none => none
  | some (nameIndex, rest) =>
      if nameIndex ≠ 0 then (decoder.lookup nameIndex).map fun named => (named.name, rest)
      else decodeString rest

/-- A literal whose name index has a prefix of these many bits. -/
def decodeLiteral (prefixBits : Nat) (decoder : HpackDecoder) (input : Bytes) :
    Option (HpackHeader × Bytes) :=
  match decodeName prefixBits decoder input with
  | none => none
  | some (name, rest) => (decodeString rest).map fun (value, rest) => (⟨name, value⟩, rest)

/-- One round of the loop in `Decode`; `none` is an error, which changes nothing. -/
def decodeField (decoder : HpackDecoder) (input : Bytes) :
    Option (List HpackHeader × HpackDecoder × Bytes) :=
  let octet := octetAt input 0
  if octet &&& 0x80 ≠ 0 then
    match decodeInteger 7 input with
    | none => none
    | some (index, rest) => (decoder.lookup index).map fun header => ([header], decoder, rest)
  else if octet &&& 0x40 ≠ 0 then
    (decodeLiteral 6 decoder input).map fun (header, rest) =>
      ([header], decoder.addDynamic header, rest)
  else if octet &&& 0x20 ≠ 0 then
    (decodeInteger 5 input).map fun (newSize, rest) =>
      ([], decoder.setMaxDynamicSize newSize, rest)
  else (decodeLiteral 4 decoder input).map fun (header, rest) => ([header], decoder, rest)

theorem decodeLiteral_shorter {prefixBits : Nat} {decoder : HpackDecoder} {input rest : Bytes}
    {header : HpackHeader}
    (decoded : decodeLiteral prefixBits decoder input = some (header, rest)) :
    rest.length < input.length := by
  have shorter : ∀ {name after}, decodeName prefixBits decoder input = some (name, after) →
      after.length < input.length := by
    intro name after named
    rw [decodeName] at named
    cases integer : decodeInteger prefixBits input with
    | none =>
        rw [integer] at named
        cases named
    | some result =>
        have before := decodeInteger_shorter integer
        simp only [integer] at named
        split at named
        next =>
          obtain ⟨entry, -, same⟩ := Option.map_eq_some_iff.mp named
          cases same
          exact before
        next => exact Nat.lt_trans (decodeString_shorter named) before
  rw [decodeLiteral] at decoded
  cases named : decodeName prefixBits decoder input with
  | none =>
      rw [named] at decoded
      cases decoded
  | some result =>
      simp only [named] at decoded
      obtain ⟨text, string, same⟩ := Option.map_eq_some_iff.mp decoded
      cases same
      exact Nat.lt_trans (decodeString_shorter string) (shorter named)

theorem decodeField_shorter {decoder next : HpackDecoder} {input rest : Bytes}
    {headers : List HpackHeader}
    (decoded : decodeField decoder input = some (headers, next, rest)) :
    rest.length < input.length := by
  rw [decodeField] at decoded
  simp only at decoded
  split at decoded
  next =>
    cases integer : decodeInteger 7 input with
    | none =>
        rw [integer] at decoded
        cases decoded
    | some result =>
        simp only [integer] at decoded
        obtain ⟨header, -, same⟩ := Option.map_eq_some_iff.mp decoded
        cases same
        exact decodeInteger_shorter integer
  next =>
    split at decoded
    next =>
      obtain ⟨result, literal, same⟩ := Option.map_eq_some_iff.mp decoded
      cases same
      exact decodeLiteral_shorter literal
    next =>
      split at decoded
      next =>
        obtain ⟨result, integer, same⟩ := Option.map_eq_some_iff.mp decoded
        cases same
        exact decodeInteger_shorter integer
      next =>
        obtain ⟨result, literal, same⟩ := Option.map_eq_some_iff.mp decoded
        cases same
        exact decodeLiteral_shorter literal

/-- The status, the headers of the fields before an error, and the decoder after them. -/
def decode (decoder : HpackDecoder) (buf : Bytes) : Bool × List HpackHeader × HpackDecoder :=
  if buf = [] then (true, [], decoder)
  else
    match _ : decoder.decodeField buf with
    | none => (false, [], decoder)
    | some (headers, next, rest) =>
        let (status, more, last) := decode next rest
        (status, headers ++ more, last)
termination_by buf.length
decreasing_by exact decodeField_shorter (by assumption)

end HpackDecoder

/-! ## The encoder -/

namespace HpackEncoder

def encodeMore (value : Nat) : Bytes :=
  if 128 ≤ value then UInt8.ofNat (value &&& 0x7f ||| 0x80) :: encodeMore (value >>> 7)
  else [UInt8.ofNat value]
termination_by value
decreasing_by
  rw [Nat.shiftRight_eq_div_pow]
  exact Nat.div_lt_self (by omega) (by decide)

def encodeInteger (prefixBits : Nat) (prefixMask : UInt8) (value : Nat) : Bytes :=
  let max := 2 ^ prefixBits - 1
  if value < max then [prefixMask ||| UInt8.ofNat value]
  else (prefixMask ||| UInt8.ofNat max) :: encodeMore (value - max)

def encodeRawString (text : CString) : Bytes :=
  encodeInteger 7 0 text.bytes.length ++ text.bytes

/-- The header block of one field: `kStatic` is searched from index 1. -/
def addHeader (name value : CString) : Bytes :=
  let named (entry : HpackHeader) : Bool := entry.name = name.bytes
  match (kStatic.drop 1).findIdx? fun entry => named entry && entry.value = value.bytes with
  | some position => encodeInteger 7 0x80 (position + 1)
  | none =>
      match (kStatic.drop 1).findIdx? named with
      | some position => encodeInteger 4 0 (position + 1) ++ encodeRawString value
      | none => 0 :: encodeRawString name ++ encodeRawString value

end HpackEncoder

end Sotoportego.Tailscale
