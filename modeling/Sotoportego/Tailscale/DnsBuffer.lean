import Sotoportego.Lib.Checked
import Sotoportego.Tailscale.MagicDns

/-!
# DNS messages in their buffers

The queries as they are read and written at offsets, each access checked against the size of
its buffer. `none` is a `false` or `-1` return.
-/

set_option autoImplicit false

namespace Sotoportego.Tailscale.DnsBuffer

open Octets CText Checked

/-! ## Reading -/

section Reading

variable (buf : Bytes)

/-- The offset behind the terminating zero, and the name. -/
def decodeQname (off : Nat) (name : Bytes) : Access (Option (Nat × Bytes)) :=
  if inside : off < buf.length then do
    let labelLen ← fetch buf off
    if labelLen = 0 then return some (off + 1, name)
    else if labelLen &&& 0xc0 ≠ 0 then return none
    else if off + 1 + labelLen.toNat > buf.length then return none
    else
      let label ← fetchRange buf (off + 1) labelLen.toNat
      decodeQname (off + 1 + labelLen.toNat)
        ((if name = [] then [] else name ++ [46]) ++ label.map toLower)
  else return none
  termination_by buf.length - off

def parseQuestion : Access (Option Question) :=
  if buf.length < 12 then return none
  else do
    let qdcount ← fetch16 buf 4
    if qdcount < 1 then return none
    else
      let id ← fetch16 buf 0
      match ← decodeQname buf 12 [] with
      | none => return none
      | some (off, name) =>
          if off + 4 > buf.length then return none
          else return some { name, type := ← fetch16 buf off, id }

end Reading

/-! ## Writing -/

/-- The octets written from `base` on, and the buffer. -/
def encodeQname (base cap : Nat) (p : Bytes) (w : Nat) (out : Bytes) :
    Access (Option Nat × Bytes) :=
  if p = [] then do return (some (w + 1), ← put out (base + w) 0)
  else
    let label := p.takeWhile (· ≠ 46)
    if label.length = 0 ∨ label.length > 63 then return (none, out)
    else if w + 1 + label.length + 1 > cap then return (none, out)
    else do
      let out ← put out (base + w) (.ofNat label.length)
      let out ← putRange out (base + (w + 1)) label
      encodeQname base cap ((p.dropWhile (· ≠ 46)).drop 1) (w + 1 + label.length) out
  termination_by p.length
  decreasing_by
    have size : label.length + (p.dropWhile (· ≠ 46)).length = p.length := by
      rw [← List.length_append, List.takeWhile_append_dropWhile]
    rw [List.length_drop]
    omega

def buildQuery (name : CString) (id : UInt16) (out : Bytes) : Access (Option Nat × Bytes) :=
  if out.length < 12 + 5 then return (none, out)
  else do
    let out ← putRange out 0 (List.replicate 12 0)
    let out ← put out 0 (id >>> 8).toUInt8
    let out ← put out 1 (id &&& 0xff).toUInt8
    let out ← put out 2 0x01
    let out ← put out 5 0x01
    match ← encodeQname 12 (out.length - 12 - 4) name.bytes 0 out with
    | (none, out) => return (none, out)
    | (some n, out) => do
        let out ← putRange out (12 + n) [0, 1, 0, 1]
        return (some (12 + n + 4), out)

/-- The return value and the buffer. -/
def resolve (dns : MagicDns) (query out : Bytes) : Access (Int × Bytes) := do
  match ← parseQuestion query with
  | none => return (-1, out)
  | some question =>
      if question.type ≠ 1 then return (0, out)
      else
        let host := dns.localName question.name
        if host = [] then return (0, out)
        else
          match (dns.lookup host).bind scanQuad with
          | none => return (0, out)
          | some (a, b, c, d) =>
              match ← decodeQname query 12 [] with
              | none => return (-1, out)
              | some (qEnd, _) =>
                  let questionLen := qEnd + 4 - 12
                  let needed := 12 + questionLen + 16
                  if out.length < needed then return (-1, out)
                  else
                    let out ← putRange out 0 (List.replicate 12 0)
                    let out ← put out 0 (← fetch query 0)
                    let out ← put out 1 (← fetch query 1)
                    let out ← put out 2 (0x84 ||| ((← fetch query 2) &&& 0x01))
                    let out ← put out 3 0
                    let out ← putRange out 4 [0, 1]
                    let out ← putRange out 6 [0, 1]
                    let out ← putRange out 12 (← fetchRange query 12 questionLen)
                    let out ← putRange out (12 + questionLen)
                      [0xc0, 0x0c, 0, 1, 0, 1, 0, 0, 0x01, 0x2c, 0, 4,
                        .ofNat a, .ofNat b, .ofNat c, .ofNat d]
                    return (needed, out)

end Sotoportego.Tailscale.DnsBuffer
