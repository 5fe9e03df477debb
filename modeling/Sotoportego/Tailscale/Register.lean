import Sotoportego.Tailscale.Http2Client
import Sotoportego.Tailscale.PeerSet

/-!
# Registration

`Register`: the request text, and the response fields found by a scan for their quoted
names. A position `k` in the document is the document from there on.
-/

set_option autoImplicit false

namespace Sotoportego.Tailscale

open Octets CText
open WireGuard (Key)

namespace Register

/-- The document from the first occurrence of `needle`. -/
def findFirst (needle : Bytes) : Bytes → Option Bytes
  | [] => if needle = [] then some [] else none
  | octet :: rest =>
      if needle.isPrefixOf (octet :: rest) then some (octet :: rest) else findFirst needle rest

def needle (key : String) : Bytes :=
  ascii "\"" ++ ascii key ++ ascii "\""

/-- Skips spaces and colons. -/
def skipColon (doc : Bytes) : Bytes :=
  doc.dropWhile fun octet => octet = 32 || octet = 58

/-- The value loop of `json_string`. -/
def unescape : Bytes → Bytes
  | [] => []
  | 34 :: _ => []
  | 92 :: octet :: rest => octet :: unescape rest
  | octet :: rest => octet :: unescape rest

def jsonString (doc : Bytes) (key : String) : Option Bytes :=
  match findFirst (needle key) doc with
  | none => none
  | some k =>
      match skipColon (k.drop (needle key).length) with
      | 34 :: k => some (unescape k)
      | _ => none

def jsonBool (doc : Bytes) (key : String) : Bool :=
  match findFirst (needle key) doc with
  | none => false
  | some k => (ascii "true").isPrefixOf (skipColon (k.drop (needle key).length))

end Register

structure RegisterResult where
  httpStatus : Int := 0
  machineAuthorized : Bool := false
  nodeKeyExpired : Bool := false
  authURL : Bytes := []
  error : Bytes := []

/-- The fields that `Register` takes from a response. -/
def RegisterResult.ofResponse (status : Int) (resp : Bytes) : RegisterResult where
  httpStatus := status
  machineAuthorized := Register.jsonBool resp "MachineAuthorized"
  nodeKeyExpired := Register.jsonBool resp "NodeKeyExpired"
  authURL := (Register.jsonString resp "AuthURL").getD []
  error := (Register.jsonString resp "Error").getD []

namespace Register

/-- A text that is there and not empty. -/
def given (text : Option CString) : Option CString :=
  text.filter fun text => text ≠ .empty

/-- The last member of the RegisterRequest, and of the MapRequest. -/
def hostinfo (hostname : Option CString) : Bytes :=
  ascii "\"Hostinfo\":\x7b" ++ ascii "\"IPNVersion\":\"0.1.0\"," ++
    (ascii "\"Hostname\":\"" ++ (hostname.getD (.ofBytes (ascii "haiku"))).bytes ++ ascii "\",") ++
    ascii "\"OS\":\"haiku\"" ++ ascii "\x7d"

/-- The RegisterRequest. -/
def body (version : UInt16) (nodePub : Key) (hostname authKey followup : Option CString) : Bytes :=
  ascii "\x7b" ++
    (ascii "\"Version\":" ++ ascii (toString version.toNat) ++ ascii ",") ++
    (ascii "\"NodeKey\":\"nodekey:" ++ (toHex nodePub.bytes).bytes ++ ascii "\",") ++
    (match given authKey with
      | some authKey => ascii "\"Auth\":\x7b\"AuthKey\":\"" ++ authKey.bytes ++ ascii "\"\x7d,"
      | none => []) ++
    (match given followup with
      | some followup => ascii "\"Followup\":\"" ++ followup.bytes ++ ascii "\","
      | none => []) ++
    hostinfo hostname ++
    ascii "\x7d"

end Register

def register (host : CString) (version : UInt16) (nodePub : Key)
    (hostname authKey followup : Option CString) (http2 : Http2Client) :
    Status × RegisterResult × Http2Client :=
  match http2.request (.ofBytes (ascii "POST")) (.ofBytes (ascii "https")) host
      (.ofBytes (ascii "/machine/register")) (some (.ofBytes (ascii "application/json")))
      (Register.body version nodePub hostname authKey followup) with
  | (.ok, some (status, resp), http2) => (.ok, .ofResponse status resp, http2)
  | (status, _, http2) => (status, {}, http2)

end Sotoportego.Tailscale
