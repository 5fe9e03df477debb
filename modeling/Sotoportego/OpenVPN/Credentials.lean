import Sotoportego.OpenVPN.Management

/-!
# Commands to openvpn

The reader loop of `OpenVPNBackend` answers a password request with the credentials it
holds, and a hold with its release. A command goes out as one line, in as many sends as the
socket needs.
-/

set_option autoImplicit false

namespace Sotoportego.OpenVPN

open Octets CText

/-- One octet inside a quoted argument. A line end in it would end the command. -/
def escapeOctet (octet : UInt8) : Bytes :=
  if octet = 92 ∨ octet = 34 then [92, octet]
  else if octet = 10 then [92, 110]
  else if octet = 13 then [92, 114]
  else [octet]

def escapeArg (value : CString) : Bytes := value.bytes.flatMap escapeOctet

/-- `verb "realm" "credential"`. The realm goes in as `parseLine` delivers it. -/
def credentialCommand (verb realm : Bytes) (credential : CString) : Bytes :=
  verb ++ ascii " \"" ++ realm ++ ascii "\" \"" ++ escapeArg credential ++ ascii "\""

/-- What `_RunReaderLoop` sends for one event. `c_str` ends a command at its first NUL. -/
def answer (event : OpenVPNEvent) (user pass : CString) : List CString :=
  match event.type with
  | .passwordRequest =>
      if user.bytes = [] then []
      else [.ofBytes (credentialCommand (ascii "username") event.realm user),
        .ofBytes (credentialCommand (ascii "password") event.realm pass)]
  | .hold => [.ofBytes (ascii "hold release")]
  | _ => []

/-! ## Sending -/

/-- What one `send` returns: an octet count, an interruption by a signal, or an error. -/
inductive Send where
  | wrote (count : Nat)
  | interrupted
  | failed

/-- The octets that go out of a framed line: a partial send is resumed where it stopped. -/
def transmit : Bytes → List Send → Bytes
  | [], _ => []
  | _, [] => []
  | data, .interrupted :: sends => transmit data sends
  | _, .failed :: _ => []
  | data, .wrote count :: sends =>
      if count = 0 then [] else data.take count ++ transmit (data.drop count) sends

def frame (line : CString) : Bytes := line.bytes ++ [10]

def sendCommand (connected : Bool) (line : CString) (sends : List Send) : Bytes :=
  if connected then transmit (frame line) sends else []

end Sotoportego.OpenVPN
