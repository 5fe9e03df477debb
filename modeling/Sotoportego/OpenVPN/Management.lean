import Mathlib.Data.List.DropRight
import Sotoportego.Lib.CText
import Sotoportego.Lib.Lines
import Sotoportego.Tailscale.SessionState

/-!
# The management interface of openvpn

`OpenVPNManagement` turns the octets of the management socket into events, and the reader
loop of `OpenVPNBackend` feeds it what each `recv` returns.
-/

set_option autoImplicit false

namespace Sotoportego.OpenVPN

open Octets CText
open Tailscale (VPNState)

inductive OpenVPNEventType where
  | state
  | byteCount
  | passwordRequest
  | authFailed
  | hold
  | log
  | info
  | fatal
  | success
  | error
  | unknown
  deriving DecidableEq

structure OpenVPNEvent where
  type : OpenVPNEventType := .unknown
  raw : Bytes := []
  stateName : Bytes := []
  stateDetail : Bytes := []
  localIP : Bytes := []
  remoteIP : Bytes := []
  mappedState : VPNState := .error
  bytesIn : Nat := 0
  bytesOut : Nat := 0
  realm : Bytes := []
  message : Bytes := []
  deriving DecidableEq

/-! ## String helpers -/

def isBlank (octet : UInt8) : Bool := octet = 32 || octet = 9

def isTrailing (octet : UInt8) : Bool := isBlank octet || octet = 13 || octet = 10

def trim (input : Bytes) : Bytes := (input.dropWhile isBlank).rdropWhile isTrailing

/-- What follows the first occurrence of a delimiter, if there is one. -/
def afterFirst (delimiter : UInt8) (input : Bytes) : Option Bytes :=
  if delimiter ∈ input then some ((input.dropWhile (· ≠ delimiter)).drop 1) else none

/-- The text inside the first pair of single quotes. -/
def extractQuoted (input : Bytes) : Bytes :=
  match afterFirst 39 input with
  | none => []
  | some quoted => if 39 ∈ quoted then quoted.takeWhile (· ≠ 39) else []

/-- `strtoull` in base ten: saturates at the top, a minus sign negates modulo `2 ^ 64`. -/
def strtoull (text : CString) : Nat :=
  let (negative, rest) := sign (text.bytes.dropWhile isSpace)
  let magnitude := decimal (rest.takeWhile isDigit)
  if 2 ^ 64 ≤ magnitude then 2 ^ 64 - 1
  else if negative then (2 ^ 64 - magnitude) % 2 ^ 64
  else magnitude

/-! ## Lines -/

def stateForName (name : Bytes) : VPNState :=
  if name = ascii "CONNECTING" ∨ name = ascii "RESOLVE" ∨ name = ascii "TCP_CONNECT" ∨
      name = ascii "WAIT" then
    .connecting
  else if name = ascii "AUTH" ∨ name = ascii "AUTH_PENDING" ∨ name = ascii "GET_CONFIG" ∨
      name = ascii "ASSIGN_IP" ∨ name = ascii "ADD_ROUTES" then
    .authenticating
  else if name = ascii "CONNECTED" then .connected
  else if name = ascii "RECONNECTING" then .reconnecting
  else if name = ascii "EXITING" then .disconnected
  else .error

/-- A notification, `>tag:payload`. -/
def parseNotification (line tag payload : Bytes) : OpenVPNEvent :=
  if tag = ascii "STATE" then
    let fields := payload.splitOn 44
    { type := .state
      raw := line
      stateName := fields.getD 1 []
      stateDetail := fields.getD 2 []
      localIP := fields.getD 3 []
      remoteIP := fields.getD 4 []
      mappedState := stateForName (fields.getD 1 []) }
  else if tag = ascii "BYTECOUNT" then
    let fields := payload.splitOn 44
    { type := .byteCount
      raw := line
      bytesIn := strtoull (.ofBytes (fields.getD 0 []))
      bytesOut := strtoull (.ofBytes (fields.getD 1 [])) }
  else if tag = ascii "PASSWORD" then
    { type := if (ascii "Verification Failed").isPrefixOf payload then .authFailed
        else .passwordRequest
      raw := line
      realm := extractQuoted payload
      message := payload }
  else if tag = ascii "HOLD" then { type := .hold, raw := line, message := payload }
  else if tag = ascii "LOG" then
    -- Only the first two fields end at a comma: the message has commas of its own.
    { type := .log
      raw := line
      message := ((afterFirst 44 payload).bind (afterFirst 44)).getD payload }
  else if tag = ascii "INFO" then { type := .info, raw := line, message := payload }
  else if tag = ascii "FATAL" then { type := .fatal, raw := line, message := payload }
  else { raw := line }

/-- A command reply. -/
def parseReply (line : Bytes) : OpenVPNEvent :=
  if (ascii "SUCCESS:").isPrefixOf line then
    { type := .success, raw := line, message := trim (line.drop 8) }
  else if (ascii "ERROR:").isPrefixOf line then
    { type := .error, raw := line, message := trim (line.drop 6) }
  else { raw := line }

def parseLine (rawLine : Bytes) : OpenVPNEvent :=
  match trim rawLine with
  | [] => {}
  | 62 :: notification =>
      parseNotification (62 :: notification) (notification.takeWhile (· ≠ 58))
        ((afterFirst 58 notification).getD [])
  | line => parseReply line

/-! ## The reader -/

structure OpenVPNManagement where
  buffer : Bytes := []

/-- The buffer is cut at every newline, and what follows the last one stays. -/
def OpenVPNManagement.feed (management : OpenVPNManagement) (chunk : Bytes) :
    List OpenVPNEvent × OpenVPNManagement :=
  let (lines, rest) := Lines.cut 10 (management.buffer ++ chunk)
  (lines.map parseLine, { buffer := rest })

/-- What `recv` returns: octets, an interruption by a signal, or the end of the stream. -/
inductive Recv where
  | chunk (octets : Bytes)
  | interrupted
  | closed

/-- `_RunReaderLoop`: the events it posts until the stream ends. -/
def OpenVPNManagement.runReaderLoop (management : OpenVPNManagement) :
    List Recv → List OpenVPNEvent × OpenVPNManagement
  | [] => ([], management)
  | .closed :: _ => ([], management)
  | .interrupted :: results => management.runReaderLoop results
  | .chunk octets :: results =>
      -- A `recv` of no octets is the end of the stream.
      if octets = [] then ([], management)
      else
        let (events, fed) := management.feed octets
        let (later, final) := fed.runReaderLoop results
        (events ++ later, final)

/-- The reader loops of one session after another, on the one parser of the backend object. -/
def OpenVPNManagement.runSessions (management : OpenVPNManagement) :
    List (List Recv) → List (List OpenVPNEvent)
  | [] => []
  | results :: sessions =>
      (management.runReaderLoop results).1 ::
        (management.runReaderLoop results).2.runSessions sessions

/-- The octets a reader loop receives. -/
def received : List Recv → Bytes
  | [] => []
  | .closed :: _ => []
  | .interrupted :: results => received results
  | .chunk octets :: results => if octets = [] then [] else octets ++ received results

end Sotoportego.OpenVPN
