import Mathlib.Data.List.DropRight
import Sotoportego.Server.Base64
import Sotoportego.Server.Catalogue
import Sotoportego.Server.Registry

/-!
# The fetch of the VPN Gate catalogue

`http_get`, the CSV reader of `VPNGateFetcher` and `_WriteVPNGateConfig`, which decodes the
configuration of the server that a client picks. Where a country lies is a parameter.
-/

set_option autoImplicit false

namespace Sotoportego.Server

open Octets CText

/-! ## The download -/

/-- What `recv` brings; the peer has closed after the last one. -/
inductive GateReceived where
  | data (bytes : Bytes)
  | interrupted
  | timedOut
  | failed
  deriving DecidableEq

/-- How the request got out. -/
inductive Sending where
  | noAddress
  | noSocket
  | noConnection
  | noSend
  | sent
  deriving DecidableEq

/-- What is behind the first empty line. -/
def behindHeaders : Bytes → Option Bytes
  | 13 :: 10 :: 13 :: 10 :: body => some body
  | _ :: rest => behindHeaders rest
  | [] => none

/-- The loop over `recv`. `Append` stops at a NUL. -/
def receiveAll (response : Bytes) : List GateReceived → Except Bytes Bytes
  | [] =>
      match behindHeaders response with
      | none => .error (ascii "Malformed HTTP response")
      | some body => .ok body
  | .data bytes :: rest => receiveAll (response ++ (CString.ofBytes bytes).bytes) rest
  | .interrupted :: rest => receiveAll response rest
  | .timedOut :: _ => .error (ascii "Timed out reading response from vpngate.net")
  | .failed :: _ => .error (ascii "Read error while fetching from vpngate.net")

def httpGet (sending : Sending) (received : List GateReceived) : Except Bytes Bytes :=
  match sending with
  | .noAddress => .error (ascii "DNS lookup failed for www.vpngate.net")
  | .noSocket => .error (ascii "Could not create socket")
  | .noConnection => .error (ascii "Connect to vpngate.net failed")
  | .noSend => .error (ascii "Send failed")
  | .sent => receiveAll [] received

/-! ## Lines and fields -/

def splitCsvLine (line : Bytes) : List Bytes := Lines.pieces 44 line

def isTrailing (octet : UInt8) : Bool := octet = 13 || octet = 32 || octet = 9

def trimmed (line : Bytes) : Bytes := line.rdropWhile isTrailing

/-- Neither empty nor one of the pseudo-lines. -/
def isRow (line : Bytes) : Bool :=
  line ≠ [] && line.head? ≠ some 42 && line.head? ≠ some 35

/-- The lines that `for_each_csv_line` visits. -/
def csvLines (body : Bytes) : List Bytes :=
  ((Lines.pieces 10 body).map trimmed).filter isRow

def fieldOrEmpty (fields : List Bytes) (index : Nat) : Bytes := fields.getD index []

/-- `(int32)strtol`. -/
def number (field : Bytes) : Int32 := .ofInt (strtol (.ofBytes field))

/-- Bits a second in megabits. -/
def megabits (field : Bytes) : Int32 := .ofInt ((strtol (.ofBytes field)).tdiv 1000000)

/-- The message about one server. `Position` is a latitude and a longitude. -/
structure VPNGateEntry (Position : Type) where
  host : Bytes
  ip : Option Bytes
  countryShort : Bytes
  countryLong : Bytes
  score : Int32
  ping : Int32
  speedMbps : Int32
  sessions : Int32
  logPolicy : Bytes
  position : Position
  configBase64 : Bytes
  deriving DecidableEq

section Rows

variable {Position : Type} (lookup : Bytes → Option Position)

def entryAt (fields : List Bytes) (position : Position) : VPNGateEntry Position where
  host := fieldOrEmpty fields 0
  ip := if fieldOrEmpty fields 1 = [] then none else some (fieldOrEmpty fields 1)
  countryShort := fieldOrEmpty fields 6
  countryLong := fieldOrEmpty fields 5
  score := number (fieldOrEmpty fields 2)
  ping := number (fieldOrEmpty fields 3)
  speedMbps := megabits (fieldOrEmpty fields 4)
  sessions := number (fieldOrEmpty fields 7)
  logPolicy := fieldOrEmpty fields 11
  position
  configBase64 := fieldOrEmpty fields 14

/-- A server that cannot be placed is left out. -/
def entryOf (fields : List Bytes) : Option (VPNGateEntry Position) :=
  if fields.length < 15 then none
  else if fieldOrEmpty fields 0 = [] ∨ fieldOrEmpty fields 14 = [] then none
  else (lookup (fieldOrEmpty fields 6)).map (entryAt fields)

/-- The rows visited so far: whether a header was skipped, and the servers. -/
structure Visits (Position : Type) where
  skippedHeader : Bool := false
  servers : List (VPNGateEntry Position) := []

def Visits.visit (visits : Visits Position) (line : Bytes) : Visits Position :=
  let fields := splitCsvLine line
  if visits.skippedHeader = false ∧ fields.head? = some (ascii "HostName") then
    { visits with skippedHeader := true }
  else { visits with servers := visits.servers ++ (entryOf lookup fields).toList }

def gateServers (body : Bytes) : List (VPNGateEntry Position) :=
  ((csvLines body).foldl (Visits.visit lookup) {}).servers

/-- `fetch_thread` with what it downloads. -/
def fetchVPNGate (sending : Sending) (received : List GateReceived) :
    VPNGateList (VPNGateEntry Position) :=
  match httpGet sending received with
  | .error error => fetchThread { ok := false, error }
  | .ok body =>
      fetchThread { ok := true, bodyEmpty := body.isEmpty, servers := gateServers lookup body }

end Rows

/-! ## The configuration of a server -/

/-- What becomes of the file that the configuration is written to. -/
inductive Writing where
  | unopened
  | cut (length : Nat)
  | whole
  deriving DecidableEq

/-- The path of the file, empty where there is none. -/
def writeVPNGateConfig (cacheDir : Option CString) (cwd : Place) (writing : Writing)
    (host base64Body : CString) (files : Files) : CString × Files :=
  match cacheDir with
  | none => (.empty, files)
  | some dir =>
      let out : CString := .ofBytes
        (dir.bytes ++ 47 :: sanitizeFilename host (ascii "server") ++ ascii ".ovpn")
      match decodeBase64 base64Body with
      | none => (.empty, files)
      | some decoded =>
          if decoded = [] then (.empty, files)
          else
            match writing with
            | .unopened => (.empty, files)
            | .cut length =>
                (.empty, Function.update files (resolve cwd out) (some (decoded.take length)))
            | .whole => (out, Function.update files (resolve cwd out) (some decoded))

end Sotoportego.Server
