import Sotoportego.Server.Base64
import Sotoportego.Tailscale.ControlClient
import Sotoportego.Tailscale.Http2Link
import Sotoportego.Tailscale.Noise

/-!
# A control session

`ControlSession::_Establish`: the key of the control server, the upgrade with the Noise
handshake, and the bootstrap of HTTP/2 on the record stream that the handshake opens.
-/

set_option autoImplicit false

namespace Sotoportego.Tailscale

open Octets Deliveries CText WireGuard
open Server (base64Encode)

/-! ## Messages of the upgrade -/

def kInitiationPayloadLen : Nat := 96

def controlMsgInitiation : UInt8 := 1

def controlPrologue (version : UInt16) : Bytes :=
  ascii "Tailscale Control Protocol v" ++ ascii (toString version.toNat)

/-- `none` is `-1`; the output has room for an initiation. -/
def encodeInitiation (noiseMsg1 : Bytes) (version : UInt16) : Option Bytes :=
  if noiseMsg1.length ≠ kInitiationPayloadLen then none
  else some ([(version >>> 8).toUInt8, (version &&& 0xff).toUInt8, controlMsgInitiation,
    UInt8.ofNat (kInitiationPayloadLen >>> 8), UInt8.ofNat (kInitiationPayloadLen &&& 0xff)] ++
      noiseMsg1)

/-- A position in the document is the document from there on. -/
def parseControlKey (json : CString) : Option Key :=
  let searchFrom := (Register.findFirst (ascii "\"publicKey\"") json.bytes).getD json.bytes
  match Register.findFirst (ascii "mkey:") searchFrom with
  | none => none
  | some key =>
      let key := key.drop (ascii "mkey:").length
      if key.length < 64 then none else fromHex 32 (.ofBytes (key.take 64))

/-! ## A request on a connection of its own -/

/-- What one use of `TlsClient` meets. -/
structure TlsMeeting where
  connect : Status := .ok
  /-- `LastError` after a failed `Connect`. -/
  connectError : Bytes := []
  /-- `Write` takes the request. -/
  takes : Bool := true
  tls : List (Delivery UInt8) := []

/-- The read loop of `HttpsGet`; `BString::Append` stops at a NUL in each chunk. -/
def readToEnd (raw : Bytes) (tls : List (Delivery UInt8)) : Bytes :=
  match _ : read 4096 tls with
  | (.bytes chunk, rest) => readToEnd (raw ++ (CString.ofBytes chunk).bytes) rest
  | (_, _) => raw
termination_by (arriving tls).length
decreasing_by
  have kept := congrArg List.length (read_bytes (by assumption)).1
  have progress := (read_bytes (by assumption)).2.2.2 (by decide)
  rw [List.length_append] at kept
  omega

/-- The status and the body of the response. -/
def httpsGet (meeting : TlsMeeting) : Except Status (Int × CString) :=
  if meeting.connect ≠ .ok then .error meeting.connect
  else if ¬ meeting.takes then .error .ioError
  else
    let raw := readToEnd [] meeting.tls
    if raw.length = 0 then .error .ioError
    else
      let status := match Register.findFirst [32] raw with
        | some found => atoi (.ofBytes (found.drop 1))
        | none => 0
      let body := match Register.findFirst [13, 10, 13, 10] raw with
        | some found => found.drop 4
        | none => raw
      .ok (status, .ofBytes body)

/-! ## The handshake -/

def upgradeRequest (host : CString) (initB64 : Bytes) : Bytes :=
  ascii "POST /ts2021 HTTP/1.1\r\nHost: " ++ host.bytes ++
    ascii "\r\nUpgrade: tailscale-control-protocol\r\nConnection: upgrade\r\n" ++
    ascii "X-Tailscale-Handshake: " ++ initB64 ++
    ascii "\r\nUser-Agent: Sotoportego/0.1\r\nContent-Length: 0\r\n\r\n"

/-- What the calls of `Handshake` meet. -/
structure Reception where
  key : TlsMeeting := {}
  upgrade : TlsMeeting := {}
  /-- What `DhGenerate` gives. -/
  ephemeral : Option (Key × Key) := none
  strerror : Status → Bytes := fun _ => []

namespace ControlClient

def fetchControlKey (reception : Reception) (client : ControlClient) :
    Except Status Key × ControlClient :=
  match httpsGet reception.key with
  | .error status =>
      (.error status,
        { client with
          lastError := ascii "control /key fetch failed: " ++ reception.strerror status })
  | .ok (status, body) =>
      if status ≠ 200 then
        (.error .error,
          { client with lastError := ascii ("control /key returned HTTP " ++ toString status) })
      else
        match parseControlKey body with
        | none =>
            (.error .error,
              { client with lastError := ascii "could not parse control key from /key response" })
        | some key => (.ok key, client)

/-- `Handshake` from its first step on, with what it writes to the upgraded connection. -/
def wholeHandshake (crypto : Crypto) (host : CString) (machinePriv machinePub : Key)
    (version : UInt16) (reception : Reception) (client : ControlClient) :
    Except Status NoiseTransportKeys × ControlClient × Bytes :=
  match client.fetchControlKey reception with
  | (.error status, client) => (.error status, client, [])
  | (.ok controlKey, client) =>
      let noise : NoiseIK := NoiseIK.initInitiator crypto machinePriv machinePub controlKey
        (controlPrologue version) {}
      match noise.writeMessage1 crypto reception.ephemeral [] 128 with
      | none =>
          (.error .error, { client with lastError := ascii "failed to build Noise initiation" }, [])
      | some (msg1, noise) =>
          if msg1.length ≠ kInitiationPayloadLen then
            (.error .error,
              { client with lastError := ascii "failed to build Noise initiation" }, [])
          else
            match encodeInitiation msg1 version with
            | none =>
                (.error .error, { client with lastError := ascii "failed to frame initiation" }, [])
            | some initFrame =>
                if reception.upgrade.connect ≠ .ok then
                  (.error reception.upgrade.connect,
                    { client with
                      lastError := ascii "TLS connect for /ts2021 failed: " ++
                        reception.upgrade.connectError },
                    [])
                else if ¬ reception.upgrade.takes then
                  (.error .ioError,
                    { client with lastError := ascii "failed to send upgrade request" }, [])
                else
                  let client := { client with tls := reception.upgrade.tls }
                  let (result, client) := client.handshake fun msg2 =>
                    (noise.readMessage2 crypto msg2 64).map fun (_, noise) => noise.split crypto
                  (result, client, upgradeRequest host (base64Encode initFrame))

end ControlClient

/-! ## The bootstrap of HTTP/2 -/

/-- `kH2Preface`. -/
def kH2Preface : Bytes := ascii "PRI * HTTP/2.0\r\n\r\nSM\r\n\r\n"

def kEarlyMagic : Bytes := [0xff, 0xff, 0xff] ++ ascii "TS"

namespace Http2Link

/-- The SETTINGS exchange of `Bootstrap`. -/
def exchangeSettings (crypto : Crypto) : Nat → Bool → Bool → Http2Link → Status × Http2Link
  | rounds, ours, theirs, link =>
      if ours && theirs then (.ok, link)
      else
        match rounds with
        | 0 => (.error, link.fail "HTTP/2 SETTINGS handshake did not complete")
        | rounds + 1 =>
            match link.readFrame crypto with
            | (.error status, link) => (status, link)
            | (.ok frame, link) =>
                if frame.type = h2Settings then
                  if frame.has h2FlagAck then exchangeSettings crypto rounds true theirs link
                  else
                    match link.writeFrame crypto h2Settings h2FlagAck 0 [] with
                    | (.ok, link) => exchangeSettings crypto rounds ours true link
                    | (status, link) => (status, link)
                else if frame.type = h2GoAway then
                  (.error, link.fail "server sent GOAWAY during HTTP/2 handshake")
                else exchangeSettings crypto rounds ours theirs link

/-- The text is `*outEarlyJson`, once it is set. -/
def bootstrap (crypto : Crypto) (link : Http2Link) : Status × Option CString × Http2Link :=
  match link.readRaw crypto 5 with
  | (.ok, magic, link) =>
      if magic ≠ kEarlyMagic then (.error, none, link.fail "missing early-payload magic")
      else
        match link.readRaw crypto 4 with
        | (.ok, lenBuf, link) =>
            let jsonLen := (octetAt lenBuf 0).toNat <<< 24 ||| (octetAt lenBuf 1).toNat <<< 16 |||
              (octetAt lenBuf 2).toNat <<< 8 ||| (octetAt lenBuf 3).toNat
            if 8192 < jsonLen then (.error, none, link.fail "early-payload JSON too large")
            else
              match link.readRaw crypto jsonLen with
              | (.ok, json, link) =>
                  let early := some (.ofBytes json)
                  match link.writeMessage crypto kH2Preface with
                  | (.ok, link) =>
                      match link.writeFrame crypto h2Settings 0 0 [] with
                      | (.ok, link) =>
                          let (status, link) := link.exchangeSettings crypto 32 false false
                          (status, early, link)
                      | (status, link) => (status, early, link)
                  | (status, link) => (status, early, link.fail "failed to send HTTP/2 preface")
              | (status, _, link) => (status, none, link)
        | (status, _, link) => (status, none, link)
  | (status, _, link) => (status, none, link)

end Http2Link

/-! ## The session -/

/-- What `SetParams` stores and `_Establish` uses. -/
structure ControlParams where
  host : CString
  version : UInt16
  machinePriv : Key
  machinePub : Key

structure ControlSession where
  params : Option ControlParams := none
  /-- `fHttp2` as its last `Init` and the calls after it leave it. -/
  http2 : Option Http2Session := none
  earlyJson : CString := .empty
  lastError : Bytes := []

namespace ControlSession

def setParams (params : ControlParams) (session : ControlSession) : ControlSession :=
  { session with params := some params }

/-- `_Establish`, with what it writes before the record stream. -/
def establish (crypto : Crypto) (reception : Reception) (session : ControlSession) :
    Status × Bytes × ControlSession :=
  match session.params with
  | none => (.noInit, [], { session with lastError := ascii "control session not configured" })
  | some params =>
      match ControlClient.wholeHandshake crypto params.host params.machinePriv params.machinePub
          params.version reception { tls := [] } with
      | (.error status, client, request) =>
          (status, request,
            { session with lastError := ascii "control handshake failed: " ++ client.lastError })
      | (.ok keys, client, request) =>
          let http2 := Http2Session.init (.init client.tls keys client.pending) session.http2
          let (status, early, link) := http2.link.bootstrap crypto
          let session := { session with
            http2 := some { http2 with link }, earlyJson := early.getD session.earlyJson }
          if status = .ok then (.ok, request, session)
          else
            (status, request,
              { session with
                lastError :=
                  ascii "HTTP/2 bootstrap failed: " ++ ascii link.http2.lastError })

/-- `Register` on the connection that `_Establish` has opened; `what` is the text of an error. -/
def registerOn (crypto : Crypto) (what : String) (host : CString) (version : UInt16)
    (nodePub : Key) (hostname authKey followup : Option CString) (session : ControlSession) :
    Status × RegisterResult × ControlSession :=
  match session.http2 with
  | none => (.noInit, {}, session)
  | some http2 =>
      let (status, result, http2) :=
        http2.register crypto host version nodePub hostname authKey followup
      let session := { session with http2 := some http2 }
      if status = .ok then (.ok, result, session)
      else
        (status, result,
          { session with lastError := ascii what ++ ascii http2.link.http2.lastError })

/-- An error of `_Establish` leaves the result alone. -/
def connect (crypto : Crypto) (params : ControlParams) (nodePub : Key)
    (hostname authKey : Option CString) (reception : Reception) (session : ControlSession) :
    Status × Option RegisterResult × Bytes × ControlSession :=
  match (session.setParams params).establish crypto reception with
  | (.ok, request, session) =>
      let (status, result, session) := session.registerOn crypto "register failed: " params.host
        params.version nodePub hostname authKey none
      (status, some result, request, session)
  | (status, request, session) => (status, none, request, session)

/-- Each poll rides a fresh connection. -/
def pollAuthorized (crypto : Crypto) (host : CString) (version : UInt16) (nodePub : Key)
    (hostname authURL : Option CString) (reception : Reception) (session : ControlSession) :
    Status × Option RegisterResult × Bytes × ControlSession :=
  match session.establish crypto reception with
  | (.ok, request, session) =>
      let (status, result, session) := session.registerOn crypto "followup register failed: " host
        version nodePub hostname none authURL
      (status, some result, request, session)
  | (status, request, session) => (status, none, request, session)

end ControlSession

end Sotoportego.Tailscale
