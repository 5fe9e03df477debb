import Sotoportego.Server.Profile
import Sotoportego.Tailscale.Routes

/-!
# The identity of a node

`TSConfig`, with the directory of a profile under the settings, and `TSIdentity`, whose private
keys are kept in the system's keystore. A directory is named by its one path component.
-/

set_option autoImplicit false

namespace Sotoportego.Tailscale.Identity

open Octets CText
open Server (Fault)
open WireGuard (Crypto Key KeyPair)

/-! ## Configuration -/

def kDefaultControlURL : CString := text "https://controlplane.tailscale.com"

def isAlnum (octet : UInt8) : Bool :=
  isDigit octet || (65 ≤ octet && octet ≤ 90) || (97 ≤ octet && octet ≤ 122)

/-- An octet that a path component may have as it is. -/
def isPlain (octet : UInt8) : Bool :=
  isAlnum octet || octet = 46 || octet = 95 || octet = 45

def sanitizeComponent (name : CString) : Bytes :=
  let out := (name.bytes.map fun octet => if isPlain octet then octet else 95).dropWhile (· = 46)
  if out = [] then [95] else out

structure TSConfig where
  controlURL : CString := kDefaultControlURL
  authKey : CString := .empty
  profileName : CString := .empty
  deriving DecidableEq

/-- The `config` file of a directory: a message that may have a URL, or anything else. -/
inductive ConfigFile where
  | message (controlURL : Option CString)
  | broken
  deriving DecidableEq

/-- The directories that have a `config`. -/
abbrev ConfigDisk := List (Bytes × ConfigFile)

/-- What can fail in `Save`: the directory, the file beside it, the writing, the renaming. -/
inductive SaveStep where
  | directory
  | openTemp
  | flatten
  | rename
  deriving DecidableEq

namespace TSConfig

/-- One trailing slash goes. -/
def normalized (url : CString) : CString :=
  if url = .empty then kDefaultControlURL
  else if url.bytes.getLast? = some 47 then .ofBytes url.bytes.dropLast else url

def setControlURL (url : Option CString) (config : TSConfig) : TSConfig :=
  { config with controlURL := normalized (url.getD .empty) }

/-- `failure` is what keeps the directory from being found or the file from being opened. -/
def load (profileName : Option CString) (failure : Option Fault) (disk : ConfigDisk)
    (config : TSConfig) : Server.Status × TSConfig :=
  match profileName with
  | none => (.error .badValue, config)
  | some profileName =>
      if profileName = .empty then (.error .badValue, config)
      else
        let fresh : TSConfig := { profileName }
        match failure, disk.lookup (sanitizeComponent profileName) with
        | some fault, _ => (.error fault, fresh)
        | none, none => (.ok (), fresh)
        | none, some .broken => (.error .badData, fresh)
        | none, some (.message none) => (.ok (), fresh)
        | none, some (.message (some url)) => (.ok (), fresh.setControlURL (some url))

/-- The file is replaced as a whole or not at all. -/
def save (failure : Option (SaveStep × Fault)) (disk : ConfigDisk) (config : TSConfig) :
    Server.Status × ConfigDisk :=
  if config.profileName = .empty then (.error .badValue, disk)
  else
    match failure with
    | some (_, fault) => (.error fault, disk)
    | none =>
        (.ok (), (sanitizeComponent config.profileName, .message (some config.controlURL)) :: disk)

end TSConfig

/-- A configuration at work on the disk. -/
structure ConfigHost where
  config : TSConfig := {}
  disk : ConfigDisk := []
  /-- Every URL that was saved, with the directory it went to; nothing reads it. -/
  saves : List (Bytes × CString) := []

inductive ConfigCall where
  | setControlURL (url : Option CString)
  | load (profileName : Option CString) (failure : Option Fault)
  | save (failure : Option (SaveStep × Fault))

def ConfigHost.step (host : ConfigHost) : ConfigCall → ConfigHost
  | .setControlURL url => { host with config := host.config.setControlURL url }
  | .load profileName failure =>
      { host with config := (host.config.load profileName failure host.disk).2 }
  | .save failure =>
      match host.config.save failure host.disk with
      | (.ok (), disk) =>
          { host with
            disk
            saves := host.saves ++
              [(sanitizeComponent host.config.profileName, host.config.controlURL)] }
      | (.error _, disk) => { host with disk }

/-! ## Keys -/

inductive KeyRole where
  | machine
  | node
  | disco
  deriving DecidableEq

def KeyRole.name : KeyRole → Bytes
  | .machine => ascii "machine"
  | .node => ascii "node"
  | .disco => ascii "disco"

structure Key25519 where
  priv : Key
  pub : Key
  deriving DecidableEq

/-- An identity that `LoadOrCreate` has made valid. -/
structure TSIdentity where
  profileName : CString
  machine : Key25519
  node : Key25519
  disco : Key25519
  deriving DecidableEq

/-- The texts of the `identity` file. -/
structure PublicFile where
  machinePub : CString
  nodePub : CString
  discoPub : CString
  deriving DecidableEq

/-- An `identity` file. It is erased before it is written, so a write that fails leaves it torn. -/
inductive IdentityFile where
  | message (file : PublicFile)
  | torn
  deriving DecidableEq

structure IdentityHost where
  /-- Identifiers and passwords. -/
  keystore : List (Bytes × CString) := []
  /-- The `identity` files, the newest first, by their directory. -/
  publicFiles : List (Bytes × IdentityFile) := []

/-- What becomes of the `identity` file: its directory or itself is not opened, or `Flatten`
fails on the way. -/
inductive Writing where
  | unopened
  | cut
  | whole
  deriving DecidableEq

/-- How the system answers for one role. -/
structure KeyAnswer (crypto : Crypto) where
  /-- The keystore may be read. -/
  granted : Bool := true
  /-- What `DhGenerate` yields. -/
  generated : Option (KeyPair crypto) := none
  /-- What keeps `AddKey` from storing a new key. -/
  refused : Option Fault := none

def keystoreId (profileName : CString) (role : KeyRole) : Bytes :=
  ascii "sotoportego.tailscale." ++ profileName.bytes ++ ascii "." ++ role.name

/-- `B_NAME_IN_USE`. -/
def nameInUse : Fault := .other (-2147483640)

namespace TSIdentity

/-- A key that is stored is never replaced; the boolean is `outCreated`. -/
def loadOrCreateRole (crypto : Crypto) (keystore : List (Bytes × CString)) (id : Bytes)
    (answer : KeyAnswer crypto) : Except Fault (Key25519 × Bool) × List (Bytes × CString) :=
  match if answer.granted then keystore.lookup id else none with
  | some password =>
      match fromHex 32 password with
      | none => (.error .badData, keystore)
      | some priv =>
          match crypto.dhPublic priv with
          | none => (.error .general, keystore)
          | some pub => (.ok (⟨priv, pub⟩, false), keystore)
  | none =>
      match answer.generated with
      | none => (.error .general, keystore)
      | some pair =>
          match answer.refused with
          | some fault => (.error fault, keystore)
          | none =>
              if (keystore.lookup id).isSome then (.error nameInUse, keystore)
              else
                (.ok (⟨pair.priv, pair.pub⟩, true), keystore ++ [(id, toHex pair.priv.bytes)])

def publicFile (identity : TSIdentity) : PublicFile where
  machinePub := toHex identity.machine.pub.bytes
  nodePub := toHex identity.node.pub.bytes
  discoPub := toHex identity.disco.pub.bytes

def writePublicFile (identity : TSIdentity) (writing : Writing)
    (publicFiles : List (Bytes × IdentityFile)) : List (Bytes × IdentityFile) :=
  let dir := sanitizeComponent identity.profileName
  match writing with
  | .unopened => publicFiles
  | .cut => (dir, .torn) :: publicFiles
  | .whole => (dir, .message identity.publicFile) :: publicFiles

/-- Keys that were created before a later role fails stay. The boolean is `*outCreatedAny`. -/
def loadOrCreate (crypto : Crypto) (profileName : Option CString)
    (answers : KeyRole → KeyAnswer crypto) (writing : Writing) (host : IdentityHost) :
    Except Fault (TSIdentity × Bool) × IdentityHost :=
  match profileName with
  | none => (.error .badValue, host)
  | some profileName =>
      if profileName = .empty then (.error .badValue, host)
      else
        match loadOrCreateRole crypto host.keystore (keystoreId profileName .machine)
            (answers .machine) with
        | (.error fault, keystore) => (.error fault, { host with keystore })
        | (.ok (machine, newMachine), keystore) =>
            match loadOrCreateRole crypto keystore (keystoreId profileName .node)
                (answers .node) with
            | (.error fault, keystore) => (.error fault, { host with keystore })
            | (.ok (node, newNode), keystore) =>
                match loadOrCreateRole crypto keystore (keystoreId profileName .disco)
                    (answers .disco) with
                | (.error fault, keystore) => (.error fault, { host with keystore })
                | (.ok (disco, newDisco), keystore) =>
                    let identity : TSIdentity := { profileName, machine, node, disco }
                    let any := newMachine || newNode || newDisco
                    (.ok (identity, any),
                      { keystore
                        publicFiles :=
                          if any then identity.writePublicFile writing host.publicFiles
                          else host.publicFiles })

end TSIdentity

/-- A keystore in use, and the identities that were established with it. -/
structure Enrolled where
  host : IdentityHost := {}
  /-- What the calls that succeeded returned; nothing reads it. -/
  established : List (TSIdentity × Bool) := []

structure IdentityCall (crypto : Crypto) where
  profileName : Option CString
  answers : KeyRole → KeyAnswer crypto
  writing : Writing := .whole

def Enrolled.step {crypto : Crypto} (enrolled : Enrolled) (call : IdentityCall crypto) : Enrolled :=
  match TSIdentity.loadOrCreate crypto call.profileName call.answers call.writing enrolled.host with
  | (.ok result, host) => { host, established := enrolled.established ++ [result] }
  | (.error _, host) => { enrolled with host }

end Sotoportego.Tailscale.Identity
