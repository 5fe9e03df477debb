import Mathlib.Logic.Function.Basic
import Sotoportego.Lib.Lines
import Sotoportego.Server.ProfileStore
import Sotoportego.Tailscale.Identity

/-!
# Subscribers and imported configurations

The handlers of `SotoportegoServer` for its subscribers and for the profiles. A saved profile
gets its own copy of the configuration file it names, which goes with the last profile that
refers to it. Places are where the kernel's walk of a path ends; links are left out.
-/

set_option autoImplicit false

namespace Sotoportego.Server

open Octets CText
open Tailscale (toHex)
open Tailscale.Identity (isPlain)

/-! ## Paths and names -/

/-- The components that lead to a file from the root. -/
abbrev Place := List Bytes

/-- The regular files. -/
abbrev Files := Place → Option Bytes

def walk (place : Place) (component : Bytes) : Place :=
  if component = [] ∨ component = [46] then place
  else if component = [46, 46] then place.dropLast
  else place ++ [component]

def resolve (cwd : Place) (path : CString) : Place :=
  (Lines.pieces 47 path.bytes).foldl walk (if path.bytes.head? = some 47 then [] else cwd)

def sanitizeFilename (name : CString) (fallback : Bytes) : Bytes :=
  let safe := name.bytes.map fun octet => if isPlain octet then octet else 95
  if safe = [] then fallback else safe

def hashOctet (hash : UInt32) (octet : UInt8) : UInt32 := (hash ^^^ octet.toUInt32) * 16777619

def nameHash (name : CString) : UInt32 := name.bytes.foldl hashOctet 2166136261

/-- `%08x`. -/
def hex8 (value : UInt32) : Bytes :=
  (toHex [(value >>> 24).toUInt8, (value >>> 16).toUInt8, (value >>> 8).toUInt8,
    value.toUInt8]).bytes

def stagedName (name : CString) : Bytes :=
  sanitizeFilename name (ascii "profile") ++ ascii "-" ++ hex8 (nameHash name) ++ ascii ".ovpn"

/-- The path of the copy, in the directory of `imported_config_dir`. -/
def stagedPath (dir : CString) (name : CString) : CString :=
  .ofBytes (dir.bytes ++ 47 :: stagedName name)

def inStore (dir path : CString) : Bool := (dir.bytes ++ [47]).isPrefixOf path.bytes

/-! ## Messages -/

inductive Notice where
  | listProfiles (profiles : List Archive)
  | update (message : Archive)
  deriving DecidableEq

def ProfileStore.archiveAll (store : ProfileStore) : List Archive :=
  store.profiles.map VPNProfile.archive

/-- What comes of the copying: a source or a copy that cannot be opened, a read or a write that
fails on the way, or the end of the source. -/
inductive Copying where
  | unreadable
  | unwritable
  | broken
  | whole
  deriving DecidableEq

/-- How the system answers `_StageImportedConfig`. -/
structure Staging where
  located : Bool := true
  directory : Bool := true
  copying : Copying := .whole

/-- How the system answers `_RemoveStagedConfig`. -/
structure Removal where
  located : Bool := true
  removes : Bool := true

inductive RegistryEvent (Client : Type) where
  | subscribe (client : Option Client)
  | unsubscribe (client : Option Client)
  | getStatus (client : Option Client) (status : Archive)
  | saveProfile (archive : Option Archive) (staging : Staging) (failure : Option DiskFailure)
  | deleteProfile (name : Option CString) (removal : Removal) (failure : Option DiskFailure)
  /-- A status, statistics or countdown update. -/
  | broadcast (message : Archive)
  | died (client : Client)
  /-- Somebody else writes or removes a file. -/
  | edited (place : Place) (content : Option Bytes)
  /-- The server ends, and another one starts. -/
  | restarted (failure : Option Fault)

/-! ## The registry -/

/-- `sent` is everything that reached a client; nothing reads it. -/
structure Registry (Client : Type) where
  dir : CString
  cwd : Place
  host : StoreHost := {}
  files : Files
  clients : List Client := []
  gone : List Client := []
  sent : List (Client × Notice) := []

/-- The loop of `_Broadcast`: the clients that stay, and what they got. -/
def fanOut {Client : Type} [DecidableEq Client] (gone : List Client) (notice : Notice) :
    List Client → List Client × List (Client × Notice)
  | [] => ([], [])
  | client :: rest =>
      let (kept, sent) := fanOut gone notice rest
      if client ∈ gone then (kept, sent) else (client :: kept, (client, notice) :: sent)

namespace Registry

variable {Client : Type} [DecidableEq Client] (registry : Registry Client)

/-- `SendMessage`, which a dead target refuses. -/
def sendMessage (client : Client) (notice : Notice) : Registry Client :=
  if client ∈ registry.gone then registry
  else { registry with sent := registry.sent ++ [(client, notice)] }

def broadcast (notice : Notice) : Registry Client :=
  let (clients, sent) := fanOut registry.gone notice registry.clients
  { registry with clients, sent := registry.sent ++ sent }

def sendProfileList (client : Client) : Registry Client :=
  registry.sendMessage client (.listProfiles registry.host.store.archiveAll)

def broadcastProfileList : Registry Client :=
  registry.broadcast (.listProfiles registry.host.store.archiveAll)

def handleSubscribe (client : Option Client) : Registry Client :=
  match client with
  | none => registry
  | some client =>
      if client ∈ registry.clients then registry
      else { registry with clients := registry.clients ++ [client] }.sendProfileList client

def handleUnsubscribe (client : Option Client) : Registry Client :=
  match client with
  | none => registry
  | some client => { registry with clients := registry.clients.erase client }

def handleGetStatus (client : Option Client) (status : Archive) : Registry Client :=
  match client with
  | none => registry
  | some client => registry.sendMessage client (.update status)

def stageImportedConfig (staging : Staging) (profile : VPNProfile) : VPNProfile × Files :=
  if profile.configPath = .empty then (profile, registry.files)
  else if ¬ staging.located then (profile, registry.files)
  else if inStore registry.dir profile.configPath then (profile, registry.files)
  else if ¬ staging.directory then (profile, registry.files)
  else
    let staged := stagedPath registry.dir profile.name
    let dest := resolve registry.cwd staged
    let source := resolve registry.cwd profile.configPath
    match staging.copying with
    | .unreadable => (profile, registry.files)
    | .unwritable => (profile, registry.files)
    | .broken => (profile, Function.update registry.files dest none)
    | .whole =>
        if registry.files source = none then (profile, registry.files)
        else
          -- `B_ERASE_FILE` comes before the first read, also where the source is the copy.
          let opened := Function.update registry.files dest (some [])
          ({ profile with configPath := staged }, Function.update opened dest (opened source))

def handleSaveProfile (archive : Option Archive) (staging : Staging)
    (failure : Option DiskFailure) : Registry Client :=
  match archive with
  | none => registry
  | some archive =>
      let (profile, files) := registry.stageImportedConfig staging (VPNProfile.unarchive {} archive)
      match registry.host.call (.save profile failure) with
      | (.error _, host) => { registry with host, files }
      | (.ok (), host) => { registry with host, files }.broadcastProfileList

def removeStagedConfig (removal : Removal) (path : CString) : Files :=
  if path = .empty then registry.files
  else if ¬ removal.located then registry.files
  else if ¬ inStore registry.dir path then registry.files
  else if registry.host.store.profiles.any (·.configPath = path) then registry.files
  else if removal.removes then Function.update registry.files (resolve registry.cwd path) none
  else registry.files

/-- The `configPath` that the profile to be deleted has. -/
def configPathOf (name : CString) : CString :=
  ((registry.host.store.profiles.find? (·.name = name)).map VPNProfile.configPath).getD .empty

def handleDeleteProfile (name : Option CString) (removal : Removal)
    (failure : Option DiskFailure) : Registry Client :=
  match name with
  | none => registry
  | some name =>
      match registry.host.call (.delete (some name) failure) with
      | (.error _, host) => { registry with host }
      | (.ok (), host) =>
          let deleted := { registry with host }
          { deleted with files := deleted.removeStagedConfig removal (registry.configPathOf name)
            }.broadcastProfileList

/-- The constructor of the server loads the profiles, into an empty store. -/
def restart (failure : Option Fault) : Registry Client :=
  { registry with
    host := ({ registry.host with store := {} } : StoreHost).step (.load failure)
    clients := [] }

def step : RegistryEvent Client → Registry Client
  | .subscribe client => registry.handleSubscribe client
  | .unsubscribe client => registry.handleUnsubscribe client
  | .getStatus client status => registry.handleGetStatus client status
  | .saveProfile archive staging failure => registry.handleSaveProfile archive staging failure
  | .deleteProfile name removal failure => registry.handleDeleteProfile name removal failure
  | .broadcast message => registry.broadcast (.update message)
  | .died client => { registry with gone := client :: registry.gone }
  | .edited place content => { registry with files := Function.update registry.files place content }
  | .restarted failure => registry.restart failure

end Registry

end Sotoportego.Server
