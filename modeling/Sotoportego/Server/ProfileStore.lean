import Sotoportego.Lib.Table
import Sotoportego.Server.Profile

/-!
# The profile store

`ProfileStore` keeps the list in memory and writes all of it to disk after each change: into
a file beside the stored one, which then takes the stored one's place.
-/

set_option autoImplicit false

namespace Sotoportego.Server

open CText

/-- A file with a flattened message of archives, or with anything else. -/
inductive Content where
  | flattened (archives : List Archive)
  | broken
  deriving DecidableEq

/-- The stored file, and the one beside it. -/
structure Disk where
  profiles : Option Content := none
  temp : Option Content := none
  deriving DecidableEq

/-- The steps of `_WriteToDisk` that can fail. -/
inductive DiskStep where
  | settingsPath
  | archive
  | openTemp
  | flatten
  | rename
  deriving DecidableEq

structure DiskFailure where
  step : DiskStep
  fault : Fault

structure ProfileStore where
  profiles : List VPNProfile := []
  deriving DecidableEq

def writeToDisk (profiles : List VPNProfile) (failure : Option DiskFailure) (disk : Disk) :
    Status × Disk :=
  match failure with
  | none => (.ok (), { profiles := some (.flattened (profiles.map VPNProfile.archive)) })
  | some failure =>
      match failure.step with
      | .settingsPath => (.error failure.fault, disk)
      | .archive => (.error failure.fault, disk)
      | .openTemp => (.error failure.fault, disk)
      -- The half-written file is unlinked.
      | .flatten => (.error failure.fault, { disk with temp := none })
      | .rename => (.error failure.fault, { disk with temp := none })

namespace ProfileStore

/-- `failure` is what keeps the file from being opened. -/
def load (store : ProfileStore) (failure : Option Fault) (disk : Disk) : Status × ProfileStore :=
  match failure, disk.profiles with
  | some fault, _ => (.error fault, store)
  | none, none => (.ok (), store)
  | none, some .broken => (.error .badData, store)
  | none, some (.flattened archives) =>
      (.ok (), { profiles := (archives.map (VPNProfile.unarchive {})).filter (·.name ≠ .empty) })

def save (store : ProfileStore) (profile : VPNProfile) (failure : Option DiskFailure)
    (disk : Disk) : Status × ProfileStore × Disk :=
  if profile.name = .empty then (.error .badValue, store, disk)
  else
    let profiles := Table.upsert (·.name = profile.name) profile store.profiles
    let (status, disk) := writeToDisk profiles failure disk
    (status, { profiles }, disk)

def delete (store : ProfileStore) (name : Option CString) (failure : Option DiskFailure)
    (disk : Disk) : Status × ProfileStore × Disk :=
  match name with
  | none => (.error .badValue, store, disk)
  | some name =>
      if store.profiles.any (·.name = name) then
        let profiles := store.profiles.eraseP (·.name = name)
        let (status, disk) := writeToDisk profiles failure disk
        (status, { profiles }, disk)
      else (.ok (), store, disk)

end ProfileStore

/-- A store and the disk it writes to. -/
structure StoreHost where
  store : ProfileStore := {}
  disk : Disk := {}

inductive StoreCall where
  | load (failure : Option Fault)
  | save (profile : VPNProfile) (failure : Option DiskFailure)
  | delete (name : Option CString) (failure : Option DiskFailure)

def StoreHost.call (host : StoreHost) : StoreCall → Status × StoreHost
  | .load failure =>
      let (status, store) := host.store.load failure host.disk
      (status, { host with store })
  | .save profile failure =>
      let (status, store, disk) := host.store.save profile failure host.disk
      (status, { store, disk })
  | .delete name failure =>
      let (status, store, disk) := host.store.delete name failure host.disk
      (status, { store, disk })

def StoreHost.step (host : StoreHost) (call : StoreCall) : StoreHost := (host.call call).2

end Sotoportego.Server
