import Sotoportego.Lib.CText

/-!
# Profiles and their archives

`VPNProfile` and the flat `BMessage` it is archived in. An archive has no field for the
authentication key.
-/

set_option autoImplicit false

namespace Sotoportego.Server

open Octets CText

/-- The error codes of `status_t`. -/
inductive Fault where
  | notAllowed
  | badValue
  | noInit
  | badData
  | general
  | other (code : Int)
  deriving DecidableEq

abbrev Status := Except Fault Unit

/-- The code of a backend type, as `int32` fields carry it. -/
structure VPNBackendType where
  code : Int32
  deriving DecidableEq

namespace VPNBackendType

def openvpn : VPNBackendType := ⟨0⟩

def wireguard : VPNBackendType := ⟨1⟩

def tailscale : VPNBackendType := ⟨3⟩

end VPNBackendType

structure VPNProfile where
  backendType : VPNBackendType := .openvpn
  name : CString := .empty
  server : CString := .empty
  port : UInt16 := 1194
  username : CString := .empty
  protocol : CString := .ofBytes (ascii "udp")
  configPath : CString := .empty
  authKey : CString := .empty
  deriving DecidableEq

/-! ## Archives -/

inductive FieldValue where
  | int32 (value : Int32)
  | string (value : CString)
  deriving DecidableEq

/-- The fields of a message without nested messages. -/
abbrev Archive := List (String × FieldValue)

def kFieldProfileBackend : String := "soto:profile:backendType"

def kFieldProfileName : String := "soto:profile:name"

def kFieldProfileServer : String := "soto:profile:server"

def kFieldProfilePort : String := "soto:profile:port"

def kFieldProfileUsername : String := "soto:profile:username"

def kFieldProfileProtocol : String := "soto:profile:protocol"

def kFieldProfileConfigPath : String := "soto:profile:configPath"

def kFieldProfileAuthKey : String := "soto:profile:authKey"

def Archive.findInt32 (archive : Archive) (field : String) : Option Int32 :=
  match archive.lookup field with
  | some (.int32 value) => some value
  | _ => none

def Archive.findString (archive : Archive) (field : String) : Option CString :=
  match archive.lookup field with
  | some (.string value) => some value
  | _ => none

/-- `(uint16)intValue`. -/
def narrowPort (value : Int32) : UInt16 := .ofNat (value.toInt % 2 ^ 16).toNat

namespace VPNProfile

def archive (profile : VPNProfile) : Archive :=
  [(kFieldProfileBackend, .int32 profile.backendType.code),
    (kFieldProfileName, .string profile.name),
    (kFieldProfileServer, .string profile.server),
    (kFieldProfilePort, .int32 (.ofInt profile.port.toNat)),
    (kFieldProfileUsername, .string profile.username),
    (kFieldProfileProtocol, .string profile.protocol),
    (kFieldProfileConfigPath, .string profile.configPath)]

/-- A field that the archive lacks keeps its value. -/
def unarchive (profile : VPNProfile) (source : Archive) : VPNProfile where
  backendType := ((source.findInt32 kFieldProfileBackend).map VPNBackendType.mk).getD
    profile.backendType
  name := (source.findString kFieldProfileName).getD profile.name
  server := (source.findString kFieldProfileServer).getD profile.server
  port := ((source.findInt32 kFieldProfilePort).map narrowPort).getD profile.port
  username := (source.findString kFieldProfileUsername).getD profile.username
  protocol := (source.findString kFieldProfileProtocol).getD profile.protocol
  configPath := (source.findString kFieldProfileConfigPath).getD profile.configPath
  authKey := (source.findString kFieldProfileAuthKey).getD profile.authKey

def withoutKey (profile : VPNProfile) : VPNProfile := { profile with authKey := .empty }

/-- A port survives the widening and the narrowing. -/
theorem narrowPort_ofInt (port : UInt16) : narrowPort (.ofInt port.toNat) = port := by
  have small := port.toNat_lt
  have kept : (Int32.ofInt port.toNat).toInt = port.toNat :=
    Int32.toInt_ofInt_of_le (by omega) (by omega)
  have whole : ((port.toNat : Int) % 2 ^ 16).toNat = port.toNat := by omega
  rw [narrowPort, kept, whole, UInt16.ofNat_toNat]

/-- An archived profile comes back whole, but for its key. -/
theorem unarchive_archive (profile : VPNProfile) :
    unarchive {} profile.archive = profile.withoutKey := by
  have port : profile.archive.findInt32 kFieldProfilePort = some (.ofInt profile.port.toNat) := rfl
  have stored : unarchive {} profile.archive =
      { profile.withoutKey with port := narrowPort (.ofInt profile.port.toNat) } := rfl
  rw [stored, narrowPort_ofInt]
  rfl

end VPNProfile

end Sotoportego.Server
