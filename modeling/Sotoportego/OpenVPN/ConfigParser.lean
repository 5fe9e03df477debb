import Sotoportego.OpenVPN.Management
import Sotoportego.Server.Profile

/-!
# The openvpn config parser

`OpenVPNConfigParser` reads the display fields of a profile out of the text of a config.
One pass over the lines skips comments and inline blocks and lets each directive write its
fields.
-/

set_option autoImplicit false

namespace Sotoportego.OpenVPN.OpenVPNConfigParser

open Octets CText
open Server (VPNProfile)

/-- A port is a whole number in range, and zero stands for anything else. -/
def parsePort (token : Bytes) : UInt16 :=
  match wholeNumber (.ofBytes token) with
  | some value => if 1 ≤ value ∧ value ≤ 65535 then .ofNat value.toNat else 0
  | none => 0

def isComment (octet : UInt8) : Bool := octet = 35 || octet = 59

/-- The words of a line up to its comment. -/
def tokenize (input : Bytes) : List Bytes :=
  ((input.takeWhile fun octet => !isComment octet).splitOnP isBlank).filter (· ≠ [])

def normalizeProto (raw : Bytes) : CString :=
  if (ascii "tcp").isPrefixOf raw then .ofBytes (ascii "tcp") else .ofBytes (ascii "udp")

/-! ## Directives -/

/-- The fields of the profile and the flags that order the directives. -/
structure Fields where
  profile : VPNProfile
  sawPort : Bool := false
  sawRemote : Bool := false

/-- Only the first `remote` counts. Its port gives way to an earlier `port` directive. -/
def Fields.remote (fields : Fields) (host : Bytes) (options : List Bytes) : Fields :=
  if fields.sawRemote then fields
  else
    let port :=
      match options[0]? with
      | some token => if fields.sawPort then 0 else parsePort token
      | none => 0
    let protocol := options[1]?.map normalizeProto
    { fields with
      sawRemote := true
      profile := { fields.profile with
        server := .ofBytes host
        port := if port = 0 then fields.profile.port else port
        protocol := protocol.getD fields.profile.protocol } }

def Fields.proto (fields : Fields) (raw : Bytes) : Fields :=
  { fields with profile := { fields.profile with protocol := normalizeProto raw } }

def Fields.port (fields : Fields) (token : Bytes) : Fields :=
  if parsePort token = 0 then fields
  else
    { fields with
      sawPort := true
      profile := { fields.profile with port := parsePort token } }

/-- An empty user name stays empty, which asks for one. -/
def Fields.authUserPass (fields : Fields) : Fields :=
  if fields.profile.username = .empty then
    { fields with profile := { fields.profile with username := .empty } }
  else fields

def Fields.directive (fields : Fields) : List Bytes → Fields
  | [] => fields
  | name :: options =>
      match options with
      | option :: options =>
          if name = ascii "remote" then fields.remote option options
          else if name = ascii "proto" then fields.proto option
          else if name = ascii "port" then fields.port option
          else if name = ascii "auth-user-pass" then fields.authUserPass
          else fields
      | [] => if name = ascii "auth-user-pass" then fields.authUserPass else fields

/-! ## Lines -/

/-- The name of the block that a line opens. -/
def openedBlock (text : Bytes) : Option Bytes :=
  if 3 ≤ text.length ∧ text.head? = some 60 ∧ text[1]? ≠ some 47 ∧ text.getLast? = some 62 then
    some (text.drop 1).dropLast
  else none

def closing (inlineTag : Bytes) : Bytes := ascii "</" ++ inlineTag ++ ascii ">"

/-- Nothing on the line, or nothing but a comment. -/
def skipped (line : Bytes) : Bool := line = [] || line.head?.any isComment

/-- The loop state. The tag is empty outside a block. -/
structure Pass where
  fields : Fields
  inlineTag : Bytes := []

def Pass.line (pass : Pass) (raw : Bytes) : Pass :=
  let line := trim raw
  if skipped line then pass
  else if pass.inlineTag ≠ [] then
    if line = closing pass.inlineTag then { pass with inlineTag := [] } else pass
  else
    match openedBlock line with
    | some tag => { pass with inlineTag := tag }
    | none => { pass with fields := pass.fields.directive (tokenize line) }

/-- The defaults of a profile that has none of its own. -/
def defaults (profile : VPNProfile) : VPNProfile :=
  { profile with
    protocol := if profile.protocol = .empty then .ofBytes (ascii "udp") else profile.protocol
    port := if profile.port = 0 then 1194 else profile.port }

def parseText (text : Bytes) (profile : VPNProfile) : VPNProfile :=
  ((text.splitOn 10).foldl Pass.line { fields := { profile := defaults profile } }).fields.profile

end Sotoportego.OpenVPN.OpenVPNConfigParser
