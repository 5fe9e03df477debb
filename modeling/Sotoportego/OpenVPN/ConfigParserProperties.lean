import Sotoportego.Lib.LastWrite
import Sotoportego.OpenVPN.ConfigParser

/-!
# Which directive wins

The server and the port come from the directives in the order of their rank, wherever in
the text they stand. The protocol does so exactly when no `proto` after the first `remote`
changes what that `remote` says.
-/

set_option autoImplicit false

namespace Sotoportego.OpenVPN.OpenVPNConfigParser

open Octets CText
open LastWrite (last_cons)
open Server (VPNProfile)

/-! ## The directives of a text -/

/-- The words of the lines outside blocks and comments. -/
def directives : Bytes → List Bytes → List (List Bytes)
  | _, [] => []
  | inlineTag, raw :: lines =>
      if skipped (trim raw) then directives inlineTag lines
      else if inlineTag ≠ [] then
        directives (if trim raw = closing inlineTag then [] else inlineTag) lines
      else
        match openedBlock (trim raw) with
        | some tag => directives tag lines
        | none => tokenize (trim raw) :: directives [] lines

def isRemote (directive : List Bytes) : Bool :=
  directive.head? = some (ascii "remote") && 2 ≤ directive.length

def firstRemote (directives : List (List Bytes)) : Option (List Bytes) := directives.find? isRemote

def validPort (token : Bytes) : Option UInt16 :=
  if parsePort token = 0 then none else some (parsePort token)

def portOf : List Bytes → Option UInt16
  | name :: token :: _ => if name = ascii "port" then validPort token else none
  | _ => none

def protoOf : List Bytes → Option CString
  | name :: token :: _ => if name = ascii "proto" then some (normalizeProto token) else none
  | _ => none

def ports (directives : List (List Bytes)) : List UInt16 := directives.filterMap portOf

def protos (directives : List (List Bytes)) : List CString := directives.filterMap protoOf

/-- The port and the protocol on a `remote` itself. -/
def remotePort (directive : List Bytes) : Option UInt16 := directive[2]?.bind validPort

def remoteProto (directive : List Bytes) : Option CString := directive[3]?.map normalizeProto

/-! ## The fields by rank -/

section Rank

variable (directives : List (List Bytes)) (profile : VPNProfile)

def namedServer : CString :=
  (((firstRemote directives).bind (·[1]?)).map CString.ofBytes).getD profile.server

def namedPort : UInt16 :=
  ((ports directives).getLast?.or ((firstRemote directives).bind remotePort)).getD
    (defaults profile).port

def namedProtocol : CString :=
  (((firstRemote directives).bind remoteProto).or (protos directives).getLast?).getD
    (defaults profile).protocol

/-- What stands after the first `remote` leaves the protocol that it names. -/
def ProtoSettled : Prop :=
  ∀ inline ∈ (firstRemote directives).bind remoteProto,
    ∀ late ∈ (protos (directives.dropWhile fun directive => !isRemote directive)).getLast?,
      late = inline

end Rank

/-! ## The pass reads the directives -/

theorem line_skipped {pass : Pass} {raw : Bytes} (nothing : skipped (trim raw) = true) :
    pass.line raw = pass := by
  rw [Pass.line]
  simp only [nothing, if_true]

theorem pass_directives (lines : List Bytes) (fields : Fields) (inlineTag : Bytes) :
    (lines.foldl Pass.line ⟨fields, inlineTag⟩).fields =
      (directives inlineTag lines).foldl Fields.directive fields := by
  induction lines generalizing fields inlineTag with
  | nil => rfl
  | cons raw lines continued =>
      rw [List.foldl_cons, directives]
      by_cases nothing : skipped (trim raw) = true
      · rw [line_skipped nothing, if_pos nothing, continued]
      · rw [if_neg nothing]
        by_cases inside : inlineTag ≠ []
        · have stepped : Pass.line ⟨fields, inlineTag⟩ raw =
              ⟨fields, if trim raw = closing inlineTag then [] else inlineTag⟩ := by
            simp only [Pass.line, if_neg nothing, if_pos inside]
            split <;> rfl
          rw [stepped, if_pos inside, continued]
        · rw [if_neg inside]
          rw [not_not] at inside
          subst inside
          cases opened : openedBlock (trim raw) with
          | some tag =>
              have stepped : Pass.line ⟨fields, []⟩ raw = ⟨fields, tag⟩ := by
                simp [Pass.line, nothing, opened]
              rw [stepped, continued]
          | none =>
              have stepped : Pass.line ⟨fields, []⟩ raw =
                  ⟨fields.directive (tokenize (trim raw)), []⟩ := by
                simp [Pass.line, nothing, opened]
              rw [stepped, continued, List.foldl_cons]

/-- A block leaves the pass as it was before it, whatever its body says. -/
theorem block_ignored {pass : Pass} {opening closer tag : Bytes} {body : List Bytes}
    (outside : pass.inlineTag = []) (opens : openedBlock (trim opening) = some tag)
    (inside : ∀ line ∈ body, trim line ≠ closing tag) (closes : trim closer = closing tag) :
    (opening :: (body ++ [closer])).foldl Pass.line pass = pass := by
  obtain ⟨fields, inlineTag⟩ := pass
  subst outside
  have shape := opens
  unfold openedBlock at shape
  split at shape
  · next bounds =>
    have named : tag ≠ [] := by
      rintro rfl
      have length := congrArg List.length (Option.some.inj shape)
      simp only [List.length_dropLast, List.length_drop, List.length_nil] at length
      omega
    have visible : skipped (trim opening) = false := by
      rw [skipped, bounds.2.1]
      have nonempty : trim opening ≠ [] := by
        rintro empty
        simp [empty] at bounds
      simp [nonempty, isComment]
    have opened : Pass.line ⟨fields, []⟩ opening = ⟨fields, tag⟩ := by
      simp [Pass.line, visible, opens]
    have kept : ∀ lines : List Bytes, (∀ line ∈ lines, trim line ≠ closing tag) →
        lines.foldl Pass.line ⟨fields, tag⟩ = ⟨fields, tag⟩ := by
      intro lines
      induction lines with
      | nil => intro _; rfl
      | cons line lines continued =>
          intro inside
          have still : Pass.line ⟨fields, tag⟩ line = ⟨fields, tag⟩ := by
            simp [Pass.line, named, inside line List.mem_cons_self]
          rw [List.foldl_cons, still]
          exact continued fun other member => inside other (List.mem_cons_of_mem _ member)
    have closed : Pass.line ⟨fields, tag⟩ closer = ⟨fields, []⟩ := by
      simp [Pass.line, named, closes, skipped, closing, ascii, isComment]
    rw [List.foldl_cons, opened, List.foldl_append, kept body inside]
    exact closed
  · cases shape

/-! ## What a run of directives writes -/

section Writes

/-- The directives have written their ports and protocols, and no server. -/
structure Wrote (directives : List (List Bytes)) (before after : Fields) : Prop where
  server : after.profile.server = before.profile.server
  sawRemote : after.sawRemote = before.sawRemote
  sawPort : after.sawPort = (before.sawPort || ports directives ≠ [])
  port : after.profile.port = (ports directives).getLast?.getD before.profile.port
  protocol : after.profile.protocol = (protos directives).getLast?.getD before.profile.protocol

variable {fields : Fields} {directive : List Bytes}

theorem authUserPass_eq (fields : Fields) : fields.authUserPass = fields := by
  unfold Fields.authUserPass
  split
  · next same => rw [← same]
  · rfl

/-- A directive is quiet when it is no `remote`, or not the first one. -/
theorem directive_wrote (quiet : isRemote directive = false ∨ fields.sawRemote = true) :
    Wrote [directive] fields (fields.directive directive) := by
  match directive with
  | [] => exact ⟨rfl, rfl, by simp [ports, portOf, Fields.directive], rfl, rfl⟩
  | [name] =>
      have same : fields.directive [name] = fields := by
        rw [Fields.directive, authUserPass_eq, ite_self]
      rw [same]
      exact ⟨rfl, rfl, by simp [ports, portOf], rfl, rfl⟩
  | name :: option :: options =>
      rw [Fields.directive]
      by_cases isRemoteName : name = ascii "remote"
      · have seen : fields.sawRemote = true := by
          obtain other | seen := quiet
          · simp [isRemote, isRemoteName] at other
          · exact seen
        have noPort : name ≠ ascii "port" := by
          rw [isRemoteName]
          simp [ascii]
        have noProto : name ≠ ascii "proto" := by
          rw [isRemoteName]
          simp [ascii]
        rw [if_pos isRemoteName, Fields.remote, if_pos seen]
        exact ⟨rfl, rfl, by simp [ports, portOf, noPort], by simp [ports, portOf, noPort],
          by simp [protos, protoOf, noProto]⟩
      · rw [if_neg isRemoteName]
        by_cases isProto : name = ascii "proto"
        · have noPort : name ≠ ascii "port" := by
            rw [isProto]
            simp [ascii]
          rw [if_pos isProto]
          exact ⟨rfl, rfl, by simp [ports, portOf, noPort, Fields.proto],
            by simp [ports, portOf, noPort, Fields.proto],
            by simp [protos, protoOf, isProto, Fields.proto]⟩
        · rw [if_neg isProto]
          by_cases isPort : name = ascii "port"
          · rw [if_pos isPort, Fields.port]
            split
            · next invalid =>
              exact ⟨rfl, rfl, by simp [ports, portOf, validPort, invalid],
                by simp [ports, portOf, validPort, invalid], by simp [protos, protoOf, isProto]⟩
            · next valid =>
              exact ⟨rfl, rfl, by simp [ports, portOf, validPort, valid, isPort],
                by simp [ports, portOf, validPort, valid, isPort],
                by simp [protos, protoOf, isProto]⟩
          · rw [if_neg isPort, authUserPass_eq, ite_self]
            exact ⟨rfl, rfl, by simp [ports, portOf, isPort], by simp [ports, portOf, isPort],
              by simp [protos, protoOf, isProto]⟩

theorem directives_wrote (directives : List (List Bytes)) (fields : Fields)
    (quiet : (∀ directive ∈ directives, isRemote directive = false) ∨ fields.sawRemote = true) :
    Wrote directives fields (directives.foldl Fields.directive fields) := by
  induction directives generalizing fields with
  | nil => exact ⟨rfl, rfl, by simp [ports], rfl, rfl⟩
  | cons first later continued =>
      have step := @directive_wrote fields first
        (quiet.imp_left fun none => none first List.mem_cons_self)
      have rest := continued (fields.directive first) (quiet.imp
        (fun none directive member => none directive (List.mem_cons_of_mem _ member))
        (fun seen => step.sawRemote.trans seen))
      rw [List.foldl_cons]
      refine ⟨rest.server.trans step.server, rest.sawRemote.trans step.sawRemote, ?_, ?_, ?_⟩
      · rw [rest.sawPort, step.sawPort, ports, ports, ports]
        cases written : portOf first <;> simp [written]
      · rw [rest.port, step.port, ports, ports, ports, last_cons portOf first later,
          last_cons portOf first [], List.filterMap_nil, List.getLast?_nil, Option.getD_none]
      · rw [rest.protocol, step.protocol, protos, protos, protos, last_cons protoOf first later,
          last_cons protoOf first [], List.filterMap_nil, List.getLast?_nil, Option.getD_none]

end Writes

/-! ## The whole text -/

/-- The fields that the directives of the text name, by their rank. -/
def ParsedByRank (text : Bytes) (profile : VPNProfile) : Prop :=
  (parseText text profile).server = namedServer (directives [] (text.splitOn 10)) profile ∧
    (parseText text profile).port = namedPort (directives [] (text.splitOn 10)) profile ∧
    (parseText text profile).protocol = namedProtocol (directives [] (text.splitOn 10)) profile

section Text

variable {profile : VPNProfile}

theorem remote_first {fields : Fields} {host : Bytes} {options : List Bytes}
    (unseen : fields.sawRemote = false) :
    let remote := fields.directive (ascii "remote" :: host :: options)
    remote.sawRemote = true ∧ remote.sawPort = fields.sawPort ∧
      remote.profile.server = .ofBytes host ∧
      remote.profile.port = (if fields.sawPort then none
        else remotePort (ascii "remote" :: host :: options)).getD fields.profile.port ∧
      remote.profile.protocol =
        (remoteProto (ascii "remote" :: host :: options)).getD fields.profile.protocol := by
  simp only [Fields.directive, if_true, Fields.remote, unseen, Bool.false_eq_true, if_false,
    remotePort, remoteProto, List.getElem?_cons_succ, true_and, and_true]
  cases named : options[0]? with
  | none => simp
  | some token =>
      cases fields.sawPort with
      | true => simp
      | false =>
          rw [Option.bind_some, validPort]
          simp only [Bool.false_eq_true, if_false]
          split <;> rfl

/-- The fields after the directives, by the directives around the first `remote`. -/
theorem fold_around {front back : List (List Bytes)} {host : Bytes} {options : List Bytes}
    (quiet : ∀ directive ∈ front, isRemote directive = false) :
    let remote := ascii "remote" :: host :: options
    let parsed := ((front ++ remote :: back).foldl Fields.directive
      { profile := defaults profile }).profile
    parsed.server = .ofBytes host ∧
      parsed.port = ((ports front ++ ports back).getLast?.or (remotePort remote)).getD
        (defaults profile).port ∧
      parsed.protocol = (protos back).getLast?.getD ((remoteProto remote).getD
        ((protos front).getLast?.getD (defaults profile).protocol)) := by
  intro remote parsed
  have before := directives_wrote front { profile := defaults profile } (.inl quiet)
  obtain ⟨seen, sawPort, server, port, protocol⟩ := @remote_first _ host options before.sawRemote
  have after := directives_wrote back _ (.inr seen)
  have whole : parsed = (back.foldl Fields.directive ((front.foldl Fields.directive
      { profile := defaults profile }).directive remote)).profile := by
    simp only [parsed, List.foldl_append, List.foldl_cons]
  rw [whole]
  refine ⟨after.server.trans server, ?_, ?_⟩
  · rw [after.port, port, before.sawPort, before.port, List.getLast?_append]
    cases late : (ports back).getLast? with
    | some value => simp
    | none =>
        cases early : (ports front).getLast? with
        | some value =>
            have written : ports front ≠ [] := by
              intro empty
              rw [empty] at early
              cases early
            simp [written]
        | none =>
            have written : ports front = [] := List.getLast?_eq_none_iff.mp early
            simp [written, remote]
  · rw [after.protocol, protocol, before.protocol]

theorem ports_remote {front back : List (List Bytes)} {host : Bytes} {options : List Bytes} :
    ports (front ++ (ascii "remote" :: host :: options) :: back) = ports front ++ ports back := by
  simp [ports, portOf, ascii]

theorem protos_remote {front back : List (List Bytes)} {host : Bytes} {options : List Bytes} :
    protos (front ++ (ascii "remote" :: host :: options) :: back) =
      protos front ++ protos back := by
  simp [protos, protoOf, ascii]

theorem isRemote_shape {directive : List Bytes} (remote : isRemote directive = true) :
    ∃ host options, directive = ascii "remote" :: host :: options := by
  rw [isRemote, Bool.and_eq_true, decide_eq_true_eq, decide_eq_true_eq] at remote
  match directive with
  | [] => simp at remote
  | [name] => simp at remote
  | name :: host :: options =>
      have named : name = ascii "remote" := by simpa using remote.1
      exact ⟨host, options, by rw [named]⟩

theorem parsed_iff (text : Bytes) (profile : VPNProfile) :
    ParsedByRank text profile ↔ ProtoSettled (directives [] (text.splitOn 10)) := by
  unfold ParsedByRank parseText
  rw [pass_directives]
  generalize directives [] (text.splitOn 10) = listed
  unfold ProtoSettled namedServer namedPort namedProtocol
  cases found : firstRemote listed with
  | none =>
      have absent : ∀ directive ∈ listed, isRemote directive = false := by
        simpa [firstRemote] using found
      have wrote := directives_wrote listed { profile := defaults profile } (.inl absent)
      simp only [Option.bind_none, Option.map_none, Option.getD_none, Option.or_none,
        Option.none_or, reduceCtorEq, false_imp_iff, implies_true, iff_true, Option.mem_def]
      exact ⟨wrote.server, wrote.port, wrote.protocol⟩
  | some directive =>
      obtain ⟨isFirst, front, back, split, absent⟩ := List.find?_eq_some_iff_append.mp found
      obtain ⟨host, options, shape⟩ := isRemote_shape isFirst
      subst shape
      have quiet : ∀ directive ∈ front, isRemote directive = false := by
        simpa using absent
      obtain ⟨server, port, protocol⟩ := @fold_around profile front back host options quiet
      have from_ : (listed.dropWhile fun directive => !isRemote directive) =
          (ascii "remote" :: host :: options) :: back := by
        rw [split, List.dropWhile_append_of_pos (by simpa using quiet), List.dropWhile_cons,
          isFirst]
        rfl
      have late : protos ((ascii "remote" :: host :: options) :: back) = protos back :=
        @protos_remote [] back host options
      rw [from_, late, split, server, port, protocol, ports_remote, protos_remote]
      simp only [Option.bind_some, List.getElem?_cons_succ, List.getElem?_cons_zero,
        Option.map_some, Option.getD_some, true_and]
      cases inline : remoteProto (ascii "remote" :: host :: options) with
      | none =>
          simp only [Option.getD_none, Option.none_or, List.getLast?_append, reduceCtorEq,
            false_imp_iff, implies_true, iff_true, Option.mem_def]
          cases (protos back).getLast? <;> simp
      | some named =>
          simp only [Option.getD_some, Option.some_or, Option.mem_def, Option.some.injEq]
          cases (protos back).getLast? with
          | none => simp
          | some last => simp

/-- Two texts with the same directives of each kind, in any order between the kinds. -/
theorem parsed_any_order {text other : Bytes}
    (remotes : (directives [] (text.splitOn 10)).filter isRemote =
      (directives [] (other.splitOn 10)).filter isRemote)
    (samePorts : ports (directives [] (text.splitOn 10)) =
      ports (directives [] (other.splitOn 10)))
    (sameProtos : protos (directives [] (text.splitOn 10)) =
      protos (directives [] (other.splitOn 10)))
    (parsed : ParsedByRank text profile) (reordered : ParsedByRank other profile) :
    (parseText text profile).server = (parseText other profile).server ∧
      (parseText text profile).port = (parseText other profile).port ∧
      (parseText text profile).protocol = (parseText other profile).protocol := by
  have first : firstRemote (directives [] (text.splitOn 10)) =
      firstRemote (directives [] (other.splitOn 10)) := by
    rw [firstRemote, ← List.head?_filter, remotes, List.head?_filter, firstRemote]
  obtain ⟨server, port, protocol⟩ := parsed
  obtain ⟨otherServer, otherPort, otherProtocol⟩ := reordered
  rw [server, port, protocol, otherServer, otherPort, otherProtocol]
  simp only [namedServer, namedPort, namedProtocol, first, samePorts, sameProtos, and_self]

end Text

namespace ConfigSample

/-- The inline protocol of the `remote`, and a default for the others behind it. -/
def late : Bytes := ascii "remote gateway 443 tcp\nproto udp\n"

def early : Bytes := ascii "proto udp\nremote gateway 443 tcp\n"

end ConfigSample

open ConfigSample in
theorem late_proto_wins :
    (parseText late {}).protocol = .ofBytes (ascii "udp") ∧
      (parseText early {}).protocol = .ofBytes (ascii "tcp") ∧ ¬ ParsedByRank late {} := by
  have written : (parseText late {}).protocol = .ofBytes (ascii "udp") := by decide +kernel
  have ranked : namedProtocol (directives [] (late.splitOn 10)) {} = .ofBytes (ascii "tcp") := by
    decide +kernel
  refine ⟨written, by decide +kernel, fun parsed => ?_⟩
  have same := parsed.2.2
  rw [written, ranked] at same
  exact absurd same (by decide +kernel)

end Sotoportego.OpenVPN.OpenVPNConfigParser
