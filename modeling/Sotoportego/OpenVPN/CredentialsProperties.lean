import Sotoportego.Lib.Arguments
import Sotoportego.OpenVPN.Credentials

/-!
# Credential commands keep their shape

A credential is escaped, so no octet of it ends its argument or its line. The realm comes
from the other side of the socket and is not: the command keeps its three arguments exactly
when the realm has no octet that means something to the reader of the command.
-/

set_option autoImplicit false

namespace Sotoportego.OpenVPN

open Octets CText

/-! ## Escaping -/

section Escape

/-- What the reader of an escaped octet gets. -/
def escapedAs (octet : UInt8) : UInt8 :=
  if octet = 10 then 110 else if octet = 13 then 114 else octet

variable {credential : CString}

theorem body_escape (value : Bytes) :
    Arguments.Body (value.flatMap escapeOctet) (value.map escapedAs) := by
  induction value with
  | nil => exact .nil
  | cons octet value continued =>
      rw [List.flatMap_cons, List.map_cons]
      unfold escapeOctet escapedAs
      split
      · next special =>
        rw [if_neg, if_neg]
        · exact .escape continued
        · obtain rfl | rfl := special <;> decide
        · obtain rfl | rfl := special <;> decide
      · next plain =>
        rw [not_or] at plain
        split
        · exact .escape continued
        · split
          · exact .escape continued
          · exact .plain plain.2 plain.1 continued

/-- No escaped octet ends a string or a line. -/
theorem escapeOctet_whole {octet inside : UInt8} (noNul : octet ≠ 0)
    (member : inside ∈ escapeOctet octet) : inside ≠ 0 ∧ inside ≠ 10 ∧ inside ≠ 13 := by
  unfold escapeOctet at member
  split at member
  · next special =>
    obtain rfl | rfl := special <;>
      (simp only [List.mem_cons, List.not_mem_nil, or_false] at member
       obtain rfl | rfl := member <;> decide)
  · split at member
    · obtain rfl | rfl : inside = 92 ∨ inside = 110 := by simpa using member
      · decide
      · decide
    · split at member
      · obtain rfl | rfl : inside = 92 ∨ inside = 114 := by simpa using member
        · decide
        · decide
      · next noFeed noReturn =>
        rw [List.mem_singleton.mp member]
        exact ⟨noNul, noFeed, noReturn⟩

theorem escapeArg_whole {inside : UInt8} (member : inside ∈ escapeArg credential) :
    inside ≠ 0 ∧ inside ≠ 10 ∧ inside ≠ 13 := by
  obtain ⟨octet, source, escaped⟩ := List.mem_flatMap.mp member
  refine escapeOctet_whole ?_ escaped
  rintro rfl
  exact credential.no_nul source

theorem map_escapedAs (noReturn : 13 ∉ credential.bytes) (noFeed : 10 ∉ credential.bytes) :
    credential.bytes.map escapedAs = credential.bytes := by
  rw [List.map_congr_left (g := id), List.map_id]
  intro octet member
  rw [escapedAs, if_neg, if_neg, id_eq]
  · rintro rfl
    exact noReturn member
  · rintro rfl
    exact noFeed member

end Escape

/-! ## One command -/

/-- The octets that end a command, a line or an argument, or change the octet after them. -/
def breaking : Bytes := [0, 10, 13, 34, 92]

/-- One line, and three arguments when the management interface reads it. -/
def Intact (verb realm : Bytes) (credential : CString) (sent : Bytes) : Prop :=
  ∃ line third, sent = line ++ [10] ∧ 10 ∉ line ∧ 13 ∉ line ∧
    Arguments.tokens line = some [verb, realm, third] ∧
    (13 ∉ credential.bytes → 10 ∉ credential.bytes → third = credential.bytes)

section Command

variable {verb realm : Bytes} {credential : CString}

/-- A verb is a bare word. -/
def Bare (verb : Bytes) : Prop :=
  verb ≠ [] ∧ ∀ octet ∈ verb, octet ∉ breaking ∧ octet ≠ 32 ∧ octet ≠ 9

theorem credentialCommand_eq (verb realm : Bytes) (credential : CString) :
    credentialCommand verb realm credential =
      verb ++ 32 :: 34 :: (realm ++ 34 :: 32 :: 34 :: (escapeArg credential ++ [34])) := by
  simp [credentialCommand, ascii]

theorem tokens_word (bare : Bare verb) (rest : Bytes) :
    Arguments.tokens (verb ++ 32 :: 34 :: rest) =
      (Arguments.scan (.quoted []) rest).map (verb :: ·) := by
  obtain ⟨nonempty, plain⟩ := bare
  cases verb with
  | nil => exact absurd rfl nonempty
  | cons octet verb =>
      obtain ⟨whole, noSpace, noTab⟩ := plain octet List.mem_cons_self
      have others : ∀ other ∈ verb, other ≠ 92 ∧ other ≠ 32 ∧ other ≠ 9 := by
        intro other member
        obtain ⟨whole, blank⟩ := plain other (List.mem_cons_of_mem _ member)
        refine ⟨?_, blank⟩
        rintro rfl
        exact whole (by decide)
      have noQuote : octet ≠ 34 := by
        rintro rfl
        exact whole (by decide)
      have noEscape : octet ≠ 92 := by
        rintro rfl
        exact whole (by decide)
      have noBlank : ¬ (octet = 32 ∨ octet = 9) := by simp [noSpace, noTab]
      rw [Arguments.tokens, List.cons_append, Arguments.scan, if_neg noQuote, if_neg noEscape,
        if_neg noBlank, Arguments.scan_word _ _ others, Arguments.scan, if_pos rfl]
      rfl

/-- What the reader makes of a command whose realm it reads as `realm`. -/
theorem tokens_credentialCommand (bare : Bare verb)
    (clean : ∀ octet ∈ realm, octet ≠ 34 ∧ octet ≠ 92) :
    Arguments.tokens (credentialCommand verb realm credential) =
      some [verb, realm, credential.bytes.map escapedAs] := by
  have quoted := Arguments.scan_body (body_escape credential.bytes) [] []
  rw [credentialCommand_eq, tokens_word bare, Arguments.scan_body (.refl clean)]
  change (((Arguments.scan (.quoted []) (escapeArg credential ++ [34])).map _).map _) = _
  rw [escapeArg, quoted]
  rfl

theorem mem_credentialCommand {octet : UInt8}
    (member : octet ∈ credentialCommand verb realm credential) :
    octet ∈ verb ∨ octet ∈ realm ∨ octet ∈ escapeArg credential ∨ octet = 32 ∨ octet = 34 := by
  rw [credentialCommand_eq] at member
  simp only [List.mem_append, List.mem_cons, List.not_mem_nil, or_false] at member
  tauto

/-- A command with neither a NUL nor a line end in its realm has none at all. -/
theorem credentialCommand_whole (bare : Bare verb) {mark : UInt8} (chosen : mark ∈ [0, 10, 13])
    (clean : mark ∉ realm) : mark ∉ credentialCommand verb realm credential := by
  intro member
  obtain early | inside | late | rfl | rfl := mem_credentialCommand member
  · refine (bare.2 mark early).1 ?_
    simp only [List.mem_cons, List.not_mem_nil, or_false] at chosen
    simp only [breaking, List.mem_cons]
    tauto
  · exact clean inside
  · obtain ⟨noNul, noFeed, noReturn⟩ := escapeArg_whole late
    simp [noNul, noFeed, noReturn] at chosen
  · exact absurd chosen (by decide)
  · exact absurd chosen (by decide)

theorem ofBytes_bytes {text : Bytes} (noNul : 0 ∉ text) : (CString.ofBytes text).bytes = text := by
  refine List.takeWhile_eq_self_iff.mpr fun octet member => ?_
  rw [decide_eq_true_eq]
  rintro rfl
  exact noNul member

/-- Every octet of the realm reaches the reader, so a NUL cannot be among them. -/
theorem realm_no_nul {third : Bytes}
    (read : Arguments.tokens (CString.ofBytes (credentialCommand verb realm credential)).bytes =
      some [verb, realm, third]) : 0 ∉ realm := by
  intro member
  have inside := Arguments.mem_of_scan read (List.mem_cons_of_mem _ List.mem_cons_self) member
  exact (CString.ofBytes _).no_nul inside

theorem intact_iff (bare : Bare verb) :
    Intact verb realm credential (frame (.ofBytes (credentialCommand verb realm credential))) ↔
      ∀ octet ∈ realm, octet ∉ breaking := by
  constructor
  · rintro ⟨line, third, framed, noFeed, noReturn, read, _⟩
    have same := List.append_cancel_right framed
    subst same
    have noNul := realm_no_nul read
    rw [ofBytes_bytes (credentialCommand_whole bare (by decide) noNul)] at noFeed noReturn read
    rw [credentialCommand_eq] at noFeed noReturn
    rw [credentialCommand_eq, tokens_word bare] at read
    obtain ⟨arguments, scanned, same⟩ := Option.map_eq_some_iff.mp read
    rw [(List.cons.inj same).2] at scanned
    have clean := Arguments.clean_of_scan scanned
    intro octet member broken
    simp only [breaking, List.mem_cons, List.not_mem_nil, or_false] at broken
    obtain rfl | rfl | rfl | rfl | rfl := broken
    · exact noNul member
    · exact noFeed (by simp [member])
    · exact noReturn (by simp [member])
    · exact (clean _ member).1 rfl
    · exact (clean _ member).2 rfl
  · intro clean
    have without {mark : UInt8} (chosen : mark ∈ breaking) : mark ∉ realm :=
      fun member => clean mark member chosen
    have quotable : ∀ octet ∈ realm, octet ≠ 34 ∧ octet ≠ 92 := by
      intro octet member
      refine ⟨?_, ?_⟩
      · rintro rfl
        exact without (by decide) member
      · rintro rfl
        exact without (by decide) member
    have noNul : 0 ∉ credentialCommand verb realm credential :=
      credentialCommand_whole bare (by decide) (without (by decide))
    refine ⟨_, _, congrArg (· ++ [10]) (ofBytes_bytes noNul), ?_, ?_,
      tokens_credentialCommand bare quotable, map_escapedAs⟩
    · exact credentialCommand_whole bare (by decide) (without (by decide))
    · exact credentialCommand_whole bare (by decide) (without (by decide))

end Command

/-! ## The answer to a password request -/

/-- Each command of the answer carries the realm and its own credential. -/
def CredentialsIntact (event : OpenVPNEvent) (user pass : CString) : Prop :=
  event.type = .passwordRequest →
    ∀ pair ∈ [(ascii "username", user), (ascii "password", pass)].zip (answer event user pass),
      Intact pair.1.1 event.realm pair.1.2 (frame pair.2)

theorem bare_username : Bare (ascii "username") := ⟨by simp [ascii], by simp [ascii, breaking]⟩

theorem bare_password : Bare (ascii "password") := ⟨by simp [ascii], by simp [ascii, breaking]⟩

theorem credentialsIntact_iff (rawLine : Bytes) (user pass : CString) :
    CredentialsIntact (parseLine rawLine) user pass ↔
      ((parseLine rawLine).type = .passwordRequest → user.bytes ≠ [] →
        ∀ octet ∈ (parseLine rawLine).realm, octet ∉ breaking) := by
  generalize parseLine rawLine = event
  unfold CredentialsIntact
  refine forall_congr' fun request => ?_
  by_cases named : user.bytes = []
  · simp [answer, request, named]
  · have holds : user.bytes ≠ [] := named
    simp only [answer, request, if_neg named, List.zip_cons_cons, List.zip_nil_left,
      List.forall_mem_cons, List.not_mem_nil, false_imp_iff, implies_true, and_true,
      intact_iff bare_username, intact_iff bare_password, and_self, forall_prop_of_true holds]

namespace CredentialSample

/-- A request whose realm closes its own argument and opens another. -/
def rawLine : Bytes := ascii ">PASSWORD:Need 'Auth\" \"root' username/password"

def user : CString := ⟨ascii "alice", by simp [ascii]⟩

def pass : CString := ⟨ascii "s3\"cret", by simp [ascii]⟩

end CredentialSample

open CredentialSample in
theorem credentials_broken_by_realm :
    (parseLine rawLine).type = .passwordRequest ∧
      (answer (parseLine rawLine) user pass).map (fun command => Arguments.tokens command.bytes) =
        [some [ascii "username", ascii "Auth", ascii "root", ascii "alice"],
          some [ascii "password", ascii "Auth", ascii "root", ascii "s3\"cret"]] ∧
      ¬ CredentialsIntact (parseLine rawLine) user pass := by
  have request : (parseLine rawLine).type = .passwordRequest := by decide +kernel
  have realm : (parseLine rawLine).realm = ascii "Auth\" \"root" := by decide +kernel
  have broken : (34 : UInt8) ∈ ascii "Auth\" \"root" := by simp [ascii]
  refine ⟨request, by decide +kernel, fun intact => ?_⟩
  have first := intact request _ List.mem_cons_self
  rw [intact_iff bare_username, realm] at first
  exact first 34 broken (by decide)

/-! ## What goes out -/

section Transmit

/-- A broken connection leaves a line unfinished, never another line. -/
theorem transmit_prefix (data : Bytes) (sends : List Send) : transmit data sends <+: data := by
  induction data, sends using transmit.induct with
  | case1 | case2 | case4 => simp [transmit]
  | case3 data sends nonempty continued => simpa [transmit] using continued
  | case5 data sends nonempty => simp [transmit]
  | case6 data count sends nonempty some continued =>
      rw [transmit, if_neg some]
      · have joined := (List.prefix_append_right_inj (data.take count)).mpr continued
        rwa [List.take_append_drop] at joined
      · simpa using nonempty

def Send.accepted : Send → Nat
  | .wrote count => count
  | .interrupted | .failed => 0

/-- Short sends and interruptions lose nothing. -/
theorem transmit_whole {data : Bytes} {sends : List Send}
    (healthy : ∀ send ∈ sends, send ≠ .failed ∧ send ≠ .wrote 0)
    (enough : data.length ≤ (sends.map Send.accepted).sum) : transmit data sends = data := by
  induction data, sends using transmit.induct with
  | case1 => simp [transmit]
  | case2 data =>
      rw [List.map_nil, List.sum_nil, Nat.le_zero, List.length_eq_zero_iff] at enough
      rw [enough]
      rfl
  | case3 data sends nonempty continued =>
      rw [List.map_cons, List.sum_cons, Send.accepted, Nat.zero_add] at enough
      rw [transmit]
      · exact continued (fun send member => healthy send (List.mem_cons_of_mem _ member)) enough
      · simpa using nonempty
  | case4 => exact absurd rfl (healthy .failed List.mem_cons_self).1
  | case5 => exact absurd rfl (healthy (.wrote 0) List.mem_cons_self).2
  | case6 data count sends nonempty some continued =>
      rw [List.map_cons, List.sum_cons, Send.accepted] at enough
      have left : (data.drop count).length ≤ (sends.map Send.accepted).sum := by
        rw [List.length_drop]
        omega
      rw [transmit, if_neg some, continued _ left, List.take_append_drop]
      · exact fun send member => healthy send (List.mem_cons_of_mem _ member)
      · simpa using nonempty

end Transmit

end Sotoportego.OpenVPN
