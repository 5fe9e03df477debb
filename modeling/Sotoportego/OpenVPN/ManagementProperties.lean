import Sotoportego.OpenVPN.Management

/-!
# Sessions on one management parser

Within a session the cuts between the chunks do not matter. The parser keeps its buffer
from session to session, so what an earlier session leaves unterminated goes in front of
the first line of a later one, unless trimming takes it away again.
-/

set_option autoImplicit false

namespace Sotoportego.OpenVPN

open Octets CText

/-! ## Trimming -/

section Trim

variable {left line : Bytes}

/-- What an earlier session left does not show in the line it goes in front of. -/
def Absorbed (left line : Bytes) : Prop :=
  (∀ octet ∈ left, isBlank octet = true) ∨ ∀ octet ∈ left ++ line, isTrailing octet = true

instance (left line : Bytes) : Decidable (Absorbed left line) :=
  inferInstanceAs (Decidable (_ ∨ _))

theorem isTrailing_of_isBlank {octet : UInt8} (blank : isBlank octet = true) :
    isTrailing octet = true := by
  rw [isTrailing, blank, Bool.true_or, Bool.true_or]

theorem trim_eq_nil : trim line = [] ↔ ∀ octet ∈ line, isTrailing octet = true := by
  rw [trim, List.rdropWhile_eq_nil_iff]
  constructor
  · intro every octet member
    rw [← List.takeWhile_append_dropWhile (p := isBlank) (l := line)] at member
    obtain early | late := List.mem_append.mp member
    · exact isTrailing_of_isBlank (List.mem_takeWhile_imp early)
    · exact every octet late
  · intro every octet member
    exact every octet ((List.dropWhile_suffix isBlank).subset member)

theorem dropWhile_append_of_mem {octet : UInt8} (member : octet ∈ left)
    (plain : isBlank octet = false) :
    (left ++ line).dropWhile isBlank = left.dropWhile isBlank ++ line ∧
      left.dropWhile isBlank ≠ [] := by
  have nonempty : left.dropWhile isBlank ≠ [] := by
    intro empty
    have blank := List.dropWhile_eq_nil_iff.mp empty octet member
    rw [plain] at blank
    cases blank
  refine ⟨?_, nonempty⟩
  rw [List.dropWhile_append, if_neg]
  rwa [List.isEmpty_iff]

theorem rdropWhile_append_of_mem {octet : UInt8} (member : octet ∈ line)
    (plain : isTrailing octet = false) :
    (left ++ line).rdropWhile isTrailing = left ++ line.rdropWhile isTrailing := by
  have nonempty : (line.reverse.dropWhile isTrailing).isEmpty ≠ true := by
    intro empty
    have trailing := List.dropWhile_eq_nil_iff.mp (List.isEmpty_iff.mp empty) octet
      (List.mem_reverse.mpr member)
    rw [plain] at trailing
    cases trailing
  rw [List.rdropWhile, List.reverse_append, List.dropWhile_append, if_neg nonempty,
    List.reverse_append, List.reverse_reverse]
  rfl

/-- Trimming in front as well does not make a text with a visible octet longer. -/
theorem length_trim_le {octet : UInt8} (member : octet ∈ line) (plain : isTrailing octet = false) :
    (trim line).length ≤ (line.rdropWhile isTrailing).length := by
  have inside : octet ∈ line.dropWhile isBlank := by
    rw [← List.takeWhile_append_dropWhile (p := isBlank) (l := line)] at member
    obtain early | late := List.mem_append.mp member
    · have trailing := isTrailing_of_isBlank (List.mem_takeWhile_imp early)
      rw [plain] at trailing
      cases trailing
    · exact late
  have whole : line.rdropWhile isTrailing = line.takeWhile isBlank ++ trim line := by
    rw [trim, ← rdropWhile_append_of_mem inside plain, List.takeWhile_append_dropWhile]
  rw [whole, List.length_append]
  omega

theorem trim_append_iff : trim (left ++ line) = trim line ↔ Absorbed left line := by
  constructor
  · intro same
    by_cases blank : ∀ octet ∈ left, isBlank octet = true
    · exact .inl blank
    · refine .inr (trim_eq_nil.mp ?_)
      push Not at blank
      obtain ⟨first, member, plain⟩ := blank
      obtain ⟨kept, nonempty⟩ := @dropWhile_append_of_mem left line first member
        (Bool.eq_false_iff.mpr plain)
      by_cases trailing : ∀ octet ∈ line, isTrailing octet = true
      · rw [same]
        exact trim_eq_nil.mpr trailing
      · -- With a visible octet in both, the trimmed text grows by what was left.
        push Not at trailing
        obtain ⟨last, inside, visible⟩ := trailing
        have longer : (trim (left ++ line)).length =
            (left.dropWhile isBlank).length + (line.rdropWhile isTrailing).length := by
          rw [trim, kept, rdropWhile_append_of_mem inside (Bool.eq_false_iff.mpr visible),
            List.length_append]
        have shorter := length_trim_le inside (Bool.eq_false_iff.mpr visible)
        have positive := List.length_pos_of_ne_nil nonempty
        rw [same] at longer
        omega
  · rintro (blank | trailing)
    · rw [trim, trim, List.dropWhile_append_of_pos blank]
    · rw [trim_eq_nil.mpr trailing, trim_eq_nil.mpr]
      exact fun octet member => trailing octet (List.mem_append_right left member)

end Trim

/-! ## Lines and sessions -/

theorem raw_parseNotification (line tag payload : Bytes) :
    (parseNotification line tag payload).raw = line := by
  unfold parseNotification
  split_ifs <;> rfl

theorem raw_parseReply (line : Bytes) : (parseReply line).raw = line := by
  unfold parseReply
  split_ifs <;> rfl

/-- Every event carries its trimmed line. -/
theorem raw_parseLine (line : Bytes) : (parseLine line).raw = trim line := by
  unfold parseLine
  split
  next empty => exact empty.symm
  next notification shape =>
    rw [shape]
    exact raw_parseNotification _ _ _
  next => exact raw_parseReply _

theorem parseLine_eq_iff {first second : Bytes} :
    parseLine first = parseLine second ↔ trim first = trim second := by
  constructor
  · intro same
    rw [← raw_parseLine, same, raw_parseLine]
  · intro same
    unfold parseLine
    rw [same]

section Sessions

variable {management : OpenVPNManagement}

/-- A reader loop that receives nothing leaves the parser alone. -/
theorem nothing_received (unmarked : 10 ∉ management.buffer) :
    (([], management) : List OpenVPNEvent × OpenVPNManagement) =
      ((Lines.terminated 10 (management.buffer ++ [])).map parseLine,
        { buffer := Lines.unterminated 10 (management.buffer ++ []) }) := by
  have quiet := Lines.cut_unterminated unmarked []
  rw [Lines.terminated, Lines.unterminated, quiet]
  simp [Lines.cut]

/-- The chunks of one session are the octets of it in one. -/
theorem runReaderLoop_eq (results : List Recv) (unmarked : 10 ∉ management.buffer) :
    management.runReaderLoop results =
      ((Lines.terminated 10 (management.buffer ++ received results)).map parseLine,
        { buffer := Lines.unterminated 10 (management.buffer ++ received results) }) := by
  induction results generalizing management with
  | nil => exact nothing_received unmarked
  | cons result results continued =>
      cases result with
      | closed => exact nothing_received unmarked
      | interrupted => exact continued unmarked
      | chunk octets =>
          by_cases none : octets = []
          · rw [OpenVPNManagement.runReaderLoop, if_pos none, received, if_pos none]
            exact nothing_received unmarked
          · have left := Lines.not_mem_unterminated 10 (management.buffer ++ octets)
            have joined := Lines.cut_append 10 (management.buffer ++ octets)
              (received results)
            have later := @continued { buffer := Lines.unterminated 10 (management.buffer ++ octets) }
              left
            rw [OpenVPNManagement.runReaderLoop, if_neg none, received, if_neg none,
              ← List.append_assoc, Lines.terminated, Lines.unterminated, joined, List.map_append]
            exact congrArg (fun rest : List OpenVPNEvent × OpenVPNManagement =>
              ((Lines.terminated 10 (management.buffer ++ octets)).map parseLine ++ rest.1,
                rest.2)) later

/-- The events a session's own octets stand for. -/
def ownEvents (results : List Recv) : List OpenVPNEvent :=
  (Lines.terminated 10 (received results)).map parseLine

theorem events_iff (results : List Recv) (unmarked : 10 ∉ management.buffer) :
    (management.runReaderLoop results).1 = ownEvents results ↔
      ∀ line ∈ (Lines.terminated 10 (received results)).head?, Absorbed management.buffer line := by
  rw [runReaderLoop_eq results unmarked, ownEvents, Lines.terminated,
    Lines.cut_unterminated unmarked, Lines.terminated]
  obtain ⟨lines, rest⟩ := Lines.cut 10 (received results)
  cases lines with
  | nil => simp
  | cons line lines => simp [parseLine_eq_iff, trim_append_iff]

/-- What the earlier sessions left unterminated is absorbed by the first line of the next. -/
def Separate (left : Bytes) (sessions : List (List Recv)) : Prop :=
  ∀ earlier results later, sessions = earlier ++ results :: later →
    ∀ line ∈ (Lines.terminated 10 (received results)).head?,
      Absorbed (Lines.unterminated 10 (left ++ earlier.flatMap received)) line

theorem separate_cons {left : Bytes} (unmarked : 10 ∉ left) (results : List Recv)
    (sessions : List (List Recv)) : Separate left (results :: sessions) ↔
      (∀ line ∈ (Lines.terminated 10 (received results)).head?, Absorbed left line) ∧
        Separate (Lines.unterminated 10 (left ++ received results)) sessions := by
  have here : Lines.unterminated 10 (left ++ ([] : List (List Recv)).flatMap received) = left := by
    have quiet := Lines.cut_unterminated unmarked []
    rw [List.flatMap_nil, Lines.unterminated, quiet]
    simp [Lines.cut]
  have onward (earlier : List (List Recv)) :
      Lines.unterminated 10 (left ++ (results :: earlier).flatMap received) =
        Lines.unterminated 10
          (Lines.unterminated 10 (left ++ received results) ++ earlier.flatMap received) := by
    rw [List.flatMap_cons, ← List.append_assoc, Lines.unterminated, Lines.cut_append]
  constructor
  · intro separate
    refine ⟨fun line member => ?_, fun earlier next later split line member => ?_⟩
    · have absorbed := separate [] results sessions rfl line member
      rwa [here] at absorbed
    · have absorbed := separate (results :: earlier) next later (congrArg _ split) line member
      rwa [onward] at absorbed
  · rintro ⟨first, rest⟩ earlier next later split line member
    cases earlier with
    | nil =>
        cases split
        rw [here]
        exact first line member
    | cons head earlier =>
        obtain ⟨rfl, inside⟩ := List.cons.inj split
        rw [onward]
        exact rest earlier next later inside line member

theorem runSessions_iff (sessions : List (List Recv)) (unmarked : 10 ∉ management.buffer) :
    management.runSessions sessions = sessions.map ownEvents ↔
      Separate management.buffer sessions := by
  induction sessions generalizing management with
  | nil =>
      refine ⟨fun _ earlier results later split => ?_, fun _ => rfl⟩
      simp at split
  | cons results sessions continued =>
      have left := Lines.not_mem_unterminated 10 (management.buffer ++ received results)
      have kept : (management.runReaderLoop results).2 =
          { buffer := Lines.unterminated 10 (management.buffer ++ received results) } := by
        rw [runReaderLoop_eq results unmarked]
      rw [separate_cons unmarked, OpenVPNManagement.runSessions, List.map_cons, List.cons.injEq,
        events_iff results unmarked, kept]
      exact and_congr_right fun _ => continued left

end Sessions

theorem sessions_parse_iff (sessions : List (List Recv)) :
    ({} : OpenVPNManagement).runSessions sessions = sessions.map ownEvents ↔
      Separate [] sessions :=
  runSessions_iff sessions List.not_mem_nil

/-! A session that breaks off inside a line, and the next one. -/

namespace Sample

def brokenOff : List Recv := [.chunk (ascii ">STATE:1767225600,EXIT"), .closed]

def next : List Recv := [.chunk (ascii ">HOLD:Waiting for hold "), .chunk (ascii "release:0\r\n")]

end Sample

theorem broken_line_joins_next :
    ({} : OpenVPNManagement).runSessions [Sample.brokenOff, Sample.next] ≠
      [Sample.brokenOff, Sample.next].map ownEvents := by
  decide +kernel

end Sotoportego.OpenVPN
