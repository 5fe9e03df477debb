import Sotoportego.Lib.Octets

/-!
# Arguments of a command line

A command line is cut at blanks into its arguments. An argument in double quotes keeps its
blanks, and a backslash takes the octet after it as it is.
-/

set_option autoImplicit false

namespace Arguments

open Octets

/-- Where a reader stands, with what it has of the argument it is in. -/
inductive Reading where
  | between
  | plain (token : Bytes)
  | plainEscape (token : Bytes)
  | quoted (token : Bytes)
  | quotedEscape (token : Bytes)

/-- The arguments of what is left, or none when a quote or an escape is left open. -/
def scan : Reading → Bytes → Option (List Bytes)
  | .between, [] => some []
  | .plain token, [] => some [token]
  | .plainEscape _, [] => none
  | .quoted _, [] => none
  | .quotedEscape _, [] => none
  | .between, octet :: rest =>
      if octet = 34 then scan (.quoted []) rest
      else if octet = 92 then scan (.plainEscape []) rest
      else if octet = 32 ∨ octet = 9 then scan .between rest
      else scan (.plain [octet]) rest
  | .plain token, octet :: rest =>
      if octet = 92 then scan (.plainEscape token) rest
      else if octet = 32 ∨ octet = 9 then (scan .between rest).map (token :: ·)
      else scan (.plain (token ++ [octet])) rest
  | .plainEscape token, octet :: rest => scan (.plain (token ++ [octet])) rest
  | .quoted token, octet :: rest =>
      if octet = 34 then (scan .between rest).map (token :: ·)
      else if octet = 92 then scan (.quotedEscape token) rest
      else scan (.quoted (token ++ [octet])) rest
  | .quotedEscape token, octet :: rest => scan (.quoted (token ++ [octet])) rest

def tokens (line : Bytes) : Option (List Bytes) := scan .between line

/-- The text between two quotes, and the argument it stands for. -/
inductive Body : Bytes → Bytes → Prop where
  | nil : Body [] []
  | plain {octet : UInt8} {text token : Bytes} :
      octet ≠ 34 → octet ≠ 92 → Body text token → Body (octet :: text) (octet :: token)
  | escape {octet : UInt8} {text token : Bytes} :
      Body text token → Body (92 :: octet :: text) (octet :: token)

/-! ## What is in quotes is read back -/

theorem scan_body {text token : Bytes} (body : Body text token) (before rest : Bytes) :
    scan (.quoted before) (text ++ 34 :: rest) =
      (scan .between rest).map ((before ++ token) :: ·) := by
  induction body generalizing before with
  | nil => simp [scan]
  | plain noQuote noEscape _ continued =>
      rw [List.cons_append, scan, if_neg noQuote, if_neg noEscape, continued,
        List.append_assoc, List.singleton_append]
  | escape _ continued =>
      rw [List.cons_append, scan, if_neg (by decide), if_pos rfl, List.cons_append, scan,
        continued, List.append_assoc, List.singleton_append]

theorem Body.refl {text : Bytes} (clean : ∀ octet ∈ text, octet ≠ 34 ∧ octet ≠ 92) :
    Body text text := by
  induction text with
  | nil => exact .nil
  | cons octet text continued =>
      obtain ⟨noQuote, noEscape⟩ := clean octet List.mem_cons_self
      exact .plain noQuote noEscape
        (continued fun other member => clean other (List.mem_cons_of_mem _ member))

/-- A bare word up to the next blank. -/
theorem scan_word {word : Bytes} (before rest : Bytes)
    (bare : ∀ octet ∈ word, octet ≠ 92 ∧ octet ≠ 32 ∧ octet ≠ 9) :
    scan (.plain before) (word ++ 32 :: rest) =
      (scan .between rest).map ((before ++ word) :: ·) := by
  induction word generalizing before with
  | nil => simp [scan]
  | cons octet word continued =>
      obtain ⟨noEscape, noSpace, noTab⟩ := bare octet List.mem_cons_self
      have blank : ¬ (octet = 32 ∨ octet = 9) := by simp [noSpace, noTab]
      rw [List.cons_append, scan, if_neg noEscape, if_neg blank,
        continued _ fun other member => bare other (List.mem_cons_of_mem _ member),
        List.append_assoc, List.singleton_append]

/-! ## Only clean text reads back as itself -/

section Clean

variable {first : Bytes} {others : List Bytes}

/-- An argument keeps what was read of it. -/
theorem prefix_of_scan {text : Bytes} :
    (∀ before, scan (.quoted before) text = some (first :: others) → before <+: first) ∧
      (∀ before, scan (.quotedEscape before) text = some (first :: others) → before <+: first) := by
  induction text with
  | nil => simp [scan]
  | cons octet text continued =>
      obtain ⟨quoted, escaped⟩ := continued
      have longer {before : Bytes}
          (read : scan (.quoted (before ++ [octet])) text = some (first :: others)) :
          before <+: first :=
        (List.prefix_append before [octet]).trans (quoted _ read)
      refine ⟨fun before read => ?_, fun before read => longer read⟩
      rw [scan] at read
      split at read
      · obtain ⟨left, _, same⟩ := Option.map_eq_some_iff.mp read
        rw [(List.cons.inj same).1]
      · split at read
        · exact escaped before read
        · exact longer read

theorem first_of_scan {before tail text : Bytes} {octet next : UInt8}
    (read : scan (.quoted (before ++ [octet])) text = some ((before ++ next :: tail) :: others)) :
    octet = next := by
  have kept := prefix_of_scan.1 _ read
  rw [List.prefix_append_right_inj] at kept
  obtain ⟨_, same⟩ := kept
  exact (List.cons.inj same).1

/-- A text never reads as itself behind more backslashes: each pair of them leaves one. -/
theorem not_behind_escapes {rest : Bytes} :
    ∀ (text before : Bytes) (extra : Nat),
      scan (.quoted before) (text ++ 34 :: rest) ≠
        some ((before ++ (List.replicate (extra + 1) 92 ++ text)) :: others)
  | [], before, extra, read => by
      rw [List.nil_append, scan, if_pos rfl] at read
      obtain ⟨_, _, same⟩ := Option.map_eq_some_iff.mp read
      have short := congrArg List.length (List.cons.inj same).1
      simp at short
  | [octet], before, extra, read => by
      rw [List.cons_append, scan] at read
      split at read
      · obtain ⟨_, _, same⟩ := Option.map_eq_some_iff.mp read
        have short := congrArg List.length (List.cons.inj same).1
        simp at short
      · split at read
        · rw [List.nil_append, scan, List.replicate_succ, List.cons_append] at read
          exact absurd (first_of_scan read) (by decide)
        · next noEscape =>
          rw [List.replicate_succ, List.cons_append] at read
          exact noEscape (first_of_scan read)
  | octet :: next :: text, before, extra, read => by
      rw [List.cons_append, scan] at read
      split at read
      · obtain ⟨_, _, same⟩ := Option.map_eq_some_iff.mp read
        have short := congrArg List.length (List.cons.inj same).1
        simp at short
      · split at read
        · next isEscape =>
          subst isEscape
          rw [List.cons_append, scan, List.replicate_succ, List.cons_append] at read
          have same := first_of_scan read
          subst same
          -- The pair is one backslash of the argument, and two are left to come.
          refine @not_behind_escapes rest text (before ++ [92]) (extra + 1) ?_
          rw [read]
          simp [List.replicate_succ', List.append_assoc]
        · next noEscape =>
          rw [List.replicate_succ, List.cons_append] at read
          exact noEscape (first_of_scan read)

/-- A text that reads as itself has no quote and no backslash. -/
theorem clean_of_scan {text before rest : Bytes}
    (read : scan (.quoted before) (text ++ 34 :: rest) = some ((before ++ text) :: others)) :
    ∀ octet ∈ text, octet ≠ 34 ∧ octet ≠ 92 := by
  induction text generalizing before with
  | nil => simp
  | cons octet text continued =>
      rw [List.cons_append, scan] at read
      split at read
      · obtain ⟨_, _, same⟩ := Option.map_eq_some_iff.mp read
        have short := congrArg List.length (List.cons.inj same).1
        simp at short
      · next noQuote =>
        split at read
        · next isEscape =>
          subst isEscape
          cases text with
          | nil => exact absurd (first_of_scan read) (by decide)
          | cons next text =>
              have same := first_of_scan read
              subst same
              refine absurd ?_ (@not_behind_escapes others rest text (before ++ [92]) 0)
              simpa [scan, List.append_assoc] using read
        · next noEscape =>
          have later := @continued (before ++ [octet]) (by simpa using read)
          intro other member
          obtain rfl | member := List.mem_cons.mp member
          · exact ⟨noQuote, noEscape⟩
          · exact later other member

end Clean

/-! ## Nothing is made up -/

def Reading.token : Reading → Bytes
  | .between => []
  | .plain token | .plainEscape token | .quoted token | .quotedEscape token => token

theorem mem_of_scan {text : Bytes} {reading : Reading} {arguments : List Bytes} {argument : Bytes}
    {octet : UInt8} (read : scan reading text = some arguments) (taken : argument ∈ arguments)
    (member : octet ∈ argument) : octet ∈ reading.token ++ text := by
  induction text generalizing reading arguments with
  | nil =>
      cases reading with
      | plain token =>
          cases read
          rw [List.mem_singleton] at taken
          subst taken
          exact List.mem_append_left _ member
      | between =>
          cases read
          cases taken
      | plainEscape | quoted | quotedEscape => cases read
  | cons head text continued =>
      have ended {token : Bytes}
          (read : (scan .between text).map (token :: ·) = some arguments) :
          octet ∈ token ++ head :: text := by
        obtain ⟨left, later, same⟩ := Option.map_eq_some_iff.mp read
        subst same
        obtain rfl | taken := List.mem_cons.mp taken
        · exact List.mem_append_left _ member
        · have inside := continued later taken
          exact List.mem_append_right _ (List.mem_cons_of_mem _ inside)
      have skipped {next : Reading} (read : scan next text = some arguments)
          (same : next.token = reading.token) : octet ∈ reading.token ++ head :: text := by
        have inside := continued read taken
        rw [same] at inside
        obtain early | late := List.mem_append.mp inside
        · exact List.mem_append_left _ early
        · exact List.mem_append_right _ (List.mem_cons_of_mem _ late)
      have grown {next : Reading} (read : scan next text = some arguments)
          (same : next.token = reading.token ++ [head]) :
          octet ∈ reading.token ++ head :: text := by
        have inside := continued read taken
        rw [same, List.append_assoc] at inside
        exact inside
      cases reading with
      | between =>
          rw [scan] at read
          split at read
          · exact skipped read rfl
          · split at read
            · exact skipped read rfl
            · split at read
              · exact skipped read rfl
              · exact grown read rfl
      | plain token =>
          rw [scan] at read
          split at read
          · exact skipped read rfl
          · split at read
            · exact ended read
            · exact grown read rfl
      | plainEscape token => exact grown read rfl
      | quoted token =>
          rw [scan] at read
          split at read
          · exact ended read
          · split at read
            · exact skipped read rfl
            · exact grown read rfl
      | quotedEscape token => exact grown read rfl

end Arguments
