import Sotoportego.Tailscale.DnsBufferProperties

/-!
# Queries that are built

A name is written label by label, and the reader of questions gets back the same name in lower
case. The writer fails exactly when a label is no label or the message does not fit.
-/

set_option autoImplicit false

namespace Sotoportego.Tailscale.DnsBuffer

open Octets CText Checked

/-! ## The labels of a name -/

/-- The pieces between the full stops. A full stop at the end ends the last piece, and the
root name has none. -/
def labelsOf (name : Bytes) : List Bytes :=
  let pieces := name.splitOn 46
  if pieces.getLast? = some [] then pieces.dropLast else pieces

/-- The name without a full stop at its end. -/
def stripDot (name : Bytes) : Bytes :=
  if name.getLast? = some 46 then name.dropLast else name

/-- The octets of the labels and of the terminating zero. -/
def wireLength (labels : List Bytes) : Nat := (encodeLabels labels).length + 1

@[simp] theorem labelsOf_nil : labelsOf [] = [] := rfl

/-- The name starts with the label, and the rest stands behind a full stop, if there is one. -/
structure Starts (name label rest : Bytes) : Prop where
  plain : 46 ∉ label
  shape : name = label ++ 46 :: rest ∨ name = label ∧ label ≠ [] ∧ rest = []

theorem exists_starts {name : Bytes} (filled : name ≠ []) : ∃ label rest, Starts name label rest := by
  by_cases dotted : 46 ∈ name
  · obtain ⟨label, rest, shape, plain⟩ := List.eq_append_cons_of_mem dotted
    exact ⟨label, rest, plain, .inl shape⟩
  · exact ⟨name, [], dotted, .inr ⟨rfl, filled, rfl⟩⟩

namespace Starts

variable {name label rest : Bytes}

theorem filled (starts : Starts name label rest) : name ≠ [] := by
  obtain rfl | ⟨rfl, filled, -⟩ := starts.shape
  · simp
  · exact filled

theorem shorter (starts : Starts name label rest) : rest.length < name.length := by
  obtain rfl | ⟨rfl, filled, rfl⟩ := starts.shape
  · rw [List.length_append, List.length_cons]
    omega
  · exact List.length_pos_iff.mpr filled

theorem front (starts : Starts name label rest) : name.takeWhile (· ≠ 46) = label := by
  have every : ∀ octet ∈ label, decide (octet ≠ 46) = true :=
    fun octet member => decide_eq_true fun same => starts.plain (same ▸ member)
  obtain rfl | ⟨rfl, -, -⟩ := starts.shape
  · rw [List.takeWhile_append_of_pos every]
    simp
  · exact List.takeWhile_eq_self_iff.mpr every

theorem back (starts : Starts name label rest) : (name.dropWhile (· ≠ 46)).drop 1 = rest := by
  have every : ∀ octet ∈ label, decide (octet ≠ 46) = true :=
    fun octet member => decide_eq_true fun same => starts.plain (same ▸ member)
  obtain rfl | ⟨rfl, -, rfl⟩ := starts.shape
  · rw [List.dropWhile_append_of_pos every]
    simp
  · rw [List.dropWhile_eq_nil_iff.mpr every, List.drop_nil]

theorem labels (starts : Starts name label rest) : labelsOf name = label :: labelsOf rest := by
  obtain rfl | ⟨rfl, filled, rfl⟩ := starts.shape
  · have more := List.splitOn_ne_nil (46 : UInt8) rest
    rw [labelsOf, labelsOf, List.splitOn_append_cons_self_of_not_mem starts.plain]
    simp only [List.getLast?_cons_of_ne_nil more, List.dropLast_cons_of_ne_nil more]
    split <;> rfl
  · rw [labelsOf, List.splitOn_eq_singleton starts.plain]
    simp [filled]

end Starts

/-- Induction over the labels of a name. -/
@[elab_as_elim]
theorem name_induction {motive : Bytes → Prop} (root : motive [])
    (label : ∀ name label rest, Starts name label rest → motive rest → motive name)
    (name : Bytes) : motive name := by
  by_cases empty : name = []
  · rw [empty]
    exact root
  · obtain ⟨first, rest, starts⟩ := exists_starts empty
    have shorter := starts.shorter
    exact label name first rest starts (name_induction root label rest)
  termination_by name.length

/-! ## Writing a name -/

/-- Every label is one, and the labels and the zero end at `cap` or before. -/
def Fits (labels : List Bytes) (w cap : Nat) : Prop :=
  (∀ label ∈ labels, label ≠ [] ∧ label.length < 64) ∧ w + wireLength labels ≤ cap

theorem encodeLabels_cons (label : Bytes) (labels : List Bytes) :
    encodeLabels (label :: labels) = .ofNat label.length :: (label ++ encodeLabels labels) :=
  List.flatMap_cons

theorem wireLength_cons (label : Bytes) (labels : List Bytes) :
    wireLength (label :: labels) = 1 + label.length + wireLength labels := by
  rw [wireLength, encodeLabels_cons, List.length_cons, List.length_append, wireLength]
  omega

theorem fits_cons {label : Bytes} {labels : List Bytes} {w cap : Nat} :
    Fits (label :: labels) w cap ↔
      (label ≠ [] ∧ label.length < 64) ∧ Fits labels (w + 1 + label.length) cap := by
  rw [Fits, List.forall_mem_cons, wireLength_cons, and_assoc, Fits, ← Nat.add_assoc, ← Nat.add_assoc]

/-- One label is refused, or written and followed by the rest of the name. -/
theorem encodeQname_label {name label rest : Bytes} (starts : Starts name label rest)
    {base cap w : Nat} {written left : Bytes} (behind : written.length = base + w)
    (room : cap ≤ w + left.length) :
    encodeQname base cap name w (written ++ left) =
      if (label = [] ∨ 63 < label.length) ∨ cap < w + 1 + label.length + 1 then
        .ok (none, written ++ left)
      else
        encodeQname base cap rest (w + 1 + label.length)
          (written ++ .ofNat label.length :: label ++ left.drop (label.length + 1)) := by
  rw [encodeQname, if_neg starts.filled]
  simp only [starts.front, starts.back]
  by_cases invalid : label.length = 0 ∨ label.length > 63
  · have refused : label = [] ∨ 63 < label.length := by rwa [← List.length_eq_zero_iff]
    rw [if_pos invalid, if_pos (.inl refused)]
    rfl
  · have accepted : ¬ (label = [] ∨ 63 < label.length) := by rwa [← List.length_eq_zero_iff]
    rw [if_neg invalid]
    by_cases large : w + 1 + label.length + 1 > cap
    · rw [if_pos large, if_pos (.inr large)]
      rfl
    · rw [if_neg large, if_neg (not_or.mpr ⟨accepted, large⟩)]
      have sizeWritten : (written ++ [UInt8.ofNat label.length]).length = base + (w + 1) := by
        rw [List.length_append, behind]
        rfl
      rw [put, putRange_behind behind (by rw [List.length_singleton]; omega), ok_bind,
        ← List.append_assoc, putRange_behind sizeWritten (by rw [List.length_drop]; simp; omega),
        ok_bind]
      simp [Nat.add_comm]

theorem encodeQname_fits {base cap : Nat} (name : Bytes) {w : Nat} {written left : Bytes}
    (fits : Fits (labelsOf name) w cap) (behind : written.length = base + w)
    (room : cap ≤ w + left.length) :
    encodeQname base cap name w (written ++ left) =
      .ok (some (w + wireLength (labelsOf name)),
        written ++ (encodeLabels (labelsOf name) ++ 0 :: left.drop (wireLength (labelsOf name)))) := by
  induction name using name_induction generalizing w written left with
  | root =>
      have last : w + 1 ≤ cap := fits.2
      rw [encodeQname, if_pos rfl, put, putRange_behind behind (by rw [List.length_singleton]; omega)]
      rfl
  | label name label rest starts continued =>
      rw [starts.labels] at fits ⊢
      obtain ⟨⟨filled, short⟩, fits⟩ := fits_cons.mp fits
      have zero : w + 1 + label.length + 1 ≤ cap := Nat.le_trans (by simp [wireLength]) fits.2
      have size : (written ++ .ofNat label.length :: label).length = base + (w + 1 + label.length) := by
        rw [List.length_append, behind, List.length_cons]
        omega
      have accepted : ¬ ((label = [] ∨ 63 < label.length) ∨ cap < w + 1 + label.length + 1) := by
        rw [not_or, not_or]
        exact ⟨⟨filled, by omega⟩, by omega⟩
      rw [encodeQname_label starts behind room, if_neg accepted,
        continued fits size (by rw [List.length_drop]; omega), List.drop_drop, wireLength_cons,
        encodeLabels_cons]
      simp only [List.append_assoc, List.cons_append, Except.ok.injEq, Prod.mk.injEq,
        Option.some.injEq]
      refine ⟨by omega, ?_⟩
      congr 7
      omega

/-- The octets are counted even when the name is refused. -/
theorem encodeQname_unfit {base cap : Nat} (name : Bytes) {w : Nat} {written left : Bytes}
    (unfit : ¬ Fits (labelsOf name) w cap) (behind : written.length = base + w)
    (room : cap ≤ w + left.length) (last : w + 1 ≤ cap) :
    ∃ after, encodeQname base cap name w (written ++ left) = .ok (none, after) ∧
      after.length = written.length + left.length := by
  induction name using name_induction generalizing w written left with
  | root => exact absurd ⟨by simp, last⟩ unfit
  | label name label rest starts continued =>
      rw [starts.labels, fits_cons] at unfit
      rw [encodeQname_label starts behind room]
      split
      · exact ⟨_, rfl, List.length_append⟩
      · next accepted =>
        obtain ⟨valid, fitting⟩ := not_or.mp accepted
        obtain ⟨filled, short⟩ := not_or.mp valid
        have size : (written ++ .ofNat label.length :: label).length =
            base + (w + 1 + label.length) := by
          rw [List.length_append, behind, List.length_cons]
          omega
        have later : ¬ Fits (labelsOf rest) (w + 1 + label.length) cap :=
          fun fits => unfit ⟨⟨filled, by omega⟩, fits⟩
        obtain ⟨after, run, same⟩ :=
          @continued (w + 1 + label.length) _ (left.drop (label.length + 1)) later size
            (by rw [List.length_drop]; omega) (by omega)
        refine ⟨after, run, same.trans ?_⟩
        rw [size, List.length_drop]
        omega

/-! ## Reading the name back -/

theorem joinLabel_lowered (name label : Bytes) :
    joinLabel (name.map toLower) (label.map toLower) = (joinLabel name label).map toLower := by
  have dot : toLower 46 = 46 := by decide
  cases name with
  | nil => rfl
  | cons octet name => simp [joinLabel, dot]

theorem foldl_joinLabel_lowered (labels : List Bytes) (name : Bytes) :
    (labels.map (List.map toLower)).foldl joinLabel (name.map toLower) =
      (labels.foldl joinLabel name).map toLower := by
  induction labels generalizing name with
  | nil => rfl
  | cons label labels continued =>
      rw [List.map_cons, List.foldl_cons, joinLabel_lowered, continued, List.foldl_cons]

theorem stripDot_single {label : Bytes} (plain : 46 ∉ label) : stripDot label = label :=
  if_neg fun last => plain (List.mem_of_getLast? last)

theorem stripDot_append (label rest : Bytes) :
    stripDot (label ++ 46 :: rest) = if rest = [] then label else label ++ 46 :: stripDot rest := by
  cases rest with
  | nil => simp [stripDot]
  | cons octet rest =>
      rw [if_neg (List.cons_ne_nil _ _), stripDot, stripDot, List.getLast?_append_cons,
        List.getLast?_cons_cons]
      split
      · rw [List.dropLast_append_cons, List.dropLast_cons_cons]
      · rfl

/-- The labels joined again are the name without the full stop at its end. -/
theorem foldl_joinLabel (name : Bytes) (filled : ∀ label ∈ labelsOf name, label ≠ [])
    (start : Bytes) :
    (labelsOf name).foldl joinLabel start =
      if name = [] then start else joinLabel start (stripDot name) := by
  induction name using name_induction generalizing start with
  | root => rfl
  | label name label rest starts continued =>
      rw [starts.labels, List.forall_mem_cons] at filled
      have joined : joinLabel start label ≠ [] := by
        rw [joinLabel]
        simp [filled.1]
      rw [starts.labels, List.foldl_cons, continued filled.2, if_neg starts.filled]
      obtain rfl | ⟨rfl, -, rfl⟩ := starts.shape
      · rw [stripDot_append]
        split
        · rfl
        · rw [joinLabel, if_neg joined, joinLabel, joinLabel]
          simp
      · rw [if_pos rfl, stripDot_single starts.plain]

theorem lowered_name (name : Bytes) (filled : ∀ label ∈ labelsOf name, label ≠ []) :
    ((labelsOf name).map (List.map toLower)).foldl joinLabel [] = (stripDot name).map toLower := by
  have lowered := foldl_joinLabel_lowered (labelsOf name) []
  rw [List.map_nil] at lowered
  rw [lowered, foldl_joinLabel name filled]
  by_cases root : name = []
  · rw [if_pos root, root]
    rfl
  · rw [if_neg root]
    rfl

theorem join_id (id : UInt16) :
    (id >>> 8).toUInt8.toUInt16 <<< 8 ||| (id &&& 0xff).toUInt8.toUInt16 = id := by
  have low : (id &&& 0xff).toUInt8 = id.toUInt8 := by
    apply UInt8.toNat_inj.mp
    have masked := Nat.and_two_pow_sub_one_eq_mod (id.toNat % 256) 8
    simpa using masked
  rw [low, joinWord]

/-- The header of a query with one question. -/
def queryHeader (id : UInt16) : Bytes :=
  [(id >>> 8).toUInt8, (id &&& 0xff).toUInt8, 1, 0, 0, 1, 0, 0, 0, 0, 0, 0]

theorem parseQuestion_wire (id : UInt16) {labels : List Bytes}
    (valid : ∀ label ∈ labels, label ≠ [] ∧ label.length < 64) :
    Tailscale.parseQuestion (queryHeader id ++ (encodeLabels labels ++ 0 :: [0, 1, 0, 1])) =
      some ⟨(labels.map (List.map toLower)).foldl joinLabel [], 1, id⟩ := by
  have count (tail : Bytes) : Tailscale.join16 (queryHeader id ++ tail) 4 = 1 := by
    have high : octetAt (queryHeader id ++ tail) 4 = 0 := rfl
    have low : octetAt (queryHeader id ++ tail) (4 + 1) = 1 := rfl
    rw [Tailscale.join16, high, low]
    decide
  have same (tail : Bytes) : Tailscale.join16 (queryHeader id ++ tail) 0 = id := join_id id
  have body (tail : Bytes) : (queryHeader id ++ tail).drop 12 = tail := List.drop_left' rfl
  have long (tail : Bytes) : ¬ (queryHeader id ++ tail).length < 12 := by
    simp [queryHeader]
  rw [Tailscale.parseQuestion, if_neg (long _), count, if_neg (by decide), body, same,
    decodeQname_wire valid]
  rfl

/-! ## The query -/

/-- Some label is empty or too long, or the message does not fit. -/
def Unfit (name : CString) (cap : Nat) : Prop :=
  (∃ label ∈ labelsOf name.bytes, label = [] ∨ 63 < label.length) ∨
    cap < 12 + wireLength (labelsOf name.bytes) + 4

theorem not_unfit_iff {name : CString} {cap : Nat} (header : 12 + 5 ≤ cap) :
    ¬ Unfit name cap ↔ Fits (labelsOf name.bytes) 0 (cap - 12 - 4) := by
  have valid : (¬ ∃ label ∈ labelsOf name.bytes, label = [] ∨ 63 < label.length) ↔
      ∀ label ∈ labelsOf name.bytes, label ≠ [] ∧ label.length < 64 := by
    simp only [not_exists, not_and, not_or, Nat.not_lt, Nat.lt_succ_iff]
  rw [Unfit, not_or, valid, Fits, Nat.not_lt]
  refine and_congr_right fun _ => ?_
  omega

/-- The header of a query, as it is set octet by octet. -/
theorem query_header {out : Bytes} (room : 12 ≤ out.length) (id : UInt16) {α : Type}
    (next : Bytes → Access α) :
    (do
      let out ← putRange out 0 (List.replicate 12 0)
      let out ← put out 0 (id >>> 8).toUInt8
      let out ← put out 1 (id &&& 0xff).toUInt8
      let out ← put out 2 0x01
      let out ← put out 5 0x01
      next out) = next (queryHeader id ++ out.drop 12) := by
  rw [putRange_zeros room]
  simp [put, putRange, List.replicate, queryHeader]

/-- A query is built exactly when its name and its size allow it, and is read back. -/
theorem buildQuery_round_trip (name : CString) (id : UInt16) (out : Bytes) :
    ∃ built after, buildQuery name id out = .ok (built, after) ∧ after.length = out.length ∧
      (built = none ↔ Unfit name out.length) ∧
      ∀ n, built = some n → n ≤ out.length ∧
        parseQuestion (after.take n) = .ok (some ⟨(stripDot name.bytes).map toLower, 1, id⟩) := by
  rw [buildQuery]
  by_cases short : out.length < 12 + 5
  · rw [if_pos short]
    refine ⟨none, out, rfl, rfl, ?_, by simp⟩
    have unfit : Unfit name out.length := .inr (Nat.lt_of_lt_of_le short (by rw [wireLength]; omega))
    simpa using unfit
  · have header : 12 + 5 ≤ out.length := Nat.not_lt.mp short
    have size : (queryHeader id ++ out.drop 12).length = out.length := by
      rw [List.length_append, List.length_drop]
      simp only [queryHeader, List.length_cons, List.length_nil]
      omega
    have room : out.length - 12 - 4 ≤ 0 + (out.drop 12).length := by
      rw [List.length_drop]
      omega
    rw [if_neg short, query_header (by omega), size]
    by_cases fits : Fits (labelsOf name.bytes) 0 (out.length - 12 - 4)
    · have fitting := (not_unfit_iff header).mpr fits
      have ends := fits.2
      have length : (queryHeader id ++ (encodeLabels (labelsOf name.bytes) ++ [0])).length =
          12 + (0 + wireLength (labelsOf name.bytes)) := by
        rw [List.length_append, List.length_append, wireLength, Nat.zero_add]
        rfl
      have split (rest : Bytes) : queryHeader id ++ (encodeLabels (labelsOf name.bytes) ++ 0 :: rest) =
          queryHeader id ++ (encodeLabels (labelsOf name.bytes) ++ [0]) ++ rest := by
        simp
      rw [encodeQname_fits name.bytes fits (by rfl) room, ok_bind]
      simp only
      have behind : 4 ≤ ((out.drop 12).drop (wireLength (labelsOf name.bytes))).length := by
        rw [List.length_drop, List.length_drop]
        omega
      rw [split, putRange_behind length (by exact behind), ok_bind]
      refine ⟨_, _, rfl, ?_, by simpa using fitting, ?_⟩
      · rw [List.length_append, length]
        simp only [List.length_append, List.length_drop, List.length_cons, List.length_nil]
        omega
      · rintro n ⟨⟩
        refine ⟨by omega, ?_⟩
        rw [← List.append_assoc, List.take_left' (by rw [List.length_append, length]; rfl), ← split,
          parseQuestion_eq, parseQuestion_wire id fits.1,
          lowered_name name.bytes fun label member => (fits.1 label member).1]
    · obtain ⟨after, run, same⟩ :=
        @encodeQname_unfit 12 _ name.bytes 0 (queryHeader id) _ fits rfl room (by omega)
      rw [run, ok_bind]
      refine ⟨none, after, rfl, ?_, ?_, by simp⟩
      · rw [same, ← List.length_append, size]
      · simpa using not_not.mp (mt (not_unfit_iff header).mp fits)

end Sotoportego.Tailscale.DnsBuffer
