import Sotoportego.Lib.Run
import Sotoportego.Tailscale.HpackProperties

/-!
# How large the dynamic table grows

A size update becomes the limit of the table as it stands in the block. Over a history of
blocks the table stays within the 4096 octets of a fresh decoder, now and after one more
insertion, exactly while no update asks for more.
-/

set_option autoImplicit false

namespace Sotoportego.Tailscale

open Octets CText

namespace Hpack

/-- The size that the block asks for next, when a size update comes next. -/
def sizeUpdate (input : Bytes) : Option Nat :=
  let octet := octetAt input 0
  if octet &&& 0x80 ≠ 0 then none
  else if octet &&& 0x40 ≠ 0 then none
  else if octet &&& 0x20 ≠ 0 then (decodeInteger 5 input).map Prod.fst
  else none

/-- The decoder and the octets left, before every round of `Decode` and after the last one. -/
def rounds (decoder : HpackDecoder) (buf : Bytes) : List (HpackDecoder × Bytes) :=
  (decoder, buf) ::
    if buf = [] then []
    else
      match _ : decoder.decodeField buf with
      | none => []
      | some (_, next, rest) => rounds next rest
termination_by buf.length
decreasing_by exact HpackDecoder.decodeField_shorter (by assumption)

/-- The decoder after a block, whether the block was accepted or not. -/
def afterBlock (decoder : HpackDecoder) (buf : Bytes) : HpackDecoder :=
  (decoder.decode buf).2.2

/-- The table is within the limit, and so it is after any one insertion. -/
structure Bounded (decoder : HpackDecoder) : Prop where
  counted : decoder.dynamicSize = tableSize decoder.dynamic
  within : tableSize decoder.dynamic ≤ 4096
  insertion : ∀ entry, tableSize (decoder.addDynamic entry).dynamic ≤ 4096

/-- Every update of the block asks for at most 4096. -/
def UpdatesCapped (decoder : HpackDecoder) (buf : Bytes) : Prop :=
  ∀ round ∈ rounds decoder buf, ∀ size ∈ sizeUpdate round.2, size ≤ 4096

def RoundsBounded (decoder : HpackDecoder) (buf : Bytes) : Prop :=
  ∀ round ∈ rounds decoder buf, Bounded round.1

/-! ## One round -/

/-- The decoder of some table with this limit. -/
def Limited (max : Nat) (decoder : HpackDecoder) : Prop :=
  ∃ table : HeaderTable, table.max = max ∧ decoder = table.decoder

/-- An update that can be read is carried out. -/
theorem sizeUpdate_rejected {decoder : HpackDecoder} {input : Bytes}
    (rejected : decoder.decodeField input = none) : sizeUpdate input = none := by
  rw [HpackDecoder.decodeField] at rejected
  rw [sizeUpdate]
  simp only at rejected ⊢
  split
  next => rfl
  next indexed =>
    rw [if_neg indexed] at rejected
    split
    next => rfl
    next incremental =>
      rw [if_neg incremental] at rejected
      split
      next update =>
        rw [if_pos update, Option.map_eq_none_iff] at rejected
        rw [rejected]
        rfl
      next => rfl

/-- Only a size update changes the limit. -/
theorem decodeField_limited {max : Nat} {decoder next : HpackDecoder} {input rest : Bytes}
    {headers : List HpackHeader} (limited : Limited max decoder)
    (decoded : decoder.decodeField input = some (headers, next, rest)) :
    Limited ((sizeUpdate input).getD max) next := by
  obtain ⟨table, rfl, rfl⟩ := limited
  rw [HpackDecoder.decodeField] at decoded
  rw [sizeUpdate]
  simp only at decoded ⊢
  split at decoded
  next indexed =>
    rw [if_pos indexed]
    cases integer : decodeInteger 7 input with
    | none =>
        rw [integer] at decoded
        cases decoded
    | some result =>
        simp only [integer] at decoded
        obtain ⟨header, -, same⟩ := Option.map_eq_some_iff.mp decoded
        cases same
        exact ⟨table, rfl, rfl⟩
  next indexed =>
    rw [if_neg indexed]
    split at decoded
    next incremental =>
      rw [if_pos incremental]
      obtain ⟨result, -, same⟩ := Option.map_eq_some_iff.mp decoded
      cases same
      exact ⟨table.insert result.1, rfl, addDynamic_decoder result.1 table⟩
    next incremental =>
      rw [if_neg incremental]
      split at decoded
      next update =>
        rw [if_pos update]
        obtain ⟨result, integer, same⟩ := Option.map_eq_some_iff.mp decoded
        cases same
        rw [integer]
        exact ⟨table.resize result.1, rfl, setMaxDynamicSize_decoder result.1 table⟩
      next update =>
        rw [if_neg update]
        obtain ⟨result, -, same⟩ := Option.map_eq_some_iff.mp decoded
        cases same
        exact ⟨table, rfl, rfl⟩

def filler (extra : Nat) : HpackHeader := ⟨[], List.replicate extra 97⟩

theorem size_filler (extra : Nat) : (filler extra).size = extra + 32 := by
  simp [HpackHeader.size, filler]

theorem size_le_insert {table : HeaderTable} {entry : HpackHeader}
    (fits : entry.size ≤ table.max) : entry.size ≤ tableSize (table.insert entry).entries := by
  show entry.size ≤ tableSize (newest table.max (entry :: table.entries))
  rw [newest, if_pos fits, tableSize_cons]
  exact Nat.le_add_right _ _

/-- A larger limit lets in an entry that does not fit the table of the settings. -/
theorem bounded_iff {max : Nat} {decoder : HpackDecoder} (limited : Limited max decoder) :
    Bounded decoder ↔ max ≤ 4096 := by
  obtain ⟨table, rfl, rfl⟩ := limited
  have inserted (entry : HpackHeader) :
      (table.decoder.addDynamic entry).dynamic = (table.insert entry).entries := by
    rw [addDynamic_decoder]
    rfl
  constructor
  · intro bounded
    by_contra larger
    have size := size_filler (table.max - 32)
    have held := bounded.insertion (filler (table.max - 32))
    rw [inserted] at held
    have kept := size_le_insert (by omega : (filler (table.max - 32)).size ≤ table.max)
    omega
  · intro capped
    exact
      { counted := rfl
        within := Nat.le_trans table.fits capped
        insertion := by
          intro entry
          rw [inserted]
          exact Nat.le_trans (table.insert entry).fits capped }

/-! ## One block -/

theorem rounds_nil (decoder : HpackDecoder) : rounds decoder [] = [(decoder, [])] := by
  rw [rounds, if_pos rfl]

theorem rounds_rejected {decoder : HpackDecoder} {buf : Bytes}
    (rejected : decoder.decodeField buf = none) : rounds decoder buf = [(decoder, buf)] := by
  rw [rounds]
  split
  next => rfl
  next =>
    split
    next => rfl
    next found =>
      rw [rejected] at found
      cases found

theorem rounds_read {decoder next : HpackDecoder} {buf rest : Bytes} {headers : List HpackHeader}
    (filled : buf ≠ []) (decoded : decoder.decodeField buf = some (headers, next, rest)) :
    rounds decoder buf = (decoder, buf) :: rounds next rest := by
  rw [rounds, if_neg filled]
  split
  next rejected =>
    rw [decoded] at rejected
    cases rejected
  next found =>
    rw [decoded] at found
    cases found
    rfl

theorem afterBlock_nil (decoder : HpackDecoder) : afterBlock decoder [] = decoder := by
  rw [afterBlock, HpackDecoder.decode, if_pos rfl]

theorem afterBlock_rejected {decoder : HpackDecoder} {buf : Bytes}
    (rejected : decoder.decodeField buf = none) : afterBlock decoder buf = decoder := by
  rw [afterBlock, HpackDecoder.decode]
  split
  next => rfl
  next =>
    split
    next => rfl
    next found =>
      rw [rejected] at found
      cases found

theorem afterBlock_read {decoder next : HpackDecoder} {buf rest : Bytes}
    {headers : List HpackHeader} (filled : buf ≠ [])
    (decoded : decoder.decodeField buf = some (headers, next, rest)) :
    afterBlock decoder buf = afterBlock next rest := by
  rw [afterBlock, HpackDecoder.decode, if_neg filled]
  split
  next rejected =>
    rw [decoded] at rejected
    cases rejected
  next found =>
    rw [decoded] at found
    cases found
    rfl

/-- An empty block asks for nothing. -/
theorem sizeUpdate_nil : sizeUpdate [] = none := by
  decide

/-- Within the limit, a block is capped exactly when its rounds are bounded, and then the limit
stands after it. -/
theorem block_bounded (decoder : HpackDecoder) (buf : Bytes) :
    ∀ max ≤ 4096, Limited max decoder →
      (UpdatesCapped decoder buf ↔ RoundsBounded decoder buf) ∧
      (UpdatesCapped decoder buf → ∃ final ≤ 4096, Limited final (afterBlock decoder buf)) := by
  induction decoder, buf using rounds.induct with
  | case1 decoder buf continued =>
      intro max small limited
      have bounded := (bounded_iff limited).mpr small
      by_cases empty : buf = []
      · subst empty
        rw [UpdatesCapped, RoundsBounded, rounds_nil, afterBlock_nil]
        refine ⟨?_, fun _ => ⟨max, small, limited⟩⟩
        simp [bounded, sizeUpdate_nil]
      · cases decoded : decoder.decodeField buf with
        | none =>
            rw [UpdatesCapped, RoundsBounded, rounds_rejected decoded, afterBlock_rejected decoded]
            refine ⟨?_, fun _ => ⟨max, small, limited⟩⟩
            simp [bounded, sizeUpdate_rejected decoded]
        | some result =>
            obtain ⟨headers, next, rest⟩ := result
            have onward := decodeField_limited limited decoded
            have later := continued headers next rest decoded
            rw [UpdatesCapped, RoundsBounded, rounds_read empty decoded,
              afterBlock_read empty decoded, List.forall_mem_cons, List.forall_mem_cons]
            by_cases capped : ∀ size ∈ sizeUpdate buf, size ≤ 4096
            · have following : (sizeUpdate buf).getD max ≤ 4096 := by
                cases update : sizeUpdate buf with
                | none => exact small
                | some size => exact capped size update
              obtain ⟨same, final⟩ := later _ following onward
              exact ⟨and_congr (iff_of_true capped bounded) same, fun allowed => final allowed.2⟩
            · refine ⟨iff_of_false (fun allowed => capped allowed.1) ?_,
                fun allowed => absurd allowed.1 capped⟩
              rintro ⟨-, every⟩
              obtain ⟨size, update, larger⟩ : ∃ size, sizeUpdate buf = some size ∧ 4096 < size := by
                simpa using capped
              rw [update] at onward
              have first : (next, rest) ∈ rounds next rest := by
                rw [rounds]
                exact List.mem_cons_self
              have within := (bounded_iff onward).mp (every _ first)
              exact Nat.not_le_of_lt larger within

/-! ## Histories -/

theorem limited_fresh : Limited 4096 {} :=
  ⟨{}, rfl, rfl⟩

/-- Every history of a fresh decoder keeps its table within 4096 octets, in every round and
after one more insertion, exactly when all its size updates ask for at most 4096. -/
theorem dynamic_table_bounded_iff (blocks : List Bytes) :
    Run.Along afterBlock UpdatesCapped {} blocks ↔ Run.Along afterBlock RoundsBounded {} blocks := by
  refine @Run.along_iff _ _ afterBlock UpdatesCapped
    (fun decoder => ∃ max ≤ 4096, Limited max decoder) RoundsBounded ?_ ?_ _ _
    ⟨4096, Nat.le_refl _, limited_fresh⟩
  · rintro decoder buf bounded ⟨max, small, limited⟩
    obtain ⟨same, final⟩ := block_bounded decoder buf max small limited
    exact final (same.mpr bounded)
  · rintro decoder buf ⟨max, small, limited⟩
    exact (block_bounded decoder buf max small limited).1

/-! A peer that raises the limit to 5000 and then adds a header of 4138 octets. -/

namespace BoundSample

def update : Bytes := [0x3f, 0xe9, 0x26]

/-- An `:authority` of this many octets, to be kept. -/
def large (size : Nat) : Bytes :=
  HpackEncoder.encodeInteger 6 0x40 1 ++
    (HpackEncoder.encodeInteger 7 0 (List.replicate size (97 : UInt8)).length ++
      List.replicate size 97)

theorem coded_large {size : Nat} (small : size < 2 ^ 28) :
    FieldCoded (.literal .incremental (.indexed 1) (List.replicate size 97)) (large size) :=
  .literal (.indexed (by decide) (by decide)) (.raw (by simp) (by simpa using small))

theorem raised (rest : Bytes) :
    HpackDecoder.decodeField {} (update ++ rest) =
      some ([], (HeaderTable.resize 5000 {}).decoder, rest) := by
  have octet : octetAt (update ++ rest) 0 = 0x3f := rfl
  have integer : decodeInteger 5 (update ++ rest) = some (5000, rest) := rfl
  rw [HpackDecoder.decodeField, octet, integer]
  exact congrArg (fun decoder => some ([], decoder, rest)) (setMaxDynamicSize_decoder 5000 {})

theorem afterBlock_large {size : Nat} (small : size + 42 ≤ 5000) :
    size + 42 ≤ tableSize (afterBlock {} (update ++ large size)).dynamic := by
  have address : (HeaderTable.resize 5000 {}).address 1 = some (header ":authority" "") := rfl
  have named : (ascii ":authority").length = 10 := by decide
  have entry : (⟨ascii ":authority", List.replicate size 97⟩ : HpackHeader).size = size + 42 := by
    rw [HpackHeader.size, named, List.length_replicate]
    omega
  have added := decode_field (coded_large (by omega : size < 2 ^ 28)) (HeaderTable.resize 5000 {}) []
  rw [List.append_nil] at added
  simp only [Field.meaning, NameRef.meaning, address, Option.map_some] at added
  rw [afterBlock_read (by simp [update]) (raised _), afterBlock, added, HpackDecoder.decode,
    if_pos rfl, ← entry]
  exact size_le_insert (Nat.le_trans (Nat.le_of_eq entry) small)

end BoundSample

/-- An update above the settings lets the table outgrow them. -/
theorem table_overgrown :
    ¬ ∀ blocks : List Bytes, tableSize (Run.run afterBlock {} blocks).dynamic ≤ 4096 := by
  intro claim
  have grown := BoundSample.afterBlock_large (by decide : 4096 + 42 ≤ 5000)
  exact absurd (Nat.le_trans grown (claim [BoundSample.update ++ BoundSample.large 4096]))
    (by decide)

end Hpack

end Sotoportego.Tailscale
