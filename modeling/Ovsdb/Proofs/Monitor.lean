import Ovsdb.Monitor
import Ovsdb.Proofs.Json.Members
import Ovsdb.Proofs.Value.Canonical
import Ovsdb.Proofs.Value.Grammar

/-! What comes back of monitor requests and of table updates, and which JSON values are read as table updates. Nothing
    gets lost between the members of an object and the entries of a map, at any of the four levels. -/

namespace Ovsdb
open Decoder (Given)

/-! ### Requests -/

theorem MonitorSelect.restores (s : MonitorSelect) : Restores decode toJson s := by
  have holds : record.Holds s.toJson s := Record.Holds.of MonitorSelect.mk rfl
    |>.withDefault (.bool s.initial) (.inl (by simp))
    |>.withDefault (.bool s.insert) (.inl (by simp))
    |>.withDefault (.bool s.delete) (.inl (by simp))
    |>.withDefault (.bool s.modify) (.inl (by simp))
  exact holds.restores

/-- No columns are written as none at all, which is what the default makes of it. -/
theorem MonitorRequest.restores (r : MonitorRequest) : Restores decode toJson r := by
  have columns : r.toJson.member? "columns" = some (.arr (r.columns.map Id.toJson)) ∨
      r.toJson.member? "columns" = none ∧ r.columns = [] := by
    cases hc : r.columns <;> simp [toJson, hc]
  have holds : record.Holds r.toJson r := Record.Holds.of MonitorRequest.mk rfl
    |>.withDefault (.list fun i _ => .id i) columns
    |>.optional (fun s _ => s.restores) (by split <;> simp)
  exact holds.restores

theorem MonitorRequests.restores (r : MonitorRequests) : Restores decode toJson r :=
  .dict Id.ofName_text fun e _ => e.2.restores

/-! ### Updates -/

/-- The values of the columns of a row. -/
def Row.values (r : Row) : List Value :=
  r.entries.map Prod.snd

namespace RowUpdate

def values (u : RowUpdate) : List Value :=
  (u.old.toList ++ u.new.toList).flatMap Row.values

def mapValues (f : Value → Value) (u : RowUpdate) : RowUpdate :=
  ⟨u.old.map (Dict.map f), u.new.map (Dict.map f)⟩

end RowUpdate

namespace TableUpdate

def values (u : TableUpdate) : List Value :=
  u.entries.flatMap fun e => e.2.values

def mapValues (f : Value → Value) (u : TableUpdate) : TableUpdate :=
  u.map (RowUpdate.mapValues f)

end TableUpdate

namespace TableUpdates

/-- The values of all columns of all rows, old and new ones. -/
def values (u : TableUpdates) : List Value :=
  u.entries.flatMap fun e => e.2.values

/-- The same changes of the same rows, with other values in their columns. -/
def mapValues (f : Value → Value) (u : TableUpdates) : TableUpdates :=
  u.map (TableUpdate.mapValues f)

end TableUpdates

/-! What is written of the normal form of a value is what is written of the value. -/

theorem Row.toJson_norm (r : Row) : Row.toJson (r.map Value.norm) = Row.toJson r := by
  simp [Row.toJson, Dict.map, Value.toJson_norm]

theorem RowUpdate.toJson_norm (u : RowUpdate) : (u.mapValues Value.norm).toJson = u.toJson := by
  obtain ⟨old, new⟩ := u
  cases old <;> cases new <;> simp [mapValues, toJson, Json.optionalMember, Row.toJson_norm]

theorem TableUpdate.toJson_norm (u : TableUpdate) : TableUpdate.toJson (u.mapValues Value.norm) = u.toJson := by
  simp [TableUpdate.toJson, mapValues, Dict.map, RowUpdate.toJson_norm]

theorem TableUpdates.toJson_norm (u : TableUpdates) : TableUpdates.toJson (u.mapValues Value.norm) = u.toJson := by
  simp [TableUpdates.toJson, mapValues, Dict.map, TableUpdate.toJson_norm]

/-! Values that are normal already. -/

theorem Row.map_eq_self {f : Value → Value} {r : Row} (h : ∀ v ∈ Row.values r, f v = v) : r.map f = r :=
  Dict.map_eq_self fun e mem => h e.2 (List.mem_map_of_mem mem)

theorem RowUpdate.mapValues_eq_self {f : Value → Value} {u : RowUpdate} (h : ∀ v ∈ u.values, f v = v) :
    u.mapValues f = u := by
  obtain ⟨old, new⟩ := u
  have rows : ∀ r ∈ old.toList ++ new.toList, Dict.map f r = r :=
    fun r mem => Row.map_eq_self fun v there => h v (List.mem_flatMap.mpr ⟨r, mem, there⟩)
  cases old <;> cases new <;> simp_all [mapValues]

theorem TableUpdate.mapValues_eq_self {f : Value → Value} {u : TableUpdate} (h : ∀ v ∈ u.values, f v = v) :
    u.mapValues f = u :=
  Dict.map_eq_self fun e mem => RowUpdate.mapValues_eq_self fun v there => h v (List.mem_flatMap.mpr ⟨e, mem, there⟩)

theorem TableUpdates.mapValues_eq_self {f : Value → Value} {u : TableUpdates} (h : ∀ v ∈ u.values, f v = v) :
    u.mapValues f = u :=
  Dict.map_eq_self fun e mem => TableUpdate.mapValues_eq_self fun v there => h v (List.mem_flatMap.mpr ⟨e, mem, there⟩)

/-! Normal forms are restored. -/

theorem Value.restores_norm {v : Value} (finite : v.isFinite = true) : Restores decode toJson v.norm := by
  have read : ofJson v.norm.toJson = .ok v.norm := by rw [toJson_norm, ofJson_toJson finite]
  refine .lift read fun null => ?_
  rw [null] at read
  cases read

theorem Row.restores_norm {r : Row} (finite : ∀ v ∈ Row.values r, v.isFinite = true) :
    Restores decode toJson (r.map Value.norm) :=
  .dict Id.ofName_text (Dict.forall_mem_map.mpr fun e mem =>
    Value.restores_norm (finite e.2 (List.mem_map_of_mem mem)))

theorem RowUpdate.restores {u : RowUpdate} (old : ∀ r ∈ u.old, Restores Row.decode Row.toJson r)
    (new : ∀ r ∈ u.new, Restores Row.decode Row.toJson r) : Restores decode toJson u := by
  have holds : record.Holds u.toJson u := Record.Holds.of RowUpdate.mk rfl
    |>.optional old (by simp)
    |>.optional new (by simp)
  exact holds.restores

theorem RowUpdate.restores_norm {u : RowUpdate} (finite : ∀ v ∈ u.values, v.isFinite = true) :
    Restores decode toJson (u.mapValues Value.norm) := by
  have row {r : Row} (mem : r ∈ u.old.toList ++ u.new.toList) : Restores Row.decode Row.toJson (r.map Value.norm) :=
    Row.restores_norm fun v there => finite v (List.mem_flatMap.mpr ⟨r, mem, there⟩)
  refine restores (Option.forall_mem_map.mpr fun r there => ?_) (Option.forall_mem_map.mpr fun r there => ?_)
  · exact row (List.mem_append_left _ (Option.mem_toList.mpr there))
  · exact row (List.mem_append_right _ (Option.mem_toList.mpr there))

/-- Rows are read by the names of their UUIDs, and then the UUIDs are checked. -/
theorem TableUpdate.decode_eq_ok {j : Json} {u : TableUpdate} :
    decode j = .ok u ↔ Decoder.dict .ok RowUpdate.decode j = .ok u.byName := by
  have checked (rows : List (String × RowUpdate)) (entries : List (Uuid × RowUpdate)) :
      List.Forall₂ (fun e e' => ∃ uuid : Uuid, e.1 = uuid.text ∧ (uuid, e.2) = e') rows entries ↔
        rows = entries.map fun e => (e.1.text, e.2) := by
    rw [← List.forall₂_eq_eq_eq, List.forall₂_map_right_iff]
    refine forall₂_iff_of_mem fun e _ e' => ⟨?_, ?_⟩
    · rintro ⟨uuid, name, rfl⟩
      exact Prod.ext name rfl
    · rintro rfl
      exact ⟨e'.1, rfl, rfl⟩
  simp only [decode, bind_eq_ok, mapM_eq_ok, pure_eq_ok, mapError_eq_ok, Uuid.ofString_eq_ok, checked]
  constructor
  · -- The rows are in the order of their names already, in which they stay.
    rintro ⟨⟨_, sorted⟩, read, entries, rfl, rfl⟩
    rw [List.pairwise_map] at sorted
    have kept : Dict.ofList entries = ⟨entries, sorted⟩ := Dict.ofList_entries ⟨entries, sorted⟩
    rw [kept]
    exact read
  · intro read
    exact ⟨u.byName, read, u.entries, rfl, Dict.ofList_entries u⟩

theorem TableUpdate.restores {u : TableUpdate} (h : ∀ e ∈ u.entries, Restores RowUpdate.decode RowUpdate.toJson e.2) :
    Restores decode toJson u := by
  refine ⟨decode_eq_ok.mpr ?_, nofun⟩
  have rows : ∀ e ∈ u.byName.entries, Restores RowUpdate.decode RowUpdate.toJson e.2 :=
    List.forall_mem_map.mpr h
  have read : Decoder.dict .ok RowUpdate.decode (.obj (u.byName.entries.map fun e => (e.1, e.2.toJson))) =
      .ok u.byName := (Restores.dict (fun _ => rfl) rows).read
  rw [Dict.byName, List.map_map] at read
  exact read

theorem TableUpdate.restores_norm {u : TableUpdate} (finite : ∀ v ∈ u.values, v.isFinite = true) :
    Restores decode toJson (u.mapValues Value.norm) :=
  restores (Dict.forall_mem_map.mpr fun e mem =>
    RowUpdate.restores_norm fun v there => finite v (List.mem_flatMap.mpr ⟨e, mem, there⟩))

theorem TableUpdates.restores_norm {u : TableUpdates} (finite : ∀ v ∈ u.values, v.isFinite = true) :
    Restores decode toJson (u.mapValues Value.norm) :=
  .dict Id.ofName_text (Dict.forall_mem_map.mpr fun e mem =>
    TableUpdate.restores_norm fun v there => finite v (List.mem_flatMap.mpr ⟨e, mem, there⟩))

/-! ### What updates are read from -/

/-- A row has one column for each member of an object. -/
def Row.Mirrors : Json → Row → Prop :=
  Dict.Mirrors fun j v => Value.ofJson j = .ok v

/-- The old and the new row are what an object has under these names, or an array in this order. -/
structure RowUpdate.Mirrors (j : Json) (u : RowUpdate) : Prop where
  holds : j.MayHold 2
  old : Given Row.Mirrors (j.slot? 0 "old") u.old
  new : Given Row.Mirrors (j.slot? 1 "new") u.new

/-- A table has one row for each member of an object. -/
def TableUpdate.Mirrors : Json → TableUpdate → Prop :=
  Dict.Mirrors RowUpdate.Mirrors

/-- There is one table for each member of an object. -/
def TableUpdates.Mirrors : Json → TableUpdates → Prop :=
  Dict.Mirrors TableUpdate.Mirrors

/-- The wire forms of rows. -/
def Row.Wire (j : Json) : Prop :=
  ∃ members, j = .obj members ∧ ∀ m ∈ members, isIdentifier m.1 = true ∧ Value.Wire m.2

/-- The wire forms of updates to a row: the old and the new contents, either of which may be absent or null. -/
structure RowUpdate.Wire (j : Json) : Prop where
  holds : j.MayHold 2
  old : ∀ row ∈ j.slot? 0 "old", row ≠ .null → Row.Wire row
  new : ∀ row ∈ j.slot? 1 "new", row ≠ .null → Row.Wire row

/-- The wire forms of updates to a table, by the ids of the rows. -/
def TableUpdate.Wire (j : Json) : Prop :=
  ∃ members, j = .obj members ∧ ∀ m ∈ members, m.1.utf8ByteSize = 36 ∧ RowUpdate.Wire m.2

/-- The wire forms of updates, by the names of the tables. -/
def TableUpdates.Wire (j : Json) : Prop :=
  ∃ members, j = .obj members ∧ ∀ m ∈ members, isIdentifier m.1 = true ∧ TableUpdate.Wire m.2

section
variable {j : Json}

theorem Row.means : decode.Means Mirrors :=
  .dict (fun _ _ => Id.ofName_eq_ok) fun _ _ _ => mapError_eq_ok

theorem RowUpdate.decode_eq_ok {u : RowUpdate} : decode j = .ok u ↔ j.MayHold 2 ∧
    Given (fun j r => Row.decode j = .ok r) (j.slot? 0 "old") u.old ∧
    Given (fun j r => Row.decode j = .ok r) (j.slot? 1 "new") u.new := by
  refine Record.decode_eq_ok (r := record) (P := fun find =>
    Given (fun j r => Row.decode j = .ok r) (find 0 "old") u.old ∧
    Given (fun j r => Row.decode j = .ok r) (find 1 "new") u.new) fun source => ?_
  simp only [record, Record.build_optional]
  constructor
  · rintro ⟨_, new, ⟨_, old, ⟨⟩, givenOld, rfl⟩, givenNew, rfl⟩
    exact ⟨givenOld, givenNew⟩
  · rintro ⟨givenOld, givenNew⟩
    exact ⟨_, u.new, ⟨_, u.old, rfl, givenOld, rfl⟩, givenNew, rfl⟩

theorem RowUpdate.means : decode.Means Mirrors := by
  intro j u distinct
  have row {i : Nat} {label : String} (k : Json) (found : k ∈ j.slot? i label) (r : Row) :
      Row.decode k = .ok r ↔ Row.Mirrors k r := Row.means k r (distinct.slot found)
  rw [decode_eq_ok]
  constructor
  · rintro ⟨holds, old, new⟩
    exact ⟨holds, old.mono fun k found r => (row k found r).mp, new.mono fun k found r => (row k found r).mp⟩
  · rintro ⟨holds, old, new⟩
    exact ⟨holds, old.mono fun k found r => (row k found r).mpr, new.mono fun k found r => (row k found r).mpr⟩

theorem TableUpdate.means : decode.Means Mirrors := by
  intro j u distinct
  have keys (s k : String) : (.ok s : Except Mismatch String) = .ok k ↔ s = nameOf k :=
    ⟨Except.ok.inj, congrArg Except.ok⟩
  rw [decode_eq_ok, Decoder.Means.dict keys RowUpdate.means j _ distinct, Dict.mirrors_byName]
  rfl

theorem TableUpdates.means : decode.Means Mirrors :=
  .dict (fun _ _ => Id.ofName_eq_ok) TableUpdate.means

/-! Which values are read at all. -/

theorem Value.exists_decode : (∃ v, decode j = .ok v) ↔ Wire j := by
  simp only [decode, Decoder.lift, mapError_eq_ok]
  refine ⟨?_, ok_of_wire⟩
  rintro ⟨v, read⟩
  exact wire_of_ok read

theorem Row.exists_decode : (∃ r, decode j = .ok r) ↔ Wire j := by
  simp only [decode, Decoder.dict_accepts, Id.exists_ofName, Value.exists_decode, Wire]

theorem RowUpdate.exists_decode : (∃ u, decode j = .ok u) ↔ Wire j := by
  have row (i : Nat) (label : String) : (∃ o, Given (fun j r => Row.decode j = .ok r) (j.slot? i label) o) ↔
      ∀ row ∈ j.slot? i label, row ≠ .null → Row.Wire row := by
    simp only [Decoder.exists_given, Row.exists_decode]
  simp only [decode_eq_ok]
  constructor
  · rintro ⟨u, holds, old, new⟩
    exact ⟨holds, (row 0 "old").mp ⟨_, old⟩, (row 1 "new").mp ⟨_, new⟩⟩
  · rintro ⟨holds, old, new⟩
    obtain ⟨old, givenOld⟩ := (row 0 "old").mpr old
    obtain ⟨new, givenNew⟩ := (row 1 "new").mpr new
    exact ⟨⟨old, new⟩, holds, givenOld, givenNew⟩

/-- A check of the UUIDs along the way would refuse the same tables. -/
theorem TableUpdate.decode_eq_dict {u : TableUpdate} (distinct : j.Distinct) : decode j = .ok u ↔
    Decoder.dict (fun s => (Uuid.ofString s).mapError .refused) RowUpdate.decode j = .ok u := by
  rw [TableUpdate.means j u distinct]
  exact (Decoder.Means.dict (fun _ _ => mapError_eq_ok.trans Uuid.ofString_eq_ok) RowUpdate.means j u distinct).symm

theorem TableUpdate.exists_decode (distinct : j.Distinct) : (∃ u, decode j = .ok u) ↔ Wire j := by
  simp only [decode_eq_dict distinct, Decoder.dict_accepts, mapError_eq_ok, Uuid.exists_ofString,
    RowUpdate.exists_decode, Wire]

theorem TableUpdates.exists_decode (distinct : j.Distinct) : (∃ u, decode j = .ok u) ↔ Wire j := by
  rw [decode, Decoder.dict_accepts, Wire]
  refine exists_congr fun members => and_congr_right fun same => forall₂_congr fun m mem => ?_
  subst same
  rw [Id.exists_ofName, TableUpdate.exists_decode (distinct.member mem)]

end

/-- What monitoring transmits is not lost. Updates come back with their values in normal form, requests as they were;
    what is read has one entry for each member, and all is refused if a name or a value is wrong. -/
theorem monitoring_is_lossless :
    (∀ u : TableUpdates, (∀ v ∈ u.values, v.isFinite = true) →
      TableUpdates.decode u.toJson = .ok (u.mapValues Value.norm) ∧
        ((∀ v ∈ u.values, v.isNormal = true) → TableUpdates.decode u.toJson = .ok u)) ∧
    (∀ r : MonitorRequests, MonitorRequests.decode r.toJson = .ok r) ∧
    ∀ j : Json, j.Distinct → (∀ u, TableUpdates.decode j = .ok u ↔ TableUpdates.Mirrors j u) ∧
      ((∃ u, TableUpdates.decode j = .ok u) ↔ TableUpdates.Wire j) := by
  refine ⟨fun u finite => ?_, fun r => r.restores.read, fun j distinct => ⟨fun u => ?_, ?_⟩⟩
  · have read : TableUpdates.decode u.toJson = .ok (u.mapValues Value.norm) := by
      rw [← u.toJson_norm]
      exact (TableUpdates.restores_norm finite).read
    refine ⟨read, fun normal => read.trans (congrArg Except.ok ?_)⟩
    exact TableUpdates.mapValues_eq_self fun v mem => Value.norm_eq_self (normal v mem)
  · exact TableUpdates.means j u distinct
  · exact TableUpdates.exists_decode distinct

/-- A row that was there without any of its columns, and one that was not there. -/
def bridges : TableUpdates :=
  ⟨[(⟨"Bridge", by decide⟩, ⟨[
    (⟨"550e8400-e29b-41d4-a716-446655440000", by decide⟩, ⟨some .empty,
      some ⟨[(⟨"name", by decide⟩, .string "br0"), (⟨"ports", by decide⟩, .set [.integer 7])], by decide⟩⟩),
    (⟨"650e8400-e29b-41d4-a716-446655440000", by decide⟩, ⟨none, some ⟨[(⟨"name", by decide⟩, .string "br1")],
      by decide⟩⟩)], by decide⟩)], by decide⟩

/-- They come back with the set of one port as that port, and once more as they are; with a key for one of the rows
    that is too short nothing comes back. -/
theorem monitoring_is_lossless_bridges :
    let normal := bridges.mapValues Value.norm
    let short : Json := .obj [("Bridge", .obj [("550e8400", .obj [])])]
    TableUpdates.decode bridges.toJson = .ok normal ∧ TableUpdates.decode normal.toJson = .ok normal ∧
      TableUpdates.Mirrors bridges.toJson normal ∧ ¬ ∃ u, TableUpdates.decode short = .ok u := by
  intro normal short
  obtain ⟨restored, -, read⟩ := monitoring_is_lossless
  have back := (restored bridges (by decide)).1
  have same := (restored normal (by decide)).2 (by decide)
  have distinct : bridges.toJson.Distinct := by
    simp [Json.Distinct, bridges, TableUpdates.toJson, TableUpdate.toJson, RowUpdate.toJson, Row.toJson,
      Json.optionalMember, Value.toJson, Json.parts, Json.membersParts, Dict.empty]
  have refused : ¬ TableUpdates.Wire short := by
    rintro ⟨tables, same, each⟩
    obtain rfl := Json.obj.inj same
    obtain ⟨-, _, ⟨⟩, rows⟩ := each _ List.mem_cons_self
    exact absurd (rows _ List.mem_cons_self).1 (by decide)
  have shortDistinct : short.Distinct := by simp [short, Json.Distinct, Json.parts, Json.membersParts]
  exact ⟨back, same, ((read _ distinct).1 normal).mp back, fun found => refused ((read short shortDistinct).2.mp found)⟩

end Ovsdb
