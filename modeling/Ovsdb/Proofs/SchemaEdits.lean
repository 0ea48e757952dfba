import Ovsdb.Proofs.Cardinality
import Ovsdb.Proofs.Json.Edits
import Ovsdb.Proofs.Value.Sets

/-! What is read of a schema does not depend on the order of members, nor on members that are no fields; only which
    error is reported does. -/

namespace Ovsdb

/-! ### Parts without records -/

theorem Value.Wire.plain {j : Json} (h : Wire j) : j.Plain := by
  induction h with
  | string s => exact .str s
  | boolean b => exact .bool b
  | integer n => exact .int n
  | real x finite => exact .float x finite
  | uuid s _ | namedUuid s => exact .arr (by simp [Json.Plain.str])
  | set items _ ih => exact .arr (by simpa [Json.Plain.str] using .arr ih)
  | map pairs _ _ keys values =>
    have entries : ∀ j ∈ pairs.map fun p : Json × Json => Json.arr [p.1, p.2], j.Plain :=
      List.forall_mem_map.mpr fun p mem => .arr (by simpa using ⟨keys p mem, values p mem⟩)
    exact .arr (by simpa [Json.Plain.str] using .arr entries)

theorem ValueSet.takesPlain : TakesPlain ofJson := by
  intro j s read
  obtain ⟨v, taken, -⟩ := ofJson_eq_ok.mp read
  exact (Value.wire_of_ok taken).plain

theorem Bound.takesPlain : TakesPlain decode := by
  intro j b read
  obtain ⟨s, rfl, -⟩ | ⟨n, i, rfl, -⟩ := decode_eq_ok.mp read
  · exact .str s
  · exact .int n

namespace RefType

theorem eq_of_decode {j : Json} {t : RefType} (read : decode j = .ok t) :
    (∃ s, j = .str s) ∨ ∃ s, j = .obj [(s, .null)] := by
  revert read
  fun_cases decode j with
  | case1 s => exact fun _ => .inl ⟨s, rfl⟩
  | case4 s => exact fun _ => .inr ⟨s, rfl⟩
  | _ => exact fun read => nomatch read

/-- There is nothing in the object form that could be changed. -/
theorem edit_iff {j k : Json} (edit : Json.Edit .value j k) (s : String) :
    j = .obj [(s, .null)] ↔ k = .obj [(s, .null)] := by
  cases edit with
  | order perm =>
    simp only [Json.obj.injEq]
    constructor
    · rintro rfl
      exact (List.singleton_perm.mp perm).symm
    · rintro rfl
      exact List.perm_singleton.mp perm
  | item _ => simp
  | member inner => simp [List.append_eq_singleton_iff, inner.ne_null]

theorem steady : Layout.value.Steady decode := by
  intro j k _ edit t
  constructor
  · intro read
    obtain ⟨s, rfl⟩ | ⟨s, rfl⟩ := eq_of_decode read
    · exact absurd rfl (edit.ne_str s).1
    · exact (edit_iff edit s).mp rfl ▸ read
  · intro read
    obtain ⟨s, rfl⟩ | ⟨s, rfl⟩ := eq_of_decode read
    · exact absurd rfl (edit.ne_str s).2
    · exact (edit_iff edit s).mpr rfl ▸ read

end RefType

/-! ### Records

The names of the tables and of the columns are data, so a member with another name is not one that is ignored. -/

def ConstrainedType.layout : Layout :=
  .record [("type", .value), ("enum", .value), ("minInteger", .value), ("maxInteger", .value), ("minReal", .value),
    ("maxReal", .value), ("minLength", .value), ("maxLength", .value), ("refTable", .value), ("refType", .value)]

def ColumnShape.layout : Layout :=
  .record [("key", ConstrainedType.layout), ("value", ConstrainedType.layout), ("min", .value), ("max", .value)]

def ColumnSchema.layout : Layout :=
  .record [("type", ColumnShape.layout), ("ephemeral", .value), ("mutable", .value)]

def TableSchema.layout : Layout :=
  .record [("columns", .dict ColumnSchema.layout), ("maxRows", .value), ("isRoot", .value), ("indexes", .value)]

def DatabaseSchema.layout : Layout :=
  .record [("name", .value), ("version", .value), ("cksum", .value), ("tables", .dict TableSchema.layout)]

theorem ConstrainedType.steady : layout.Steady decode := by
  have fields := Record.Steady.of ConstrainedType.mk
    |>.required "type" (TakesPlain.checked AtomicType.ofString).steady
    |>.optional "enum" (TakesPlain.lift ValueSet.takesPlain).steady
    |>.optional "minInteger" TakesPlain.int64.steady
    |>.optional "maxInteger" TakesPlain.int64.steady
    |>.optional "minReal" TakesPlain.float.steady
    |>.optional "maxReal" TakesPlain.float.steady
    |>.optional "minLength" TakesPlain.uint64.steady
    |>.optional "maxLength" TakesPlain.uint64.steady
    |>.optional "refTable" (TakesPlain.checked Id.ofString).steady
    |>.optional "refType" RefType.steady
  exact fields.decode (by decide)

theorem BaseType.steady : ConstrainedType.layout.Steady decode :=
  .lift (ConstrainedType.steady.beside_str ofJson.eq_2)

theorem ColumnShape.steady : layout.Steady decode := by
  have fields := Record.Steady.of ColumnShape.mk
    |>.required "key" BaseType.steady
    |>.optional "value" BaseType.steady
    |>.optional "min" TakesPlain.uint64.steady
    |>.optional "max" Bound.takesPlain.steady
  exact fields.decode (by decide)

theorem ColumnType.steady : ColumnShape.layout.Steady decode :=
  .lift (ColumnShape.steady.beside_str ofJson.eq_2)

theorem ColumnSchema.steady : layout.Steady decode := by
  have fields := Record.Steady.of ColumnSchema.mk
    |>.required "type" ColumnType.steady
    |>.withDefault "ephemeral" TakesPlain.bool.steady false
    |>.withDefault "mutable" TakesPlain.bool.steady true
  exact fields.decode (by decide)

theorem TableSchema.steady : layout.Steady decode := by
  have fields := Record.Steady.of TableSchema.mk
    |>.required "columns" (.dict (fun _ _ => Id.ofName_eq_ok) ColumnSchema.steady)
    |>.optional "maxRows" TakesPlain.uint64.steady
    |>.withDefault "isRoot" TakesPlain.bool.steady false
    |>.withDefault "indexes" (TakesPlain.checked Id.ofString).list.list.steady []
  exact fields.decode (by decide)

theorem DatabaseSchema.steady : layout.Steady decode := by
  have fields := Record.Steady.of DatabaseSchema.mk
    |>.required "name" (TakesPlain.checked Id.ofString).steady
    |>.required "version" (TakesPlain.checked Version.ofString).steady
    |>.optional "cksum" TakesPlain.string.steady
    |>.required "tables" (.dict (fun _ _ => Id.ofName_eq_ok) TableSchema.steady)
  exact fields.decode (by decide)

namespace DatabaseSchema

/-- A schema is read from a document, or the document is refused, whatever the order of the members of its objects is
    and whatever members there are beside the fields. -/
theorem decode_of_edits {j k : Json} (distinct : j.Distinct) (edits : Relation.ReflTransGen (Json.Edit layout) j k) :
    (∃ s, decode j = .ok s ∧ decode k = .ok s) ∨ ∃ e e', decode j = .error e ∧ decode k = .error e' := by
  have same : k.Distinct ∧ ∀ s, decode j = .ok s ↔ decode k = .ok s := by
    induction edits with
    | refl => exact ⟨distinct, fun _ => Iff.rfl⟩
    | tail _ edit ih => exact ⟨edit.distinct ih.1, fun s => (ih.2 s).trans (steady ih.1 edit s)⟩
  cases hj : decode j with
  | ok s => exact .inl ⟨s, rfl, (same.2 s).mp hj⟩
  | error e =>
    cases hk : decode k with
    | ok s => cases hj.symm.trans ((same.2 s).mpr hk)
    | error e' => exact .inr ⟨e, e', rfl, rfl⟩

/-- A schema with one table that has one column, with comments. -/
def document (comments column : List (String × Json)) : Json :=
  .obj (comments ++ [("tables", .obj [("T", .obj [("columns", .obj [("c", .obj column)])])]),
    ("name", .str "db"), ("version", .str "1.0.0")])

/-- The members of the column in another order, a member in the column that is a field of tables only, and a member in
    front that is a field of tables too. -/
theorem decode_of_edits_document : ∃ s,
    decode (document [] [("type", .str "integer"), ("mutable", .bool false)]) = .ok s ∧
    decode (document [("columns", .null)]
      [("mutable", .bool false), ("maxRows", .arr []), ("type", .str "integer")]) = .ok s := by
  have distinct : (document [] [("type", .str "integer"), ("mutable", .bool false)]).Distinct := by
    simp [document, Json.Distinct, Json.parts, Json.membersParts]
  have inColumn {column column' : List (String × Json)}
      (edit : Json.Edit ColumnSchema.layout (.obj column) (.obj column')) :
      Json.Edit layout (document [] column) (document [] column') := by
    have inColumns : Json.Edit (.dict ColumnSchema.layout) (.obj [("c", .obj column)]) (.obj [("c", .obj column')]) :=
      @Json.Edit.member _ [] [] "c" _ _ edit
    have inTable := @Json.Edit.member TableSchema.layout [] [] "columns" _ _ inColumns
    have inTables := @Json.Edit.member (.dict TableSchema.layout) [] [] "T" _ _ inTable
    exact @Json.Edit.member layout [] [("name", .str "db"), ("version", .str "1.0.0")] "tables" _ _ inTables
  have swapped := inColumn (.order (.swap ("mutable", .bool false) ("type", .str "integer") []))
  have added := inColumn (@Json.Edit.add _ [("mutable", .bool false)] [("type", .str "integer")] "maxRows" (.arr [])
    (by decide) (by decide) (by simp [Json.distinct_arr]))
  have addedInFront (column : List (String × Json)) :
      Json.Edit layout (document [] column) (document [("columns", .null)] column) :=
    @Json.Edit.add _ [] _ "columns" .null (by decide) (by simp) (by simp [Json.Distinct, Json.parts])
  rcases decode_of_edits distinct (.head swapped (.head added (.single (addedInFront _)))) with read | ⟨_, _, failed, -⟩
  · exact read
  · cases failed

end DatabaseSchema
end Ovsdb
