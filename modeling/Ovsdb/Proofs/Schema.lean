import Ovsdb.Proofs.Value.Sets
import Ovsdb.Schema

/-! A schema that is written and read again is the same schema. The only things that would not come back are bounds
    on reals that are no numbers, and enumerations of sets, of maps or of such reals. -/

namespace Ovsdb

/-! ### Types of keys and values -/

theorem AtomicType.restores (t : AtomicType) : Restores decode toJson t :=
  .checked (by cases t <;> rfl)

theorem RefType.restores (t : RefType) : Restores decode toJson t :=
  ⟨by cases t <;> rfl, nofun⟩

/-- Every bound on reals is a number, and only atoms are enumerated. -/
structure ConstrainedType.Lossless (t : ConstrainedType) : Prop where
  minReal : ∀ x ∈ t.minReal, x.isFinite = true
  maxReal : ∀ x ∈ t.maxReal, x.isFinite = true
  enumeration : ∀ s ∈ t.enumeration, ∀ v ∈ s.elements, v.isAtom = true ∧ v.isFinite = true

instance (t : ConstrainedType) : Decidable t.Lossless :=
  decidable_of_iff ((∀ x ∈ t.minReal, x.isFinite = true) ∧ (∀ x ∈ t.maxReal, x.isFinite = true) ∧
      ∀ s ∈ t.enumeration, ∀ v ∈ s.elements, v.isAtom = true ∧ v.isFinite = true)
    ⟨fun ⟨minReal, maxReal, enumeration⟩ => ⟨minReal, maxReal, enumeration⟩,
      fun h => ⟨h.minReal, h.maxReal, h.enumeration⟩⟩

theorem ConstrainedType.restores {t : ConstrainedType} (h : t.Lossless) : Restores decode toJson t := by
  have holds : record.Holds t.toJson t := Record.Holds.of ConstrainedType.mk rfl
    |>.required t.type.restores (by simp)
    |>.optional (fun s hs => ValueSet.restores (h.enumeration s hs)) (by simp)
    |>.optional (fun i _ => .int64 i) (by simp)
    |>.optional (fun i _ => .int64 i) (by simp)
    |>.optional (fun x hx => .float (h.minReal x hx)) (by simp)
    |>.optional (fun x hx => .float (h.maxReal x hx)) (by simp)
    |>.optional (fun n _ => .uint64 n) (by simp)
    |>.optional (fun n _ => .uint64 n) (by simp)
    |>.optional (fun i _ => .id i) (by simp)
    |>.optional (fun r _ => r.restores) (by simp)
  exact holds.restores

/-- The constraints of a type, if there are any, come back. -/
def BaseType.Lossless : BaseType → Prop
  | .atomic _ => True
  | .constrained t => t.Lossless

instance : (t : BaseType) → Decidable t.Lossless
  | .atomic _ => .isTrue trivial
  | .constrained t => inferInstanceAs (Decidable t.Lossless)

theorem BaseType.restores {t : BaseType} (h : t.Lossless) : Restores decode toJson t := by
  cases t with
  | atomic t => exact .lift (by cases t <;> rfl) nofun
  | constrained t =>
    have inner := ConstrainedType.restores h
    refine .lift ?_ inner.ne_null
    rw [toJson, ofJson, inner.read]
    · rfl
    · nofun

/-! ### Columns -/

theorem Bound.restores (b : Bound) : Restores decode toJson b := by
  cases b with
  | count n =>
    have read : Decoder.int64 (.int (.ofInt64 n)) = .ok n := (Restores.int64 n).read
    refine .lift ?_ nofun
    rw [toJson, ofJson, read]
    · rfl
    · nofun
  | keyword s => exact .lift rfl nofun

/-- The types of the keys and of the values come back. -/
structure ColumnShape.Lossless (t : ColumnShape) : Prop where
  key : t.key.Lossless
  value : ∀ v ∈ t.value, v.Lossless

instance (t : ColumnShape) : Decidable t.Lossless :=
  decidable_of_iff (t.key.Lossless ∧ ∀ v ∈ t.value, v.Lossless)
    ⟨fun ⟨key, value⟩ => ⟨key, value⟩, fun h => ⟨h.key, h.value⟩⟩

theorem ColumnShape.restores {t : ColumnShape} (h : t.Lossless) : Restores decode toJson t := by
  have holds : record.Holds t.toJson t := Record.Holds.of ColumnShape.mk rfl
    |>.required (BaseType.restores h.key) (by simp)
    |>.optional (fun v hv => BaseType.restores (h.value v hv)) (by simp)
    |>.optional (fun n _ => .uint64 n) (by simp)
    |>.optional (fun b _ => b.restores) (by simp)
  exact holds.restores

/-- Whether the type of a column comes back from the wire as it is. -/
def ColumnType.Lossless : ColumnType → Prop
  | .atomic _ => True
  | .shaped t => t.Lossless

instance : (t : ColumnType) → Decidable t.Lossless
  | .atomic _ => .isTrue trivial
  | .shaped t => inferInstanceAs (Decidable t.Lossless)

theorem ColumnType.restores {t : ColumnType} (h : t.Lossless) : Restores decode toJson t := by
  cases t with
  | atomic t => exact .lift (by cases t <;> rfl) nofun
  | shaped t =>
    have inner := ColumnShape.restores h
    refine .lift ?_ inner.ne_null
    rw [toJson, ofJson, inner.read]
    · rfl
    · nofun

/-- A column that is mutable is written without a word about it, which is what the default makes of it. -/
theorem ColumnSchema.restores {c : ColumnSchema} (h : c.type.Lossless) : Restores decode toJson c := by
  have mutability : c.toJson.member? "mutable" = some (.bool c.isMutable) ∨
      c.toJson.member? "mutable" = none ∧ c.isMutable = true := by
    cases hm : c.isMutable <;> simp [toJson, hm]
  have holds : record.Holds c.toJson c := Record.Holds.of ColumnSchema.mk rfl
    |>.required (ColumnType.restores h) (by simp)
    |>.withDefault (.bool c.ephemeral) (.inl (by simp))
    |>.withDefault (.bool c.isMutable) mutability
  exact holds.restores

/-! ### Tables and databases -/

/-- Whether all columns of a table come back from the wire as they are. -/
def TableSchema.Lossless (t : TableSchema) : Prop :=
  ∀ e ∈ t.columns.entries, e.2.type.Lossless

instance (t : TableSchema) : Decidable t.Lossless :=
  inferInstanceAs (Decidable (∀ e ∈ t.columns.entries, e.2.type.Lossless))

theorem TableSchema.restores {t : TableSchema} (h : t.Lossless) : Restores decode toJson t := by
  have columns := Restores.dict Id.ofName_text (d := t.columns) fun e he => ColumnSchema.restores (h e he)
  have indexes : t.toJson.member? "indexes" = some (.arr (t.indexes.map fun index => .arr (index.map Id.toJson))) ∨
      t.toJson.member? "indexes" = none ∧ t.indexes = [] := by
    cases hi : t.indexes <;> simp [toJson, hi]
  have holds : record.Holds t.toJson t := Record.Holds.of TableSchema.mk rfl
    |>.required columns (by simp)
    |>.optional (fun n _ => .uint64 n) (by split <;> simp)
    |>.withDefault (.bool t.isRoot) (.inl (by simp))
    |>.withDefault (.list fun index _ => .list fun i _ => .id i) indexes
  exact holds.restores

/-- The types of all columns of all tables come back. -/
def DatabaseSchema.Lossless (s : DatabaseSchema) : Prop :=
  ∀ e ∈ s.tables.entries, e.2.Lossless

namespace DatabaseSchema

instance (s : DatabaseSchema) : Decidable s.Lossless :=
  inferInstanceAs (Decidable (∀ e ∈ s.tables.entries, e.2.Lossless))

theorem restores {s : DatabaseSchema} (h : s.Lossless) : Restores decode toJson s := by
  have tables := Restores.dict Id.ofName_text (d := s.tables) fun e he => TableSchema.restores (h e he)
  have holds : record.Holds s.toJson s := Record.Holds.of DatabaseSchema.mk rfl
    |>.required (.id s.name) (by simp)
    |>.required (.version s.version) (by simp)
    |>.optional (fun t _ => .string t) (by simp)
    |>.required tables (by simp)
  exact holds.restores

/-- A schema comes back as it was written, and what is read once stays the same when it is written and read again. -/
theorem survives_encoding {s : DatabaseSchema} (h : s.Lossless) :
    decode s.toJson = .ok s ∧ ∀ j, decode j = .ok s → (decode j >>= fun s => decode s.toJson) = .ok s := by
  have restored := (restores h).read
  exact ⟨restored, fun j hj => by rw [hj]; exact restored⟩

/-- A table with a column of each form: a name, a map with bounds on reals, and a set with one value to choose from;
    the members that may be skipped are skipped in one column and written in another. -/
def sensors : DatabaseSchema where
  name := ⟨"sensors", by decide⟩
  version := ⟨"1.0.2", by decide⟩
  checksum := some "12 34"
  tables := ⟨[(⟨"Probe", by decide⟩, {
    columns := ⟨[
      (⟨"label", by decide⟩, ⟨.atomic .string, false, false⟩),
      (⟨"limits", by decide⟩, ⟨.shaped ⟨.atomic .string,
        some (.constrained ⟨.real, none, none, none, some 0.5, some 2.5, none, none, none, none⟩), some 0,
        some (.keyword "unlimited")⟩, true, true⟩),
      (⟨"site", by decide⟩, ⟨.shaped ⟨.constrained ⟨.uuid, some ⟨[.namedUuid ⟨"here"⟩]⟩, none, none, none, none, none,
        none, some ⟨"Site", by decide⟩, some .weak⟩, none, none, some (.count 4)⟩, false, true⟩)], by decide⟩
    maxRows := some 8
    isRoot := true
    indexes := [[⟨"label", by decide⟩]] })], by decide⟩

theorem sensors_survive_encoding : sensors.Lossless ∧ decode sensors.toJson = .ok sensors :=
  have lossless : sensors.Lossless := by decide
  ⟨lossless, (survives_encoding lossless).1⟩

end DatabaseSchema
end Ovsdb
