import Ovsdb.Proofs.Json.Members
import Ovsdb.Schema

/-! How many elements a column may have, as its type is written and as it is read. The bounds are integers, and an
    upper bound may also be lifted by a keyword. -/

namespace Ovsdb

/-! ### What is written -/

namespace Json

/-- A field that is left out or `null`. -/
inductive Omitted : Option Json → Prop where
  | absent : Omitted none
  | null : Omitted (some .null)

/-- The integer that a field stands for, which is one if the field is omitted. -/
inductive Counts : Option Json → Int → Prop where
  | absent : Counts none 1
  | null : Counts (some .null) 1
  | given (n : WideInt) : Counts (some (.int n)) n.val

/-- The keyword for no upper bound. -/
def Unlimited (field : Option Json) : Prop :=
  field = some (.str "unlimited")

/-- What is taken for no upper bound: every keyword, and every negative integer. -/
inductive Lifts : Option Json → Prop where
  | keyword (s : String) : Lifts (some (.str s))
  | negative {n : WideInt} (h : n.val < 0) : Lifts (some (.int n))

variable {field : Option Json} {n n' : Int}

theorem Counts.unique (h : Counts field n) (h' : Counts field n') : n = n' := by
  cases h <;> cases h' <;> rfl

theorem Unlimited.lifts (h : Unlimited field) : Lifts field :=
  h ▸ .keyword _

/-- What lifts the bound stands for no number of elements. -/
theorem Lifts.neg (h : Lifts field) (counts : Counts field n) : n < 0 := by
  cases h with
  | keyword s => cases counts
  | negative neg =>
    cases counts
    exact neg

end Json

/-- The number of elements that a column may have, as its type is written: each bound is the integer that is given, or
    one, but there is no upper bound if it is `unbounded`. The column holds a set if there is no type of values and
    not both bounds are one. -/
structure ColumnShape.Cardinality (unbounded : Option Json → Prop) (j : Json) (t : ColumnShape) : Prop where
  least : Json.Counts (j.slot? 2 "min") t.min.toNat
  none : t.max = none ↔ unbounded (j.slot? 3 "max")
  greatest : ¬ unbounded (j.slot? 3 "max") → ∃ n, t.max = some n ∧ Json.Counts (j.slot? 3 "max") n.toNat
  isUnlimited : (∃ b ∈ t.upper, b.isUnlimited = true) ↔ Json.Unlimited (j.slot? 3 "max")
  isSet : t.isSet = true ↔ Json.Omitted (j.slot? 1 "value") ∧
    ¬ (Json.Counts (j.slot? 2 "min") 1 ∧ Json.Counts (j.slot? 3 "max") 1)

/-! ### What is read -/

theorem Decoder.Given.omitted_iff {α : Type} {R : Json → α → Prop} {field : Option Json} {o : Option α}
    (h : Given R field o) : Json.Omitted field ↔ o = none := by
  cases h with
  | absent => exact iff_of_true .absent rfl
  | null => exact iff_of_true .null rfl
  | given ne_null _ =>
    refine iff_of_false ?_ nofun
    rintro ⟨⟩
    exact ne_null rfl

theorem Bound.decode_eq_ok {j : Json} {b : Bound} : decode j = .ok b ↔
    (∃ s, j = .str s ∧ b = .keyword s) ∨ ∃ n i, j = .int n ∧ n.val = i.toInt ∧ b = .count i := by
  rw [decode, Decoder.lift, mapError_eq_ok]
  cases j with
  | str s => simp [ofJson, eq_comm]
  | _ =>
    simp only [ofJson, map_eq_ok, mapError_eq_ok, Decoder.int64_eq_ok]
    simp [eq_comm]

namespace ColumnShape
variable {j : Json} {t : ColumnShape} {field : Option Json}

theorem decode_eq_ok : decode j = .ok t ↔ j.MayHold 4 ∧
    (∃ key, j.slot? 0 "key" = some key ∧ BaseType.decode key = .ok t.key) ∧
    Decoder.Given (fun j a => BaseType.decode j = .ok a) (j.slot? 1 "value") t.value ∧
    Decoder.Given (fun j a => Decoder.uint64 j = .ok a) (j.slot? 2 "min") t.lower ∧
    Decoder.Given (fun j a => Bound.decode j = .ok a) (j.slot? 3 "max") t.upper := by
  refine Record.decode_eq_ok (r := record) (P := fun find =>
    (∃ key, find 0 "key" = some key ∧ BaseType.decode key = .ok t.key) ∧
    Decoder.Given (fun j a => BaseType.decode j = .ok a) (find 1 "value") t.value ∧
    Decoder.Given (fun j a => Decoder.uint64 j = .ok a) (find 2 "min") t.lower ∧
    Decoder.Given (fun j a => Bound.decode j = .ok a) (find 3 "max") t.upper) fun source => ?_
  simp only [record, Record.build_optional, Record.build_required]
  constructor
  · rintro ⟨_, max, ⟨_, min, ⟨_, value, ⟨_, k, key, ⟨⟩, found, read, rfl⟩, givenValue, rfl⟩, givenMin, rfl⟩, givenMax,
      rfl⟩
    exact ⟨⟨k, found, read⟩, givenValue, givenMin, givenMax⟩
  · rintro ⟨⟨k, found, read⟩, givenValue, givenMin, givenMax⟩
    exact ⟨_, _, ⟨_, _, ⟨_, _, ⟨_, k, _, rfl, found, read, rfl⟩, givenValue, rfl⟩, givenMin, rfl⟩, givenMax, rfl⟩

theorem counts_min (h : Decoder.Given (fun j a => Decoder.uint64 j = .ok a) field t.lower) :
    Json.Counts field t.min.toNat := by
  rw [min]
  generalize t.lower = lower at h
  cases h with
  | absent => exact .absent
  | null => exact .null
  | given _ read =>
    obtain ⟨n, rfl, same⟩ := Decoder.uint64_eq_ok.mp read
    rw [Option.getD_some, ← same]
    exact .given n

theorem max_cases (h : Decoder.Given (fun j a => Bound.decode j = .ok a) field t.upper) :
    (Json.Lifts field ∧ t.max = none) ∨ ∃ n, t.max = some n ∧ Json.Counts field n.toNat := by
  rw [max]
  generalize t.upper = upper at h
  cases h with
  | absent => exact .inr ⟨1, rfl, .absent⟩
  | null => exact .inr ⟨1, rfl, .null⟩
  | given _ read =>
    obtain ⟨s, rfl, rfl⟩ | ⟨n, i, rfl, same, rfl⟩ := Bound.decode_eq_ok.mp read
    · exact .inl ⟨.keyword s, rfl⟩
    · by_cases nonneg : 0 ≤ i.toInt
      · have below := i.toInt_lt
        have count : ((UInt64.ofNat i.toInt.toNat).toNat : Int) = n.val := by
          rw [UInt64.toNat_ofNat_of_lt' (by rw [UInt64.size]; omega)]
          omega
        exact .inr ⟨_, if_pos nonneg, count ▸ .given n⟩
      · exact .inl ⟨.negative (by omega), if_neg nonneg⟩

theorem exists_isUnlimited (h : Decoder.Given (fun j a => Bound.decode j = .ok a) field t.upper) :
    (∃ b ∈ t.upper, b.isUnlimited = true) ↔ Json.Unlimited field := by
  generalize t.upper = upper at h
  cases h with
  | absent | null => simp [Json.Unlimited]
  | given _ read =>
    obtain ⟨s, rfl, rfl⟩ | ⟨n, i, rfl, -, rfl⟩ := Bound.decode_eq_ok.mp read <;>
      simp [Json.Unlimited, Bound.isUnlimited]

theorem counts_one {n : UInt64} (h : Json.Counts field n.toNat) : Json.Counts field 1 ↔ n = 1 := by
  constructor
  · intro one
    have same := h.unique one
    exact UInt64.toNat_inj.mp (by simpa using same)
  · rintro rfl
    exact h

/-- What is made of a column type: every keyword, and every negative integer, lifts the upper bound. -/
theorem cardinality_lifts (h : decode j = .ok t) : Cardinality Json.Lifts j t := by
  obtain ⟨-, -, value, lower, upper⟩ := decode_eq_ok.mp h
  have least := counts_min lower
  have value := value.omitted_iff
  rcases max_cases upper with ⟨lifts, none⟩ | ⟨n, some, counts⟩
  case inl =>
    have uncounted : ¬ Json.Counts (j.slot? 3 "max") 1 := fun counts => absurd (lifts.neg counts) (by decide)
    exact
      { least
        none := iff_of_true none lifts
        greatest := fun bounded => absurd lifts bounded
        isUnlimited := exists_isUnlimited upper
        isSet := by simp [isSet, isMap, none, uncounted, value] }
  case inr =>
    have bounded : ¬ Json.Lifts (j.slot? 3 "max") := fun lifts => absurd (lifts.neg counts) (by omega)
    exact
      { least
        none := iff_of_false (by simp [some]) bounded
        greatest := fun _ => ⟨n, some, counts⟩
        isUnlimited := exists_isUnlimited upper
        isSet := by simp [isSet, isMap, some, counts_one least, counts_one counts, value, imp_iff_not_or] }

end ColumnShape

theorem ColumnType.ofJson_eq_shaped {j : Json} {t : ColumnShape} :
    ofJson j = .ok (.shaped t) ↔ ColumnShape.decode j = .ok t := by
  cases j with
  | str s => simp [ofJson, map_eq_ok, ColumnShape.decode, Record.decode]
  | _ => simp [ofJson, map_eq_ok, mapError_eq_ok]

namespace ColumnType

/-- What a column type says of the number of elements is what is read of it, but for the bounds that are lifted though
    they are not unlimited. -/
theorem cardinality {j : Json} {t : ColumnShape} (h : ofJson j = .ok (.shaped t)) :
    t.Cardinality Json.Lifts j ∧
      (t.Cardinality Json.Unlimited j ↔ (Json.Lifts (j.slot? 3 "max") → Json.Unlimited (j.slot? 3 "max"))) := by
  have read := ColumnShape.cardinality_lifts (ofJson_eq_shaped.mp h)
  refine ⟨read, fun said lifts => said.none.mp (read.none.mpr lifts), fun unlimited => ?_⟩
  have same : Json.Lifts (j.slot? 3 "max") ↔ Json.Unlimited (j.slot? 3 "max") := ⟨unlimited, Json.Unlimited.lifts⟩
  exact { read with
    none := read.none.trans same
    greatest := fun bounded => read.greatest (mt same.mp bounded) }

/-- A column of any number of strings. -/
theorem cardinality_unlimited : ∃ t : ColumnShape,
    ofJson (.obj [("key", .str "string"), ("min", .ofUInt64 0), ("max", .str "unlimited")]) = .ok (.shaped t) ∧
      t.Cardinality Json.Unlimited
        (.obj [("key", .str "string"), ("min", .ofUInt64 0), ("max", .str "unlimited")]) :=
  ⟨⟨.atomic .string, none, some 0, some (.keyword "unlimited")⟩, rfl, (cardinality rfl).2.mpr fun _ => rfl⟩

/-- A bound of minus one, and a word that means nothing, are read as no bound at all. -/
theorem unlimited_unasked : ∃ negative misspelt : ColumnShape,
    ofJson (.obj [("key", .str "string"), ("max", .int (.ofInt64 (-1)))]) = .ok (.shaped negative) ∧
    ofJson (.obj [("key", .str "string"), ("max", .str "unlimitted")]) = .ok (.shaped misspelt) ∧
    negative.max = none ∧ misspelt.max = none ∧
    ¬ negative.Cardinality Json.Unlimited (.obj [("key", .str "string"), ("max", .int (.ofInt64 (-1)))]) ∧
    ¬ misspelt.Cardinality Json.Unlimited (.obj [("key", .str "string"), ("max", .str "unlimitted")]) := by
  refine ⟨⟨.atomic .string, none, none, some (.count (-1))⟩,
    ⟨.atomic .string, none, none, some (.keyword "unlimitted")⟩, rfl, rfl, rfl, rfl, fun said => ?_, fun said => ?_⟩
  · cases said.none.mp rfl
  · have asked : some (Json.str "unlimitted") = some (.str "unlimited") := said.none.mp rfl
    simp at asked

end ColumnType
end Ovsdb
