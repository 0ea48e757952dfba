import Ovsdb.Proofs.Value.Equality
import Ovsdb.Value.Map

/-! Maps are lists of pairs to which insertions add at the end, while look-ups take the first pair whose key is equal
    to the one that is asked for. So the first insertion of a key is the one that counts. -/

namespace Ovsdb.ValueMap
open Value (Equal HoldsNaN)

/-- The value of the first pair whose key is equal to `q`. -/
def FirstMatch (pairs : List (Value × Value)) (q w : Value) : Prop :=
  ∃ before k after, pairs = before ++ (k, w) :: after ∧ Equal k q ∧ ∀ p ∈ before, ¬Equal p.1 q

/-- Inserts pairs, one after another. -/
def insertAll (m : ValueMap) (entries : List (Value × Value)) : ValueMap :=
  entries.foldl (fun m e => m.insert e.1 e.2) m

variable {m : ValueMap} {entries : List (Value × Value)} {k v q w : Value}

/-! ### Looking up -/

theorem get?_eq_some : m.get? q = some w ↔ FirstMatch m.pairs q w := by
  simp only [get?, Option.map_eq_some_iff, List.find?_eq_some_iff_append, FirstMatch]
  constructor
  · rintro ⟨⟨k, _⟩, ⟨found, before, after, pairs, others⟩, rfl⟩
    refine ⟨before, k, after, pairs, Value.same_iff_equal.mp found, fun p mem same => ?_⟩
    have differs := others p mem
    rw [Bool.not_eq_true'] at differs
    exact Bool.false_ne_true (differs.symm.trans (Value.same_iff_equal.mpr same))
  · rintro ⟨before, k, after, pairs, same, others⟩
    refine ⟨(k, w), ⟨Value.same_iff_equal.mpr same, before, after, pairs, fun p mem => ?_⟩, rfl⟩
    rw [Bool.not_eq_true', Bool.eq_false_iff]
    exact fun found => others p mem (Value.same_iff_equal.mp found)

theorem get?_eq_none : m.get? q = none ↔ ∀ p ∈ m.pairs, ¬Equal p.1 q := by
  rw [get?, Option.map_eq_none_iff, List.find?_eq_none]
  exact forall₂_congr fun p _ => not_congr Value.same_iff_equal

/-! ### Inserting -/

theorem pairs_insert (m : ValueMap) (k v : Value) : (m.insert k v).pairs = m.pairs ++ [(k, v)] := rfl

theorem get?_insert_of_some (v : Value) (found : m.get? q = some w) : (m.insert k v).get? q = some w := by
  obtain ⟨before, l, after, pairs, same, others⟩ := get?_eq_some.mp found
  refine get?_eq_some.mpr ⟨before, l, after ++ [(k, v)], ?_, same, others⟩
  rw [pairs_insert, pairs, List.append_assoc, List.cons_append]

theorem get?_insert_of_equal (missing : m.get? q = none) (same : Equal k q) : (m.insert k v).get? q = some v :=
  get?_eq_some.mpr ⟨m.pairs, k, [], pairs_insert m k v, same, get?_eq_none.mp missing⟩

theorem get?_insert_of_not_equal (missing : m.get? q = none) (differs : ¬Equal k q) :
    (m.insert k v).get? q = none := by
  rw [get?_eq_none, pairs_insert, List.forall_mem_append]
  exact ⟨get?_eq_none.mp missing, List.forall_mem_singleton.mpr differs⟩

theorem pairs_insertAll (m : ValueMap) (entries : List (Value × Value)) :
    (m.insertAll entries).pairs = m.pairs ++ entries := by
  induction entries generalizing m with
  | nil => exact (List.append_nil _).symm
  | cons e rest ih =>
    rw [insertAll, List.foldl_cons]
    refine (ih (m.insert e.1 e.2)).trans ?_
    rw [pairs_insert, List.append_assoc, List.singleton_append]

/-- What can be looked up stays as it is, whatever is inserted. -/
theorem get?_insertAll_of_some (found : m.get? q = some w) : (m.insertAll entries).get? q = some w := by
  induction entries generalizing m with
  | nil => exact found
  | cons e rest ih => exact ih (get?_insert_of_some e.2 found)

/-! ### The wire form -/

theorem ofJson_toJson (finite : (Value.map m.pairs).isFinite = true) (normal : (Value.map m.pairs).isNormal = true) :
    ofJson m.toJson = .ok m := by
  have back : ∀ p ∈ m.pairs, Value.ofJson p.1.toJson = .ok (id p.1) ∧ Value.ofJson p.2.toJson = .ok (id p.2) :=
    fun p mem => by
      obtain ⟨finiteKey, finiteValue⟩ := Value.isFinite_map.mp finite p mem
      obtain ⟨normalKey, normalValue⟩ := Value.isNormal_map.mp normal p mem
      rw [Value.ofJson_toJson finiteKey, Value.ofJson_toJson finiteValue, Value.norm_eq_self normalKey,
        Value.norm_eq_self normalValue]
      exact ⟨rfl, rfl⟩
  rw [toJson, Value.toJson_map, ofJson, if_pos rfl, Value.pairsOfJson_map_toJson back]
  simp

/-- A map is a list of pairs that only grows at its end, and the first pair with an equal key is what is looked up, so
    no insertion changes what has been found before. Equality goes through sets and maps down to the atoms; what is no
    number is equal to nothing, not even inside, and the two zeros are equal. A map of finite reals and no set of one
    element comes back from its wire form as it was. -/
theorem first_insertion_counts :
    (∀ m k v, (insert m k v).pairs = m.pairs ++ [(k, v)] ∧ ∀ q,
      (∀ w, m.get? q = some w → (m.insert k v).get? q = some w) ∧
      (m.get? q = none → Equal k q → (m.insert k v).get? q = some v) ∧
      (m.get? q = none → ¬Equal k q → (m.insert k v).get? q = none)) ∧
    (∀ m entries, (insertAll m entries).pairs = m.pairs ++ entries ∧ ∀ q,
      (∀ w, (m.insertAll entries).get? q = some w ↔ FirstMatch (m.pairs ++ entries) q w) ∧
      ((m.insertAll entries).get? q = none ↔ ∀ p ∈ m.pairs ++ entries, ¬Equal p.1 q) ∧
      ∀ w, m.get? q = some w → (m.insertAll entries).get? q = some w) ∧
    (∀ v w : Value, (v == w) = true ↔ Equal v w) ∧
    (∀ v, HoldsNaN v → ∀ w, ¬Equal v w ∧ ¬Equal w v) ∧
    (∀ v, ¬HoldsNaN v → Equal v v) ∧
    Equal (.real (-0.0)) (.real 0.0) ∧
    ∀ m : ValueMap, (Value.map m.pairs).isFinite = true → (Value.map m.pairs).isNormal = true →
      ∃ m', ofJson m.toJson = .ok m' ∧ m'.pairs = m.pairs ∧ ∀ q, m'.get? q = m.get? q := by
  refine ⟨fun m k v => ⟨pairs_insert m k v, fun q => ⟨fun w => get?_insert_of_some v, get?_insert_of_equal,
    get?_insert_of_not_equal⟩⟩, fun m entries => ⟨pairs_insertAll m entries, fun q => ?_⟩,
    fun v w => Value.same_iff_equal, fun v nan w => ⟨nan.not_equal, fun same => ?_⟩,
    fun v clean => Value.equal_self_iff.mpr clean, .real (.inr ⟨.inr rfl, .inl rfl⟩), fun m finite normal => ?_⟩
  · rw [← pairs_insertAll]
    exact ⟨fun w => get?_eq_some, get?_eq_none, fun w => get?_insertAll_of_some⟩
  · exact nan.not_equal (Value.equal_comm.mp same)
  · exact ⟨m, ofJson_toJson finite normal, rfl, fun q => rfl⟩

/-- The two zeros are one key, and what has been inserted under the first of them is found under the other, before and
    after the map is sent. -/
theorem first_insertion_counts_zeros :
    let m := insertAll ⟨[]⟩ [(.real (-0.0), .string "first"), (.real 0.0, .string "second")]
    m.get? (.real 0.0) = some (.string "first") ∧
      ∃ m', ofJson m.toJson = .ok m' ∧ m'.get? (.real 0.0) = some (.string "first") := by
  intro m
  obtain ⟨-, runs, -, -, -, zeros, sent⟩ := first_insertion_counts
  have found : m.get? (.real 0.0) = some (.string "first") :=
    (((runs ⟨[]⟩ _).2 _).1 _).mpr ⟨[], _, _, rfl, zeros, nofun⟩
  obtain ⟨m', read, -, same⟩ := sent m (by decide) (by decide)
  exact ⟨found, m', read, (same _).trans found⟩

end Ovsdb.ValueMap
