import Ovsdb.Proofs.Decimal.Nearest
import Ovsdb.Proofs.Value.Sets

/-! What is written of a value that has been read. Nothing is altered, reordered or dropped but that a set of one
    element gives way to that element, at any depth, and that an integer beyond the signed words becomes a double. What
    is written then stays as it is, however often it is read and written again. -/

namespace Ovsdb

/-! ### Canonical forms -/

namespace Json

mutual

/-- The form in which a wire value is written again. -/
def canon : Json → Json
  | .int n => if h : 2 ^ 63 ≤ n.val then .float n.toFloat (WideInt.nearest_toFloat h).finite else .int n
  | .arr [.str tag, .arr items] =>
    if tag = "set" then
      match canonItems items with
      | [j] => j
      | js => .arr [.str tag, .arr js]
    else if tag = "map" then .arr [.str tag, .arr (canonPairs items)]
    else .arr [.str tag, .arr items]
  | j => j

def canonItems : List Json → List Json
  | [] => []
  | j :: rest => canon j :: canonItems rest

/-- The canonical forms of the pairs of a map; what is no pair stays as it is. -/
def canonPairs : List Json → List Json
  | [] => []
  | .arr [k, v] :: rest => .arr [canon k, canon v] :: canonPairs rest
  | j :: rest => j :: canonPairs rest

end

theorem canonItems_eq_map (items : List Json) : canonItems items = items.map canon := by
  induction items with
  | nil => rfl
  | cons j rest ih => rw [canonItems, List.map_cons, ih]

theorem canon_set_singleton (j : Json) : canon (.arr [.str "set", .arr [j]]) = j.canon := by
  rw [canon, if_pos rfl, canonItems_eq_map]
  rfl

theorem canon_set {items : List Json} (h : items.length ≠ 1) :
    canon (.arr [.str "set", .arr items]) = .arr [.str "set", .arr (items.map canon)] := by
  rw [canon, if_pos rfl, canonItems_eq_map]
  split
  case h_1 j single =>
    have length := congrArg List.length single
    rw [List.length_map] at length
    exact absurd length h
  case h_2 => rfl

theorem canon_map (items : List Json) :
    canon (.arr [.str "map", .arr items]) = .arr [.str "map", .arr (canonPairs items)] := by
  rw [canon, if_neg (by decide), if_pos rfl]

end Json

namespace Value
variable {j : Json} {v : Value}

/-! ### Writing what has been read -/

theorem ofInt_eq (n : WideInt) :
    ofInt n = if n.val < 0x8000000000000000 then .integer (Int64.ofInt n.val) else .real n.toFloat := by
  rw [ofInt, WideInt.toInt64?]
  by_cases small : n.val < 0x8000000000000000 <;> simp only [small, if_true, if_false]

theorem isFinite_ofInt (n : WideInt) : (ofInt n).isFinite = true := by
  rw [ofInt_eq]
  split
  · rfl
  · rw [isFinite, (WideInt.nearest_toFloat (by omega)).finite]

theorem toJson_ofInt (n : WideInt) : (ofInt n).toJson = (Json.int n).canon := by
  rw [ofInt_eq, Json.canon]
  split
  case isTrue small =>
    have whole : (Int64.ofInt n.val).toInt = n.val := Int64.toInt_ofInt_of_le n.ge small
    have back : WideInt.ofInt64 (Int64.ofInt n.val) = n := by
      obtain ⟨val, ge, lt⟩ := n
      simp only [WideInt.ofInt64, whole]
    rw [toJson, back, dif_neg (by omega)]
  case isFalse large =>
    have finite := (WideInt.nearest_toFloat (n := n) (by omega)).finite
    rw [toJson, Json.ofFloat, dif_pos finite, dif_pos (by omega)]

theorem map_toJson_of_ok {items : List Json} {vs : List Value}
    (read : List.Forall₂ (fun j v => ofJson j = .ok v) items vs)
    (written : ∀ v ∈ vs, ∀ j, ofJson j = .ok v → v.toJson = j.canon) : vs.map toJson = items.map Json.canon := by
  induction read with
  | nil => rfl
  | cons first _ ih =>
    obtain ⟨head, tail⟩ := List.forall_mem_cons.mp written
    rw [List.map_cons, List.map_cons, head _ first, ih tail]

theorem canonPairs_of_ok {items : List Json} {pairs : List (Value × Value)}
    (read : List.Forall₂ (fun j p => ∃ k v, j = .arr [k, v] ∧ ofJson k = .ok p.1 ∧ ofJson v = .ok p.2) items pairs)
    (written : ∀ p ∈ pairs, (∀ j, ofJson j = .ok p.1 → p.1.toJson = j.canon) ∧
      ∀ j, ofJson j = .ok p.2 → p.2.toJson = j.canon) :
    (pairs.map fun p => .arr [p.1.toJson, p.2.toJson]) = Json.canonPairs items := by
  induction read with
  | nil => rfl
  | cons first _ ih =>
    obtain ⟨k, v, rfl, key, value⟩ := first
    obtain ⟨head, tail⟩ := List.forall_mem_cons.mp written
    rw [List.map_cons, Json.canonPairs, head.1 _ key, head.2 _ value, ih tail]

/-- What is read is written in canonical form. -/
theorem toJson_of_ok (h : ofJson j = .ok v) : v.toJson = j.canon := by
  induction v generalizing j with
  | set vs ih =>
    cases denotes_of_ok h with
    | integer number => rw [← number, toJson_ofInt]
    | set elements =>
      have read := elementsOfJson_eq_some.mp elements
      have written := map_toJson_of_ok read fun v mem j => ih v mem
      by_cases single : vs.length = 1
      · obtain ⟨v, rfl⟩ := List.length_eq_one_iff.mp single
        obtain ⟨j, rfl⟩ := List.length_eq_one_iff.mp (read.length_eq.trans single)
        rw [toJson_set_singleton, Json.canon_set_singleton]
        exact List.singleton_inj.mp written
      · rw [toJson_set single, written, Json.canon_set (read.length_eq ▸ single)]
  | map pairs ih =>
    cases denotes_of_ok h with
    | integer number => rw [← number, toJson_ofInt]
    | map entries =>
      have read := pairsOfJson_eq_some.mp entries
      rw [toJson_map, canonPairs_of_ok read fun p mem => ⟨fun _ => (ih p mem).1, fun _ => (ih p mem).2⟩, Json.canon_map]
  | real x =>
    cases denotes_of_ok h with
    | integer number => rw [← number, toJson_ofInt]
    | real x finite => exact dif_pos finite
  | _ =>
    cases denotes_of_ok h with
    | integer number => rw [← number, toJson_ofInt]
    | _ => rfl

/-- No infinity is read. -/
theorem isFinite_of_ok (h : ofJson j = .ok v) : v.isFinite = true := by
  induction v generalizing j with
  | set vs ih =>
    cases denotes_of_ok h with
    | integer number => rw [← number, isFinite_ofInt]
    | set elements =>
      have sources : ∀ v ∈ vs, ∃ j, ofJson j = .ok v :=
        forall_of_forall₂ (elementsOfJson_eq_some.mp elements).flip fun j _ _ read => ⟨j, read⟩
      refine isFinite_set.mpr fun v mem => ?_
      obtain ⟨j, read⟩ := sources v mem
      exact ih v mem read
  | map pairs ih =>
    cases denotes_of_ok h with
    | integer number => rw [← number, isFinite_ofInt]
    | map entries =>
      have sources : ∀ p ∈ pairs, ∃ k v, ofJson k = .ok p.1 ∧ ofJson v = .ok p.2 :=
        forall_of_forall₂ (pairsOfJson_eq_some.mp entries).flip fun _ _ _ ⟨k, v, _, reads⟩ => ⟨k, v, reads⟩
      refine isFinite_map.mpr fun p mem => ?_
      obtain ⟨k, v, key, value⟩ := sources p mem
      exact ⟨(ih p mem).1 key, (ih p mem).2 value⟩
  | real x =>
    cases denotes_of_ok h with
    | integer number => rw [← number, isFinite_ofInt]
    | real x finite => rw [isFinite, finite]
  | _ => rfl

theorem toJson_norm (v : Value) : v.norm.toJson = v.toJson := by
  induction v with
  | set vs ih =>
    by_cases single : vs.length = 1
    · obtain ⟨v, rfl⟩ := List.length_eq_one_iff.mp single
      rw [norm_set_singleton, toJson_set_singleton, ih v List.mem_cons_self]
    · have same : (vs.map norm).map toJson = vs.map toJson := by
        rw [List.map_map]
        exact List.map_congr_left ih
      rw [norm_set single, toJson_set (by rwa [List.length_map]), same, toJson_set single]
  | map pairs ih =>
    have same : ∀ p ∈ pairs, Json.arr [p.1.norm.toJson, p.2.norm.toJson] = .arr [p.1.toJson, p.2.toJson] :=
      fun p mem => by rw [(ih p mem).1, (ih p mem).2]
    rw [norm_map, toJson_map, toJson_map, List.map_map]
    exact congrArg (fun items => Json.arr [.str "map", .arr items]) (List.map_congr_left same)
  | _ => rfl

/-- What is written of a value that has been read is the canonical form of what it has been read from. That form is
    read again, and what is written then is the same. -/
theorem writing_is_canonical :
    (∀ j v, ofJson j = .ok v → v.toJson = j.canon ∧ ∃ w, ofJson j.canon = .ok w ∧ w.toJson = j.canon) ∧
    ∀ n : WideInt, 0x8000000000000000 ≤ n.val → ∃ x finite, (Json.int n).canon = .float x finite ∧ Nearest n.val x := by
  refine ⟨fun j v read => ?_, fun n large => ?_⟩
  · have written := toJson_of_ok read
    refine ⟨written, v.norm, ?_, (toJson_norm v).trans written⟩
    rw [← written, ofJson_toJson (isFinite_of_ok read)]
  · have nearest := WideInt.nearest_toFloat large
    exact ⟨n.toFloat, nearest.finite, dif_pos large, nearest⟩

/-- A set of one map, in which the largest integer of all stands as a set of one element. -/
theorem writing_is_canonical_nested :
    let top : WideInt := ⟨0xffffffffffffffff, by decide, by decide⟩
    let j := Json.arr [.str "set", .arr [.arr [.str "map", .arr [.arr [.str "k", .arr [.str "set", .arr [.int top]]]]]]]
    ∃ v finite, ofJson j = .ok v ∧ v.toJson = .arr [.str "map", .arr [.arr [.str "k", .float top.toFloat finite]]] ∧
      ∃ w, ofJson v.toJson = .ok w ∧ w.toJson = v.toJson := by
  intro top j
  have finite : top.toFloat.isFinite = true := (WideInt.nearest_toFloat (by decide)).finite
  obtain ⟨v, read⟩ : ∃ v, ofJson j = .ok v := ⟨_, rfl⟩
  obtain ⟨written, w, back, again⟩ := writing_is_canonical.1 j v read
  exact ⟨v, finite, read, written, w, written ▸ back, again.trans written.symm⟩

end Value
end Ovsdb
