import Ovsdb.Value

/-! Induction on values, and the codec's functions on lists as maps of the one on a single value. -/

namespace Ovsdb

namespace Value

/-- Induction on a value, down to the elements of sets and to the keys and values of maps. -/
@[elab_as_elim, induction_eliminator]
theorem induct {motive : Value → Prop} (string : ∀ s, motive (.string s)) (integer : ∀ i, motive (.integer i))
    (real : ∀ x, motive (.real x)) (boolean : ∀ b, motive (.boolean b)) (uuid : ∀ u, motive (.uuid u))
    (namedUuid : ∀ u, motive (.namedUuid u)) (set : ∀ vs, (∀ v ∈ vs, motive v) → motive (.set vs))
    (map : ∀ pairs, (∀ p ∈ pairs, motive p.1 ∧ motive p.2) → motive (.map pairs)) (v : Value) : motive v := by
  refine @Value.rec motive (fun vs => ∀ v ∈ vs, motive v) (fun pairs => ∀ p ∈ pairs, motive p.1 ∧ motive p.2)
    (fun p => motive p.1 ∧ motive p.2) string integer real boolean uuid namedUuid set map ?_ ?_ ?_ ?_ ?_ v
  · exact fun v hv => absurd hv List.not_mem_nil
  · exact fun v vs hv hvs => List.forall_mem_cons.mpr ⟨hv, hvs⟩
  · exact fun p hp => absurd hp List.not_mem_nil
  · exact fun p pairs hp hpairs => List.forall_mem_cons.mpr ⟨hp, hpairs⟩
  · exact fun k v hk hv => ⟨hk, hv⟩

/-! ### Encoding -/

theorem elementsToJson_eq_map (vs : List Value) : elementsToJson vs = vs.map toJson := by
  induction vs with
  | nil => rfl
  | cons v rest ih => rw [elementsToJson, List.map_cons, ih]

theorem pairsToJson_eq_map (pairs : List (Value × Value)) :
    pairsToJson pairs = pairs.map fun p => .arr [p.1.toJson, p.2.toJson] := by
  induction pairs with
  | nil => rfl
  | cons p rest ih => rw [pairsToJson, List.map_cons, ih]

@[simp]
theorem toJson_set_singleton (v : Value) : toJson (.set [v]) = v.toJson := by
  rw [toJson]

theorem toJson_set {vs : List Value} (h : vs.length ≠ 1) :
    toJson (.set vs) = .arr [.str "set", .arr (vs.map toJson)] := by
  rw [toJson, elementsToJson_eq_map]
  rintro v rfl
  exact h rfl

theorem toJson_map (pairs : List (Value × Value)) :
    toJson (.map pairs) = .arr [.str "map", .arr (pairs.map fun p => .arr [p.1.toJson, p.2.toJson])] := by
  rw [toJson, pairsToJson_eq_map]

/-! ### Decoding -/

theorem elementsOfJson_cons (j : Json) (rest : List Json) :
    elementsOfJson (j :: rest) = (ofJson j).toOption.bind fun v => (elementsOfJson rest).map (v :: ·) := by
  rw [elementsOfJson]
  cases ofJson j <;> cases elementsOfJson rest <;> rfl

theorem pairsOfJson_cons (k v : Json) (rest : List Json) :
    pairsOfJson (.arr [k, v] :: rest) = (ofJson k).toOption.bind fun k => (ofJson v).toOption.bind fun v =>
      (pairsOfJson rest).map ((k, v) :: ·) := by
  rw [pairsOfJson]
  cases ofJson k <;> cases ofJson v <;> cases pairsOfJson rest <;> rfl

theorem ofJson_set (items : List Json) : ofJson (.arr [.str "set", .arr items]) =
    match elementsOfJson items with
    | some elements => .ok (.set elements)
    | none => .error .notSet := by
  rw [ofJson]
  refine (if_pos rfl).trans ?_
  cases elementsOfJson items <;> rfl

theorem ofJson_map (items : List Json) : ofJson (.arr [.str "map", .arr items]) =
    match pairsOfJson items with
    | some pairs => .ok (.map pairs)
    | none => .error .notMap := by
  rw [ofJson, if_neg (by decide)]
  refine (if_pos rfl).trans ?_
  cases pairsOfJson items <;> rfl

end Value
end Ovsdb
