import Mathlib
import Ovsdb.Proofs.Json.Decode
import Ovsdb.Proofs.Value.Basic

/-! What comes back of a value that is encoded and decoded again. A set of one element comes back as that element,
    at any depth; every other value comes back as it was, and one that holds a real without a wire form does not
    come back at all. -/

namespace Ovsdb
namespace Value

/-! ### Normal forms -/

mutual

/-- The value with every set of one element replaced by that element. -/
def norm : Value → Value
  | .set [v] => norm v
  | .set vs => .set (normElements vs)
  | .map pairs => .map (normPairs pairs)
  | v => v

def normElements : List Value → List Value
  | [] => []
  | v :: rest => norm v :: normElements rest

def normPairs : List (Value × Value) → List (Value × Value)
  | [] => []
  | (k, v) :: rest => (norm k, norm v) :: normPairs rest

end

mutual

/-- Whether no set in a value has exactly one element. -/
def isNormal : Value → Bool
  | .set vs => vs.length != 1 && elementsNormal vs
  | .map pairs => pairsNormal pairs
  | _ => true

def elementsNormal : List Value → Bool
  | [] => true
  | v :: rest => isNormal v && elementsNormal rest

def pairsNormal : List (Value × Value) → Bool
  | [] => true
  | (k, v) :: rest => isNormal k && isNormal v && pairsNormal rest

end

mutual

/-- Whether every real in a value is a number: neither infinite nor not-a-number. -/
def isFinite : Value → Bool
  | .real x => x.isFinite
  | .set vs => elementsFinite vs
  | .map pairs => pairsFinite pairs
  | _ => true

def elementsFinite : List Value → Bool
  | [] => true
  | v :: rest => isFinite v && elementsFinite rest

def pairsFinite : List (Value × Value) → Bool
  | [] => true
  | (k, v) :: rest => isFinite k && isFinite v && pairsFinite rest

end

theorem normElements_eq_map (vs : List Value) : normElements vs = vs.map norm := by
  induction vs with
  | nil => rfl
  | cons v rest ih => rw [normElements, List.map_cons, ih]

theorem normPairs_eq_map (pairs : List (Value × Value)) :
    normPairs pairs = pairs.map fun p => (p.1.norm, p.2.norm) := by
  induction pairs with
  | nil => rfl
  | cons p rest ih => rw [normPairs, List.map_cons, ih]

@[simp]
theorem norm_set_singleton (v : Value) : norm (.set [v]) = v.norm := by
  rw [norm]

theorem norm_set {vs : List Value} (h : vs.length ≠ 1) : norm (.set vs) = .set (vs.map norm) := by
  rw [norm, normElements_eq_map]
  rintro v rfl
  exact h rfl

theorem norm_map (pairs : List (Value × Value)) :
    norm (.map pairs) = .map (pairs.map fun p => (p.1.norm, p.2.norm)) := by
  rw [norm, normPairs_eq_map]

theorem isNormal_set {vs : List Value} : isNormal (.set vs) = true ↔ vs.length ≠ 1 ∧ ∀ v ∈ vs, v.isNormal = true := by
  have hall : elementsNormal vs = true ↔ ∀ v ∈ vs, v.isNormal = true := by
    induction vs with
    | nil => simp [elementsNormal]
    | cons v rest ih => simp [elementsNormal, ih]
  rw [isNormal, Bool.and_eq_true, bne_iff_ne, hall]

theorem isNormal_map {pairs : List (Value × Value)} :
    isNormal (.map pairs) = true ↔ ∀ p ∈ pairs, p.1.isNormal = true ∧ p.2.isNormal = true := by
  rw [isNormal]
  induction pairs with
  | nil => simp [pairsNormal]
  | cons p rest ih => simp [pairsNormal, ih, and_assoc]

theorem isFinite_set {vs : List Value} : isFinite (.set vs) = true ↔ ∀ v ∈ vs, v.isFinite = true := by
  rw [isFinite]
  induction vs with
  | nil => simp [elementsFinite]
  | cons v rest ih => simp [elementsFinite, ih]

theorem isFinite_map {pairs : List (Value × Value)} :
    isFinite (.map pairs) = true ↔ ∀ p ∈ pairs, p.1.isFinite = true ∧ p.2.isFinite = true := by
  rw [isFinite]
  induction pairs with
  | nil => simp [pairsFinite]
  | cons p rest ih => simp [pairsFinite, ih, and_assoc]

theorem isFinite_set_eq_false {vs : List Value} : isFinite (.set vs) = false ↔ ∃ v ∈ vs, v.isFinite = false := by
  rw [← Bool.not_eq_true, isFinite_set]
  simp

theorem isFinite_map_eq_false {pairs : List (Value × Value)} :
    isFinite (.map pairs) = false ↔ ∃ p ∈ pairs, p.1.isFinite = false ∨ p.2.isFinite = false := by
  rw [← Bool.not_eq_true, isFinite_map]
  simp only [Classical.not_forall, Classical.not_and_iff_not_or_not, Bool.not_eq_true, exists_prop]

/-- No normal form is a set of one element. -/
theorem norm_ne_singleton (v w : Value) : v.norm ≠ .set [w] := by
  induction v with
  | set vs ih =>
    by_cases h : vs.length = 1
    · obtain ⟨x, rfl⟩ := List.length_eq_one_iff.mp h
      rw [norm_set_singleton]
      exact ih x List.mem_cons_self
    · rw [norm_set h]
      intro heq
      injection heq with heq
      have hlen := congrArg List.length heq
      rw [List.length_map] at hlen
      exact h hlen
  | map pairs _ =>
    rw [norm_map]
    exact fun heq => by injection heq
  | string _ | integer _ | real _ | boolean _ | uuid _ | namedUuid _ => exact fun heq => by injection heq

/-- A value is its own normal form if it is normal. -/
theorem norm_eq_self {v : Value} (h : v.isNormal = true) : v.norm = v := by
  induction v with
  | set vs ih =>
    obtain ⟨hlen, hall⟩ := isNormal_set.mp h
    rw [norm_set hlen, List.map_congr_left fun v hv => ih v hv (hall v hv), List.map_id']
  | map pairs ih =>
    have hall := isNormal_map.mp h
    have hpair : ∀ p ∈ pairs, (p.1.norm, p.2.norm) = p := fun p hp => by
      rw [(ih p hp).1 (hall p hp).1, (ih p hp).2 (hall p hp).2]
    rw [norm_map, List.map_congr_left hpair, List.map_id']
  | string _ | integer _ | real _ | boolean _ | uuid _ | namedUuid _ => rfl

/-! ### Equality -/

/-- A finite real equals itself as a number. -/
theorem float_beq_self {x : Float} (h : x.isFinite = true) : (x == x) = true := by
  refine Float.beq_self_iff.mpr ?_
  rintro rfl
  cases h

theorem sameElements_iff {vs ws : List Value} :
    sameElements vs ws = true ↔ List.Forall₂ (fun v w => v.same w = true) vs ws := by
  induction vs generalizing ws with
  | nil => cases ws <;> simp [sameElements]
  | cons v vs ih => cases ws <;> simp [sameElements, ih]

theorem samePairs_iff {ps qs : List (Value × Value)} :
    samePairs ps qs = true ↔ List.Forall₂ (fun p q => p.1.same q.1 = true ∧ p.2.same q.2 = true) ps qs := by
  induction ps generalizing qs with
  | nil => cases qs <;> simp [samePairs]
  | cons p ps ih => cases qs <;> simp [samePairs, ih]

theorem same_self {v : Value} (h : v.isFinite = true) : v.same v = true := by
  induction v with
  | real x => exact float_beq_self (by rwa [isFinite] at h)
  | set vs ih =>
    rw [same, sameElements_iff, List.forall₂_same]
    exact fun v hv => ih v hv (isFinite_set.mp h v hv)
  | map pairs ih =>
    rw [same, samePairs_iff, List.forall₂_same]
    exact fun p hp => ⟨(ih p hp).1 (isFinite_map.mp h p hp).1, (ih p hp).2 (isFinite_map.mp h p hp).2⟩
  | string _ | integer _ | boolean _ | uuid _ | namedUuid _ => simp [same]

/-- A value that is equal to its normal form is normal. -/
theorem isNormal_of_same_norm {v : Value} (h : v.norm.same v = true) : v.isNormal = true := by
  induction v with
  | set vs ih =>
    by_cases hlen : vs.length = 1
    · obtain ⟨x, rfl⟩ := List.length_eq_one_iff.mp hlen
      cases hnorm : norm (.set [x]) with
      | set ws =>
        rw [hnorm, same, sameElements_iff] at h
        obtain ⟨w, rfl⟩ := List.length_eq_one_iff.mp h.length_eq
        exact absurd hnorm (norm_ne_singleton _ w)
      | _ => rw [hnorm] at h; simp [same] at h
    · rw [norm_set hlen, same, sameElements_iff, List.forall₂_map_left_iff, List.forall₂_same] at h
      exact isNormal_set.mpr ⟨hlen, fun v hv => ih v hv (h v hv)⟩
  | map pairs ih =>
    rw [norm_map, same, samePairs_iff, List.forall₂_map_left_iff, List.forall₂_same] at h
    exact isNormal_map.mpr fun p hp => ⟨(ih p hp).1 (h p hp).1, (ih p hp).2 (h p hp).2⟩
  | string _ | integer _ | real _ | boolean _ | uuid _ | namedUuid _ => rfl

/-! ### The codec -/

theorem elementsOfJson_map_toJson {f : Value → Value} {vs : List Value} (h : ∀ v ∈ vs, ofJson v.toJson = .ok (f v)) :
    elementsOfJson (vs.map toJson) = some (vs.map f) := by
  induction vs with
  | nil => rfl
  | cons v rest ih =>
    obtain ⟨hv, hrest⟩ := List.forall_mem_cons.mp h
    rw [List.map_cons, elementsOfJson_cons, hv, ih hrest]
    rfl

theorem elementsOfJson_eq_none {vs : List Value} (h : ∃ v ∈ vs, ∃ e, ofJson v.toJson = .error e) :
    elementsOfJson (vs.map toJson) = none := by
  induction vs with
  | nil => simp at h
  | cons v rest ih =>
    obtain ⟨w, hw, e, he⟩ := h
    rw [List.map_cons, elementsOfJson_cons]
    rcases List.mem_cons.mp hw with rfl | hw
    · rw [he]
      rfl
    · rw [ih ⟨w, hw, e, he⟩]
      cases ofJson v.toJson <;> rfl

theorem pairsOfJson_map_toJson {f : Value → Value} {pairs : List (Value × Value)}
    (h : ∀ p ∈ pairs, ofJson p.1.toJson = .ok (f p.1) ∧ ofJson p.2.toJson = .ok (f p.2)) :
    pairsOfJson (pairs.map fun p => .arr [p.1.toJson, p.2.toJson]) = some (pairs.map fun p => (f p.1, f p.2)) := by
  induction pairs with
  | nil => rfl
  | cons p rest ih =>
    obtain ⟨⟨hk, hv⟩, hrest⟩ := List.forall_mem_cons.mp h
    rw [List.map_cons, pairsOfJson_cons, hk, hv, ih hrest]
    rfl

theorem pairsOfJson_eq_none {pairs : List (Value × Value)}
    (h : ∃ p ∈ pairs, (∃ e, ofJson p.1.toJson = .error e) ∨ ∃ e, ofJson p.2.toJson = .error e) :
    pairsOfJson (pairs.map fun p => .arr [p.1.toJson, p.2.toJson]) = none := by
  induction pairs with
  | nil => simp at h
  | cons p rest ih =>
    obtain ⟨q, hq, he⟩ := h
    rw [List.map_cons, pairsOfJson_cons]
    rcases List.mem_cons.mp hq with rfl | hq
    · rcases he with ⟨e, he⟩ | ⟨e, he⟩
      · rw [he]
        rfl
      · rw [he]
        cases ofJson q.1.toJson <;> rfl
    · rw [ih ⟨q, hq, he⟩]
      cases ofJson p.1.toJson <;> cases ofJson p.2.toJson <;> rfl

theorem ofInt_ofInt64 (i : Int64) : ofInt (.ofInt64 i) = .integer i := by
  rw [ofInt, WideInt.toInt64?_ofInt64]

theorem ofJson_uuid (u : Uuid) : ofJson u.toJson = .ok (.uuid u) := by
  simp [Uuid.toJson, ofJson, Uuid.ofJson, Json.tagged?, Uuid.ofString, u.size_eq]

theorem ofJson_namedUuid (u : NamedUuid) : ofJson u.toJson = .ok (.namedUuid u) := by
  simp [NamedUuid.toJson, ofJson, NamedUuid.ofJson, Json.tagged?]

/-- A value without infinities comes back in its normal form. -/
theorem ofJson_toJson {v : Value} (h : v.isFinite = true) : ofJson v.toJson = .ok v.norm := by
  induction v with
  | string s => rfl
  | integer i => rw [toJson, ofJson, ofInt_ofInt64]; rfl
  | real x =>
    rw [isFinite] at h
    rw [toJson, Json.ofFloat, dif_pos h]
    rfl
  | boolean b => rfl
  | uuid u => exact ofJson_uuid u
  | namedUuid u => exact ofJson_namedUuid u
  | set vs ih =>
    have hall := isFinite_set.mp h
    by_cases hlen : vs.length = 1
    · obtain ⟨v, rfl⟩ := List.length_eq_one_iff.mp hlen
      rw [toJson_set_singleton, norm_set_singleton]
      exact ih v List.mem_cons_self (hall v List.mem_cons_self)
    · rw [toJson_set hlen, ofJson_set, elementsOfJson_map_toJson fun v hv => ih v hv (hall v hv), norm_set hlen]
  | map pairs ih =>
    have hall := isFinite_map.mp h
    rw [toJson_map, ofJson_map, norm_map,
      pairsOfJson_map_toJson fun p hp => ⟨(ih p hp).1 (hall p hp).1, (ih p hp).2 (hall p hp).2⟩]

/-- A value with an infinity or not-a-number anywhere inside does not come back. -/
theorem ofJson_toJson_error {v : Value} (h : v.isFinite = false) : ∃ e, ofJson v.toJson = .error e := by
  induction v with
  | real x =>
    rw [isFinite] at h
    rw [toJson, Json.ofFloat, dif_neg (by rw [h]; exact Bool.false_ne_true)]
    exact ⟨_, rfl⟩
  | set vs ih =>
    obtain ⟨v, hv, hfin⟩ := isFinite_set_eq_false.mp h
    by_cases hlen : vs.length = 1
    · obtain ⟨w, rfl⟩ := List.length_eq_one_iff.mp hlen
      rw [toJson_set_singleton]
      obtain rfl := List.mem_singleton.mp hv
      exact ih v hv hfin
    · rw [toJson_set hlen, ofJson_set, elementsOfJson_eq_none ⟨v, hv, ih v hv hfin⟩]
      exact ⟨_, rfl⟩
  | map pairs ih =>
    obtain ⟨p, hp, hfin⟩ := isFinite_map_eq_false.mp h
    rw [toJson_map, ofJson_map, pairsOfJson_eq_none ⟨p, hp, hfin.imp (ih p hp).1 (ih p hp).2⟩]
    exact ⟨_, rfl⟩
  | string _ | integer _ | boolean _ | uuid _ | namedUuid _ => cases h

/-- What decoding makes of an encoded value: the normal form if all reals are finite, else an error. So exactly the
    values that are finite and normal come back as they were, by identity as well as by the values' own equality. -/
theorem decoded_encoding (v : Value) :
    (v.isFinite = true → ofJson v.toJson = .ok v.norm) ∧
    (v.isFinite = false → ∃ e, ofJson v.toJson = .error e) ∧
    (ofJson v.toJson = .ok v ↔ v.isFinite = true ∧ v.isNormal = true) ∧
    ((∃ w, ofJson v.toJson = .ok w ∧ (w == v) = true) ↔ v.isFinite = true ∧ v.isNormal = true) := by
  have finite_of_ok : ∀ {w}, ofJson v.toJson = .ok w → v.isFinite = true ∧ w = v.norm := fun {w} hw => by
    cases hfin : v.isFinite with
    | false =>
      obtain ⟨e, he⟩ := ofJson_toJson_error hfin
      rw [he] at hw
      cases hw
    | true =>
      rw [ofJson_toJson hfin] at hw
      exact ⟨rfl, (Except.ok.inj hw).symm⟩
  have back : v.isFinite = true ∧ v.isNormal = true → ofJson v.toJson = .ok v := fun ⟨hfin, hnorm⟩ => by
    rw [ofJson_toJson hfin, norm_eq_self hnorm]
  have same_back : ∀ w, ofJson v.toJson = .ok w → (w == v) = true → v.isFinite = true ∧ v.isNormal = true := by
    intro w hw heq
    obtain ⟨hfin, rfl⟩ := finite_of_ok hw
    exact ⟨hfin, isNormal_of_same_norm heq⟩
  refine ⟨ofJson_toJson, ofJson_toJson_error, ⟨fun h => ?_, back⟩, fun ⟨w, hw, heq⟩ => same_back w hw heq, fun h => ?_⟩
  · exact same_back v h (same_self (finite_of_ok h).1)
  · exact ⟨v, back h, same_self h.1⟩

/-- A set of one uuid inside a map inside a set of one map: both sets give way to their elements. -/
theorem decoded_encoding_nested :
    let ref : NamedUuid := ⟨"row1"⟩
    let v := set [map [(set [namedUuid ref], real 0.5), (set [], set [integer 1, integer 2])]]
    v.isFinite = true ∧
      ofJson v.toJson = .ok (map [(namedUuid ref, real 0.5), (set [], set [integer 1, integer 2])]) :=
  have hfin : isFinite (set [map [(set [namedUuid ⟨"row1"⟩], real 0.5), (set [], set [integer 1, integer 2])]]) =
      true := by decide
  ⟨hfin, (decoded_encoding _).1 hfin⟩

end Value
end Ovsdb
