import Ovsdb.Proofs.Sequence
import Ovsdb.Proofs.Value.RoundTrip

/-! When two values are equal. Their structure must be the same down to the atoms, and their reals must be the same
    numbers. So a value is not equal to itself, nor to any other, if there is something in it that is no number. -/

namespace Ovsdb.Value

/-- The two zeros, which are equal and not the same. -/
def IsZero (x : Float) : Prop :=
  x = 0.0 ∨ x = -0.0

/-- Reals that are equal as numbers: the same number, or both zeros. What is no number is equal to nothing. -/
def SameNumber (x y : Float) : Prop :=
  (x = y ∧ x.isNaN = false) ∨ (IsZero x ∧ IsZero y)

/-- Values of the same structure with the same atoms. -/
inductive Equal : Value → Value → Prop where
  | string (s : String) : Equal (.string s) (.string s)
  | integer (i : Int64) : Equal (.integer i) (.integer i)
  | real {x y : Float} (h : SameNumber x y) : Equal (.real x) (.real y)
  | boolean (b : Bool) : Equal (.boolean b) (.boolean b)
  | uuid (u : Uuid) : Equal (.uuid u) (.uuid u)
  | namedUuid (u : NamedUuid) : Equal (.namedUuid u) (.namedUuid u)
  | set {vs ws : List Value} (elements : List.Forall₂ Equal vs ws) : Equal (.set vs) (.set ws)
  | map {ps qs : List (Value × Value)} (keys : List.Forall₂ (fun p q => Equal p.1 q.1) ps qs)
      (values : List.Forall₂ (fun p q => Equal p.2 q.2) ps qs) : Equal (.map ps) (.map qs)

/-- Values with something in them that is no number, however deep. -/
inductive HoldsNaN : Value → Prop where
  | real {x : Float} (h : x.isNaN = true) : HoldsNaN (.real x)
  | element {vs : List Value} {v : Value} (mem : v ∈ vs) (h : HoldsNaN v) : HoldsNaN (.set vs)
  | key {pairs : List (Value × Value)} {p : Value × Value} (mem : p ∈ pairs) (h : HoldsNaN p.1) : HoldsNaN (.map pairs)
  | value {pairs : List (Value × Value)} {p : Value × Value} (mem : p ∈ pairs) (h : HoldsNaN p.2) :
    HoldsNaN (.map pairs)

variable {x y : Float} {v w : Value} {vs ws : List Value} {ps qs : List (Value × Value)}

/-! ### Reals -/

theorem IsZero.isNaN_eq_false (h : IsZero x) : x.isNaN = false := by
  rcases h with rfl | rfl <;> rfl

theorem SameNumber.isNaN_eq_false (h : SameNumber x y) : x.isNaN = false := by
  rcases h with ⟨-, number⟩ | ⟨zero, -⟩
  · exact number
  · exact zero.isNaN_eq_false

theorem float_beq_iff : (x == y) = true ↔ SameNumber x y := by
  have number {z : Float} : z.isNaN = false ↔ z ≠ .nan := by
    rw [Float.isNaN_eq_decide_eq_nan, decide_eq_false_iff_not]
  rw [Float.beq_iff_ne_nan_and_eq, ← number, ← number]
  constructor
  · rintro ⟨hx, -, rfl | ⟨rfl, rfl⟩ | ⟨rfl, rfl⟩⟩
    · exact .inl ⟨rfl, hx⟩
    · exact .inr ⟨.inl rfl, .inr rfl⟩
    · exact .inr ⟨.inr rfl, .inl rfl⟩
  · rintro (⟨rfl, hx⟩ | ⟨hx, hy⟩)
    · exact ⟨hx, hx, .inl rfl⟩
    · refine ⟨hx.isNaN_eq_false, hy.isNaN_eq_false, ?_⟩
      rcases hx with rfl | rfl <;> rcases hy with rfl | rfl
      · exact .inl rfl
      · exact .inr (.inl ⟨rfl, rfl⟩)
      · exact .inr (.inr ⟨rfl, rfl⟩)
      · exact .inl rfl

theorem sameNumber_comm : SameNumber x y ↔ SameNumber y x := by
  rw [← float_beq_iff, ← float_beq_iff, BEq.comm]

/-! ### Structure -/

theorem equal_real : Equal (.real x) (.real y) ↔ SameNumber x y := by
  refine ⟨fun h => ?_, .real⟩
  cases h with
  | real same => exact same

theorem equal_set : Equal (.set vs) (.set ws) ↔ List.Forall₂ Equal vs ws := by
  refine ⟨fun h => ?_, .set⟩
  cases h with
  | set elements => exact elements

theorem equal_map : Equal (.map ps) (.map qs) ↔ List.Forall₂ (fun p q => Equal p.1 q.1 ∧ Equal p.2 q.2) ps qs := by
  rw [forall₂_and]
  refine ⟨fun h => ?_, fun ⟨keys, values⟩ => .map keys values⟩
  cases h with
  | map keys values => exact ⟨keys, values⟩

theorem same_iff_equal : v.same w = true ↔ Equal v w := by
  induction v generalizing w with
  | set vs ih =>
    cases w with
    | set ws => rw [same, sameElements_iff, equal_set, forall₂_iff_of_mem fun v hv w => ih v hv]
    | _ =>
      refine ⟨fun h => ?_, fun h => ?_⟩
      · simp [same] at h
      · cases h
  | map ps ih =>
    cases w with
    | map qs => rw [same, samePairs_iff, equal_map, forall₂_iff_of_mem fun p hp q => and_congr (ih p hp).1 (ih p hp).2]
    | _ =>
      refine ⟨fun h => ?_, fun h => ?_⟩
      · simp [same] at h
      · cases h
  | real x =>
    cases w with
    | real y => rw [same, float_beq_iff, equal_real]
    | _ =>
      refine ⟨fun h => ?_, fun h => ?_⟩
      · simp [same] at h
      · cases h
  | string _ | integer _ | boolean _ | uuid _ | namedUuid _ =>
    constructor
    · cases w <;> simp [same]
      rintro rfl
      constructor
    · rintro ⟨⟩
      simp [same]

theorem equal_comm : Equal v w ↔ Equal w v := by
  induction v generalizing w with
  | set vs ih =>
    cases w with
    | set ws =>
      rw [equal_set, equal_set, forall₂_iff_of_mem fun v hv w => ih v hv]
      exact ⟨.flip, .flip⟩
    | _ => constructor <;> intro h <;> cases h
  | map ps ih =>
    cases w with
    | map qs =>
      rw [equal_map, equal_map, forall₂_iff_of_mem fun p hp q => and_congr (ih p hp).1 (ih p hp).2]
      exact ⟨.flip, .flip⟩
    | _ => constructor <;> intro h <;> cases h
  | real x =>
    cases w with
    | real y => rw [equal_real, equal_real, sameNumber_comm]
    | _ => constructor <;> intro h <;> cases h
  | string _ | integer _ | boolean _ | uuid _ | namedUuid _ =>
    constructor <;>
    · rintro ⟨⟩
      constructor

/-! ### What is no number -/

theorem HoldsNaN.not_equal (h : HoldsNaN v) : ¬Equal v w := by
  induction h generalizing w with
  | real nan =>
    intro same
    cases same with
    | real same => exact Bool.false_ne_true (same.isNaN_eq_false.symm.trans nan)
  | element mem _ ih =>
    intro same
    cases same with
    | set elements =>
      obtain ⟨w, equal⟩ := forall_of_forall₂ elements (P := fun v => ∃ w, Equal v w) (fun w _ v h => ⟨w, h⟩) _ mem
      exact ih equal
  | key mem _ ih =>
    intro same
    cases same with
    | map keys values =>
      obtain ⟨w, equal⟩ := forall_of_forall₂ keys (P := fun p => ∃ w, Equal p.1 w) (fun q _ p h => ⟨q.1, h⟩) _ mem
      exact ih equal
  | value mem _ ih =>
    intro same
    cases same with
    | map keys values =>
      obtain ⟨w, equal⟩ := forall_of_forall₂ values (P := fun p => ∃ w, Equal p.2 w) (fun q _ p h => ⟨q.2, h⟩) _ mem
      exact ih equal

/-- A value is equal to itself unless something in it is no number. -/
theorem equal_self_iff : Equal v v ↔ ¬HoldsNaN v := by
  refine ⟨fun same nan => nan.not_equal same, fun clean => ?_⟩
  induction v with
  | real x => exact .real (.inl ⟨rfl, Bool.eq_false_iff.mpr fun nan => clean (.real nan)⟩)
  | set vs ih => exact .set (List.forall₂_same.mpr fun v hv => ih v hv fun nan => clean (.element hv nan))
  | map ps ih =>
    refine equal_map.mpr (List.forall₂_same.mpr fun p hp => ?_)
    exact ⟨(ih p hp).1 fun nan => clean (.key hp nan), (ih p hp).2 fun nan => clean (.value hp nan)⟩
  | string _ | integer _ | boolean _ | uuid _ | namedUuid _ => constructor

end Ovsdb.Value
