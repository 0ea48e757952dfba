import Mathlib.Data.List.Forall2
import Ovsdb.Json

/-! Equality of JSON values that does not look at the order of members, and objects that may lack members. -/

namespace Ovsdb.Json

/-- Induction on a value, down to the elements of arrays and the values of members. -/
@[elab_as_elim]
theorem induct {motive : Json → Prop} (null : motive .null) (bool : ∀ b, motive (.bool b)) (int : ∀ n, motive (.int n))
    (float : ∀ x h, motive (.float x h)) (str : ∀ s, motive (.str s))
    (arr : ∀ items, (∀ j ∈ items, motive j) → motive (.arr items))
    (obj : ∀ members, (∀ m ∈ members, motive m.2) → motive (.obj members)) (j : Json) : motive j := by
  refine @Json.rec motive (fun items => ∀ j ∈ items, motive j) (fun members => ∀ m ∈ members, motive m.2)
    (fun m => motive m.2) null bool int float str arr obj ?_ ?_ ?_ ?_ ?_ j
  · exact fun j hj => absurd hj List.not_mem_nil
  · exact fun j items hj hitems => List.forall_mem_cons.mpr ⟨hj, hitems⟩
  · exact fun m hm => absurd hm List.not_mem_nil
  · exact fun m members hm hmembers => List.forall_mem_cons.mpr ⟨hm, hmembers⟩
  · exact fun name j hj => hj

/-! ### Objects without order -/

/-- JSON values that are equal but for the order in which objects have their members. Doubles are compared by `R`,
    which may tell the two zeros apart or not. -/
inductive Alike (R : Float → Float → Prop) : Json → Json → Prop where
  | null : Alike R .null .null
  | bool (b : Bool) : Alike R (.bool b) (.bool b)
  | int (n : WideInt) : Alike R (.int n) (.int n)
  | float {x y : Float} (hx : x.isFinite = true) (hy : y.isFinite = true) : R x y → Alike R (.float x hx) (.float y hy)
  | str (s : String) : Alike R (.str s) (.str s)
  | arr {items items' : List Json} : List.Forall₂ (Alike R) items items' → Alike R (.arr items) (.arr items')
  | obj {members members' : List (String × Json)} :
      (∀ name, Option.Rel (Alike R) (members.lookup name) (members'.lookup name)) →
      Alike R (.obj members) (.obj members')

/-- Values without objects in them. -/
inductive Plain : Json → Prop where
  | null : Plain .null
  | bool (b : Bool) : Plain (.bool b)
  | int (n : WideInt) : Plain (.int n)
  | float (x : Float) (h : x.isFinite = true) : Plain (.float x h)
  | str (s : String) : Plain (.str s)
  | arr {items : List Json} : (∀ j ∈ items, Plain j) → Plain (.arr items)

section
variable {R : Float → Float → Prop} {s t : String} {i j : Json} {items items' : List Json}
  {members members' : List (String × Json)}

@[simp]
theorem alike_bool {a b : Bool} : Alike R (.bool a) (.bool b) ↔ a = b :=
  ⟨fun h => by cases h; rfl, fun h => h ▸ .bool a⟩

@[simp]
theorem alike_int {m n : WideInt} : Alike R (.int m) (.int n) ↔ m = n :=
  ⟨fun h => by cases h; rfl, fun h => h ▸ .int m⟩

@[simp]
theorem alike_str : Alike R (.str s) (.str t) ↔ s = t :=
  ⟨fun h => by cases h; rfl, fun h => h ▸ .str s⟩

@[simp]
theorem alike_arr : Alike R (.arr items) (.arr items') ↔ List.Forall₂ (Alike R) items items' :=
  ⟨fun h => by cases h; assumption, .arr⟩

theorem alike_obj : Alike R (.obj members) (.obj members') ↔
    ∀ name, Option.Rel (Alike R) (members.lookup name) (members'.lookup name) :=
  ⟨fun h => by cases h; assumption, .obj⟩

theorem Alike.refl (same : ∀ x, R x x) (j : Json) : Alike R j j := by
  induction j using induct with
  | null => exact .null
  | bool b => exact .bool b
  | int n => exact .int n
  | float x h => exact .float h h (same x)
  | str s => exact .str s
  | arr items ih => exact .arr (List.forall₂_same.mpr ih)
  | obj members ih =>
    refine .obj fun name => ?_
    cases found : members.lookup name with
    | none => exact .none
    | some j =>
      obtain ⟨before, after, rfl, -⟩ := List.lookup_eq_some_iff.mp found
      exact .some (ih (name, j) (by simp))

theorem Plain.eq_of_alike (plain : i.Plain) (alike : Alike (· = ·) i j) : i = j := by
  induction plain generalizing j with
  | arr _ ih =>
    cases alike with
    | arr alike =>
      congr
      induction alike with
      | nil => rfl
      | cons first _ rest =>
        obtain ⟨head, tail⟩ := List.forall_mem_cons.mp ih
        rw [head first, rest (List.forall_mem_cons.mp ‹_›).2 tail]
  | float x =>
    cases alike with
    | float _ _ same => cases same; rfl
  | _ => cases alike; rfl

/-! ### Members that may be absent -/

/-- The members that are there. -/
def present (fields : List (String × Option Json)) : List (String × Json) :=
  fields.filterMap fun f => f.2.map (f.1, ·)

variable {fields fields' : List (String × Option Json)}

theorem lookup_present_of_notMem {name : String} (absent : name ∉ fields.map Prod.fst) :
    (present fields).lookup name = none := by
  rw [List.lookup_eq_none_iff]
  intro m mem
  obtain ⟨f, there, some⟩ := List.mem_filterMap.mp mem
  obtain ⟨value, -, rfl⟩ := Option.map_eq_some_iff.mp some
  have other : name ≠ f.1 := fun same => absent (same ▸ List.mem_map_of_mem there)
  simpa using other

theorem lookup_present_cons {n : String} {value : Option Json} (absent : n ∉ fields.map Prod.fst) (name : String) :
    (present ((n, value) :: fields)).lookup name = if name = n then value else (present fields).lookup name := by
  split
  case isTrue same =>
    subst same
    cases value with
    | none =>
      show (present fields).lookup name = none
      exact lookup_present_of_notMem absent
    | some j => exact List.lookup_cons_self
  case isFalse other =>
    cases value with
    | none => rfl
    | some j =>
      show ((n, j) :: present fields).lookup name = _
      rw [List.lookup_cons, beq_false_of_ne other]

/-- If objects may have the same members, each of these can be found in them by its name. -/
theorem alike_present (names : fields.map Prod.fst = fields'.map Prod.fst) (distinct : (fields.map Prod.fst).Nodup) :
    Alike R (.obj (present fields)) (.obj (present fields')) ↔
      List.Forall₂ (fun f f' => Option.Rel (Alike R) f.2 f'.2) fields fields' := by
  rw [alike_obj]
  induction fields generalizing fields' with
  | nil =>
    obtain rfl := List.map_eq_nil_iff.mp names.symm
    exact iff_of_true (fun _ => .none) .nil
  | cons f fields ih =>
    obtain ⟨⟨n', value'⟩, fields', rfl⟩ := List.exists_cons_of_ne_nil (l := fields') (by rintro rfl; cases names)
    obtain ⟨n, value⟩ := f
    obtain ⟨rfl, names'⟩ : n = n' ∧ fields.map Prod.fst = fields'.map Prod.fst := List.cons_eq_cons.mp names
    obtain ⟨absent, distinct⟩ : n ∉ fields.map Prod.fst ∧ (fields.map Prod.fst).Nodup := List.nodup_cons.mp distinct
    simp only [List.forall₂_cons, ← ih names' distinct, lookup_present_cons absent,
      lookup_present_cons (names' ▸ absent)]
    constructor
    · intro alike
      refine ⟨by simpa using alike n, fun name => ?_⟩
      by_cases same : name = n
      · rw [same, lookup_present_of_notMem absent, lookup_present_of_notMem (names' ▸ absent)]
        exact .none
      · simpa [same] using alike name
    · rintro ⟨first, rest⟩ name
      split
      · exact first
      · exact rest name

end
end Ovsdb.Json
