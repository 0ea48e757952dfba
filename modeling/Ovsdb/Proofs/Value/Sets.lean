import Ovsdb.Proofs.Value.Grammar
import Ovsdb.Value.Set

/-! Sets are read as values are: a set is a value that is no map, and a set of strings is a set whose elements are all
    strings. What is written of a set of atoms, whatever its size, is read as that set again. -/

namespace Ovsdb

variable {j : Json} {v : Value} {s : ValueSet} {t : StringSet} {text : String} {items : List Json}
  {texts : List String}

/-! ### Sets as values -/

/-- A number is an integer or a real. -/
theorem Value.ofInt_cases (n : WideInt) : (∃ i, ofInt n = .integer i) ∨ ∃ x, ofInt n = .real x := by
  rw [ofInt]
  cases n.toInt64? with
  | some i => exact .inl ⟨i, rfl⟩
  | none => exact .inr ⟨n.toFloat, rfl⟩

namespace ValueSet

theorem ofJson_set_eq_ok :
    ofJson (.arr [.str "set", .arr items]) = .ok s ↔ Value.elementsOfJson items = some s.elements := by
  obtain ⟨elements⟩ := s
  cases h : Value.elementsOfJson items <;> simp [ofJson, h]

/-- A value that is no map is read as the set that it is. -/
theorem ofJson_of_value (read : Value.ofJson j = .ok v) (unpaired : ∀ pairs, v ≠ .map pairs) :
    ofJson j = .ok v.toSet := by
  cases Value.denotes_of_ok read with
  | string s | boolean b | real x finite => rfl
  | @integer n _ h =>
    subst h
    obtain ⟨i, number⟩ | ⟨x, number⟩ := Value.ofInt_cases n <;> rw [number] at read ⊢ <;> simp [ofJson, read] <;> rfl
  | uuid u =>
    simp only [Uuid.toJson] at read ⊢
    simp only [ofJson, read, true_or, if_true]
    rfl
  | namedUuid u =>
    simp only [NamedUuid.toJson] at read ⊢
    simp only [ofJson, read, or_true, if_true]
    rfl
  | set elements => exact ofJson_set_eq_ok.mpr elements
  | map entries => exact absurd rfl (unpaired _)

/-- A set is read only from what is read as a value that is no map. -/
theorem value_of_ofJson (h : ofJson j = .ok s) :
    ∃ v, Value.ofJson j = .ok v ∧ (∀ pairs, v ≠ .map pairs) ∧ v.toSet = s := by
  revert h
  fun_cases ofJson j with
  | case1 tag body atom =>
    intro h
    cases read : Value.ofJson (.arr [.str tag, body]) with
    | error _ => rw [read] at h; cases h
    | ok v =>
      rw [read] at h
      cases h
      refine ⟨v, rfl, ?_⟩
      cases Value.denotes_of_ok read with
      | uuid u | namedUuid u => exact ⟨nofun, rfl⟩
      | set _ | map _ => simp at atom
  | case2 items elements found =>
    rintro ⟨⟩
    exact ⟨.set elements, by rw [Value.ofJson_set, found], nofun, rfl⟩
  | case7 j _ array v read =>
    rintro ⟨⟩
    refine ⟨v, read, ?_⟩
    cases Value.denotes_of_ok read with
    | string _ | boolean _ | real _ _ => exact ⟨nofun, rfl⟩
    | @integer n _ h =>
      subst h
      obtain ⟨i, number⟩ | ⟨x, number⟩ := Value.ofInt_cases n <;> rw [number] <;> exact ⟨nofun, rfl⟩
    | uuid u => exact (array _ rfl).elim
    | namedUuid u => exact (array _ rfl).elim
    | set _ | map _ => exact (array _ rfl).elim
  | _ => exact fun h => nomatch h

theorem ofJson_eq_ok : ofJson j = .ok s ↔
    ∃ v, Value.ofJson j = .ok v ∧ (∀ pairs, v ≠ .map pairs) ∧ v.toSet = s :=
  ⟨value_of_ofJson, fun ⟨_, read, unpaired, same⟩ => same ▸ ofJson_of_value read unpaired⟩

end ValueSet

/-! ### Strings -/

theorem Value.ofJson_eq_string : ofJson j = .ok (.string text) ↔ j = .str text := by
  constructor
  · intro h
    cases denotes_of_ok h with
    | string _ => rfl
    | @integer n _ h => obtain ⟨i, number⟩ | ⟨x, number⟩ := ofInt_cases n <;> cases number.symm.trans h
  · rintro rfl
    exact ofJson.eq_1 text

theorem Value.elementsOfJson_strings :
    elementsOfJson items = some (texts.map .string) ↔ items = texts.map .str := by
  rw [elementsOfJson_eq_some, List.forall₂_map_right_iff]
  simp only [ofJson_eq_string]
  rw [← List.forall₂_map_right_iff (R := Eq), List.forall₂_eq_eq_eq]

theorem mapM_str?_strings (texts : List String) : (texts.map Json.str).mapM Json.str? = some texts := by
  induction texts with
  | nil => rfl
  | cons text rest ih =>
    rw [List.map_cons, List.mapM_cons, ih]
    rfl

theorem mapM_str?_eq_some (h : items.mapM Json.str? = some texts) : items = texts.map .str := by
  induction items generalizing texts with
  | nil => cases h; rfl
  | cons j rest ih =>
    rw [List.mapM_cons] at h
    cases j with
    | str text =>
      cases others : rest.mapM Json.str? with
      | none => rw [others] at h; cases h
      | some texts' =>
        rw [others] at h
        cases h
        rw [ih others, List.map_cons]
    | _ => cases h

namespace StringSet

theorem ofJson_set (texts : List String) : ofJson (.arr [.str "set", .arr (texts.map .str)]) = .ok ⟨texts⟩ := by
  rw [ofJson, if_pos rfl, mapM_str?_strings]

theorem singleton_eq_toSet (h : (⟨[v]⟩ : ValueSet) = t.toSet) : ∃ text, v = .string text ∧ t = ⟨[text]⟩ := by
  obtain ⟨texts⟩ := t
  match texts with
  | [] => cases h
  | [text] => cases h; exact ⟨text, rfl, rfl⟩
  | _ :: _ :: _ => cases h

/-- A set of strings is read exactly from what is read as the set of these strings. -/
theorem ofJson_eq_ok : ofJson j = .ok t ↔ ValueSet.ofJson j = .ok t.toSet := by
  constructor
  · fun_cases ofJson j with
    | case1 text => rintro ⟨⟩; rfl
    | case2 items texts found =>
      rintro ⟨⟩
      exact ValueSet.ofJson_set_eq_ok.mpr (Value.elementsOfJson_strings.mpr (mapM_str?_eq_some found))
    | _ => exact fun h => nomatch h
  · intro h
    obtain ⟨v, read, unpaired, same⟩ := ValueSet.value_of_ofJson h
    cases Value.denotes_of_ok read with
    | string text =>
      obtain ⟨_, ⟨⟩, rfl⟩ := singleton_eq_toSet same
      rfl
    | @set items vs elements =>
      have strings : vs = t.elements.map .string := congrArg ValueSet.elements same
      rw [strings] at elements
      rw [Value.elementsOfJson_strings.mp elements]
      exact ofJson_set t.elements
    | map _ => exact absurd rfl (unpaired _)
    | @integer n _ h =>
      subst h
      obtain ⟨i, number⟩ | ⟨x, number⟩ := Value.ofInt_cases n <;> rw [number] at same <;>
        obtain ⟨_, ⟨⟩, -⟩ := singleton_eq_toSet same
    | boolean _ | real _ _ | uuid _ | namedUuid _ => obtain ⟨_, ⟨⟩, -⟩ := singleton_eq_toSet same

/-- A set of strings is written as the set that it is. -/
theorem toJson_eq (t : StringSet) : t.toJson = t.toSet.toJson := by
  obtain ⟨texts⟩ := t
  by_cases single : texts.length = 1
  · obtain ⟨text, rfl⟩ := List.length_eq_one_iff.mp single
    rfl
  · have written : ValueSet.toJson ⟨texts.map .string⟩ = _ := Value.toJson_set (by rwa [List.length_map])
    rw [toSet, written, List.map_map, toJson]
    · rfl
    · rintro text rfl
      exact single rfl

end StringSet

/-! ### Sets of atoms -/

/-- Whether a value is neither a set nor a map. -/
def Value.isAtom : Value → Bool
  | .set _ | .map _ => false
  | _ => true

theorem Value.ofJson_toJson_atom {v : Value} (atom : v.isAtom = true) (finite : v.isFinite = true) :
    ofJson v.toJson = .ok v := by
  have normal : v.isNormal = true := by
    cases v with
    | set _ | map _ => cases atom
    | string _ | integer _ | real _ | boolean _ | uuid _ | namedUuid _ => rfl
  rw [ofJson_toJson finite, norm_eq_self normal]

namespace ValueSet

/-- An atom stands for the set of it alone. -/
theorem ofJson_toJson_atom {v : Value} (atom : v.isAtom = true) (finite : v.isFinite = true) :
    ofJson v.toJson = .ok ⟨[v]⟩ := by
  have unpaired : ∀ pairs, v ≠ .map pairs := by rintro pairs rfl; cases atom
  have single : v.toSet = ⟨[v]⟩ := by
    cases v with
    | set _ => cases atom
    | _ => rfl
  rw [ofJson_of_value (Value.ofJson_toJson_atom atom finite) unpaired, single]

/-- A set of atoms comes back, whatever its size. -/
theorem ofJson_toJson {s : ValueSet} (h : ∀ v ∈ s.elements, v.isAtom = true ∧ v.isFinite = true) :
    ofJson s.toJson = .ok s := by
  obtain ⟨vs⟩ := s
  by_cases single : vs.length = 1
  · obtain ⟨v, rfl⟩ := List.length_eq_one_iff.mp single
    obtain ⟨atom, finite⟩ := h v List.mem_cons_self
    have written : toJson ⟨[v]⟩ = v.toJson := Value.toJson_set_singleton v
    rw [written, ofJson_toJson_atom atom finite]
  · have written : toJson ⟨vs⟩ = .arr [.str "set", .arr (vs.map Value.toJson)] := Value.toJson_set single
    have read : Value.elementsOfJson (vs.map Value.toJson) = some (vs.map id) :=
      Value.elementsOfJson_map_toJson fun v hv => Value.ofJson_toJson_atom (h v hv).1 (h v hv).2
    rw [List.map_id] at read
    rw [written]
    exact ofJson_set_eq_ok.mpr read

theorem restores {s : ValueSet} (h : ∀ v ∈ s.elements, v.isAtom = true ∧ v.isFinite = true) :
    Restores decode toJson s := by
  have read := ofJson_toJson h
  refine .lift read fun null => ?_
  rw [null] at read
  cases read

end ValueSet

theorem StringSet.ofJson_toJson (t : StringSet) : ofJson t.toJson = .ok t := by
  rw [ofJson_eq_ok, toJson_eq]
  refine ValueSet.ofJson_toJson fun v hv => ?_
  obtain ⟨text, -, rfl⟩ := List.mem_map.mp hv
  exact ⟨rfl, rfl⟩

/-! ### The decoders of sets -/

/-- The ways to read a set agree: as a value that is no map, as a set, and as a set of strings if there is nothing
    else in it. What is written of a set of atoms or of strings is read as that set, whatever its size. -/
theorem ValueSet.decoders_agree :
    (∀ j s, ofJson j = .ok s ↔ ∃ v, Value.ofJson j = .ok v ∧ (∀ pairs, v ≠ .map pairs) ∧ v.toSet = s) ∧
    (∀ j t, StringSet.ofJson j = .ok t ↔
      ∃ s, ofJson j = .ok s ∧ (∀ v ∈ s.elements, ∃ text, v = .string text) ∧ t.toSet = s) ∧
    (∀ t : StringSet, t.toJson = t.toSet.toJson) ∧
    (∀ s : ValueSet, (∀ v ∈ s.elements, v.isAtom = true ∧ v.isFinite = true) → ofJson s.toJson = .ok s) ∧
    ∀ t : StringSet, StringSet.ofJson t.toJson = .ok t := by
  refine ⟨fun j s => ofJson_eq_ok, fun j t => StringSet.ofJson_eq_ok.trans ⟨fun read => ?_, ?_⟩,
    StringSet.toJson_eq, fun s => ofJson_toJson, StringSet.ofJson_toJson⟩
  · refine ⟨t.toSet, read, fun v hv => ?_, rfl⟩
    obtain ⟨text, -, rfl⟩ := List.mem_map.mp hv
    exact ⟨text, rfl⟩
  · rintro ⟨s, read, -, rfl⟩
    exact read

/-- A set of one element whose wire form is an array. -/
theorem ValueSet.decoders_agree_reference : ofJson (toJson ⟨[.namedUuid ⟨"row"⟩]⟩) = .ok ⟨[.namedUuid ⟨"row"⟩]⟩ :=
  decoders_agree.2.2.2.1 ⟨[.namedUuid ⟨"row"⟩]⟩ (by simp [Value.isAtom, Value.isFinite])

end Ovsdb
