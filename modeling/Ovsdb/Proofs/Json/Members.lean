import Mathlib.Data.List.Induction
import Mathlib.Data.List.Perm.Basic
import Ovsdb.Proofs.Json.Decode
import Ovsdb.Proofs.Json.Nesting
import Ovsdb.Proofs.Sequence
import Ovsdb.Uuid

/-! What is read of an object, member by member. An object whose names are data has one entry for each of its members;
    a record may lack a field, or have `null` for it. -/

namespace Ovsdb

/-! ### Finite maps -/

namespace Dict
variable {κ α β : Type} [Named κ] {key : κ} {value : α} {d : Dict κ α} {entries : List (κ × α)}

theorem perm_insertEntry (fresh : ∀ e ∈ entries, nameOf e.1 ≠ nameOf key) :
    (insertEntry key value entries).Perm ((key, value) :: entries) := by
  induction entries with
  | nil => exact .refl _
  | cons e rest ih =>
    obtain ⟨k, v⟩ := e
    obtain ⟨other, others⟩ := List.forall_mem_cons.mp fresh
    rw [insertEntry]
    split
    case isTrue => exact .refl _
    case isFalse notBefore =>
      split
      case isTrue => exact ((ih others).cons _).trans (.swap _ _ _)
      case isFalse notBehind =>
        exact absurd (String.le_antisymm (String.not_lt.mp notBefore) (String.not_lt.mp notBehind)) other

theorem perm_foldl_insert (distinct : ((d.entries ++ entries).map fun e => nameOf e.1).Nodup) :
    (entries.foldl (fun d e => d.insert e.1 e.2) d).entries.Perm (d.entries ++ entries) := by
  induction entries generalizing d with
  | nil => simp
  | cons e rest ih =>
    have shifted : (d.entries ++ e :: rest).Perm (e :: d.entries ++ rest) := List.perm_middle
    have names := (shifted.map fun e => nameOf e.1).nodup_iff.mp distinct
    have fresh : ∀ x ∈ d.entries, nameOf x.1 ≠ nameOf e.1 := fun x mem same =>
      (List.nodup_cons.mp names).1 (List.mem_map.mpr ⟨x, List.mem_append_left _ mem, same⟩)
    have inserted : (d.insert e.1 e.2).entries.Perm (e :: d.entries) := perm_insertEntry fresh
    have onto : ((d.insert e.1 e.2).entries ++ rest).Perm (e :: d.entries ++ rest) := inserted.append_right rest
    exact (ih ((onto.map fun e => nameOf e.1).nodup_iff.mpr names)).trans (onto.trans shifted.symm)

/-- Entries with distinct names are all kept. -/
theorem perm_ofList (distinct : (entries.map fun e => nameOf e.1).Nodup) : (ofList entries).entries.Perm entries :=
  perm_foldl_insert (d := empty) distinct

theorem distinct_names (d : Dict κ α) : (d.entries.map fun e => nameOf e.1).Nodup :=
  (List.pairwise_map.mpr d.sorted).imp String.ne_of_lt

theorem eq_of_perm {d' : Dict κ α} (h : d.entries.Perm d'.entries) : d = d' := by
  refine ext_entries (h.eq_of_pairwise (fun _ _ _ _ before behind => ?_) d.sorted d'.sorted)
  exact absurd before (String.lt_asymm behind)

theorem ofList_of_perm (h : entries.Perm d.entries) : ofList entries = d :=
  eq_of_perm ((perm_ofList ((h.map _).nodup_iff.mpr d.distinct_names)).trans h)

theorem find?_insert (d : Dict κ α) (key : κ) (value : α) (name : String) :
    (d.insert key value).find? name = if nameOf key = name then some value else d.find? name := by
  simp only [find?, insert]
  induction d.entries with
  | nil => simp [insertEntry]
  | cons e rest ih =>
    obtain ⟨k, v⟩ := e
    simp only [insertEntry]
    split
    case isTrue => by_cases named : nameOf key = name <;> simp [named]
    case isFalse notBefore =>
      split
      case isTrue before =>
        by_cases other : nameOf k = name
        · have later : nameOf key ≠ name := fun same => String.ne_of_lt before (other.trans same.symm)
          simp [other, later]
        · simpa [other] using ih
      case isFalse notBehind =>
        have same : nameOf key = nameOf k :=
          String.le_antisymm (String.not_lt.mp notBehind) (String.not_lt.mp notBefore)
        by_cases named : nameOf k = name <;> simp [same, named]

theorem ofList_concat (entries : List (κ × α)) (e : κ × α) :
    ofList (entries ++ [e]) = (ofList entries).insert e.1 e.2 := by
  rw [ofList, List.foldl_append]
  rfl

theorem find?_ofList (entries : List (κ × α)) (name : String) :
    (ofList entries).find? name = (entries.reverse.find? fun e => nameOf e.1 == name).map (·.2) := by
  induction entries using List.reverseRecOn with
  | nil => rfl
  | append_singleton entries e ih =>
    rw [ofList_concat, find?_insert, List.reverse_concat, ih]
    by_cases named : nameOf e.1 = name <;> simp [named, beq_false_of_ne]

/-- The last entry with a name is the one that stays. -/
theorem find?_ofList_eq_some {name : String} : (ofList entries).find? name = some value ↔
    ∃ before key after, entries = before ++ (key, value) :: after ∧ nameOf key = name ∧
      ∀ e ∈ after, nameOf e.1 ≠ name := by
  rw [find?_ofList, Option.map_eq_some_iff]
  constructor
  · rintro ⟨⟨key, _⟩, found, rfl⟩
    obtain ⟨named, behind, ahead, split, others⟩ := List.find?_eq_some_iff_append.mp found
    refine ⟨ahead.reverse, key, behind.reverse, ?_, by simpa using named, fun e he => ?_⟩
    · rw [← entries.reverse_reverse, split]
      simp
    · simpa using others e (List.mem_reverse.mp he)
  · rintro ⟨before, key, after, rfl, named, others⟩
    refine ⟨(key, value), ?_, rfl⟩
    refine List.find?_eq_some_iff_append.mpr ⟨by simpa using named, after.reverse, before.reverse, by simp, ?_⟩
    intro e he
    simpa using others e (List.mem_reverse.mp he)

theorem find?_ofList_eq_none {name : String} :
    (ofList entries).find? name = none ↔ ∀ e ∈ entries, nameOf e.1 ≠ name := by
  rw [find?_ofList, Option.map_eq_none_iff, List.find?_eq_none]
  simp

/-- Other values for the same keys. -/
def map (f : α → β) (d : Dict κ α) : Dict κ β :=
  ⟨d.entries.map fun e => (e.1, f e.2), List.pairwise_map.mpr d.sorted⟩

theorem map_eq_self {f : α → α} (h : ∀ e ∈ d.entries, f e.2 = e.2) : d.map f = d := by
  refine ext_entries ((List.map_congr_left fun e mem => ?_).trans (List.map_id _))
  rw [h e mem]
  rfl

theorem forall_mem_map {f : α → β} {P : β → Prop} :
    (∀ e ∈ (d.map f).entries, P e.2) ↔ ∀ e ∈ d.entries, P (f e.2) :=
  List.forall_mem_map

/-- The names of the keys for the keys. -/
def byName (d : Dict κ α) : Dict String α :=
  ⟨d.entries.map fun e => (nameOf e.1, e.2), List.pairwise_map.mpr d.sorted⟩

/-- The members of an object, put in order, are the entries of a map, one by one. -/
def Mirrors (R : Json → α → Prop) (j : Json) (d : Dict κ α) : Prop :=
  ∃ members order, j = .obj members ∧ order.Perm members ∧
    List.Forall₂ (fun m e => m.1 = nameOf e.1 ∧ R m.2 e.2) order d.entries

theorem Mirrors.perm {R : Json → α → Prop} {members members' : List (String × Json)}
    (h : d.Mirrors R (.obj members)) (perm : members.Perm members') :
    d.Mirrors R (.obj members') := by
  obtain ⟨_, order, ⟨⟩, ordered, each⟩ := h
  exact ⟨members', order, rfl, ordered.trans perm, each⟩

theorem mirrors_byName {R : Json → α → Prop} {j : Json} : d.byName.Mirrors R j ↔ d.Mirrors R j := by
  simp only [Mirrors, byName, List.forall₂_map_right_iff]
  rfl

end Dict

/-! ### Keys -/

theorem Id.ofString_eq_ok {s : String} {i : Id} : ofString s = .ok i ↔ s = i.text := by
  constructor
  · rw [ofString]
    split
    case isTrue => rintro ⟨⟩; rfl
    case isFalse => nofun
  · rintro rfl
    exact dif_pos i.valid

theorem Id.ofName_eq_ok {s : String} {i : Id} : ofName s = .ok i ↔ s = i.text :=
  mapError_eq_ok.trans ofString_eq_ok

theorem Id.exists_ofName {s : String} : (∃ i, ofName s = .ok i) ↔ isIdentifier s = true := by
  simp only [ofName_eq_ok]
  exact ⟨fun ⟨i, same⟩ => same ▸ i.valid, fun valid => ⟨⟨s, valid⟩, rfl⟩⟩

theorem Uuid.ofString_eq_ok {s : String} {u : Uuid} : ofString s = .ok u ↔ s = u.text := by
  constructor
  · rw [ofString]
    split
    case isTrue => rintro ⟨⟩; rfl
    case isFalse => nofun
  · rintro rfl
    exact dif_pos u.size_eq

theorem Uuid.exists_ofString {s : String} : (∃ u, ofString s = .ok u) ↔ s.utf8ByteSize = 36 := by
  simp only [ofString_eq_ok]
  exact ⟨fun ⟨u, same⟩ => same ▸ u.size_eq, fun size => ⟨⟨s, size⟩, rfl⟩⟩

/-! ### Decoders -/

/-- What a decoder makes of the values whose objects have distinct names. -/
def Decoder.Means {α : Type} (item : Decoder α) (R : Json → α → Prop) : Prop :=
  ∀ j a, j.Distinct → (item j = .ok a ↔ R j a)

namespace Decoder
variable {κ α : Type} {key : String → Except Mismatch κ} {item : Decoder α} {R : Json → α → Prop} {j : Json}
  {members : List (String × Json)}

theorem uint64_eq_ok {u : UInt64} : uint64 j = .ok u ↔ ∃ n, j = .int n ∧ n.val = u.toNat := by
  cases j with
  | int n =>
    simp only [uint64, Json.int.injEq, exists_eq_left', ← WideInt.toUInt64?_eq_some]
    cases n.toUInt64? <;> simp
  | _ => simp [uint64]

theorem int64_eq_ok {i : Int64} : int64 j = .ok i ↔ ∃ n, j = .int n ∧ n.val = i.toInt := by
  cases j with
  | int n =>
    simp only [int64, Json.int.injEq, exists_eq_left', ← WideInt.toInt64?_eq_some]
    cases n.toInt64? <;> simp
  | _ => simp [int64]

theorem dict_eq_ok [Named κ] {d : Dict κ α} : dict key item (.obj members) = .ok d ↔
    ∃ entries, List.Forall₂ (fun m e => key m.1 = .ok e.1 ∧ item m.2 = .ok e.2) members entries ∧
      Dict.ofList entries = d := by
  simp only [dict, bind_eq_ok, mapM_eq_ok, pure_eq_ok, Prod.ext_iff]
  simp

/-- An object is taken apart if each of its names is a key and each of its members is an item. -/
theorem dict_accepts [Named κ] : (∃ d, dict key item j = .ok d) ↔
    ∃ members, j = .obj members ∧ ∀ m ∈ members, (∃ k, key m.1 = .ok k) ∧ ∃ a, item m.2 = .ok a := by
  constructor
  · rintro ⟨d, read⟩
    cases j with
    | obj members =>
      obtain ⟨entries, each, -⟩ := dict_eq_ok.mp read
      exact ⟨members, rfl, forall_of_forall₂ each fun e _ m h => ⟨⟨e.1, h.1⟩, e.2, h.2⟩⟩
    | _ => cases read
  · rintro ⟨members, rfl, each⟩
    obtain ⟨entries, h⟩ := exists_forall₂ (R := fun m (e : κ × α) => key m.1 = .ok e.1 ∧ item m.2 = .ok e.2)
      fun m mem => have ⟨⟨k, hk⟩, a, ha⟩ := each m mem; ⟨(k, a), hk, ha⟩
    exact ⟨_, dict_eq_ok.mpr ⟨entries, h, rfl⟩⟩

namespace Means

/-- No member is lost, and none is merged with another. -/
theorem dict [Named κ] (keys : ∀ s k, key s = .ok k ↔ s = nameOf k) (h : item.Means R) :
    (Decoder.dict key item).Means (Dict.Mirrors R) := by
  intro j d distinct
  have each {members : List (String × Json)} (distinct : (Json.obj members).Distinct) (entries : List (κ × α)) :
      List.Forall₂ (fun m e => key m.1 = .ok e.1 ∧ item m.2 = .ok e.2) members entries ↔
        List.Forall₂ (fun m e => m.1 = nameOf e.1 ∧ R m.2 e.2) members entries :=
    forall₂_iff_of_mem fun m mem e => and_congr (keys _ _) (h _ _ (distinct.member mem))
  constructor
  · intro read
    obtain ⟨members, rfl, -⟩ := dict_accepts.mp ⟨d, read⟩
    obtain ⟨entries, taken, rfl⟩ := dict_eq_ok.mp read
    have mirrored := (each distinct entries).mp taken
    have names : members.map Prod.fst = entries.map fun e => nameOf e.1 := by
      rw [← List.forall₂_eq_eq_eq, List.forall₂_map_left_iff, List.forall₂_map_right_iff]
      exact mirrored.imp fun _ _ same => same.1
    -- The map has an order of its own, so it is the members that are put in order.
    have kept : (Dict.ofList entries).entries.Perm entries := Dict.perm_ofList (names ▸ distinct.names)
    obtain ⟨order, ordered, perm⟩ := List.perm_comp_forall₂ kept mirrored.flip
    exact ⟨members, order, rfl, perm, ordered.flip⟩
  · rintro ⟨members, order, rfl, perm, ordered⟩
    obtain ⟨entries, mirrored, kept⟩ := List.perm_comp_forall₂ perm.symm ordered
    exact dict_eq_ok.mpr ⟨entries, (each distinct entries).mpr mirrored, Dict.ofList_of_perm kept⟩

end Means
end Decoder

/-! ### Records -/

namespace Json
variable {j k : Json} {n i : Nat} {label : String}

/-- What an object or an array has in the place of a field. -/
def slot? (i : Nat) (label : String) : Json → Option Json
  | .obj members => members.lookup label
  | .arr items => items[i]?
  | _ => none

/-- Whether a value may be a record of so many fields. -/
def MayHold (n : Nat) : Json → Prop
  | .obj _ => True
  | .arr items => items.length ≤ n
  | _ => False

theorem lookup_eq_some_of_nodup {α : Type} {entries : List (String × α)} {name : String} {a : α}
    (names : (entries.map Prod.fst).Nodup) : entries.lookup name = some a ↔ (name, a) ∈ entries := by
  rw [List.lookup_eq_some_iff]
  constructor
  · rintro ⟨before, after, rfl, -⟩
    simp
  · intro mem
    obtain ⟨before, after, rfl⟩ := List.append_of_mem mem
    refine ⟨before, after, rfl, fun e there => ?_⟩
    rw [List.map_append, List.map_cons] at names
    have other := (List.nodup_append.mp names).2.2 e.1 (List.mem_map_of_mem there) name List.mem_cons_self
    simpa using other.symm

theorem lookup_of_perm {members members' : List (String × Json)} {name : String} (perm : members.Perm members')
    (names : (members.map Prod.fst).Nodup) : members'.lookup name = members.lookup name := by
  ext j
  rw [lookup_eq_some_of_nodup names, lookup_eq_some_of_nodup ((perm.map _).nodup_iff.mp names)]
  exact perm.mem_iff.symm

theorem Distinct.slot (h : j.Distinct) (found : j.slot? i label = some k) : k.Distinct := by
  cases j with
  | obj members =>
    obtain ⟨before, after, rfl, -⟩ := List.lookup_eq_some_iff.mp found
    exact h.member (m := (label, k)) (by simp)
  | arr items => exact h.item (List.mem_of_getElem? found)
  | _ => cases found

end Json

/-- A value that may be left out, or be `null`. -/
inductive Decoder.Given {α : Type} (R : Json → α → Prop) : Option Json → Option α → Prop where
  | absent : Given R none none
  | null : Given R (some .null) none
  | given {j : Json} {a : α} : j ≠ .null → R j a → Given R (some j) (some a)

theorem Decoder.given_none {α : Type} {R : Json → α → Prop} {o : Option α} : Given R none o ↔ o = none :=
  ⟨fun | .absent => rfl, fun same => same ▸ .absent⟩

theorem Decoder.exists_given {α : Type} {R : Json → α → Prop} {field : Option Json} :
    (∃ o, Given R field o) ↔ ∀ j ∈ field, j ≠ .null → ∃ a, R j a := by
  constructor
  · rintro ⟨o, given⟩ j mem ne_null
    cases given with
    | absent => cases mem
    | null => exact absurd (Option.some.inj mem).symm ne_null
    | given _ read =>
      cases mem
      exact ⟨_, read⟩
  · intro each
    cases field with
    | none => exact ⟨none, .absent⟩
    | some j =>
      by_cases null : j = .null
      · exact ⟨none, null ▸ .null⟩
      · obtain ⟨a, read⟩ := each j rfl null
        exact ⟨some a, .given null read⟩

theorem Decoder.Given.mono {α : Type} {R S : Json → α → Prop} {field : Option Json} {o : Option α}
    (given : Given R field o) (h : ∀ j ∈ field, ∀ a, R j a → S j a) : Given S field o := by
  cases given with
  | absent => exact .absent
  | null => exact .null
  | given ne_null read => exact .given ne_null (h _ rfl _ read)

theorem Decoder.given_some {α : Type} {item : Decoder α} {j : Json} {o : Option α} :
    Given (fun j a => item j = .ok a) (some j) o ↔ optional item j = .ok o := by
  constructor
  · rintro (_ | _ | ⟨ne_null, read⟩)
    · rfl
    · rw [optional, read]
      · rfl
      · exact ne_null
  · intro read
    by_cases null : j = .null
    · subst null
      cases read
      exact .null
    · rw [optional.eq_2 _ _ null, map_eq_ok] at read
      obtain ⟨a, read, rfl⟩ := read
      exact .given null read

namespace Record
variable {α β : Type} {r : Record α} {title label : String} {j : Json} {a : α} {b : β}

theorem build_required {r : Record (α → β)} {item : Decoder α} {source : FieldSource} :
    (r.required label item).build source = .ok b ↔ ∃ make j a,
      r.build source = .ok make ∧ source.find r.arity label = some j ∧ item j = .ok a ∧ make a = b := by
  simp only [required, field, bind_eq_ok]
  cases source.find r.arity label with
  | none => simp [throw, throwThe, MonadExceptOf.throw]
  | some j => simp [map_eq_ok]

theorem build_optional {r : Record (Option α → β)} {item : Decoder α} {source : FieldSource} :
    (r.optional label item).build source = .ok b ↔ ∃ make o, r.build source = .ok make ∧
      Decoder.Given (fun j a => item j = .ok a) (source.find r.arity label) o ∧ make o = b := by
  simp only [optional, field, bind_eq_ok]
  cases source.find r.arity label with
  | none => simp [Decoder.given_none, pure_eq_ok]
  | some j => simp [Decoder.given_some, map_eq_ok]

/-- A record is what is found in the places of its fields. -/
theorem decode_eq_ok {P : (Nat → String → Option Json) → Prop}
    (built : ∀ source, r.build source = .ok a ↔ P source.find) :
    r.decode title j = .ok a ↔ j.MayHold r.arity ∧ P (j.slot? · ·) := by
  cases j with
  | obj ms =>
    change _ ↔ True ∧ P (members ms).find
    rw [← built, decode]
    cases r.build (members ms) <;> simp
  | arr js =>
    change _ ↔ js.length ≤ r.arity ∧ P (items title r.arity js).find
    rw [← built, decode, bind_eq_ok, ← Nat.not_lt]
    by_cases long : r.arity < js.length <;> simp [long, pure_eq_ok, throw, throwThe, MonadExceptOf.throw]
  | _ => simp [decode, Json.MayHold]

end Record
end Ovsdb
