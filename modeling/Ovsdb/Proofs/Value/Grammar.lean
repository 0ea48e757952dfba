import Ovsdb.Proofs.Sequence
import Ovsdb.Proofs.Value.RoundTrip

/-! Which JSON values are the wire forms of column values, and what is reported of the others: a wrong value is
    reported by its outermost shape, wherever inside the fault is. -/

namespace Ovsdb
namespace Value

/-- The wire forms of values: atoms, and tagged arrays of wire forms. -/
inductive Wire : Json → Prop where
  | string (s : String) : Wire (.str s)
  | boolean (b : Bool) : Wire (.bool b)
  | integer (n : WideInt) : Wire (.int n)
  | real (x : Float) (finite : x.isFinite = true) : Wire (.float x finite)
  | uuid (s : String) (size : s.utf8ByteSize = 36) : Wire (.arr [.str "uuid", .str s])
  | namedUuid (s : String) : Wire (.arr [.str "named-uuid", .str s])
  | set (items : List Json) (elements : ∀ j ∈ items, Wire j) : Wire (.arr [.str "set", .arr items])
  | map (pairs : List (Json × Json)) (keys : ∀ p ∈ pairs, Wire p.1) (values : ∀ p ∈ pairs, Wire p.2) :
    Wire (.arr [.str "map", .arr (pairs.map fun p => .arr [p.1, p.2])])

/-- The error that is reported of a wrong pair with this tag. -/
def tagFault? (tag : String) : Option Error :=
  [("uuid", Error.notUuid), ("named-uuid", .notNamedUuid), ("set", .notSet), ("map", .notMap)].lookup tag

/-- What a value is refused with, by its outermost shape. Strings, booleans and numbers are not refused. -/
inductive Refused : Json → Error → Prop where
  | tagged {tag : String} {body : Json} {e : Error} (h : tagFault? tag = some e) : Refused (.arr [.str tag, body]) e
  | untagged {items : List Json} (h : ∀ tag body, items = [.str tag, body] → tagFault? tag = none) :
    Refused (.arr items) (.malformed (.untaggedArray (.arr items)))
  | null : Refused .null (.malformed (.notValue .null))
  | object {members : List (String × Json)} : Refused (.obj members) (.malformed (.notValue (.obj members)))

variable {j : Json} {v : Value} {e e' : Error} {tag : String} {items : List Json} {vs : List Value}
  {pairs : List (Value × Value)}

theorem tagFault?_eq_none (set : tag ≠ "set") (map : tag ≠ "map") (uuid : tag ≠ "uuid") (named : tag ≠ "named-uuid") :
    tagFault? tag = none := by
  simp [tagFault?, List.lookup_eq_none_iff, set, map, uuid, named]

/-- The shape decides what is reported. -/
theorem Refused.unique (h : Refused j e) (h' : Refused j e') : e = e' := by
  cases h with
  | tagged h =>
    cases h' with
    | tagged h' => exact Option.some.inj (h.symm.trans h')
    | untagged h' => exact absurd (h.symm.trans (h' _ _ rfl)) (by simp)
  | untagged h =>
    cases h' with
    | tagged h' => exact absurd (h'.symm.trans (h _ _ rfl)) (by simp)
    | untagged _ => rfl
  | null => cases h'; rfl
  | object => cases h'; rfl

/-! ### Lists -/

theorem elementsOfJson_eq_some :
    elementsOfJson items = some vs ↔ List.Forall₂ (fun j v => ofJson j = .ok v) items vs := by
  induction items generalizing vs with
  | nil => cases vs <;> simp [elementsOfJson]
  | cons j rest ih =>
    rw [elementsOfJson_cons]
    cases vs with
    | nil => cases ofJson j <;> simp [Except.toOption]
    | cons v vs => cases hj : ofJson j <;> simp [hj, Except.toOption, ih, and_comm]

theorem pairsOfJson_of_not_pair (h : ∀ k v, j ≠ .arr [k, v]) (rest : List Json) : pairsOfJson (j :: rest) = none := by
  rw [pairsOfJson]
  rintro k v rfl
  exact h k v rfl

theorem pairsOfJson_eq_some : pairsOfJson items = some pairs ↔
    List.Forall₂ (fun j p => ∃ k v, j = .arr [k, v] ∧ ofJson k = .ok p.1 ∧ ofJson v = .ok p.2) items pairs := by
  induction items generalizing pairs with
  | nil => cases pairs <;> simp [pairsOfJson]
  | cons j rest ih =>
    by_cases hj : ∃ k v, j = .arr [k, v]
    · obtain ⟨k, v, rfl⟩ := hj
      rw [pairsOfJson_cons]
      cases pairs with
      | nil => cases ofJson k <;> cases ofJson v <;> simp [Except.toOption]
      | cons p pairs =>
        cases hk : ofJson k <;> cases hv : ofJson v <;> simp [hk, hv, Except.toOption, ih, Prod.ext_iff, and_comm]
    · have unpaired : ∀ k v, j ≠ .arr [k, v] := fun k v h => hj ⟨k, v, h⟩
      rw [pairsOfJson_of_not_pair unpaired]
      cases pairs <;> simp [unpaired]

/-! ### One layer -/

/-- What the outermost layer of a wire form means, given what its elements mean. -/
inductive Denotes : Json → Value → Prop where
  | string (s : String) : Denotes (.str s) (.string s)
  | boolean (b : Bool) : Denotes (.bool b) (.boolean b)
  | integer {n : WideInt} {v : Value} (h : ofInt n = v) : Denotes (.int n) v
  | real (x : Float) (finite : x.isFinite = true) : Denotes (.float x finite) (.real x)
  | uuid (u : Uuid) : Denotes u.toJson (.uuid u)
  | namedUuid (u : NamedUuid) : Denotes u.toJson (.namedUuid u)
  | set {items : List Json} {vs : List Value} (elements : elementsOfJson items = some vs) :
    Denotes (.arr [.str "set", .arr items]) (.set vs)
  | map {items : List Json} {pairs : List (Value × Value)} (entries : pairsOfJson items = some pairs) :
    Denotes (.arr [.str "map", .arr items]) (.map pairs)

theorem uuid_ofJson_eq_ok {u : Uuid} (h : Uuid.ofJson j = .ok u) : j = u.toJson := by
  rw [Uuid.ofJson] at h
  split at h
  case h_2 => cases h
  case h_1 s hs =>
    rw [Uuid.ofString] at h
    split at h
    case isFalse => cases h
    case isTrue size =>
      cases h
      rw [Json.tagged?.eq_def] at hs
      split at hs
      · split at hs <;> simp_all [Uuid.toJson]
      · cases hs

theorem namedUuid_ofJson_eq_ok {u : NamedUuid} (h : NamedUuid.ofJson j = .ok u) : j = u.toJson := by
  rw [NamedUuid.ofJson] at h
  split at h
  case h_2 => cases h
  case h_1 s hs =>
    cases h
    rw [Json.tagged?.eq_def] at hs
    split at hs
    · split at hs <;> simp_all [NamedUuid.toJson]
    · cases hs

theorem denotes_of_ok (h : ofJson j = .ok v) : Denotes j v := by
  revert h
  fun_cases ofJson j with
  | case1 s => rintro ⟨⟩; exact .string s
  | case2 b => rintro ⟨⟩; exact .boolean b
  | case3 n => rintro ⟨⟩; exact .integer rfl
  | case4 x finite => rintro ⟨⟩; exact .real x finite
  | case5 items vs found => rintro ⟨⟩; exact .set found
  | case7 items pairs found => rintro ⟨⟩; exact .map found
  | case14 body =>
    intro h
    cases hu : Uuid.ofJson (.arr [.str "uuid", body]) with
    | error _ => rw [hu] at h; cases h
    | ok u =>
      rw [hu] at h
      cases h
      exact uuid_ofJson_eq_ok hu ▸ .uuid u
  | case15 body =>
    intro h
    cases hu : NamedUuid.ofJson (.arr [.str "named-uuid", body]) with
    | error _ => rw [hu] at h; cases h
    | ok u =>
      rw [hu] at h
      cases h
      exact namedUuid_ofJson_eq_ok hu ▸ .namedUuid u
  | _ => exact fun h => nomatch h

theorem uuid_ofJson_eq_error (h : Uuid.ofJson j = .error e) : e = .notUuid := by
  rw [Uuid.ofJson] at h
  split at h
  · rw [Uuid.ofString] at h
    split at h
    · cases h
    · exact (Except.error.inj h).symm
  · exact (Except.error.inj h).symm

theorem namedUuid_ofJson_eq_error (h : NamedUuid.ofJson j = .error e) : e = .notNamedUuid := by
  rw [NamedUuid.ofJson] at h
  split at h
  · cases h
  · exact (Except.error.inj h).symm

theorem refused_of_error (h : ofJson j = .error e) : Refused j e := by
  revert h
  fun_cases ofJson j with
  | case6 | case8 | case9 | case10 | case12 | case13 => rintro ⟨⟩; exact .tagged rfl
  | case11 tag items set map uuid named =>
    rintro ⟨⟩
    exact .untagged fun _ _ same => by cases same; exact tagFault?_eq_none set map uuid named
  | case14 body =>
    intro h
    cases hu : Uuid.ofJson (.arr [.str "uuid", body]) with
    | error _ =>
      rw [hu] at h
      cases h
      exact uuid_ofJson_eq_error hu ▸ .tagged rfl
    | ok u => rw [hu] at h; cases h
  | case15 body =>
    intro h
    cases hu : NamedUuid.ofJson (.arr [.str "named-uuid", body]) with
    | error _ =>
      rw [hu] at h
      cases h
      exact namedUuid_ofJson_eq_error hu ▸ .tagged rfl
    | ok u => rw [hu] at h; cases h
  | case16 tag body _ set map uuid named =>
    rintro ⟨⟩
    exact .untagged fun _ _ same => by cases same; exact tagFault?_eq_none set map uuid named
  | case17 items _ unpaired =>
    rintro ⟨⟩
    exact .untagged fun tag body same => (unpaired tag body same).elim
  | case18 j string boolean integer real _ _ array =>
    rintro ⟨⟩
    cases j with
    | null => exact .null
    | obj members => exact .object
    | bool b => exact (boolean b rfl).elim
    | int n => exact (integer n rfl).elim
    | float x finite => exact (real x finite rfl).elim
    | str s => exact (string s rfl).elim
    | arr items => exact (array items rfl).elim
  | _ => exact fun h => nomatch h

/-! ### The grammar -/

/-- A list of wire pairs is one that a map is written with. -/
theorem wire_map (h : ∀ j ∈ items, ∃ p : Json × Json, j = .arr [p.1, p.2] ∧ Wire p.1 ∧ Wire p.2) :
    Wire (.arr [.str "map", .arr items]) := by
  obtain ⟨pairs, hp⟩ := exists_forall₂ h
  have same : items = pairs.map fun p => .arr [p.1, p.2] := by
    induction hp with
    | nil => rfl
    | cons first _ ih => rw [List.map_cons, ← first.1, ← ih fun j hj => h j (List.mem_cons_of_mem _ hj)]
  have parts : ∀ p ∈ pairs, Wire p.1 ∧ Wire p.2 := forall_of_forall₂ hp.flip fun _ _ _ hp => hp.2
  rw [same]
  exact .map pairs (fun p hp => (parts p hp).1) fun p hp => (parts p hp).2

/-- What is decoded is a wire form, down to the elements. -/
theorem wire_of_ok (h : ofJson j = .ok v) : Wire j := by
  induction v generalizing j with
  | set vs ih =>
    cases denotes_of_ok h with
    | integer _ => exact .integer _
    | set found => exact .set _ (forall_of_forall₂ (elementsOfJson_eq_some.mp found) fun v hv _ => ih v hv)
  | map pairs ih =>
    cases denotes_of_ok h with
    | integer _ => exact .integer _
    | map found =>
      refine wire_map (forall_of_forall₂ (pairsOfJson_eq_some.mp found) ?_)
      rintro p hp _ ⟨k, v, rfl, hk, hv⟩
      exact ⟨(k, v), rfl, (ih p hp).1 hk, (ih p hp).2 hv⟩
  | uuid u =>
    cases denotes_of_ok h with
    | integer _ => exact .integer _
    | uuid _ => exact .uuid u.text u.size_eq
  | string _ | boolean _ | namedUuid _ | integer _ | real _ => cases denotes_of_ok h <;> constructor

/-- Every wire form is decoded, by induction on its derivation. -/
theorem ok_of_wire (h : Wire j) : ∃ v, ofJson j = .ok v := by
  induction h with
  | string s => exact ⟨_, ofJson.eq_1 s⟩
  | boolean b => exact ⟨_, ofJson.eq_2 b⟩
  | integer n => exact ⟨_, ofJson.eq_3 n⟩
  | real x finite => exact ⟨_, ofJson.eq_4 x finite⟩
  | uuid s size => exact ⟨_, ofJson_uuid ⟨s, size⟩⟩
  | namedUuid s => exact ⟨_, ofJson_namedUuid ⟨s⟩⟩
  | set items _ ih =>
    obtain ⟨vs, hvs⟩ := exists_forall₂ ih
    exact ⟨.set vs, by rw [ofJson_set, elementsOfJson_eq_some.mpr hvs]⟩
  | map pairs _ _ keys values =>
    have each : ∀ j ∈ pairs.map (fun p : Json × Json => Json.arr [p.1, p.2]),
        ∃ q : Value × Value, ∃ k v, j = .arr [k, v] ∧ ofJson k = .ok q.1 ∧ ofJson v = .ok q.2 := by
      intro j hj
      obtain ⟨p, hp, rfl⟩ := List.mem_map.mp hj
      obtain ⟨k, hk⟩ := keys p hp
      obtain ⟨v, hv⟩ := values p hp
      exact ⟨(k, v), p.1, p.2, rfl, hk, hv⟩
    obtain ⟨qs, hqs⟩ := exists_forall₂ each
    exact ⟨.map qs, by rw [ofJson_map, pairsOfJson_eq_some.mpr hqs]⟩

/-- Decoding accepts the wire forms and nothing else, and refuses a value by its outermost shape. -/
theorem decoding_is_grammar (j : Json) :
    ((∃ v, ofJson j = .ok v) ↔ Wire j) ∧ ∀ e, ofJson j = .error e ↔ ¬ Wire j ∧ Refused j e := by
  have accepted : (∃ v, ofJson j = .ok v) ↔ Wire j := ⟨fun ⟨_, h⟩ => wire_of_ok h, ok_of_wire⟩
  refine ⟨accepted, fun e => ⟨fun h => ⟨fun wire => ?_, refused_of_error h⟩, fun ⟨unwired, refused⟩ => ?_⟩⟩
  · obtain ⟨v, hv⟩ := accepted.mpr wire
    cases hv.symm.trans h
  · cases hj : ofJson j with
    | ok v => exact absurd (accepted.mp ⟨v, hj⟩) unwired
    | error e' => rw [(refused_of_error hj).unique refused]

end Value
end Ovsdb
