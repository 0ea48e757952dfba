import Ovsdb.Id
import Ovsdb.Version

/-! What is written and read back: plain values, lists, objects whose names are data, and records field by field. A
    field that is skipped when it is written must be one that its default restores. -/

namespace Ovsdb

/-! ### Finite maps -/

namespace Dict
variable {κ α : Type} [Named κ]

/-- An entry whose name is behind all others goes to the end. -/
theorem insertEntry_of_behind {key : κ} {value : α} {entries : List (κ × α)}
    (h : ∀ e ∈ entries, nameOf e.1 < nameOf key) : insertEntry key value entries = entries ++ [(key, value)] := by
  induction entries with
  | nil => rfl
  | cons e rest ih =>
    obtain ⟨first, others⟩ := List.forall_mem_cons.mp h
    rw [insertEntry, if_neg (String.lt_asymm first), if_pos first, ih others, List.cons_append]

theorem entries_foldl_insert {d : Dict κ α} {rest : List (κ × α)}
    (h : (d.entries ++ rest).Pairwise fun a b => nameOf a.1 < nameOf b.1) :
    (rest.foldl (fun d e => d.insert e.1 e.2) d).entries = d.entries ++ rest := by
  induction rest generalizing d with
  | nil => simp
  | cons e rest ih =>
    have behind : ∀ x ∈ d.entries, nameOf x.1 < nameOf e.1 :=
      fun x hx => (List.pairwise_append.mp h).2.2 x hx e List.mem_cons_self
    have inserted : (d.insert e.1 e.2).entries = d.entries ++ [e] := insertEntry_of_behind behind
    rw [List.foldl_cons, ih (by rwa [inserted, List.append_assoc]), inserted, List.append_assoc]
    rfl

theorem ext_entries {d d' : Dict κ α} (h : d.entries = d'.entries) : d = d' := by
  cases d
  cases d'
  cases h
  rfl

/-- The entries of a map, in their order, are the entries of that map and of no other. -/
theorem ofList_entries (d : Dict κ α) : ofList d.entries = d :=
  ext_entries (entries_foldl_insert d.sorted : (ofList d.entries).entries = empty.entries ++ d.entries)

end Dict

/-! ### Values -/

theorem WideInt.toUInt64?_eq_some {n : WideInt} {u : UInt64} : n.toUInt64? = some u ↔ n.val = u.toNat := by
  have below := n.lt
  have bound := u.toNat_lt
  rw [toUInt64?]
  split
  case isTrue nonneg =>
    rw [Option.some_inj, ← UInt64.toNat_inj, UInt64.toNat_ofNat_of_lt' (by rw [UInt64.size]; omega)]
    omega
  case isFalse negative =>
    simp only [reduceCtorEq, false_iff]
    omega

theorem WideInt.toInt64?_eq_some {n : WideInt} {i : Int64} : n.toInt64? = some i ↔ n.val = i.toInt := by
  have least := n.ge
  have bound := i.toInt_lt
  rw [toInt64?]
  split
  case isTrue below =>
    rw [Option.some_inj, ← Int64.toInt_inj, Int64.toInt_ofInt_of_le (by simpa using least) (by simpa using below)]
  case isFalse above =>
    simp only [reduceCtorEq, false_iff]
    omega

theorem WideInt.toInt64?_ofInt64 (i : Int64) : (ofInt64 i).toInt64? = some i :=
  toInt64?_eq_some.mpr rfl

theorem WideInt.toUInt64?_ofUInt64 (n : UInt64) : (ofUInt64 n).toUInt64? = some n :=
  toUInt64?_eq_some.mpr rfl

/-- What is written of `a` is read as `a` again. It is not `null` either, which would stand for no value at all. -/
structure Restores {α : Type} (item : Decoder α) (encode : α → Json) (a : α) : Prop where
  read : item (encode a) = .ok a
  ne_null : encode a ≠ .null

namespace Restores
variable {α κ : Type} {item : Decoder α} {encode : α → Json}

theorem string (s : String) : Restores Decoder.string .str s :=
  ⟨rfl, nofun⟩

theorem bool (b : Bool) : Restores Decoder.bool .bool b :=
  ⟨rfl, nofun⟩

theorem int64 (i : Int64) : Restores Decoder.int64 (.int ∘ .ofInt64) i :=
  ⟨by simp [Decoder.int64, WideInt.toInt64?_ofInt64], nofun⟩

theorem uint64 (n : UInt64) : Restores Decoder.uint64 .ofUInt64 n :=
  ⟨by simp [Json.ofUInt64, Decoder.uint64, WideInt.toUInt64?_ofUInt64], nofun⟩

theorem float {x : Float} (finite : x.isFinite = true) : Restores Decoder.float .ofFloat x := by
  have written : Json.ofFloat x = .float x finite := dif_pos finite
  exact ⟨by rw [written]; rfl, by rw [written]; nofun⟩

/-- A text that a check accepts and leaves as it is. -/
theorem checked {check : String → Except Error α} {text : α → String} {a : α} (h : check (text a) = .ok a) :
    Restores (.checked check) (fun a => .str (text a)) a := by
  refine ⟨?_, nofun⟩
  change (check (text a)).mapError Mismatch.refused = .ok a
  rw [h]
  rfl

/-- A decoder with errors of its own. -/
theorem lift {decode : Json → Except Error α} {a : α} (h : decode (encode a) = .ok a) (ne_null : encode a ≠ .null) :
    Restores (.lift decode) encode a := by
  refine ⟨?_, ne_null⟩
  rw [Decoder.lift, h]
  rfl

theorem id (i : Id) : Restores Id.decode Id.toJson i :=
  checked (dif_pos i.valid)

theorem version (v : Version) : Restores Version.decode Version.toJson v :=
  checked (dif_pos v.valid)

theorem list {as : List α} (h : ∀ a ∈ as, Restores item encode a) :
    Restores (.list item) (fun as => .arr (as.map encode)) as := by
  refine ⟨?_, nofun⟩
  induction as with
  | nil => rfl
  | cons a as ih =>
    obtain ⟨first, others⟩ := List.forall_mem_cons.mp h
    have rest : (as.map encode).mapM item = .ok as := ih others
    simp only [Decoder.list, List.map_cons, List.mapM_cons, first.read, rest]
    rfl

theorem dict [Named κ] {key : String → Except Mismatch κ} {name : κ → String} (keys : ∀ k, key (name k) = .ok k)
    {d : Dict κ α} (h : ∀ e ∈ d.entries, Restores item encode e.2) :
    Restores (.dict key item) (fun d => .obj (d.entries.map fun e => (name e.1, encode e.2))) d := by
  refine ⟨?_, nofun⟩
  have entries : ∀ es : List (κ × α), (∀ e ∈ es, Restores item encode e.2) →
      (es.map fun e => (name e.1, encode e.2)).mapM (fun m => do
        let k ← key m.1
        let v ← item m.2
        return (k, v)) = (.ok es : Except Mismatch _) := by
    intro es hes
    induction es with
    | nil => rfl
    | cons e es ih =>
      obtain ⟨first, others⟩ := List.forall_mem_cons.mp hes
      rw [List.map_cons, List.mapM_cons, keys, first.read, ih others]
      rfl
  rw [Decoder.dict, entries d.entries h]
  exact congrArg Except.ok d.ofList_entries

end Restores

theorem Id.ofName_text (i : Id) : ofName i.text = .ok i := by
  have valid : ofString i.text = .ok i := dif_pos i.valid
  rw [ofName, valid]
  rfl

/-! ### Members -/

namespace Json
variable {α : Type} {name label : String} {encode : α → Json} {o : Option α} {j : Json} {ms : List (String × Json)}

@[simp]
theorem member?_nil : (obj []).member? label = none :=
  rfl

@[simp]
theorem member?_cons_self : (obj ((name, j) :: ms)).member? name = some j :=
  List.lookup_cons_self

@[simp]
theorem member?_cons_of_ne (h : label ≠ name) : (obj ((name, j) :: ms)).member? label = (obj ms).member? label := by
  rw [member?, List.lookup_cons, beq_false_of_ne h]
  rfl

@[simp]
theorem member?_optionalMember_self :
    (obj (optionalMember name encode o ++ ms)).member? name = (o.map encode).or ((obj ms).member? name) := by
  cases o <;> simp [optionalMember]

@[simp]
theorem member?_optionalMember_of_ne (h : label ≠ name) :
    (obj (optionalMember name encode o ++ ms)).member? label = (obj ms).member? label := by
  cases o <;> simp [optionalMember, h]

@[simp]
theorem member?_last_self : (obj (optionalMember name encode o)).member? name = o.map encode := by
  cases o <;> simp [optionalMember]

@[simp]
theorem member?_last_of_ne (h : label ≠ name) : (obj (optionalMember name encode o)).member? label = none := by
  cases o <;> simp [optionalMember, h]

end Json

/-! ### Records -/

/-- A JSON value is an object that holds the fields of `a`, as far as the record goes. -/
def Record.Holds {α : Type} (r : Record α) (j : Json) (a : α) : Prop :=
  ∃ ms, j = .obj ms ∧ r.build (members ms) = .ok a

namespace Record.Holds
variable {α β : Type} {j : Json} {r : Record (α → β)} {make : α → β} {label title : String} {item : Decoder α}
  {encode : α → Json} {a : α}

theorem of {ms : List (String × Json)} (make : α) (object : j = .obj ms) : (Record.of make).Holds j make :=
  ⟨ms, object, rfl⟩

theorem found {absent : Option α} {field : Json} (before : r.Holds j make) (found : j.member? label = some field)
    (read : item field = .ok a) : (r.field label item absent).Holds j (make a) := by
  obtain ⟨ms, rfl, built⟩ := before
  have there : (members ms).find r.arity label = some field := found
  refine ⟨ms, rfl, ?_⟩
  simp only [Record.field, built, there, read]
  rfl

theorem skipped (before : r.Holds j make) (skipped : j.member? label = none) :
    (r.field label item (some a)).Holds j (make a) := by
  obtain ⟨ms, rfl, built⟩ := before
  have missing : (members ms).find r.arity label = none := skipped
  refine ⟨ms, rfl, ?_⟩
  simp only [Record.field, built, missing]
  rfl

theorem required (before : r.Holds j make) (h : Restores item encode a) (found : j.member? label = some (encode a)) :
    (r.required label item).Holds j (make a) :=
  before.found found h.read

theorem optional {r : Record (Option α → β)} {make : Option α → β} {o : Option α} (before : r.Holds j make)
    (h : ∀ a ∈ o, Restores item encode a) (found : j.member? label = o.map encode) :
    (r.optional label item).Holds j (make o) := by
  cases o with
  | none => exact before.skipped found
  | some a =>
    refine before.found found ?_
    rw [Decoder.optional, (h a rfl).read]
    · rfl
    · exact (h a rfl).ne_null

/-- A field with a default comes back if it is written, or if it is skipped and is the default. -/
theorem withDefault {absent : α} (before : r.Holds j make) (h : Restores item encode a)
    (found : j.member? label = some (encode a) ∨ j.member? label = none ∧ a = absent) :
    (r.withDefault label item absent).Holds j (make a) := by
  rcases found with found | ⟨skipped, rfl⟩
  · exact before.found found h.read
  · exact before.skipped skipped

/-- What an object holds is what is read from it. -/
theorem restores {r : Record α} {encode : α → Json} (h : r.Holds (encode a) a) :
    Restores (r.decode title) encode a := by
  obtain ⟨ms, object, built⟩ := h
  exact ⟨by simp only [object, decode, built], by rw [object]; nofun⟩

end Record.Holds
end Ovsdb
