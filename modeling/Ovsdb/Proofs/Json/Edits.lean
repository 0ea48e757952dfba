import Mathlib.Logic.Relation
import Ovsdb.Proofs.Json.Members

/-! Documents that are read alike: the members of their objects are in another order, or their records have members
    that are no fields. A decoder is steady if no such change shows in what it reads, and this goes from the decoders of
    the parts to that of the whole. -/

namespace Ovsdb

/-! ### Documents -/

/-- Where the records are in a document, and which fields they have. The names in a `dict` are data. -/
inductive Layout where
  | value
  | record (fields : List (String × Layout))
  | dict (item : Layout)

namespace Layout

/-- The layout of an item of an array: a record may be an array of its fields. -/
def item : Layout → Nat → Layout
  | record fields, i => (fields[i]?.map Prod.snd).getD value
  | _, _ => value

/-- How the member of an object with a name is laid out. -/
def member : Layout → String → Layout
  | record fields, name => (fields.lookup name).getD value
  | dict item, _ => item
  | value, _ => value

end Layout

namespace Json
variable {l : Layout} {fields : List (String × Layout)} {j k : Json} {name label : String} {i n : Nat}
  {before after : List (String × Json)}

/-- A change of a document in one place: the members of some object are put in another order, or a record gets a
    member that is none of its fields. -/
inductive Edit : Layout → Json → Json → Prop where
  | order {l : Layout} {members members' : List (String × Json)} (perm : members.Perm members') :
    Edit l (.obj members) (.obj members')
  | add {fields : List (String × Layout)} {before after : List (String × Json)} {name : String} {value : Json}
    (unknown : name ∉ fields.map Prod.fst) (fresh : name ∉ (before ++ after).map Prod.fst)
    (distinct : value.Distinct) :
    Edit (.record fields) (.obj (before ++ after)) (.obj (before ++ (name, value) :: after))
  | item {l : Layout} {before after : List Json} {j k : Json} (inner : Edit (l.item before.length) j k) :
    Edit l (.arr (before ++ j :: after)) (.arr (before ++ k :: after))
  | member {l : Layout} {before after : List (String × Json)} {name : String} {j k : Json}
    (inner : Edit (l.member name) j k) :
    Edit l (.obj (before ++ (name, j) :: after)) (.obj (before ++ (name, k) :: after))

/-- Nothing but objects is changed. -/
theorem Edit.not_plain (h : Edit l j k) : ¬ j.Plain ∧ ¬ k.Plain := by
  induction h with
  | order | add | member => exact ⟨nofun, nofun⟩
  | item _ ih =>
    constructor
    · rintro (⟨⟩ | ⟨⟩ | ⟨⟩ | ⟨⟩ | ⟨⟩ | each)
      exact ih.1 (each _ (by simp))
    · rintro (⟨⟩ | ⟨⟩ | ⟨⟩ | ⟨⟩ | ⟨⟩ | each)
      exact ih.2 (each _ (by simp))

theorem Edit.distinct (h : Edit l j k) (distinct : j.Distinct) : k.Distinct := by
  induction h with
  | order perm =>
    rw [distinct_obj] at distinct ⊢
    exact ⟨(perm.map _).nodup_iff.mp distinct.1, fun m mem => distinct.2 m (perm.mem_iff.mpr mem)⟩
  | add unknown fresh value =>
    rw [distinct_obj] at distinct ⊢
    have names := List.nodup_cons.mpr ⟨fresh, distinct.1⟩
    refine ⟨(List.perm_middle.map _).nodup_iff.mpr names, List.forall_mem_append.mpr ⟨?_, ?_⟩⟩
    · exact fun m mem => distinct.2 m (List.mem_append_left _ mem)
    · exact List.forall_mem_cons.mpr ⟨value, fun m mem => distinct.2 m (List.mem_append_right _ mem)⟩
  | item _ ih =>
    rw [distinct_arr, List.forall_mem_append, List.forall_mem_cons] at distinct ⊢
    exact distinct.imp_right (And.imp_left ih)
  | member _ ih =>
    rw [distinct_obj, List.forall_mem_append, List.forall_mem_cons] at distinct ⊢
    refine ⟨?_, distinct.2.imp_right (And.imp_left ih)⟩
    simpa using distinct.1

/-- What becomes of a field. -/
inductive Follows (l : Layout) : Option Json → Option Json → Prop where
  | same (field : Option Json) : Follows l field field
  | edited {j k : Json} (distinct : j.Distinct) (edit : Edit l j k) : Follows l (some j) (some k)

theorem getElem?_append_cons_of_ne {x y : Json} {before after : List Json} (other : i ≠ before.length) :
    (before ++ x :: after)[i]? = (before ++ y :: after)[i]? := by
  rcases Nat.lt_or_gt_of_ne other with lt | gt
  · rw [List.getElem?_append_left lt, List.getElem?_append_left lt]
  · obtain ⟨d, rfl⟩ := Nat.exists_eq_add_of_lt gt
    rw [List.getElem?_append_right (by omega), List.getElem?_append_right (by omega),
      show before.length + d + 1 - before.length = d + 1 by omega, List.getElem?_cons_succ, List.getElem?_cons_succ]

theorem lookup_append_cons_of_ne {x y : Json} (other : label ≠ name) :
    (before ++ (name, x) :: after).lookup label = (before ++ (name, y) :: after).lookup label := by
  simp only [List.lookup_append, List.lookup_cons, beq_false_of_ne other]

theorem Edit.slot (h : Edit (.record fields) j k) (distinct : j.Distinct) (names : (fields.map Prod.fst).Nodup)
    (field : fields[i]? = some (label, l)) : Follows l (j.slot? i label) (k.slot? i label) := by
  have mem : (label, l) ∈ fields := List.mem_of_getElem? field
  cases h with
  | order perm =>
    rw [slot?, slot?, lookup_of_perm perm distinct.names]
    exact .same _
  | @add _ _ _ name _ unknown =>
    have other : label ≠ name := by
      rintro rfl
      exact unknown (List.mem_map_of_mem mem)
    simp only [slot?, List.lookup_append, List.lookup_cons, beq_false_of_ne other]
    exact .same _
  | @item _ before after x y inner =>
    by_cases same : i = before.length
    case neg =>
      rw [slot?, slot?, getElem?_append_cons_of_ne same]
      exact .same _
    -- The edit is inside the very slot that is looked at; elsewhere it leaves the slot alone.
    have there : (Layout.record fields).item before.length = l := by rw [Layout.item, ← same, field]; rfl
    subst same
    simp only [slot?, List.getElem?_append_right (Nat.le_refl _), Nat.sub_self, List.getElem?_cons_zero]
    exact .edited (distinct.item (by simp)) (there ▸ inner)
  | @member _ before after name x y inner =>
    by_cases same : label = name
    case neg =>
      rw [slot?, slot?, lookup_append_cons_of_ne same]
      exact .same _
    subst same
    have there : (Layout.record fields).member label = l := by
      rw [Layout.member, (lookup_eq_some_of_nodup names).mpr mem]
      rfl
    have found : (before ++ (label, x) :: after).lookup label = some x :=
      (lookup_eq_some_of_nodup distinct.names).mpr (by simp)
    have found' : (before ++ (label, y) :: after).lookup label = some y :=
      (lookup_eq_some_of_nodup (by simpa using distinct.names)).mpr (by simp)
    rw [slot?, slot?, found, found']
    exact .edited (distinct.member (m := (label, x)) (by simp)) (there ▸ inner)

theorem Edit.mayHold (h : Edit l j k) : j.MayHold n ↔ k.MayHold n := by
  cases h <;> simp [MayHold]

theorem Edit.ne_str (h : Edit l j k) (s : String) : j ≠ .str s ∧ k ≠ .str s :=
  ⟨fun same => h.not_plain.1 (same ▸ .str s), fun same => h.not_plain.2 (same ▸ .str s)⟩

theorem Edit.ne_null (h : Edit l j k) : j ≠ .null ∧ k ≠ .null :=
  ⟨fun same => h.not_plain.1 (same ▸ .null), fun same => h.not_plain.2 (same ▸ .null)⟩

end Json

/-! ### Decoders -/

/-- What is read of a document of this layout stays the same through changes of the document. -/
def Layout.Steady {ε α : Type} (l : Layout) (decode : Json → Except ε α) : Prop :=
  ∀ ⦃j k⦄, j.Distinct → Json.Edit l j k → ∀ a, decode j = .ok a ↔ decode k = .ok a

/-- A decoder that takes no objects. -/
def TakesPlain {ε α : Type} (decode : Json → Except ε α) : Prop :=
  ∀ ⦃j a⦄, decode j = .ok a → j.Plain

section
variable {ε α β κ : Type} {l : Layout} {item : Decoder α} {fields : List (String × Layout)}

theorem TakesPlain.steady {decode : Json → Except ε α} (h : TakesPlain decode) : Layout.value.Steady decode :=
  fun _ _ _ edit _ => iff_of_false (fun read => edit.not_plain.1 (h read)) fun read => edit.not_plain.2 (h read)

theorem TakesPlain.string : TakesPlain Decoder.string := by
  intro j s read
  cases j with
  | str s => exact .str s
  | _ => cases read

theorem TakesPlain.bool : TakesPlain Decoder.bool := by
  intro j b read
  cases j with
  | bool b => exact .bool b
  | _ => cases read

theorem TakesPlain.float : TakesPlain Decoder.float := by
  intro j x read
  cases j with
  | int n => exact .int n
  | float x h => exact .float x h
  | _ => cases read

theorem TakesPlain.int64 : TakesPlain Decoder.int64 := by
  intro j i read
  obtain ⟨n, rfl, -⟩ := Decoder.int64_eq_ok.mp read
  exact .int n

theorem TakesPlain.uint64 : TakesPlain Decoder.uint64 := by
  intro j u read
  obtain ⟨n, rfl, -⟩ := Decoder.uint64_eq_ok.mp read
  exact .int n

theorem TakesPlain.checked (check : String → Except Error α) : TakesPlain (Decoder.checked check) := by
  intro j a read
  obtain ⟨s, text, -⟩ := bind_eq_ok.mp read
  exact TakesPlain.string text

theorem TakesPlain.list (h : TakesPlain item) : TakesPlain (Decoder.list item) := by
  intro j as read
  cases j with
  | arr items => exact .arr (forall_of_forall₂ (mapM_eq_ok.mp read) fun _ _ _ taken => h taken)
  | _ => cases read

theorem TakesPlain.lift {decode : Json → Except Error α} (h : TakesPlain decode) : TakesPlain (Decoder.lift decode) :=
  fun _ _ read => h (mapError_eq_ok.mp read)

namespace Layout.Steady

theorem lift {decode : Json → Except Error α} (h : l.Steady decode) : l.Steady (Decoder.lift decode) := by
  intro j k distinct edit a
  rw [Decoder.lift, Decoder.lift, mapError_eq_ok, mapError_eq_ok, h distinct edit]

/-- A decoder that takes strings on its own, and leaves other values to `item`. -/
theorem beside_str {decode : Json → Except Error β} {make : α → β} {reword : Mismatch → Error} (h : l.Steady item)
    (other : ∀ j, (∀ s, j = .str s → False) → decode j = make <$> (item j).mapError reword) : l.Steady decode := by
  intro j k distinct edit b
  rw [other j fun s => (edit.ne_str s).1, other k fun s => (edit.ne_str s).2]
  simp only [map_eq_ok, mapError_eq_ok, h distinct edit]

theorem optional (h : l.Steady item) : l.Steady (Decoder.optional item) := by
  intro j k distinct edit o
  rw [Decoder.optional.eq_2 _ _ edit.ne_null.1, Decoder.optional.eq_2 _ _ edit.ne_null.2, map_eq_ok, map_eq_ok]
  simp only [h distinct edit]

theorem dict [Named κ] {key : String → Except Mismatch κ} (keys : ∀ s k, key s = .ok k ↔ s = nameOf k)
    (h : l.Steady item) : (Layout.dict l).Steady (Decoder.dict key item) := by
  intro j k distinct edit d
  cases edit with
  | order perm =>
    have means : (Decoder.dict key item).Means (Dict.Mirrors fun j a => item j = .ok a) :=
      .dict keys fun _ _ _ => Iff.rfl
    rw [means _ d distinct, means _ d ((Json.Edit.order (l := .dict l) perm).distinct distinct)]
    exact ⟨fun mirrors => mirrors.perm perm, fun mirrors => mirrors.perm perm.symm⟩
  | item _ => exact iff_of_false nofun nofun
  | @member _ before after name x y inner =>
    rw [Decoder.dict_eq_ok, Decoder.dict_eq_ok]
    have steady := h (distinct.member (m := (name, x)) (by simp)) inner
    exact exists_congr fun entries => and_congr_left fun _ =>
      forall₂_replace fun e => and_congr_right fun _ => steady e.2

end Layout.Steady

/-- What is read of a record depends on the fields, up to changes in them. -/
def Record.Steady (r : Record α) (fields : List (String × Layout)) : Prop :=
  r.arity = fields.length ∧ ∀ source source' : FieldSource,
    (∀ i label l, fields[i]? = some (label, l) → Json.Follows l (source.find i label) (source'.find i label)) →
      ∀ a, r.build source = .ok a ↔ r.build source' = .ok a

namespace Record.Steady

theorem of (make : α) : (Record.of make).Steady [] :=
  ⟨rfl, fun _ _ _ _ => Iff.rfl⟩

theorem field {r : Record (α → β)} {label : String} {absent : Option α} (before : r.Steady fields)
    (h : l.Steady item) : (r.field label item absent).Steady (fields ++ [(label, l)]) := by
  refine ⟨by simp [Record.field, before.1], fun source source' follows b => ?_⟩
  have earlier := before.2 source source' fun i label l there =>
    follows i label l ((List.getElem?_append_left (List.getElem?_eq_some_iff.mp there).1).trans there)
  have own := follows r.arity label l (by simp [before.1])
  simp only [Record.field, bind_eq_ok, earlier]
  refine exists_congr fun make => and_congr_right fun _ => ?_
  generalize source.find r.arity label = found at own ⊢
  generalize source'.find r.arity label = found' at own ⊢
  cases own with
  | same found =>
    cases found with
    | none => cases absent <;> simp [throw, throwThe, MonadExceptOf.throw]
    | some j => rfl
  | edited distinct edit => simp only [bind_eq_ok, h distinct edit]

theorem required {r : Record (α → β)} (before : r.Steady fields) (label : String) (h : l.Steady item) :
    (r.required label item).Steady (fields ++ [(label, l)]) :=
  before.field h

theorem optional {r : Record (Option α → β)} (before : r.Steady fields) (label : String) (h : l.Steady item) :
    (r.optional label item).Steady (fields ++ [(label, l)]) :=
  before.field h.optional

theorem withDefault {r : Record (α → β)} (before : r.Steady fields) (label : String) (h : l.Steady item) (absent : α) :
    (r.withDefault label item absent).Steady (fields ++ [(label, l)]) :=
  before.field h

theorem decode {r : Record α} {title : String} (h : r.Steady fields) (names : (fields.map Prod.fst).Nodup) :
    (Layout.record fields).Steady (r.decode title) := by
  intro j k distinct edit a
  have built (source : FieldSource) :
      r.build source = .ok a ↔ ∃ missing, r.build ⟨source.find, missing⟩ = .ok a := by
    refine ⟨fun read => ⟨source.missing, read⟩, fun ⟨missing, read⟩ => ?_⟩
    exact (h.2 ⟨source.find, missing⟩ source (fun _ _ _ _ => .same _) a).mp read
  rw [Record.decode_eq_ok (P := fun find => ∃ missing, r.build ⟨find, missing⟩ = .ok a) built,
    Record.decode_eq_ok (P := fun find => ∃ missing, r.build ⟨find, missing⟩ = .ok a) built, edit.mayHold]
  refine and_congr_right fun _ => exists_congr fun missing => h.2 _ _ (fun i label l there => ?_) a
  exact edit.slot distinct names there

end Record.Steady
end

end Ovsdb
