import Ovsdb.Proofs.Json.Alike
import Ovsdb.Proofs.Operation.Validation
import Ovsdb.Proofs.Value.Basic

/-! An operation can be told from its wire form, up to the wire forms of the values in it: no two kinds of operations
    share one, and nothing that an operation says is lost. -/

namespace Ovsdb

/-! ### Wire forms of values -/

theorem Json.plain_ofFloat (x : Float) : (Json.ofFloat x).Plain := by
  rw [Json.ofFloat]
  split
  · exact .float x _
  · exact .null

/-- An array with a tag in front, as all wire forms but those of atoms are. -/
theorem Json.Plain.tagged {tag : String} {j : Json} (h : j.Plain) : Plain (.arr [.str tag, j]) :=
  .arr (by simp [h, Plain.str])

theorem Value.plain_toJson (v : Value) : v.toJson.Plain := by
  induction v with
  | string s => exact .str s
  | integer i => exact .int _
  | real x => exact Json.plain_ofFloat x
  | boolean b => exact .bool b
  | uuid u => exact .tagged (.str _)
  | namedUuid u => exact .tagged (.str _)
  | set vs ih =>
    by_cases single : vs.length = 1
    · obtain ⟨v, rfl⟩ := List.length_eq_one_iff.mp single
      rw [toJson_set_singleton]
      exact ih v List.mem_cons_self
    · rw [toJson_set single]
      exact .tagged (.arr (List.forall_mem_map.mpr ih))
  | map pairs ih =>
    rw [toJson_map]
    refine .tagged (.arr (List.forall_mem_map.mpr fun p mem => .arr ?_))
    simpa using ih p mem

/-! ### Agreement -/

/-- Same column, same token, and values of equal wire form. -/
def Condition.Agrees (E : Json → Json → Prop) (a b : Condition) : Prop :=
  a.column = b.column ∧ a.comparison.token = b.comparison.token ∧ E a.value.toJson b.value.toJson

/-- Same column, same token, and values of equal wire form. -/
def Mutation.Agrees (E : Json → Json → Prop) (a b : Mutation) : Prop :=
  a.column = b.column ∧ a.mutator.token = b.mutator.token ∧ E a.value.toJson b.value.toJson

/-- Same columns, with values of equal wire form. -/
def Row.Agrees (E : Json → Json → Prop) (a b : Row) : Prop :=
  ∀ column, Option.Rel (fun v w => E v.toJson w.toJson) (a.find? column) (b.find? column)

namespace Operation

/-- Same kind, and the same in all that is said, but for values, of which the wire forms are equal. -/
def Agrees (E : Json → Json → Prop) : Operation → Operation → Prop
  | .insert table row uuidName, .insert table' row' uuidName' =>
    table = table' ∧ Option.Rel (Row.Agrees E) row row' ∧ uuidName = uuidName'
  | .select table conditions columns, .select table' conditions' columns' =>
    table = table' ∧ List.Forall₂ (Condition.Agrees E) conditions conditions' ∧ columns = columns'
  | .update table conditions row, .update table' conditions' row' =>
    table = table' ∧ List.Forall₂ (Condition.Agrees E) conditions conditions' ∧ Row.Agrees E row row'
  | .mutate table conditions mutations, .mutate table' conditions' mutations' =>
    table = table' ∧ List.Forall₂ (Condition.Agrees E) conditions conditions' ∧
      List.Forall₂ (Mutation.Agrees E) mutations mutations'
  | .delete table conditions, .delete table' conditions' =>
    table = table' ∧ List.Forall₂ (Condition.Agrees E) conditions conditions'
  | .wait table conditions columns goal rows timeout, .wait table' conditions' columns' goal' rows' timeout' =>
    table = table' ∧ List.Forall₂ (Condition.Agrees E) conditions conditions' ∧ columns = columns' ∧ goal = goal' ∧
      List.Forall₂ (Row.Agrees E) rows rows' ∧ timeout = timeout'
  | .commit durable, .commit durable' => durable = durable'
  | .abort, .abort => True
  | .comment text, .comment text' => text = text'
  | .assert lock, .assert lock' => lock = lock'
  | _, _ => False

/-! ### What the members tell -/

/-- The members that an operation of the kind may have. -/
def fields : Operation → List (String × Option Json)
  | .insert table row uuidName => [("table", table.map Id.toJson), ("row", row.map Row.toJson),
      ("uuid-name", uuidName.map Id.toJson)]
  | .select table conditions columns => [("table", table.map Id.toJson), ("where", (whereMember conditions).2),
      ("columns", if columns.isEmpty then none else encodeColumns columns)]
  | .update table conditions row => [("table", table.map Id.toJson), ("where", (whereMember conditions).2),
      ("row", row.toJson)]
  | .mutate table conditions mutations => [("table", table.map Id.toJson), ("where", (whereMember conditions).2),
      ("mutations", some (.arr (mutations.map Mutation.wire)))]
  | .delete table conditions => [("table", table.map Id.toJson), ("where", (whereMember conditions).2)]
  | .wait table conditions columns goal rows timeout => [("table", table.map Id.toJson),
      ("where", (whereMember conditions).2), ("columns", encodeColumns columns), ("until", some (.str goal.token)),
      ("rows", some (.arr (rows.map Row.toJson))), ("timeout", timeout.map .ofUInt64)]
  | .commit durable => [("durable", some (.bool durable))]
  | .abort => []
  | .comment text => [("comment", some (.str text))]
  | .assert lock => [("lock", lock.map Id.toJson)]

theorem members_eq_present (o : Operation) : o.members = Json.present (("op", some (.str o.kind)) :: o.fields) := by
  cases o with
  | insert table row uuidName => cases table <;> cases row <;> cases uuidName <;> rfl
  | select table conditions columns => cases table <;> cases columns <;> rfl
  | wait table conditions columns goal rows timeout => cases table <;> cases timeout <;> rfl
  | update table => cases table <;> rfl
  | mutate table => cases table <;> rfl
  | delete table => cases table <;> rfl
  | assert lock => cases lock <;> rfl
  | _ => rfl

/-! ### What a member tells -/

section
variable {R : Float → Float → Prop} {α : Type} {encode : α → Json} {S : α → α → Prop}

theorem alike_map_iff (h : ∀ a b, Json.Alike R (encode a) (encode b) ↔ S a b) (as bs : List α) :
    Json.Alike R (.arr (as.map encode)) (.arr (bs.map encode)) ↔ List.Forall₂ S as bs := by
  simp [h]

theorem rel_map_iff (h : ∀ a b, Json.Alike R (encode a) (encode b) ↔ S a b) (a b : Option α) :
    Option.Rel (Json.Alike R) (a.map encode) (b.map encode) ↔ Option.Rel S a b := by
  cases a <;> cases b <;> simp [h]

/-- A part that may be absent is told from its member. -/
theorem rel_map_iff_eq (h : ∀ a b, Json.Alike R (encode a) (encode b) ↔ a = b) (a b : Option α) :
    Option.Rel (Json.Alike R) (a.map encode) (b.map encode) ↔ a = b := by
  cases a <;> cases b <;> simp [h]

theorem alike_id (i j : Id) : Json.Alike R i.toJson j.toJson ↔ i = j := by
  cases i
  cases j
  simp [Id.toJson]

@[simp]
theorem rel_id (i j : Option Id) : Option.Rel (Json.Alike R) (i.map Id.toJson) (j.map Id.toJson) ↔ i = j :=
  rel_map_iff_eq alike_id i j

@[simp]
theorem rel_timeout (m n : Option UInt64) :
    Option.Rel (Json.Alike R) (m.map .ofUInt64) (n.map .ofUInt64) ↔ m = n :=
  rel_map_iff_eq (fun m n => by
    simp only [Json.ofUInt64, Json.alike_int, WideInt.ofUInt64, WideInt.mk.injEq, Int.ofNat_inj, UInt64.toNat_inj]) m n

@[simp]
theorem alike_columns (as bs : List Id) : Json.Alike R (encodeColumns as) (encodeColumns bs) ↔ as = bs := by
  rw [encodeColumns, encodeColumns, alike_map_iff alike_id, List.forall₂_eq_eq_eq]

/-- That there are no columns is told by the absence of their member. -/
@[simp]
theorem rel_columns (as bs : List Id) :
    Option.Rel (Json.Alike R) (if as = [] then none else some (encodeColumns as))
      (if bs = [] then none else some (encodeColumns bs)) ↔ as = bs := by
  cases as <;> cases bs <;> simp

@[simp]
theorem alike_where (as bs : List Condition) :
    Json.Alike R (whereMember as).2 (whereMember bs).2 ↔ List.Forall₂ (Condition.Agrees (Json.Alike R)) as bs :=
  alike_map_iff (fun a b => by simp [Condition.wire, Condition.Agrees, alike_id]) as bs

theorem alike_mutation (a b : Mutation) : Json.Alike R a.wire b.wire ↔ a.Agrees (Json.Alike R) b := by
  simp [Mutation.wire, Mutation.Agrees, alike_id]

theorem lookup_row (r : Row) (column : String) :
    (r.entries.map fun e => (e.1.text, e.2.toJson)).lookup column = (r.find? column).map Value.toJson := by
  rw [Dict.find?]
  induction r.entries with
  | nil => rfl
  | cons e rest ih =>
    rw [List.map_cons, List.lookup_cons, List.find?_cons, ih, BEq.comm]
    show _ = Option.map _ (Option.map _ (match e.1.text == column with | true => _ | false => _))
    cases e.1.text == column <;> rfl

@[simp]
theorem alike_row (a b : Row) : Json.Alike R a.toJson b.toJson ↔ a.Agrees (Json.Alike R) b := by
  rw [Row.toJson, Row.toJson, Json.alike_obj]
  refine forall_congr' fun column => ?_
  rw [lookup_row, lookup_row, rel_map_iff fun _ _ => .rfl]

@[simp]
theorem rel_row (a b : Option Row) :
    Option.Rel (Json.Alike R) (a.map Row.toJson) (b.map Row.toJson) ↔ Option.Rel (Row.Agrees (Json.Alike R)) a b :=
  rel_map_iff alike_row a b

@[simp]
theorem token_inj (g h : WaitGoal) : g.token = h.token ↔ g = h := by
  cases g <;> cases h <;> decide

end

/-! ### What all members tell -/

section
variable {R : Float → Float → Prop} {a b : Operation} {j k : Json}

theorem kind_eq_of_alike (alike : Json.Alike R (.obj a.members) (.obj b.members)) : a.kind = b.kind := by
  have found := Json.alike_obj.mp alike "op"
  simpa [members, List.lookup_cons, Option.rel_some_some] using found

theorem kind_eq_of_agrees {E : Json → Json → Prop} (agrees : a.Agrees E b) : a.kind = b.kind := by
  cases a <;> cases b <;> first | rfl | exact absurd agrees id

theorem distinct_fields (o : Operation) : (List.map Prod.fst (("op", some (.str o.kind)) :: o.fields)).Nodup := by
  cases o <;> simp [fields]

theorem alike_members_iff (kinds : a.kind = b.kind) (names : a.fields.map Prod.fst = b.fields.map Prod.fst) :
    Json.Alike R (.obj a.members) (.obj b.members) ↔
      List.Forall₂ (fun f f' => Option.Rel (Json.Alike R) f.2 f'.2) a.fields b.fields := by
  rw [members_eq_present, members_eq_present,
    Json.alike_present (by rw [List.map_cons, List.map_cons, names]) a.distinct_fields]
  simp [kinds]

/-- The members tell all that the operation says. -/
theorem alike_members (a b : Operation) :
    Json.Alike R (.obj a.members) (.obj b.members) ↔ a.Agrees (Json.Alike R) b := by
  by_cases kinds : a.kind = b.kind
  case neg => exact iff_of_false (kinds ∘ kind_eq_of_alike) (kinds ∘ kind_eq_of_agrees)
  case pos =>
    cases a <;> cases b <;> simp [kind] at kinds
    -- Operations of one kind have fields of the same names, which are compared one by one.
    all_goals exact Iff.trans (alike_members_iff (by rfl) (by rfl)) (by simp [fields, Agrees, alike_mutation])

end

/-! ### Encodings -/

/-- In wire forms of values there are no objects whose order could be overlooked. -/
theorem agrees_alike_eq : Agrees (Json.Alike (· = ·)) = Agrees (· = ·) := by
  have value (v w : Value) : Json.Alike (· = ·) v.toJson w.toJson ↔ v.toJson = w.toJson :=
    ⟨v.plain_toJson.eq_of_alike, fun same => same ▸ .refl (fun _ => rfl) _⟩
  have condition : Condition.Agrees (Json.Alike (· = ·)) = Condition.Agrees (· = ·) := by
    funext a b
    rw [Condition.Agrees, Condition.Agrees, value]
  have mutation : Mutation.Agrees (Json.Alike (· = ·)) = Mutation.Agrees (· = ·) := by
    funext a b
    rw [Mutation.Agrees, Mutation.Agrees, value]
  have row : Row.Agrees (Json.Alike (· = ·)) = Row.Agrees (· = ·) := by
    funext r s
    simp only [Row.Agrees, value]
  funext a b
  cases a <;> cases b <;> simp only [Agrees, condition, mutation, row]

/-- Encoding loses nothing. Operations with equal wire forms are of the same kind and say the same, but for values, of
    which the wire forms are equal; and all this can be told without the order of members in objects. -/
theorem told_from_encoding {a b : Operation} {j k : Json} (ha : a.toJson = .ok j) (hb : b.toJson = .ok k) :
    (j = k → a.Agrees (· = ·) b) ∧ ∀ R, Json.Alike R j k ↔ a.Agrees (Json.Alike R) b := by
  obtain ⟨-, rfl⟩ := Requirement.demand_eq_ok.mp (a.toJson_eq_demand ▸ ha)
  obtain ⟨-, rfl⟩ := Requirement.demand_eq_ok.mp (b.toJson_eq_demand ▸ hb)
  refine ⟨fun same => ?_, fun R => alike_members a b⟩
  have alike : Json.Alike (· = ·) (.obj a.members) (.obj b.members) := same ▸ .refl (fun _ => rfl) _
  exact agrees_alike_eq ▸ (alike_members a b).mp alike

/-- Two deletions with the same wire form: a set of one string, and the string. -/
theorem told_from_encoding_singleton :
    let delete (v : Value) : Operation := .delete (some ⟨"Bridge", rfl⟩) [⟨⟨"name", rfl⟩, .eq, v⟩]
    (delete (.set [.string "br0"])).toJson = (delete (.string "br0")).toJson ∧
      (delete (.set [.string "br0"])).Agrees (· = ·) (delete (.string "br0")) :=
  ⟨rfl, (told_from_encoding rfl rfl).1 rfl⟩

end Operation
end Ovsdb
