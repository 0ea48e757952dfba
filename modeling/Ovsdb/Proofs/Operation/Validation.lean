import Ovsdb.Operation

/-! Encoding an operation is its validation. What a valid operation must have is a list of requirements, in the order
    in which they are checked; an operation that lacks something is refused for the first thing that it lacks, and
    every other one has the members that its kind has on the wire. -/

namespace Ovsdb

/-! ### Requirements -/

/-- What an operation must have: a part that must be there, and tokens that must be known. -/
inductive Requirement where
  | part (field : String) (present : Bool)
  | comparison (c : Comparison)
  | mutator (m : Mutator)

namespace Requirement

/-- Whether a requirement is met. -/
def met : Requirement → Bool
  | .part _ present => present
  | .comparison c => c.isKnown
  | .mutator m => m.isKnown

/-- Why an operation of this kind is refused for the lack of something. -/
def error (kind : String) : Requirement → Error
  | .part field _ => .missingField kind field
  | .comparison c => .invalidCondition c.token
  | .mutator m => .invalidMutation m.token

theorem isValidation_error (kind : String) (r : Requirement) : (r.error kind).isValidation = true := by
  cases r <;> rfl

/-- The value, if all requirements are met; else the error for the first that is not. -/
def demand {α : Type} (kind : String) (requirements : List Requirement) (value : α) : Except Error α :=
  match requirements.find? (!·.met) with
  | some r => .error (r.error kind)
  | none => .ok value

section
variable {α β : Type} {kind field : String} {rs qs : List Requirement} {r : Requirement} {a a' : α} {b : β} {e : Error}

theorem demand_of_met (h : r.met = true) (rs : List Requirement) (a : α) :
    demand kind (r :: rs) a = demand kind rs a := by
  rw [demand, List.find?_cons_of_neg (by simp [h]), demand]

theorem demand_of_unmet (h : r.met = false) (rs : List Requirement) (a : α) :
    demand kind (r :: rs) a = .error (r.error kind) := by
  rw [demand, List.find?_cons_of_pos (by simp [h])]

/-- What is demanded first is checked first. -/
theorem demand_bind {f : α → Except Error β} (h : f a = demand kind qs b) (rs : List Requirement) :
    demand kind rs a >>= f = demand kind (rs ++ qs) b := by
  induction rs with
  | nil => exact h
  | cons r rs ih =>
    cases met : r.met with
    | true => rw [demand_of_met met, List.cons_append, demand_of_met met, ih]
    | false => rw [demand_of_unmet met, List.cons_append, demand_of_unmet met]; rfl

/-- What is made of the value afterwards demands nothing more. -/
theorem demand_map (f : α → β) (rs : List Requirement) (a : α) :
    (demand kind rs a >>= fun a => .ok (f a)) = demand kind rs (f a) := by
  have nothing : .ok (f a) = demand kind [] (f a) := rfl
  rw [demand_bind (f := fun a => .ok (f a)) nothing, List.append_nil]

theorem demand_eq_ok : demand kind rs a = .ok a' ↔ (∀ r ∈ rs, r.met = true) ∧ a' = a := by
  have all : rs.find? (!·.met) = none ↔ ∀ r ∈ rs, r.met = true := by simp
  rw [demand, ← all]
  cases rs.find? (!·.met) with
  | some r => simp
  | none => simp [eq_comm]

theorem demand_eq_error : demand kind rs a = .error e ↔ ∃ before r after, rs = before ++ r :: after ∧
    (∀ q ∈ before, q.met = true) ∧ r.met = false ∧ e = r.error kind := by
  have first (r : Requirement) : rs.find? (!·.met) = some r ↔
      ∃ before after, rs = before ++ r :: after ∧ (∀ q ∈ before, q.met = true) ∧ r.met = false := by
    rw [List.find?_eq_some_iff_append]
    simp only [Bool.not_eq_true', Bool.not_not]
    exact ⟨fun ⟨unmet, before, after, split, all⟩ => ⟨before, after, split, all, unmet⟩,
      fun ⟨before, after, split, all, unmet⟩ => ⟨unmet, before, after, split, all⟩⟩
  rw [demand]
  constructor
  · intro refused
    split at refused <;> cases refused
    case h_1 r found =>
      obtain ⟨before, after, split, all, unmet⟩ := (first r).mp found
      exact ⟨before, r, after, split, all, unmet, rfl⟩
  · rintro ⟨before, r, after, split, all, unmet, rfl⟩
    rw [(first r).mpr ⟨before, after, split, all, unmet⟩]

/-- Encoding the elements of a list demands of each of them what its encoding demands. -/
theorem mapM_demand {f : α → Except Error β} {demands : α → Requirement} {wire : α → β}
    (h : ∀ a, f a = demand kind [demands a] (wire a)) (as : List α) :
    as.mapM f = demand kind (as.map demands) (as.map wire) := by
  induction as with
  | nil => rfl
  | cons a as ih =>
    rw [List.mapM_cons, h, ih]
    cases met : (demands a).met with
    | false => rw [List.map_cons, demand_of_unmet met, demand_of_unmet met]; rfl
    | true =>
      rw [List.map_cons, demand_of_met met, demand_of_met met, List.map_cons]
      exact demand_map (wire a :: ·) _ _

end
end Requirement

open Requirement (demand)

/-! ### Conditions and mutations -/

/-- A condition on the wire, known or not. -/
def Condition.wire (c : Condition) : Json :=
  .arr [c.column.toJson, .str c.comparison.token, c.value.toJson]

/-- A mutation on the wire, known or not. -/
def Mutation.wire (m : Mutation) : Json :=
  .arr [m.column.toJson, .str m.mutator.token, m.value.toJson]

theorem Condition.toJson_eq_demand (kind : String) (c : Condition) :
    c.toJson = demand kind [.comparison c.comparison] c.wire := by
  obtain ⟨column, comparison, value⟩ := c
  cases comparison <;> rfl

theorem Mutation.toJson_eq_demand (kind : String) (m : Mutation) :
    m.toJson = demand kind [.mutator m.mutator] m.wire := by
  obtain ⟨column, mutator, value⟩ := m
  cases mutator <;> rfl

namespace Operation

/-! ### What is checked and what is written -/

/-- What the operations that select rows have in common: a table, and conditions with known functions. -/
def selection (table : Option Id) (conditions : List Condition) : List Requirement :=
  .part "table" table.isSome :: .part "where" (!conditions.isEmpty) ::
    conditions.map fun c => .comparison c.comparison

/-- What an operation must have, in the order of the checks. -/
def requirements : Operation → List Requirement
  | .insert table row _ => [.part "table" table.isSome, .part "row" row.isSome]
  | .select table conditions _ => selection table conditions
  | .update table conditions row => selection table conditions ++ [.part "row" (!row.isEmpty)]
  | .mutate table conditions mutations =>
    selection table conditions ++ .part "mutations" (!mutations.isEmpty) :: mutations.map fun m => .mutator m.mutator
  | .delete table conditions => selection table conditions
  | .wait table conditions columns .. => selection table conditions ++ [.part "columns" (!columns.isEmpty)]
  | .commit _ | .abort => []
  | .comment text => [.part "comment" (!text.isEmpty)]
  | .assert lock => [.part "lock" lock.isSome]

def table? : Operation → Option Id
  | .insert table .. | .select table .. | .update table .. | .mutate table .. | .delete table _ | .wait table .. =>
    table
  | .commit _ | .abort | .comment _ | .assert _ => none

def whereMember (conditions : List Condition) : String × Json :=
  ("where", .arr (conditions.map Condition.wire))

/-- The members behind the table that every operation of the kind has. -/
def body : Operation → List (String × Json)
  | .insert _ row _ => Json.optionalMember "row" Row.toJson row
  | .select _ conditions _ | .delete _ conditions => [whereMember conditions]
  | .update _ conditions row => [whereMember conditions, ("row", row.toJson)]
  | .mutate _ conditions mutations => [whereMember conditions, ("mutations", .arr (mutations.map Mutation.wire))]
  | .wait _ conditions columns goal rows _ => [whereMember conditions, ("columns", encodeColumns columns),
      ("until", .str goal.token), ("rows", .arr (rows.map Row.toJson))]
  | .commit durable => [("durable", .bool durable)]
  | .abort => []
  | .comment text => [("comment", .str text)]
  | .assert lock => Json.optionalMember "lock" Id.toJson lock

/-- The last member, which an operation has only if there is something to say in it. -/
def trailer : Operation → List (String × Json)
  | .insert _ _ uuidName => Json.optionalMember "uuid-name" Id.toJson uuidName
  | .select _ _ columns => if columns.isEmpty then [] else [("columns", encodeColumns columns)]
  | .wait _ _ _ _ _ timeout => Json.optionalMember "timeout" .ofUInt64 timeout
  | _ => []

/-- The members of an operation that is valid, in order. -/
def members (o : Operation) : List (String × Json) :=
  ("op", .str o.kind) :: (Json.optionalMember "table" Id.toJson o.table? ++ o.body ++ o.trailer)

/-! ### Checks -/

variable {kind field : String} {α β : Type}

theorem requireSome_eq_demand (kind field : String) (as : List α) :
    requireSome kind field as = demand kind [.part field (!as.isEmpty)] as := by
  cases as <;> rfl

/-- A list that must not be empty, with a demand on each of its elements. -/
theorem requireSome_mapM {f : α → Except Error β} {demands : α → Requirement} {wire : α → β}
    (h : ∀ a, f a = demand kind [demands a] (wire a)) (g : List β → Json) (as : List α) :
    (requireSome kind field as >>= fun as => as.mapM f >>= fun bs => .ok (g bs)) =
      demand kind (.part field (!as.isEmpty) :: as.map demands) (g (as.map wire)) := by
  cases as with
  | nil => rfl
  | cons a as =>
    show ((a :: as).mapM f >>= fun bs => .ok (g bs)) = _
    rw [Requirement.mapM_demand h, Requirement.demand_map g]
    rfl

theorem encodeWhere_eq_demand (kind : String) (conditions : List Condition) :
    encodeWhere kind conditions = demand kind
      (.part "where" (!conditions.isEmpty) :: conditions.map fun c => .comparison c.comparison)
      (whereMember conditions).2 :=
  requireSome_mapM (Condition.toJson_eq_demand kind) .arr conditions

/-- Operations that select rows check the selection first. -/
theorem demand_selection {kind : String} {table : Option Id} {conditions : List Condition}
    {g : Id → Json → Except Error Json} {j : Json} (rs : List Requirement)
    (h : ∀ id, table = some id → g id (whereMember conditions).2 = demand kind rs j) :
    (require kind "table" table >>= fun table => encodeWhere kind conditions >>= g table) =
      demand kind (selection table conditions ++ rs) j := by
  cases table with
  | none => exact (Requirement.demand_of_unmet (r := .part "table" (none : Option Id).isSome) rfl _ _).symm
  | some id =>
    rw [selection, List.cons_append, Requirement.demand_of_met rfl]
    show (encodeWhere kind conditions >>= g id) = _
    rw [encodeWhere_eq_demand]
    exact Requirement.demand_bind (h id rfl) _

theorem toJson_eq_demand (o : Operation) : o.toJson = demand o.kind o.requirements (.obj o.members) := by
  cases o with
  | insert table row uuidName => cases table <;> cases row <;> rfl
  | select table conditions columns =>
    refine (demand_selection [] fun id there => ?_).trans (by rw [List.append_nil]; rfl)
    rw [there]
    rfl
  | update table conditions row =>
    refine demand_selection _ fun id there => ?_
    rw [there]
    cases row.isEmpty <;> rfl
  | mutate table conditions mutations =>
    refine demand_selection _ fun id there => ?_
    rw [there]
    exact requireSome_mapM (Mutation.toJson_eq_demand "mutate") (fun ms => .obj [("op", .str "mutate"),
      ("table", id.toJson), whereMember conditions, ("mutations", .arr ms)]) mutations
  | delete table conditions =>
    refine (demand_selection [] fun id there => ?_).trans (by rw [List.append_nil]; rfl)
    rw [there]
    rfl
  | wait table conditions columns goal rows timeout =>
    refine demand_selection _ fun id there => ?_
    rw [there, requireSome_eq_demand]
    cases columns <;> rfl
  | commit durable => rfl
  | abort => rfl
  | comment text =>
    rw [toJson, requirements]
    show (if text.isEmpty = true then _ else _) = _
    cases text.isEmpty <;> rfl
  | assert lock => cases lock <;> rfl

/-- Encoding is validation. An operation has a wire form if, and only if, all its requirements are met, and that form
    is the object of its members. Otherwise the first requirement that is not met is the reason for its refusal,
    which is always a validation error. -/
theorem encoding_is_validation (o : Operation) :
    (∀ j, o.toJson = .ok j ↔ (∀ r ∈ o.requirements, r.met = true) ∧ j = .obj o.members) ∧
    (∀ e, o.toJson = .error e ↔ ∃ before r after, o.requirements = before ++ r :: after ∧
      (∀ q ∈ before, q.met = true) ∧ r.met = false ∧ e = r.error o.kind) ∧
    ∀ e, o.toJson = .error e → e.isValidation = true := by
  rw [toJson_eq_demand]
  refine ⟨fun j => Requirement.demand_eq_ok, fun e => Requirement.demand_eq_error, fun e refused => ?_⟩
  obtain ⟨_, r, _, _, _, _, rfl⟩ := Requirement.demand_eq_error.mp refused
  exact r.isValidation_error o.kind

/-- A mutation that lacks its table is refused for that, though its only condition has an unknown function too. -/
example (column : Id) : (Operation.mutate none [⟨column, .unknown "~", .boolean true⟩] []).toJson =
    .error (.missingField "mutate" "table") := rfl

end Operation
end Ovsdb
