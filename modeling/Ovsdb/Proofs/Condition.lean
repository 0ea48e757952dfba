import Ovsdb.Condition
import Ovsdb.Proofs.Json.Members
import Ovsdb.Proofs.Value.Grammar

/-! Conditions and mutations on the wire. They are read with whatever token they have, and written only with one that
    is known. -/

namespace Ovsdb

/-! ### Tokens -/

namespace Comparison

/-- The tokens of the comparisons that there are. -/
def tokens : List String :=
  ["<", "<=", "==", "!=", ">=", ">", "includes", "excludes"]

theorem token_ofToken (t : String) : (ofToken t).token = t := by
  fun_cases ofToken t <;> simp_all [token]

theorem isKnown_ofToken (t : String) : (ofToken t).isKnown = true ↔ t ∈ tokens := by
  fun_cases ofToken t <;> simp_all [isKnown, tokens]

theorem ofToken_token {c : Comparison} (known : c.isKnown = true) : ofToken c.token = c := by
  cases c with
  | unknown t => cases known
  | _ => rfl

end Comparison

namespace Mutator

def tokens : List String :=
  ["+=", "-=", "*=", "/=", "%=", "insert", "delete"]

theorem token_ofToken (t : String) : (ofToken t).token = t := by
  fun_cases ofToken t <;> simp_all [token]

theorem isKnown_ofToken (t : String) : (ofToken t).isKnown = true ↔ t ∈ tokens := by
  fun_cases ofToken t <;> simp_all [isKnown, tokens]

theorem ofToken_token {m : Mutator} (known : m.isKnown = true) : ofToken m.token = m := by
  cases m with
  | unknown t => cases known
  | _ => rfl

end Mutator

/-! ### Triples -/

theorem Json.triple_eq_ok {j : Json} {column : Id} {token : String} {value : Value} :
    j.triple = .ok (column, token, value) ↔
      ∃ x, j = .arr [.str column.text, .str token, x] ∧ Value.ofJson x = .ok value := by
  fun_cases Json.triple j with
  | case1 c t x =>
    simp only [bind_eq_ok, pure_eq_ok, Prod.ext_iff, Id.ofString_eq_ok]
    constructor
    · rintro ⟨_, rfl, v, read, rfl, rfl, rfl⟩
      exact ⟨x, rfl, read⟩
    · rintro ⟨_, ⟨⟩, read⟩
      exact ⟨column, rfl, value, read, rfl, rfl, rfl⟩
  | case2 j other =>
    refine ⟨nofun, ?_⟩
    rintro ⟨x, rfl, -⟩
    exact absurd rfl (other _ _ _)

/-- How conditions are told from mutations: by their tokens, and by what is reported of a token that is not known. -/
structure TripleKind (τ α : Type) where
  tokens : List String
  token : τ → String
  ofToken : String → τ
  isKnown : τ → Bool
  make : Id → τ → Value → α
  ofJson : Json → Except Error α
  toJson : α → Except Error Json
  unknown : String → Error

/-- Conditions as triples with a comparison in the middle. -/
def Condition.triples : TripleKind Comparison Condition where
  tokens := Comparison.tokens
  token := Comparison.token
  ofToken := Comparison.ofToken
  isKnown := Comparison.isKnown
  make := mk
  ofJson := ofJson
  toJson := toJson
  unknown := .invalidCondition

/-- Mutations as triples with a mutator in the middle. -/
def Mutation.triples : TripleKind Mutator Mutation where
  tokens := Mutator.tokens
  token := Mutator.token
  ofToken := Mutator.ofToken
  isKnown := Mutator.isKnown
  make := mk
  ofJson := ofJson
  toJson := toJson
  unknown := .invalidMutation

namespace TripleKind
variable {τ α : Type}

/-- A triple is read with any token at all, which is kept, and written with one that is known. -/
structure Lenient (k : TripleKind τ α) : Prop where
  read_iff : ∀ j, (∃ a, k.ofJson j = .ok a) ↔
    ∃ c t x, j = .arr [.str c, .str t, x] ∧ isIdentifier c = true ∧ Value.Wire x
  rewritten : ∀ c t x a, k.ofJson (.arr [.str c, .str t, x]) = .ok a → ∃ column verb value,
    a = k.make column verb value ∧ column.text = c ∧ k.token verb = t ∧ Value.ofJson x = .ok value ∧
      k.toJson a = if t ∈ k.tokens then .ok (.arr [.str c, .str t, value.toJson]) else .error (k.unknown t)
  restored : ∀ column verb value, k.isKnown verb = true → value.isFinite = true → ∃ j,
    k.toJson (k.make column verb value) = .ok j ∧ k.ofJson j = .ok (k.make column verb value.norm)

/-- What the tokens of a kind have to do with each other, and what is written and read is made of. -/
structure Lawful (k : TripleKind τ α) : Prop where
  token_ofToken : ∀ t, k.token (k.ofToken t) = t
  isKnown_ofToken : ∀ t, k.isKnown (k.ofToken t) = true ↔ t ∈ k.tokens
  ofToken_token : ∀ verb, k.isKnown verb = true → k.ofToken (k.token verb) = verb
  ofJson_eq : ∀ j, k.ofJson j = (fun t => k.make t.1 (k.ofToken t.2.1) t.2.2) <$> j.triple
  toJson_make : ∀ column verb value, k.toJson (k.make column verb value) =
    if k.isKnown verb then .ok (.arr [column.toJson, .str (k.token verb), value.toJson])
    else .error (k.unknown (k.token verb))

variable {k : TripleKind τ α}

theorem Lawful.ofJson_eq_ok (h : k.Lawful) {j : Json} {a : α} : k.ofJson j = .ok a ↔
    ∃ (column : Id) (t : String) (x : Json) (value : Value), j = .arr [.str column.text, .str t, x] ∧
      Value.ofJson x = .ok value ∧ k.make column (k.ofToken t) value = a := by
  rw [h.ofJson_eq, map_eq_ok]
  constructor
  · rintro ⟨⟨column, t, value⟩, taken, rfl⟩
    obtain ⟨x, rfl, read⟩ := Json.triple_eq_ok.mp taken
    exact ⟨column, t, x, value, rfl, read, rfl⟩
  · rintro ⟨column, t, x, value, rfl, read, rfl⟩
    exact ⟨(column, t, value), Json.triple_eq_ok.mpr ⟨x, rfl, read⟩, rfl⟩

theorem Lawful.lenient (h : k.Lawful) : k.Lenient where
  read_iff j := by
    constructor
    · rintro ⟨a, read⟩
      obtain ⟨column, t, x, value, rfl, read, -⟩ := h.ofJson_eq_ok.mp read
      exact ⟨column.text, t, x, rfl, column.valid, Value.wire_of_ok read⟩
    · rintro ⟨c, t, x, rfl, valid, wire⟩
      obtain ⟨value, read⟩ := Value.ok_of_wire wire
      exact ⟨_, h.ofJson_eq_ok.mpr ⟨⟨c, valid⟩, t, x, value, rfl, read, rfl⟩⟩
  rewritten c t x a taken := by
    obtain ⟨column, _, _, value, ⟨⟩, read, rfl⟩ := h.ofJson_eq_ok.mp taken
    refine ⟨column, k.ofToken t, value, rfl, rfl, h.token_ofToken t, read, ?_⟩
    simp only [h.toJson_make, h.token_ofToken, h.isKnown_ofToken, Id.toJson]
  restored column verb value known finite := by
    refine ⟨.arr [column.toJson, .str (k.token verb), value.toJson], ?_, ?_⟩
    · rw [h.toJson_make, if_pos known]
    · refine h.ofJson_eq_ok.mpr ⟨column, _, _, value.norm, rfl, Value.ofJson_toJson finite, ?_⟩
      rw [h.ofToken_token verb known]

end TripleKind

theorem Condition.lawful : triples.Lawful where
  token_ofToken := Comparison.token_ofToken
  isKnown_ofToken := Comparison.isKnown_ofToken
  ofToken_token _ := Comparison.ofToken_token
  ofJson_eq _ := rfl
  toJson_make _ _ _ := rfl

theorem Mutation.lawful : triples.Lawful where
  token_ofToken := Mutator.token_ofToken
  isKnown_ofToken := Mutator.isKnown_ofToken
  ofToken_token _ := Mutator.ofToken_token
  ofJson_eq _ := rfl
  toJson_make _ _ _ := rfl

/-- Conditions and mutations are read with any token, and come back if they are written with one that is known. -/
theorem triples_are_lenient : Condition.triples.Lenient ∧ Mutation.triples.Lenient :=
  ⟨Condition.lawful.lenient, Mutation.lawful.lenient⟩

/-- A condition with a token that is only known in mutations is read, and not written again; a mutation with it comes
    back with the one port for the set of it. -/
theorem triples_are_lenient_insert :
    let ports : Id := ⟨"ports", by decide⟩
    (∃ c, Condition.ofJson (.arr [.str "ports", .str "insert", .bool true]) = .ok c ∧
      c.toJson = .error (.invalidCondition "insert")) ∧
    ∃ j, Mutation.toJson ⟨ports, .insert, .set [.string "p1"]⟩ = .ok j ∧
      Mutation.ofJson j = .ok ⟨ports, .insert, .string "p1"⟩ := by
  intro ports
  obtain ⟨conditions, mutations⟩ := triples_are_lenient
  constructor
  · obtain ⟨c, read⟩ := (conditions.read_iff (.arr [.str "ports", .str "insert", .bool true])).mpr
      ⟨_, _, _, rfl, by decide, .boolean true⟩
    obtain ⟨_, _, _, -, -, -, -, written⟩ := conditions.rewritten _ _ _ c read
    exact ⟨c, read, written.trans (if_neg (by decide))⟩
  · exact mutations.restored ports .insert (.set [.string "p1"]) rfl rfl

end Ovsdb
