import Ovsdb.Proofs.Message
import Ovsdb.Proofs.Sequence
import Ovsdb.Transaction

/-! Replies to transactions. Which replies are accepted, and what they mean, is read off their elements. A reply
    without errors is a success, even if some operations of it were not attempted; their payloads are missing then. -/

namespace Ovsdb

/-! ### Elements -/

/-- The error that an element reports: a text, possibly with details. Its other members do not matter. -/
def RemoteError.ofElement? (j : Json) : Option RemoteError :=
  match j.member? "error", (j.member? "details").getD .null with
  | some (.str error), .null => some ⟨error, none⟩
  | some (.str error), .str details => some ⟨error, some details⟩
  | _, _ => none

/-- What became of an operation, by the element that stands for it. -/
inductive Outcome.Means : Json → Outcome → Prop where
  | notAttempted : Means .null .notAttempted
  | failure {j : Json} {e : RemoteError} (reported : RemoteError.ofElement? j = some e) : Means j (.failure e)
  | success {j : Json} (attempted : j.isNull = false) (unfailed : j.member? "error" = none) : Means j (.success j)

/-- An element that reports an error does it in the right form. -/
def Outcome.WellFormed (j : Json) : Prop :=
  (j.member? "error").isSome = true → (RemoteError.ofElement? j).isSome = true

variable {j : Json} {o : Outcome} {e : RemoteError} {elements : List Json} {outcomes : List Outcome}
  {errors : List RemoteError} {operations : Nat} {reply : Json} {r : TransactResult} {cause : Error}

namespace RemoteError

theorem toOption_decode (ms : List (String × Json)) : (decode (.obj ms)).toOption = ofElement? (.obj ms) := by
  simp only [decode, Record.decode, record, Record.optional, Record.required, Record.field, Record.of,
    Record.members, ofElement?, Json.member?]
  cases ms.lookup "error" with
  | none => rfl
  | some error =>
    cases error with
    | str text =>
      cases ms.lookup "details" with
      | none => rfl
      | some details => cases details <;> rfl
    | _ => rfl

theorem ofElement?_of_unfailed (unfailed : j.member? "error" = none) : ofElement? j = none := by
  rw [ofElement?, unfailed]

theorem failed_of_ofElement? (reported : ofElement? j = some e) : (j.member? "error").isSome = true := by
  cases h : j.member? "error" with
  | none => rw [ofElement?_of_unfailed h] at reported; cases reported
  | some _ => rfl

end RemoteError

namespace Outcome

theorem ofJson_of_unfailed (attempted : j.isNull = false) (unfailed : j.member? "error" = none) :
    ofJson j = .ok (.success j) := by
  cases j with
  | null => cases attempted
  | _ => simp only [ofJson, unfailed]; rfl

theorem ofJson_of_failed (failed : (j.member? "error").isSome = true) :
    (ofJson j).toOption = (RemoteError.ofElement? j).map .failure := by
  cases j with
  | obj ms =>
    rw [← RemoteError.toOption_decode]
    simp only [ofJson, failed, if_true]
    cases RemoteError.decode (.obj ms) <;> rfl
  | _ => cases failed

/-- An element is null, or has an error, or neither. -/
theorem element_cases (j : Json) :
    j = .null ∨ (j.member? "error").isSome = true ∨ j.isNull = false ∧ j.member? "error" = none := by
  cases h : j.member? "error" with
  | some _ => exact .inr (.inl rfl)
  | none =>
    cases j with
    | null => exact .inl rfl
    | _ => exact .inr (.inr ⟨rfl, rfl⟩)

/-- An element is decoded to what it means. -/
theorem ofJson_eq_ok : ofJson j = .ok o ↔ Means j o := by
  constructor
  · intro h
    obtain rfl | failed | ⟨attempted, unfailed⟩ := element_cases j
    · cases h
      exact .notAttempted
    · rw [← toOption_eq_some, ofJson_of_failed failed] at h
      obtain ⟨e, reported, rfl⟩ := Option.map_eq_some_iff.mp h
      exact .failure reported
    · rw [ofJson_of_unfailed attempted unfailed] at h
      cases h
      exact .success attempted unfailed
  · rintro (_ | reported | ⟨attempted, unfailed⟩)
    · rfl
    · rw [← toOption_eq_some, ofJson_of_failed (RemoteError.failed_of_ofElement? reported), reported]
      rfl
    · exact ofJson_of_unfailed attempted unfailed

theorem exists_means : (∃ o, Means j o) ↔ WellFormed j := by
  constructor
  · rintro ⟨o, _ | reported | ⟨attempted, unfailed⟩⟩ failed
    · cases failed
    · rw [reported]; rfl
    · rw [unfailed] at failed; cases failed
  · intro wellFormed
    obtain rfl | failed | ⟨attempted, unfailed⟩ := element_cases j
    · exact ⟨_, .notAttempted⟩
    · obtain ⟨e, reported⟩ := Option.isSome_iff_exists.mp (wellFormed failed)
      exact ⟨_, .failure reported⟩
    · exact ⟨_, .success attempted unfailed⟩

theorem Means.error?_eq (h : Means j o) : o.error? = RemoteError.ofElement? j := by
  cases h with
  | notAttempted => rfl
  | failure reported => exact reported.symm
  | success _ unfailed => exact (RemoteError.ofElement?_of_unfailed unfailed).symm

/-- An element without an error stands for a success, unless it is null. -/
theorem Means.eq_of_unreported (h : Means j o) (unreported : RemoteError.ofElement? j = none) :
    o = if j.isNull then .notAttempted else .success j := by
  cases h with
  | notAttempted => rfl
  | failure reported => rw [unreported] at reported; cases reported
  | success attempted _ => rw [attempted]; rfl

theorem ofJson_eq_error (h : ofJson j = .error cause) : ∃ v, cause = .protocol v := by
  obtain rfl | failed | ⟨attempted, unfailed⟩ := element_cases j
  · cases h
  · cases j with
    | obj ms =>
      simp only [ofJson, failed, if_true] at h
      cases read : RemoteError.decode (.obj ms) with
      | ok e => rw [read] at h; cases h
      | error m => rw [read] at h; cases h; exact ⟨_, rfl⟩
    | _ => cases failed
  · rw [ofJson_of_unfailed attempted unfailed] at h
    cases h

end Outcome

/-! ### Replies -/

namespace TransactResult

/-- The elements that answer so many operations: one for each of them, none of which is a malformed error, and behind
    them nothing, or one error of the whole transaction. -/
structure Answers (elements : List Json) (operations : Nat) : Prop where
  length : elements.length = operations ∨ ∃ before last, elements = before ++ [last] ∧ before.length = operations ∧
    (RemoteError.ofElement? last).isSome = true
  wellFormed : ∀ j ∈ elements.take operations, Outcome.WellFormed j

theorem trailing_of_length (h : elements.length = operations) : trailing elements operations = .ok [] := by
  rw [trailing, List.drop_eq_nil_of_le (Nat.le_of_eq h)]
  exact if_pos h

theorem trailing_concat (before : List Json) (last : Json) (h : before.length = operations) :
    (trailing (before ++ [last]) operations).toOption = (RemoteError.ofElement? last).map ([·]) := by
  rw [trailing, List.drop_left' h]
  dsimp only
  cases read : Outcome.ofJson last with
  | error cause =>
    cases reported : RemoteError.ofElement? last with
    | none => rfl
    | some e => cases read.symm.trans (Outcome.ofJson_eq_ok.mpr (.failure reported))
  | ok o =>
    rw [← (Outcome.ofJson_eq_ok.mp read).error?_eq]
    cases o <;> rfl

/-- Behind the elements of the operations comes nothing, or one error. -/
theorem trailing_eq_ok : trailing elements operations = .ok errors ↔
    elements.length = operations ∧ errors = [] ∨ ∃ before last e, elements = before ++ [last] ∧
      before.length = operations ∧ RemoteError.ofElement? last = some e ∧ errors = [e] := by
  constructor
  · intro h
    have split : elements.take operations ++ elements.drop operations = elements := List.take_append_drop ..
    match rest : elements.drop operations with
    | [] =>
      rw [trailing, rest] at h
      dsimp only at h
      split_ifs at h with length
      exact .inl ⟨length, (Except.ok.inj h).symm⟩
    | [last] =>
      have more : (elements.drop operations).length = 1 := by rw [rest]; rfl
      have size : (elements.take operations).length = operations := by
        rw [List.length_drop] at more
        rw [List.length_take]
        omega
      rw [rest] at split
      rw [← split, ← toOption_eq_some, trailing_concat _ last size] at h
      obtain ⟨e, reported, rfl⟩ := Option.map_eq_some_iff.mp h
      exact .inr ⟨_, last, e, split.symm, size, reported, rfl⟩
    | _ :: _ :: _ =>
      rw [trailing, rest] at h
      cases h
  · rintro (⟨length, rfl⟩ | ⟨before, last, e, rfl, size, reported, rfl⟩)
    · exact trailing_of_length length
    · rw [← toOption_eq_some, trailing_concat before last size, reported]
      rfl

theorem trailing_eq_error (h : trailing elements operations = .error cause) : ∃ v, cause = .protocol v := by
  rw [trailing] at h
  split at h
  · split_ifs at h
    exact ⟨_, (Except.error.inj h).symm⟩
  · next last _ =>
    cases read : Outcome.ofJson last with
    | error _ =>
      rw [read] at h
      cases h
      exact Outcome.ofJson_eq_error read
    | ok o => cases o <;> (rw [read] at h; cases h) <;> exact ⟨_, rfl⟩
  · exact ⟨_, (Except.error.inj h).symm⟩

theorem outcomes_eq_ok {js : List Json} :
    js.mapM Outcome.ofJson = .ok outcomes ↔ List.Forall₂ Outcome.Means js outcomes := by
  simp only [mapM_eq_ok, Outcome.ofJson_eq_ok]

/-- The elements of the operations are decoded first, then what is behind them. -/
theorem ofReply_arr_eq_ok : ofReply (.arr elements) operations = .ok r ↔
    List.Forall₂ Outcome.Means (elements.take operations) r.outcomes ∧
    ∃ rest, trailing elements operations = .ok rest ∧ r.errors = r.outcomes.filterMap Outcome.error? ++ rest := by
  obtain ⟨outcomes, errors⟩ := r
  rw [ofReply, ← outcomes_eq_ok]
  cases (elements.take operations).mapM Outcome.ofJson with
  | error cause => simp [bind, Except.bind]
  | ok os =>
    cases trailing elements operations with
    | error cause => simp [bind, Except.bind]
    | ok rest =>
      simp only [bind, Except.bind, pure, Except.pure, Except.ok.injEq, mk.injEq, exists_eq_left']
      constructor
      · rintro ⟨rfl, rfl⟩
        exact ⟨rfl, rfl⟩
      · rintro ⟨rfl, rfl⟩
        exact ⟨rfl, rfl⟩

theorem ofReply_eq_error (h : ofReply reply operations = .error cause) : ∃ v, cause = .protocol v := by
  cases reply with
  | arr elements =>
    rw [ofReply] at h
    cases read : (elements.take operations).mapM Outcome.ofJson with
    | error e =>
      rw [read] at h
      cases h
      obtain ⟨before, j, after, -, -, failed⟩ := mapM_eq_error.mp read
      exact Outcome.ofJson_eq_error failed
    | ok outcomes =>
      cases behind : trailing elements operations with
      | error e =>
        rw [read, behind] at h
        cases h
        exact trailing_eq_error behind
      | ok rest => rw [read, behind] at h; cases h
  | _ => exact ⟨_, (Except.error.inj h).symm⟩

/-- The errors of the outcomes are those that the elements report. -/
theorem errors_of_means {js : List Json} (h : List.Forall₂ Outcome.Means js outcomes) :
    outcomes.filterMap Outcome.error? = js.filterMap RemoteError.ofElement? := by
  induction h with
  | nil => rfl
  | cons first _ ih => rw [List.filterMap_cons, List.filterMap_cons, first.error?_eq, ih]

/-- Whether a reply is accepted can be told from its elements alone. -/
theorem ofReply_exists : (∃ r, ofReply reply operations = .ok r) ↔
    ∃ elements, reply = .arr elements ∧ Answers elements operations := by
  constructor
  · rintro ⟨r, h⟩
    cases reply with
    | arr elements =>
      obtain ⟨means, rest, behind, -⟩ := ofReply_arr_eq_ok.mp h
      refine ⟨elements, rfl, ?_, forall_of_forall₂ means fun o _ j read => Outcome.exists_means.mp ⟨o, read⟩⟩
      obtain ⟨length, -⟩ | ⟨before, last, e, split, size, reported, -⟩ := trailing_eq_ok.mp behind
      · exact .inl length
      · exact .inr ⟨before, last, split, size, by rw [reported]; rfl⟩
    | _ => cases h
  · rintro ⟨elements, rfl, length, wellFormed⟩
    obtain ⟨outcomes, means⟩ := exists_forall₂ fun j hj => Outcome.exists_means.mpr (wellFormed j hj)
    obtain ⟨rest, behind⟩ : ∃ rest, trailing elements operations = .ok rest := by
      obtain length | ⟨before, last, split, size, reported⟩ := length
      · exact ⟨[], trailing_of_length length⟩
      · obtain ⟨e, reported⟩ := Option.isSome_iff_exists.mp reported
        exact ⟨[e], trailing_eq_ok.mpr (.inr ⟨before, last, e, split, size, reported, rfl⟩)⟩
    exact ⟨⟨outcomes, outcomes.filterMap Outcome.error? ++ rest⟩, ofReply_arr_eq_ok.mpr ⟨means, rest, behind, rfl⟩⟩

/-- What a reply that is accepted is decoded to: an outcome for each operation, and the errors of all elements. -/
theorem read_of_ofReply (h : ofReply (.arr elements) operations = .ok r) : r.outcomes.length = operations ∧
    List.Forall₂ Outcome.Means (elements.take operations) r.outcomes ∧
    r.errors = elements.filterMap RemoteError.ofElement? := by
  obtain ⟨means, rest, behind, errors⟩ := ofReply_arr_eq_ok.mp h
  rw [errors_of_means means] at errors
  have size := means.length_eq
  obtain ⟨length, rfl⟩ | ⟨before, last, e, rfl, rfl, reported, rfl⟩ := trailing_eq_ok.mp behind
  · have all : elements.take operations = elements := List.take_of_length_le (Nat.le_of_eq length)
    rw [all] at means size errors ⊢
    exact ⟨by omega, means, by rw [errors, List.append_nil]⟩
  · rw [List.take_left] at means size errors ⊢
    exact ⟨size.symm, means, by rw [errors, List.filterMap_append]; simp [reported]⟩

/-- A reply is accepted exactly if its elements answer the operations, and then says of every operation, in their
    order, what its element means. Any other reply breaks the protocol. -/
theorem replies_decoded (reply : Json) (operations : Nat) :
    ((∃ r, ofReply reply operations = .ok r) ↔ ∃ elements, reply = .arr elements ∧ Answers elements operations) ∧
    (∀ r, ofReply reply operations = .ok r → r.outcomes.length = operations ∧ ∃ elements, reply = .arr elements ∧
      List.Forall₂ Outcome.Means (elements.take operations) r.outcomes ∧
      r.errors = elements.filterMap RemoteError.ofElement?) ∧
    ((¬ ∃ r, ofReply reply operations = .ok r) ↔ ∃ v, ofReply reply operations = .error (.protocol v)) := by
  refine ⟨ofReply_exists, fun r h => ?_, ⟨fun refused => ?_, fun ⟨v, refused⟩ ⟨r, accepted⟩ => ?_⟩⟩
  · obtain ⟨elements, rfl, -⟩ := ofReply_exists.mp ⟨r, h⟩
    obtain ⟨length, means, errors⟩ := read_of_ofReply h
    exact ⟨length, elements, rfl, means, errors⟩
  · cases h : ofReply reply operations with
    | ok r => exact absurd ⟨r, h⟩ refused
    | error cause =>
      obtain ⟨v, rfl⟩ := ofReply_eq_error h
      exact ⟨v, rfl⟩
  · cases refused.symm.trans accepted

/-- A transaction whose only operation was executed, but that could not be stored. -/
def unstored : Json :=
  .arr [.obj [("count", .ofUInt64 1)], .obj [("error", .str "I/O error"), ("details", .str "disk full")]]

theorem replies_decoded_unstored : ∃ r, ofReply unstored 1 = .ok r ∧ r.outcomes.length = 1 ∧
    r.errors = [⟨"I/O error", some "disk full"⟩] := by
  have answers : Answers [.obj [("count", .ofUInt64 1)],
      .obj [("error", .str "I/O error"), ("details", .str "disk full")]] 1 :=
    ⟨.inr ⟨[_], _, rfl, rfl, rfl⟩, fun j hj => by cases List.mem_singleton.mp hj; nofun⟩
  obtain ⟨r, read⟩ := (replies_decoded unstored 1).1.mpr ⟨_, rfl, answers⟩
  obtain ⟨length, elements, same, -, errors⟩ := (replies_decoded unstored 1).2.1 r read
  cases same
  exact ⟨r, read, length, errors⟩

/-! ### Success -/

theorem isSuccess_iff : r.isSuccess = true ↔ r.errors = [] := by
  rw [isSuccess, List.isEmpty_iff]

/-- A success has as many elements as there are operations, and no element of it reports an error. -/
theorem elements_of_success (h : ofReply (.arr elements) operations = .ok r) (success : r.isSuccess = true) :
    elements.length = operations ∧ List.Forall₂ Outcome.Means elements r.outcomes ∧
    ∀ j ∈ elements, RemoteError.ofElement? j = none := by
  obtain ⟨length, means, errors⟩ := read_of_ofReply h
  rw [isSuccess_iff.mp success, eq_comm, List.filterMap_eq_nil_iff] at errors
  obtain ⟨-, rest, behind, -⟩ := ofReply_arr_eq_ok.mp h
  obtain ⟨length, -⟩ | ⟨before, last, e, rfl, -, reported, -⟩ := trailing_eq_ok.mp behind
  · rw [List.take_of_length_le (Nat.le_of_eq length)] at means
    exact ⟨length, means, errors⟩
  · rw [errors last (by simp)] at reported
    cases reported

theorem outcomes_of_unreported (h : List.Forall₂ Outcome.Means elements outcomes)
    (unreported : ∀ j ∈ elements, RemoteError.ofElement? j = none) :
    outcomes = elements.map fun j => if j.isNull then .notAttempted else .success j := by
  induction h with
  | nil => rfl
  | cons first _ ih =>
    obtain ⟨here, others⟩ := List.forall_mem_cons.mp unreported
    rw [List.map_cons, ← first.eq_of_unreported here, ih others]

/-- The payloads of a success are the elements that are not null. They are as many as the operations, and all of
    these succeeded, exactly if no element is null. -/
theorem success_complete_iff (h : ofReply reply operations = .ok r) (success : r.isSuccess = true) :
    ∃ elements, reply = .arr elements ∧ elements.length = operations ∧
      r.payloads = .ok (elements.filter (!·.isNull)) ∧
      ((∀ o ∈ r.outcomes, o.isSuccess = true) ↔ ∀ j ∈ elements, j.isNull = false) ∧
      (r.payloads = .ok elements ↔ ∀ j ∈ elements, j.isNull = false) := by
  obtain ⟨elements, rfl, -⟩ := ofReply_exists.mp ⟨r, h⟩
  obtain ⟨length, means, unreported⟩ := elements_of_success h success
  have outcomes := outcomes_of_unreported means unreported
  have payloads : r.payloads = .ok (elements.filter (!·.isNull)) := by
    rw [TransactResult.payloads, isSuccess_iff.mp success, outcomes, List.filterMap_map, ← List.filterMap_eq_filter]
    refine congrArg Except.ok (List.filterMap_congr fun j _ => ?_)
    cases null : j.isNull <;> simp [null, Option.guard, Outcome.payload?]
  refine ⟨elements, rfl, length, payloads, ?_, ?_⟩
  · rw [outcomes, List.forall_mem_map]
    refine forall₂_congr fun j _ => ?_
    cases j.isNull <;> simp [Outcome.isSuccess]
  · rw [payloads, Except.ok.injEq, List.filter_eq_self]
    simp

/-- Two operations that were both executed. -/
theorem success_complete_iff_executed :
    (⟨[.success (.obj [("count", .ofUInt64 1)]), .success (.obj [])], []⟩ : TransactResult).payloads =
      .ok [.obj [("count", .ofUInt64 1)], .obj []] := by
  have read : ofReply (.arr [.obj [("count", .ofUInt64 1)], .obj []]) 2 =
      .ok ⟨[.success (.obj [("count", .ofUInt64 1)]), .success (.obj [])], []⟩ := rfl
  obtain ⟨elements, same, -, -, -, complete⟩ := success_complete_iff read rfl
  cases same
  exact complete.mpr (by simp [Json.isNull])

/-- An operation that was not attempted does not keep a reply from being a success. The payload of the next operation
    is the first then. -/
theorem success_despite_unattempted : ∃ r, ofReply (.arr [.null, .obj [("count", .ofUInt64 1)]]) 2 = .ok r ∧
    r.isSuccess = true ∧ ¬ (∀ o ∈ r.outcomes, o.isSuccess = true) ∧
    r.payloads = .ok [.obj [("count", .ofUInt64 1)]] := by
  refine ⟨⟨[.notAttempted, .success (.obj [("count", .ofUInt64 1)])], []⟩, rfl, rfl, fun all => ?_, rfl⟩
  cases all .notAttempted List.mem_cons_self

end TransactResult
end Ovsdb
