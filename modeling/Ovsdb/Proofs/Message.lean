import Ovsdb.Message
import Ovsdb.Notification
import Ovsdb.Proofs.Json.Decode

/-! What the messages of a server mean to a client, read off their members: whether a message is a request or a
    response, what is reported of one that is neither, which reply is owed for a request, and which notification it
    brings. -/

namespace Ovsdb

/-! ### Requests and responses -/

/-- The request that a message is: an object with a method that is a string. The other members may be absent. -/
def Request.ofMessage? (m : Json) : Option Request :=
  match m.member? "method" with
  | some (.str method) => some ⟨method, (m.member? "params").getD .null, (m.member? "id").getD .null⟩
  | _ => none

/-- The response that a message is: an object with an id and a result or an error, but without a method. -/
def Response.ofMessage? (m : Json) : Option Response :=
  if (m.member? "method").isNone && ((m.member? "result").isSome || (m.member? "error").isSome) then
    (m.member? "id").map fun id => ⟨(m.member? "result").getD .null, (m.member? "error").getD .null, id⟩
  else none

variable {m : Json} {ms : List (String × Json)} {q : Request} {r : Response} {n : Notification}
  {v : Violation} {e : Error}

theorem Request.ofMessage?_eq_some : ofMessage? m = some q ↔ ∃ members, m = .obj members ∧
    members.lookup "method" = some (.str q.method) ∧ q.params = (members.lookup "params").getD .null ∧
    q.id = (members.lookup "id").getD .null := by
  obtain ⟨method, params, id⟩ := q
  cases m with
  | obj members =>
    rw [ofMessage?, Json.member?]
    split
    case h_1 name there => simp [there, Json.member?, eq_comm]
    case h_2 other => simpa using fun there => absurd there (other _)
  | _ => simp [ofMessage?, Json.member?]

theorem Response.ofMessage?_eq_some : ofMessage? m = some r ↔ ∃ members, m = .obj members ∧
    members.lookup "method" = none ∧ ((members.lookup "result").isSome ∨ (members.lookup "error").isSome) ∧
    members.lookup "id" = some r.id ∧ r.result = (members.lookup "result").getD .null ∧
    r.error = (members.lookup "error").getD .null := by
  obtain ⟨result, error, id⟩ := r
  cases m with
  | obj members =>
    simp only [ofMessage?, Json.member?, Option.ite_none_right_eq_some, Option.map_eq_some_iff, Bool.and_eq_true,
      Bool.or_eq_true, Option.isNone_iff_eq_none, mk.injEq, Json.obj.injEq, exists_eq_left', and_assoc]
    refine and_congr_right fun _ => and_congr_right fun _ => ?_
    constructor
    · rintro ⟨id, there, rfl, rfl, rfl⟩
      exact ⟨there, rfl, rfl⟩
    · rintro ⟨there, rfl, rfl⟩
      exact ⟨id, there, rfl, rfl, rfl⟩
  | _ => simp [ofMessage?, Json.member?]

theorem toOption_mapError {ε ε' α : Type} (x : Except ε α) (f : ε → ε') : (x.mapError f).toOption = x.toOption := by
  cases x <;> rfl

theorem toOption_map {ε α β : Type} (x : Except ε α) (f : α → β) : (f <$> x).toOption = x.toOption.map f := by
  cases x <;> rfl

theorem toOption_eq_some {ε α : Type} {x : Except ε α} {a : α} : x.toOption = some a ↔ x = .ok a := by
  cases x <;> simp [Except.toOption]

theorem Request.decode_obj (ms : List (String × Json)) : (decode (.obj ms)).toOption = ofMessage? (.obj ms) := by
  simp only [decode, Record.decode, record, Record.withDefault, Record.required, Record.field, Record.of,
    Record.members, ofMessage?, Json.member?]
  cases ms.lookup "method" with
  | none => rfl
  | some method =>
    cases method with
    | str s => cases ms.lookup "params" <;> cases ms.lookup "id" <;> rfl
    | _ => rfl

theorem Response.decode_obj (ms : List (String × Json)) : (decode (.obj ms)).toOption =
    (Json.member? "id" (.obj ms)).map fun id =>
      ⟨(Json.member? "result" (.obj ms)).getD .null, (Json.member? "error" (.obj ms)).getD .null, id⟩ := by
  simp only [decode, Record.decode, record, Record.withDefault, Record.required, Record.field, Record.of,
    Record.members, Json.member?]
  cases ms.lookup "result" <;> cases ms.lookup "error" <;> cases ms.lookup "id" <;> rfl

/-- Messages are told apart by their members. -/
theorem Message.toOption_ofJson (m : Json) : (ofJson m).toOption =
    ((Request.ofMessage? m).map .request).or ((Response.ofMessage? m).map .response) := by
  cases m with
  | obj ms =>
    simp only [ofJson, apply_ite Except.toOption, toOption_mapError, toOption_map, Request.decode_obj,
      Response.decode_obj, Response.ofMessage?, Request.ofMessage?]
    generalize Json.member? "method" (.obj ms) = method
    cases method with
    | some j => cases j <;> rfl
    | none => cases Json.member? "result" (.obj ms) <;> cases Json.member? "error" (.obj ms) <;> rfl
  | null | bool _ | int _ | float _ _ | str _ | arr _ => rfl

/-- No message is both a request and a response. -/
theorem Response.ofMessage?_of_request (h : Request.ofMessage? m = some q) : ofMessage? m = none := by
  rw [Request.ofMessage?] at h
  split at h
  case h_1 method there => simp [ofMessage?, there]
  case h_2 => cases h

namespace Message

theorem ofJson_eq_request : ofJson m = .ok (.request q) ↔ Request.ofMessage? m = some q := by
  rw [← toOption_eq_some, toOption_ofJson]
  cases Request.ofMessage? m <;> cases Response.ofMessage? m <;> simp

theorem ofJson_eq_response : ofJson m = .ok (.response r) ↔ Response.ofMessage? m = some r := by
  rw [← toOption_eq_some, toOption_ofJson]
  cases hq : Request.ofMessage? m with
  | none => cases Response.ofMessage? m <;> simp
  | some q => simp [Response.ofMessage?_of_request hq]

theorem ofJson_eq_error (h : ofJson m = .error e) :
    Request.ofMessage? m = none ∧ Response.ofMessage? m = none := by
  have told := toOption_ofJson m
  rw [h] at told
  cases hq : Request.ofMessage? m <;> cases hr : Response.ofMessage? m <;> simp_all [Except.toOption]

end Message

@[simp]
theorem Request.ofMessage?_toJson (q : Request) : ofMessage? q.toJson = some q := by
  simp [ofMessage?, toJson]

@[simp]
theorem Response.ofMessage?_toJson (r : Response) : ofMessage? r.toJson = some r := by
  simp [ofMessage?, toJson]

/-! ### Other messages -/

theorem Request.fault_eq_none {name : String} (h : name ≠ "method") (j : Json) : record.fault name j = none := by
  simp only [record, Record.withDefault, Record.required, Record.field, Record.of, Decoder.json, if_neg h, ite_self]

/-- Any value may stand for the parameters or the id, so it is the method that is reported. -/
theorem Request.decode_of_method {j : Json} (there : ms.lookup "method" = some j) (other : ∀ s, j ≠ .str s) :
    decode (.obj ms) = .error (.kind j "a string") := by
  have refused : Decoder.string j = .error (.kind j "a string") := by
    cases j with
    | str s => exact absurd rfl (other s)
    | _ => rfl
  have built : record.build (Record.members ms) = .error (.kind j "a string") := by
    simp only [record, Record.withDefault, Record.required, Record.field, Record.of, Record.members, there, refused]
    rfl
  have fault : record.fault "method" j = some (.kind j "a string") := by
    simp only [record, Record.withDefault, Record.required, Record.field, refused]
    rfl
  have first : ms.findSome? (fun e => record.fault e.1 e.2) = some (.kind j "a string") := by
    obtain ⟨before, after, rfl, earlier⟩ := List.lookup_eq_some_iff.mp there
    have unfaulted : before.findSome? (fun e => record.fault e.1 e.2) = none :=
      List.findSome?_eq_none_iff.mpr fun e mem => fault_eq_none (fun same => by simpa [same] using earlier e mem) e.2
    rw [List.findSome?_append, unfaulted, Option.none_or, List.findSome?_cons, fault]
  rw [decode, Record.decode, built]
  simp only [first, Option.getD_some]

/-- Any value may stand for any member of a response, so only a missing id is reported. -/
theorem Response.decode_of_missing (missing : ms.lookup "id" = none) :
    decode (.obj ms) = .error (.missingField "id") := by
  have built : record.build (Record.members ms) = .error (.missingField "id") := by
    simp only [record, Record.withDefault, Record.required, Record.field, Record.of, Record.members, missing]
    cases ms.lookup "result" <;> cases ms.lookup "error" <;> rfl
  have unfaulted : ms.findSome? (fun e => record.fault e.1 e.2) = none := by
    refine List.findSome?_eq_none_iff.mpr fun e _ => ?_
    simp only [record, Record.withDefault, Record.required, Record.field, Record.of, Decoder.json, ite_self]
  rw [decode, Record.decode, built]
  simp only [unfaulted, Option.getD_none]

namespace Message

/-- What is reported of a message that is neither a request nor a response. A method goes before a result or an error,
    whatever its value is. -/
inductive Refused : Json → Violation → Prop where
  | notObject {m : Json} (other : ∀ members, m ≠ .obj members) : Refused m (.notObject m)
  | method {members : List (String × Json)} {j : Json} (there : members.lookup "method" = some j)
    (other : ∀ s, j ≠ .str s) : Refused (.obj members) (.invalidRequest (.kind j "a string"))
  | id {members : List (String × Json)} (method : members.lookup "method" = none)
    (answers : (members.lookup "result").isSome ∨ (members.lookup "error").isSome)
    (missing : members.lookup "id" = none) : Refused (.obj members) (.invalidResponse (.missingField "id"))
  | unrecognized {members : List (String × Json)} (method : members.lookup "method" = none)
    (silent : ¬((members.lookup "result").isSome ∨ (members.lookup "error").isSome)) :
    Refused (.obj members) (.unrecognized (.obj members))

theorem Refused.ofJson_eq (h : Refused m v) : ofJson m = .error (.protocol v) := by
  cases h with
  | notObject other =>
    cases m with
    | obj members => exact absurd rfl (other members)
    | _ => rfl
  | method there other =>
    simp only [ofJson, Json.member?, there, Option.isSome_some, if_true, Request.decode_of_method there other]
    rfl
  | id method answers missing =>
    simp only [ofJson, Json.member?, method, Option.isSome_none, Bool.false_eq_true, if_false, if_pos answers,
      Response.decode_of_missing missing]
    rfl
  | unrecognized method silent =>
    simp only [ofJson, Json.member?, method, Option.isSome_none, Bool.false_eq_true, if_false]
    exact if_neg silent

/-- There is always something to report of a message that is not understood. -/
theorem Refused.of_neither (request : Request.ofMessage? m = none) (response : Response.ofMessage? m = none) :
    ∃ v, Refused m v := by
  cases m with
  | obj members =>
    cases method : members.lookup "method" with
    | some j =>
      refine ⟨_, .method method ?_⟩
      rintro s rfl
      have asked : Request.ofMessage? (.obj members) = some ⟨s, _, _⟩ :=
        Request.ofMessage?_eq_some.mpr ⟨members, rfl, method, rfl, rfl⟩
      cases request.symm.trans asked
    | none =>
      by_cases answers : (members.lookup "result").isSome ∨ (members.lookup "error").isSome
      case neg => exact ⟨_, .unrecognized method answers⟩
      cases id : members.lookup "id" with
      | none => exact ⟨_, .id method answers id⟩
      | some j =>
        have answered : Response.ofMessage? (.obj members) = some ⟨_, _, j⟩ :=
          Response.ofMessage?_eq_some.mpr ⟨members, rfl, method, answers, id, rfl, rfl⟩
        cases response.symm.trans answered
  | _ => exact ⟨_, .notObject nofun⟩

theorem ofJson_eq_error_iff : ofJson m = .error e ↔ ∃ v, Refused m v ∧ e = .protocol v := by
  constructor
  · intro h
    obtain ⟨request, response⟩ := ofJson_eq_error h
    obtain ⟨v, refused⟩ := Refused.of_neither request response
    exact ⟨v, refused, Except.error.inj (h.symm.trans refused.ofJson_eq)⟩
  · rintro ⟨v, refused, rfl⟩
    exact refused.ofJson_eq

/-- A message is a request if it is an object with a method that is a string, and a response if it is an object
    without a method, but with a result or an error and with an id; other members are ignored. Every other message is
    an error of the protocol. What is written of a request or a response is read as that. -/
theorem told_apart :
    (∀ m q, ofJson m = .ok (.request q) ↔ ∃ members, m = .obj members ∧
      members.lookup "method" = some (.str q.method) ∧ q.params = (members.lookup "params").getD .null ∧
      q.id = (members.lookup "id").getD .null) ∧
    (∀ m r, ofJson m = .ok (.response r) ↔ ∃ members, m = .obj members ∧
      members.lookup "method" = none ∧ ((members.lookup "result").isSome ∨ (members.lookup "error").isSome) ∧
      members.lookup "id" = some r.id ∧ r.result = (members.lookup "result").getD .null ∧
      r.error = (members.lookup "error").getD .null) ∧
    (∀ m e, ofJson m = .error e ↔ ∃ v, Refused m v ∧ e = .protocol v) ∧
    (∀ q : Request, ofJson q.toJson = .ok (.request q)) ∧
    ∀ r : Response, ofJson r.toJson = .ok (.response r) :=
  ⟨fun _ _ => ofJson_eq_request.trans Request.ofMessage?_eq_some,
    fun _ _ => ofJson_eq_response.trans Response.ofMessage?_eq_some, fun _ _ => ofJson_eq_error_iff,
    fun q => ofJson_eq_request.mpr q.ofMessage?_toJson, fun r => ofJson_eq_response.mpr r.ofMessage?_toJson⟩

end Message

/-! ### What is owed and told -/

namespace Request

/-- Whether a method tells something that needs no reply. -/
def tells (q : Request) : Bool :=
  q.method = "update" || q.method = "locked" || q.method = "stolen"

/-- The reply that is owed for a request: an echo of its parameters, or an error if the method is unknown. None is
    owed without an id, nor for what the server tells. -/
def reply? (q : Request) : Option Response :=
  if q.id.isNull || q.tells then none
  else if q.method = "echo" then some (.success q.id q.params)
  else some (.failure q.id ("unknown method: " ++ q.method))

theorem reply?_of_tells (h : q.tells = true) : q.reply? = none := by
  rw [reply?, h, Bool.or_true]
  rfl

theorem reply?_of_echo (h : q.method = "echo") :
    q.reply? = if q.isNotification then none else some (.success q.id q.params) := by
  cases null : q.id.isNull <;> simp [reply?, tells, h, isNotification, null]

theorem reply?_of_unknown (told : q.tells = false) (echo : q.method ≠ "echo") :
    q.reply? = if q.isNotification then none else some (.failure q.id ("unknown method: " ++ q.method)) := by
  cases null : q.id.isNull <;> simp [reply?, told, echo, isNotification, null]

/-- The lock that is named by parameters. -/
def lock? : Json → Option Id
  | .arr [.str lock] => (Id.ofString lock).toOption
  | _ => none

/-- The tables' changes, with the monitor they are for, that are given by parameters. -/
def updates? : Json → Option Notification
  | .arr [value, updates] => (TableUpdates.decode updates).toOption.map (.update value)
  | _ => none

/-- The notification that a request brings, if its parameters are those of its method. -/
def notification? (q : Request) : Option Notification :=
  if q.method = "update" then updates? q.params
  else if q.method = "locked" then (lock? q.params).map .locked
  else if q.method = "stolen" then (lock? q.params).map .stolen
  else none

theorem notification?_of_not_tells (h : q.tells = false) : q.notification? = none := by
  simp only [tells, Bool.or_eq_false_iff, decide_eq_false_iff_not] at h
  rw [notification?, if_neg h.1.1, if_neg h.1.2, if_neg h.2]

end Request

/-- The reply that is owed for a message. -/
def Response.owed? (m : Json) : Option Response :=
  (Request.ofMessage? m).bind Request.reply?

/-- The notification that a message brings. -/
def Notification.ofMessage? (m : Json) : Option Notification :=
  (Request.ofMessage? m).bind Request.notification?

namespace Notification

theorem toOption_lockOf (method : String) (params : Json) :
    (lockOf method (params.items?.getD [])).toOption = Request.lock? params := by
  match params with
  | .arr [.str lock] => exact toOption_mapError _ _
  | .arr [] => rfl
  | .arr (first :: second :: rest) => cases first <;> rfl
  | .arr [.null] | .arr [.bool _] | .arr [.int _] | .arr [.float _ _] | .arr [.arr _] | .arr [.obj _] => rfl
  | .null | .bool _ | .int _ | .float _ _ | .str _ | .obj _ => rfl

theorem toOption_updates (params : Json) :
    (ofMethod "update" params).toOption = (Request.updates? params).map some := by
  match params with
  | .arr [value, updates] =>
    simp only [ofMethod, Json.items?, Option.getD_some, Request.updates?, if_true]
    cases TableUpdates.decode updates <;> rfl
  | .arr [] | .arr [_] | .arr (_ :: _ :: _ :: _) => rfl
  | .null | .bool _ | .int _ | .float _ _ | .str _ | .obj _ => rfl

theorem toOption_ofMethod (told : q.tells = true) :
    (ofMethod q.method q.params).toOption = q.notification?.map some := by
  rw [Request.notification?]
  by_cases update : q.method = "update"
  · simp [update, toOption_updates]
  by_cases locked : q.method = "locked"
  · simp [locked, ofMethod, toOption_map, toOption_lockOf, Function.comp_def]
  by_cases stolen : q.method = "stolen"
  · simp [stolen, ofMethod, toOption_map, toOption_lockOf, Function.comp_def]
  · simp [Request.tells, update, locked, stolen] at told

/-- Other methods are left alone. -/
theorem ofMethod_of_not_tells (told : q.tells = false) : ofMethod q.method q.params = .ok none := by
  simp only [Request.tells, Bool.or_eq_false_iff, decide_eq_false_iff_not] at told
  rw [ofMethod, if_neg told.1.1, if_neg told.1.2, if_neg told.2]

/-- What the server tells is read if its parameters are right. -/
theorem ofMethod_of_some (told : q.tells = true) (read : q.notification? = some n) :
    ofMethod q.method q.params = .ok (some n) := by
  rw [← toOption_eq_some, toOption_ofMethod told, read]
  rfl

theorem ofMethod_of_none (told : q.tells = true) (unread : q.notification? = none) :
    ∃ e, ofMethod q.method q.params = .error e := by
  have nothing := toOption_ofMethod told
  rw [unread] at nothing
  cases h : ofMethod q.method q.params with
  | ok _ => rw [h] at nothing; cases nothing
  | error e => exact ⟨e, rfl⟩

end Notification
end Ovsdb
