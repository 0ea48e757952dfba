import Ovsdb.Proofs.Json.Alike
import Ovsdb.Proofs.Json.ReadBack

/-! The values that a JSON value is built of, and how deep they are nested. A value is legible if it is not nested too
    deep, the objects in it have distinct names and the doubles in it come back from their digits. -/

namespace Ovsdb.Json

mutual

/-- So many arrays and objects there are around the innermost value. -/
def depth : Json → Nat
  | .arr items => itemsDepth items + 1
  | .obj members => membersDepth members + 1
  | _ => 0

/-- How deep the deepest item of an array is. -/
def itemsDepth : List Json → Nat
  | [] => 0
  | j :: rest => max j.depth (itemsDepth rest)

/-- How deep the deepest member of an object is. -/
def membersDepth : List (String × Json) → Nat
  | [] => 0
  | (_, j) :: rest => max j.depth (membersDepth rest)

end

mutual

/-- What a value is built of, the value itself first. -/
def parts : Json → List Json
  | .arr items => .arr items :: itemsParts items
  | .obj members => .obj members :: membersParts members
  | j => [j]

/-- What stands inside the items of an array, themselves included. -/
def itemsParts : List Json → List Json
  | [] => []
  | j :: rest => j.parts ++ itemsParts rest

/-- What stands inside the members of an object, themselves included. -/
def membersParts : List (String × Json) → List Json
  | [] => []
  | (_, j) :: rest => j.parts ++ membersParts rest

end

/-- No object in a value has two members of one name. -/
def Distinct (j : Json) : Prop :=
  ∀ members, .obj members ∈ j.parts → (members.map Prod.fst).Nodup

variable {d : Nat} {i j : Json} {items : List Json} {members : List (String × Json)} {m : String × Json}

theorem membersDepth_eq (members : List (String × Json)) :
    membersDepth members = itemsDepth (members.map Prod.snd) := by
  induction members with
  | nil => rfl
  | cons m rest ih => rw [membersDepth, ih, List.map_cons, itemsDepth]

theorem membersParts_eq (members : List (String × Json)) :
    membersParts members = itemsParts (members.map Prod.snd) := by
  induction members with
  | nil => rfl
  | cons m rest ih => rw [membersParts, ih, List.map_cons, itemsParts]

theorem depth_le_itemsDepth (mem : j ∈ items) : j.depth ≤ itemsDepth items := by
  induction items with
  | nil => cases mem
  | cons i rest ih =>
    rw [itemsDepth]
    rcases List.mem_cons.mp mem with rfl | mem
    · exact Nat.le_max_left _ _
    · exact (ih mem).trans (Nat.le_max_right _ _)

theorem depth_le_membersDepth (mem : m ∈ members) : m.2.depth ≤ membersDepth members :=
  membersDepth_eq members ▸ depth_le_itemsDepth (List.mem_map_of_mem mem)

theorem mem_itemsParts (mem : j ∈ items) (part : i ∈ j.parts) : i ∈ itemsParts items := by
  induction items with
  | nil => cases mem
  | cons k rest ih =>
    rw [itemsParts]
    rcases List.mem_cons.mp mem with rfl | mem
    · exact List.mem_append_left _ part
    · exact List.mem_append_right _ (ih mem)

theorem exists_of_mem_itemsParts (part : i ∈ itemsParts items) : ∃ j ∈ items, i ∈ j.parts := by
  induction items with
  | nil => cases part
  | cons j rest ih =>
    rw [itemsParts] at part
    rcases List.mem_append.mp part with part | part
    · exact ⟨j, List.mem_cons_self, part⟩
    · obtain ⟨k, mem, part⟩ := ih part
      exact ⟨k, List.mem_cons_of_mem _ mem, part⟩

theorem mem_parts_arr (mem : j ∈ items) (part : i ∈ j.parts) : i ∈ (Json.arr items).parts := by
  rw [parts]
  exact List.mem_cons_of_mem _ (mem_itemsParts mem part)

theorem mem_parts_obj (mem : m ∈ members) (part : i ∈ m.2.parts) : i ∈ (Json.obj members).parts := by
  rw [parts, membersParts_eq]
  exact List.mem_cons_of_mem _ (mem_itemsParts (List.mem_map_of_mem mem) part)

theorem Distinct.item (h : Distinct (.arr items)) (mem : j ∈ items) : j.Distinct :=
  fun members part => h members (mem_parts_arr mem part)

theorem Distinct.member (h : Distinct (.obj members)) (mem : m ∈ members) : m.2.Distinct :=
  fun members part => h members (mem_parts_obj mem part)

theorem Distinct.names (h : Distinct (.obj members)) : (members.map Prod.fst).Nodup :=
  h members (by simp [parts])

theorem distinct_arr : Distinct (.arr items) ↔ ∀ j ∈ items, j.Distinct := by
  refine ⟨fun h j mem => h.item mem, fun h members part => ?_⟩
  rw [parts, List.mem_cons] at part
  rcases part with same | part
  · cases same
  · obtain ⟨j, mem, part⟩ := exists_of_mem_itemsParts part
    exact h j mem members part

theorem distinct_obj :
    Distinct (.obj members) ↔ (members.map Prod.fst).Nodup ∧ ∀ m ∈ members, m.2.Distinct := by
  refine ⟨fun h => ⟨h.names, fun m mem => h.member mem⟩, fun ⟨names, h⟩ members' part => ?_⟩
  rw [parts, List.mem_cons, membersParts_eq] at part
  rcases part with same | part
  · cases same
    exact names
  · obtain ⟨j, mem, part⟩ := exists_of_mem_itemsParts part
    obtain ⟨m, there, rfl⟩ := List.mem_map.mp mem
    exact h m there members' part

/-- What makes a value legible, said of all that it is built of at once. -/
theorem legible (shallow : j.depth ≤ d) (distinct : j.Distinct)
    (restorable : ∀ x finite, .float x finite ∈ j.parts →
      read (Json.float x finite).bytes = some (.float x finite)) : Legible d j := by
  induction j using induct generalizing d with
  | null => exact .null
  | bool b => exact .bool b
  | int n => exact .int n
  | float x finite => exact .float (restorable x finite (by simp [parts]))
  | str s => exact .str s
  | arr items ih =>
    rw [depth] at shallow
    obtain ⟨d, rfl⟩ := Nat.exists_eq_add_of_le' (Nat.le_of_add_left_le shallow)
    refine .arr fun j mem => ih j mem ?_ (distinct.item mem) fun x finite part =>
      restorable x finite (mem_parts_arr mem part)
    exact (depth_le_itemsDepth mem).trans (Nat.le_of_add_le_add_right shallow)
  | obj members ih =>
    rw [depth] at shallow
    obtain ⟨d, rfl⟩ := Nat.exists_eq_add_of_le' (Nat.le_of_add_left_le shallow)
    refine .obj distinct.names fun m mem => ih m mem ?_ (distinct.member mem) fun x finite part =>
      restorable x finite (mem_parts_obj mem part)
    exact (depth_le_membersDepth mem).trans (Nat.le_of_add_le_add_right shallow)

end Ovsdb.Json
