/-! Finite maps with keys that have a name, kept in the order of the names. There is one list of entries for each
    such map, so two maps with the same entries are equal. -/

namespace Ovsdb

/-- Keys are told apart, and ordered, by their names. -/
class Named (κ : Type) where
  nameOf : κ → String
  nameOf_inj : ∀ {a b : κ}, nameOf a = nameOf b → a = b

export Named (nameOf)

instance : Named String := ⟨id, id⟩

/-- Entries are in strictly increasing order of the keys' names, so no key occurs twice. -/
structure Dict (κ α : Type) [Named κ] where
  entries : List (κ × α)
  sorted : entries.Pairwise fun a b => nameOf a.1 < nameOf b.1

namespace Dict
variable {κ α : Type} [Named κ]

/-- Puts an entry where it belongs in the order; it replaces one with the same key. -/
def insertEntry (key : κ) (value : α) : List (κ × α) → List (κ × α)
  | [] => [(key, value)]
  | (k, v) :: rest =>
    if nameOf key < nameOf k then (key, value) :: (k, v) :: rest
    else if nameOf k < nameOf key then (k, v) :: insertEntry key value rest
    else (key, value) :: rest

theorem mem_insertEntry {key : κ} {value : α} {entries : List (κ × α)} {e : κ × α}
    (h : e ∈ insertEntry key value entries) : e = (key, value) ∨ e ∈ entries := by
  induction entries with
  | nil => simpa [insertEntry] using h
  | cons x rest ih =>
    obtain ⟨k, v⟩ := x
    simp only [insertEntry] at h
    split at h
    · simpa using h
    · split at h
      · rcases List.mem_cons.mp h with h | h
        · exact Or.inr (h ▸ List.mem_cons_self)
        · exact (ih h).imp id (List.mem_cons_of_mem _)
      · exact (List.mem_cons.mp h).imp id (List.mem_cons_of_mem _)

theorem pairwise_insertEntry (key : κ) (value : α) {entries : List (κ × α)}
    (h : entries.Pairwise fun a b => nameOf a.1 < nameOf b.1) :
    (insertEntry key value entries).Pairwise fun a b => nameOf a.1 < nameOf b.1 := by
  induction entries with
  | nil => simp [insertEntry]
  | cons x rest ih =>
    obtain ⟨k, v⟩ := x
    have hk := (List.pairwise_cons.mp h).1
    simp only [insertEntry]
    split
    · rename_i lt
      refine List.pairwise_cons.mpr ⟨fun e he => ?_, h⟩
      rcases List.mem_cons.mp he with rfl | he
      · exact lt
      · exact String.lt_trans lt (hk e he)
    · split
      · rename_i lt
        refine List.pairwise_cons.mpr ⟨fun e he => ?_, ih (List.pairwise_cons.mp h).2⟩
        rcases mem_insertEntry he with rfl | he
        · exact lt
        · exact hk e he
      · rename_i ge le
        have same : nameOf key = nameOf k := String.le_antisymm (String.not_lt.mp le) (String.not_lt.mp ge)
        refine List.pairwise_cons.mpr ⟨fun e he => ?_, (List.pairwise_cons.mp h).2⟩
        rw [same]
        exact hk e he

def empty : Dict κ α := ⟨[], .nil⟩

instance : Inhabited (Dict κ α) := ⟨empty⟩

/-- Puts an entry in, in place of one with the same name. -/
def insert (d : Dict κ α) (key : κ) (value : α) : Dict κ α :=
  ⟨insertEntry key value d.entries, pairwise_insertEntry key value d.sorted⟩

/-- The map with the given entries; of two with the same key the later one stays. -/
def ofList (entries : List (κ × α)) : Dict κ α :=
  entries.foldl (fun d e => d.insert e.1 e.2) empty

/-- The entry with a name, if there is one. -/
def find? (d : Dict κ α) (key : String) : Option α :=
  (d.entries.find? fun e => nameOf e.1 == key).map (·.2)

def size (d : Dict κ α) : Nat := d.entries.length

def isEmpty (d : Dict κ α) : Bool := d.entries.isEmpty

end Dict
end Ovsdb
