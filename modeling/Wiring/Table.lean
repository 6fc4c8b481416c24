/-! Tables from names to values that remember the order in which names came. -/
namespace Wiring
universe u v

/-- Entries with distinct names, in order of arrival. -/
structure Table (β : Type u) where
  entries : List (String × β)
  nodup : (entries.map Prod.fst).Nodup

namespace Table
variable {β : Type u} {γ : Type v}

def find (name : String) : List (String × β) → Option β
  | [] => none
  | e :: es => if e.1 = name then some e.2 else find name es

def putEntry (name : String) (b : β) : List (String × β) → List (String × β)
  | [] => [(name, b)]
  | e :: es => if e.1 = name then (name, b) :: es else e :: putEntry name b es

theorem map_fst_putEntry (name : String) (b : β) (es : List (String × β)) :
    (putEntry name b es).map Prod.fst =
      if name ∈ es.map Prod.fst then es.map Prod.fst else es.map Prod.fst ++ [name] := by
  induction es with
  | nil => simp [putEntry]
  | cons e es ih =>
    unfold putEntry
    split
    · next h => simp [h]
    · next h =>
      simp only [List.map_cons, ih, List.mem_cons, Ne.symm h, false_or]
      split <;> simp_all

def empty : Table β := ⟨[], by simp⟩
instance : EmptyCollection (Table β) := ⟨empty⟩
instance : Inhabited (Table β) := ⟨empty⟩

def names (t : Table β) : List String := t.entries.map Prod.fst
def size (t : Table β) : Nat := t.entries.length
def get? (t : Table β) (name : String) : Option β := find name t.entries
def contains (t : Table β) (name : String) : Bool := (t.get? name).isSome

/-- A name already there keeps its place and takes the new value; a new name comes last. -/
def set (t : Table β) (name : String) (b : β) : Table β where
  entries := putEntry name b t.entries
  nodup := by
    rw [map_fst_putEntry]
    split
    · exact t.nodup
    · next h =>
      exact List.nodup_append.2 ⟨t.nodup, by simp, fun a ha b hb => by
        rw [List.mem_singleton.1 hb]; exact fun e => h (e ▸ ha)⟩

def erase (t : Table β) (name : String) : Table β where
  entries := t.entries.filter (fun e => e.1 ≠ name)
  nodup := t.nodup.sublist (List.filter_sublist.map _)

def ofList (es : List (String × β)) : Table β :=
  es.foldl (fun t e => t.set e.1 e.2) empty

def map (f : β → γ) (t : Table β) : Table γ where
  entries := t.entries.map (fun e => (e.1, f e.2))
  nodup := by simpa [Function.comp_def] using t.nodup

theorem find_putEntry (name other : String) (b : β) (es : List (String × β)) :
    find other (putEntry name b es) = if other = name then some b else find other es := by
  induction es with
  | nil => simp [putEntry, find, eq_comm]
  | cons e es ih =>
    unfold putEntry
    split
    · next h => by_cases h' : other = name <;> simp_all [find, eq_comm]
    · next h => by_cases h' : other = e.1 <;> simp_all [find, eq_comm]

theorem get?_set (t : Table β) (name other : String) (b : β) :
    (t.set name b).get? other = if other = name then some b else t.get? other :=
  find_putEntry ..

theorem find_filter (name other : String) (es : List (String × β)) :
    find other (es.filter (fun e => e.1 ≠ name)) = if other = name then none else find other es := by
  induction es with
  | nil => simp [find]
  | cons e es ih => by_cases h : e.1 = name <;> by_cases h' : other = e.1 <;> simp_all [find, eq_comm]

theorem get?_erase (t : Table β) (name other : String) :
    (t.erase name).get? other = if other = name then none else t.get? other :=
  find_filter ..

theorem mem_names_of_find {name : String} {b : β} {es : List (String × β)}
    (h : find name es = some b) : name ∈ es.map Prod.fst := by
  induction es with
  | nil => simp [find] at h
  | cons e es ih =>
    unfold find at h
    split at h
    · next he => simp [he]
    · exact List.mem_cons_of_mem _ (ih h)

theorem mem_names_of_get? {t : Table β} {name : String} {b : β} (h : t.get? name = some b) :
    name ∈ t.names :=
  mem_names_of_find h

theorem names_set (t : Table β) (name : String) (b : β) :
    (t.set name b).names = if name ∈ t.names then t.names else t.names ++ [name] :=
  map_fst_putEntry ..

theorem names_erase (t : Table β) (name : String) :
    (t.erase name).names = t.names.filter (· ≠ name) := by
  simp [names, erase, List.filter_map, Function.comp_def]

end Table
end Wiring
