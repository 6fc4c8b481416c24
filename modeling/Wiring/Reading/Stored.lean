import Wiring.Load

/-! Documents kept in memory under normalised paths. -/
namespace Wiring

structure StoredDocuments where
  documents : Table Value := ∅

namespace StoredDocuments

def ofList (documents : List (String × Value)) : StoredDocuments :=
  ⟨Table.ofList (documents.map fun e => (Path.normal e.1, e.2))⟩

def read (s : StoredDocuments) (path : String) : Except Failure Value :=
  match s.documents.get? (Path.normal path) with
  | some v => .ok v
  | none => .error (.document (.notStored (Path.normal path)))

def reader (s : StoredDocuments) : Reader where
  read l := s.read l.text
  stored := s.documents.names.filterMap Location.ofText?
  mem_stored := by
    intro l v h
    unfold read at h
    rw [l.isNormal] at h
    split at h
    · next hv =>
      exact List.mem_filterMap.2 ⟨l.text, Table.mem_names_of_get? hv, l.ofText?_text⟩
    · cases h

end StoredDocuments
end Wiring
