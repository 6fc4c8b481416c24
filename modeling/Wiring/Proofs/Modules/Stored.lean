import Mathlib.Data.List.Find
import Wiring.Modules.Host.Local
import Wiring.Proofs.Disk.Places
import Wiring.Proofs.Modules.Memory

/-! Modules in memory beside the same modules in files. A location of one slash is there for both
alike, it is a file where a module is stored, and both find the same file for a specifier. -/
namespace Wiring
open Wiring.Path (Segment)

namespace Location

theorem text_eq_fullPath (l : Location) (h : l.slashes = 1) : l.text = Disk.fullPath l.segments := by
  rw [Disk.fullPath, ← h, l.ofSegments_segments]

theorem exists_absolute (w : Location) (path : String) :
    ∃ l : Location, l.text = Path.absolute w.text path := by
  refine ⟨w.join path, (text_ofBase w.text path w.isAbsolute).trans ?_⟩
  rw [Path.absolute]
  by_cases h : Path.isAbsolute path = true
  · rw [if_pos h, Path.join, if_pos h]
  · rw [if_neg h]

theorem exists_of_rooted {path : String} (hnormal : Path.normal path = path)
    (hrooted : Path.rootSlashes path.toList = 1) : ∃ l : Location, l.text = path ∧ l.slashes = 1 :=
  ⟨⟨path, (Path.isAbsolute_iff path).mpr (by simp [hrooted]), hnormal⟩, rfl, hrooted⟩

end Location

theorem Disk.toList_fullPath (ss : List Segment) :
    (fullPath ss).toList = '/' :: Text.join '/' ss :=
  Path.toList_ofSegments (by simp)

theorem Disk.fullPath_prefix {place rest : List Segment} (hplace : place ≠ []) (hrest : rest ≠ []) :
    (fullPath place ++ "/").toList <+: (fullPath (place ++ rest)).toList := by
  rw [String.toList_append, toList_fullPath, toList_fullPath, Text.join_append '/' hplace hrest]
  exact ⟨Text.join '/' rest, by simp⟩

namespace Modules.Memory
variable {m : Memory} {d : Disk} {w l : Location} {place : List Segment}

/-- The modules as files of a disk: each is a program that offers what the module does. -/
def disk (m : Memory) : Disk where
  files := m.modules.map fun exports => .program { exports }

/-- Modules that can lie on a disk together: each at a place that a disk can have, none at its root
and none below another. -/
structure Storable (m : Memory) : Prop where
  normal : ∀ path ∈ m.modules.names, Path.normal path = path
  rooted : ∀ path ∈ m.modules.names, Path.rootSlashes path.toList = 1
  named : ∀ path ∈ m.modules.names, Disk.isName path = true
  root : "/" ∉ m.modules.names
  apart : ∀ path ∈ m.modules.names, ∀ other ∈ m.modules.names,
    Text.startsWith other (path ++ "/") = false

theorem get?_files_disk (m : Memory) (path : String) :
    m.disk.files.get? path = (m.modules.get? path).map fun exports => .program { exports } :=
  Table.get?_map ..

theorem names_files_disk (m : Memory) : m.disk.files.names = m.modules.names :=
  Table.names_map ..

theorem get?_of_entry?_disk {c : Content} (h : m.disk.entry? place = some (.file c)) :
    ∃ exports, m.modules.get? (Disk.fullPath place) = some exports ∧ c = .program { exports } := by
  rw [Disk.entry?, get?_files_disk] at h
  cases hstored : m.modules.get? (Disk.fullPath place) with
  | some exports =>
    simp only [hstored, Option.map_some, Option.some.injEq, Disk.Entry.file.injEq] at h
    exact ⟨exports, rfl, h.symm⟩
  | none =>
    simp only [hstored, Option.map_none] at h
    split at h
    · cases h
    · cases h

theorem hasDirectory_disk_iff (hplace : place ≠ []) : m.disk.hasDirectory place = true ↔
    ∃ stored ∈ m.modules.names, Text.startsWith stored (Disk.fullPath place ++ "/") = true := by
  rw [Disk.hasDirectory, names_files_disk]
  simp [disk, hplace]

theorem exists_below_of_entry? {rest : List Segment} (hplace : place ≠ []) (hrest : rest ≠ [])
    (h : m.disk.entry? (place ++ rest) ≠ none) :
    ∃ stored ∈ m.modules.names, Text.startsWith stored (Disk.fullPath place ++ "/") = true := by
  have hplaced := Disk.fullPath_prefix hplace hrest
  cases hentry : m.disk.entry? (place ++ rest) with
  | none => exact absurd hentry h
  | some e =>
    cases e with
    | file c =>
      obtain ⟨exports, hstored, -⟩ := get?_of_entry?_disk hentry
      exact ⟨_, Table.mem_names_of_get? hstored, List.isPrefixOf_iff_prefix.mpr hplaced⟩
    | directory =>
      have hdirectory : m.disk.hasDirectory (place ++ rest) = true := by
        rw [Disk.entry?] at hentry
        split at hentry
        · cases hentry
        · split at hentry
          · assumption
          · cases hentry
      obtain ⟨stored, hstored, hbelow⟩ := (hasDirectory_disk_iff (by simp [hplace])).mp hdirectory
      refine ⟨stored, hstored, List.isPrefixOf_iff_prefix.mpr (hplaced.trans ?_)⟩
      have hdown := List.isPrefixOf_iff_prefix.mp hbelow
      rw [String.toList_append] at hdown
      exact (List.prefix_append _ _).trans hdown

theorem Storable.nested (h : m.Storable) : m.disk.Nested := by
  have hroot : m.disk.entry? [] = some .directory := by
    have hnone : m.modules.get? (Disk.fullPath []) = none :=
      Table.find_eq_none h.root
    rw [Disk.entry?, get?_files_disk, hnone]
    rfl
  refine ⟨hroot, fun place rest hrest _ hthere => ?_⟩
  by_cases hplace : place = []
  · rw [hplace]
    exact hroot
  · obtain ⟨stored, hstored, hbelow⟩ := exists_below_of_entry? hplace hrest hthere
    have hnone : m.modules.get? (Disk.fullPath place) = none := by
      refine Table.find_eq_none fun hplaced => ?_
      have hapart := h.apart _ hplaced stored hstored
      rw [hbelow] at hapart
      cases hapart
    rw [Disk.entry?, get?_files_disk, hnone]
    exact if_pos ((hasDirectory_disk_iff hplace).mpr ⟨stored, hstored, hbelow⟩)

variable {p : Host}

end Modules.Memory
end Wiring
