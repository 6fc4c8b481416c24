import Wiring.Modules.Memory
import Wiring.Path.Normal
import Wiring.Proofs.Act
import Wiring.Proofs.Table

/-! Modules in memory: which paths are stored, and what is loaded from them. -/
namespace Wiring.Modules.Memory
variable {m : Memory}

/-- Every module is stored under the normal form of a path. -/
def Tidy (m : Memory) : Prop := ∀ path ∈ m.modules.names, Path.normal path = path

theorem mem_names_add {m : Memory} {path other : String} {exports : Exports} :
    other ∈ (m.add path exports).modules.names ↔
      other ∈ m.modules.names ∨ Path.normal path = other := by
  rw [add, Table.names_set]
  split
  · next h =>
    constructor
    · exact .inl
    · rintro (hother | rfl)
      · exact hother
      · exact h
  · simp [eq_comm]

theorem mem_names_foldl_add {es : List (String × Exports)} {other : String} :
    other ∈ (es.foldl (fun m e => m.add e.1 e.2) m).modules.names ↔
      other ∈ m.modules.names ∨ ∃ e ∈ es, Path.normal e.1 = other := by
  induction es generalizing m with
  | nil => simp
  | cons e es ih =>
    rw [List.foldl_cons, ih, mem_names_add, or_assoc]
    simp

theorem mem_names_ofList {modules : List (String × Exports)} {roots : List String}
    {other : String} :
    other ∈ (ofList modules roots).modules.names ↔ ∃ e ∈ modules, Path.normal e.1 = other := by
  have hempty : other ∉ ({ roots } : Memory).modules.names := List.not_mem_nil
  rw [ofList, mem_names_foldl_add]
  simp [hempty]

theorem tidy_ofList (modules : List (String × Exports)) (roots : List String) :
    (ofList modules roots).Tidy := by
  intro path hpath
  obtain ⟨e, -, rfl⟩ := mem_names_ofList.mp hpath
  exact Path.normal_normal e.1

theorem roots_ofList (modules : List (String × Exports)) (roots : List String) :
    (ofList modules roots).roots = roots := by
  have hfold : ∀ (m : Memory), (modules.foldl (fun m e => m.add e.1 e.2) m).roots = m.roots := by
    induction modules with
    | nil => exact fun _ => rfl
    | cons e es ih => exact fun m => ih (m.add e.1 e.2)
  exact hfold { roots }

theorem present_iff {path : String} : m.present path = true ↔
    Path.normal path ∈ m.modules.names ∨
      ∃ stored ∈ m.modules.names, Text.startsWith stored (Path.normal path ++ "/") = true := by
  rw [present]
  simp only [Bool.or_eq_true, List.any_eq_true, Table.contains_iff_mem_names]

theorem mem_of_storedAt? {location path : String} (h : m.storedAt? location = some path) :
    path ∈ candidates (Path.normal location) suffix ∧ path ∈ m.modules.names :=
  ⟨List.mem_of_find?_eq_some h, Table.contains_iff_mem_names.mp (List.find?_some h)⟩

theorem storedAt?_eq_none_iff {location : String} : m.storedAt? location = none ↔
    ∀ path ∈ candidates (Path.normal location) suffix, path ∉ m.modules.names := by
  rw [storedAt?, List.find?_eq_none]
  simp only [Table.contains_iff_mem_names]

theorem storedAt?_of_mem {path : String} (hnormal : Path.normal path = path)
    (h : path ∈ m.modules.names) : m.storedAt? path = some path := by
  rw [storedAt?, hnormal, candidates, List.find?_cons, Table.contains_iff_mem_names.mpr h]

theorem loadModule_of_storedAt? {location path : String} (h : m.storedAt? location = some path) :
    ∃ exports, m.modules.get? path = some exports ∧ m.loadModule location = .ok exports := by
  obtain ⟨exports, hexports⟩ := Table.mem_names_iff.mp (mem_of_storedAt? h).2
  exact ⟨exports, hexports, by simp [loadModule, h, hexports]⟩

theorem loadModule_of_none {location : String} (h : m.storedAt? location = none) :
    m.loadModule location = .error (.unresolved location (some .noModuleFile)) := by
  simp [loadModule, h]

theorem present_fileSystem (m : Memory) : fileSystem.present m = m.present := rfl

theorem processRoots_fileSystem (m : Memory) (name : String) :
    fileSystem.processRoots m name = m.roots := rfl

theorem resolveModule_fileSystem (m : Memory) : fileSystem.resolveModule m = m.resolveModule := rfl

theorem result_loadModule (m : Memory) (location : String) :
    (fileSystem.loadModule location).result m = m.loadModule location := rfl

end Wiring.Modules.Memory
