import Wiring.Proofs.Modules.Search

/-! Whether a place that a search returns can be loaded. What is found under the roots can; at the
directory itself a bare folder is taken for a module. -/
namespace Wiring.Modules.Memory
variable {m : Memory}

def IsFolder (m : Memory) (path : String) : Prop :=
  ∃ stored ∈ m.modules.names, Text.startsWith stored (path ++ "/") = true

theorem exists_load_of_resolveModule (htidy : m.Tidy) {specifier path : String}
    {roots : List String} (h : m.resolveModule specifier roots = .ok path) :
    ∃ exports, m.loadModule path = .ok exports := by
  rw [resolveModule] at h
  split at h
  · next found hfound =>
    cases h
    obtain ⟨_, -, hstored⟩ := List.exists_of_findSome?_eq_some hfound
    have hmem := (mem_of_storedAt? hstored).2
    obtain ⟨exports, -, hload⟩ := loadModule_of_storedAt? (storedAt?_of_mem (htidy path hmem) hmem)
    exact ⟨exports, hload⟩
  · cases h

theorem storedAt?_or_isFolder (l : Location)
    (h : m.present (l.text ++ suffix) = true ∨ m.present l.text = true) :
    (∃ path, m.storedAt? l.text = some path) ∨
      m.storedAt? l.text = none ∧ (m.IsFolder (l.text ++ suffix) ∨ m.IsFolder l.text) := by
  cases hstored : m.storedAt? l.text with
  | some path => exact .inl ⟨path, rfl⟩
  | none =>
    have hmissing := storedAt?_eq_none_iff.mp hstored
    rw [l.isNormal] at hmissing
    have hfile : l.text ++ suffix ∉ m.modules.names := hmissing _ (by simp [candidates])
    have hplace : l.text ∉ m.modules.names := hmissing _ (by simp [candidates])
    have hcandidate : l.text ++ suffix ∈ candidates l.text suffix := by simp [candidates]
    obtain ⟨file, hfiletext, -⟩ := l.exists_of_mem_candidates hcandidate
    have hnormal : Path.normal (l.text ++ suffix) = l.text ++ suffix := hfiletext ▸ file.isNormal
    rw [present_iff, present_iff, hnormal, l.isNormal] at h
    obtain (h | h) | (h | h) := h
    · exact absurd h hfile
    · exact .inr ⟨rfl, .inl h⟩
    · exact absurd h hplace
    · exact .inr ⟨rfl, .inr h⟩

/-- A place that a search returns can be loaded, or it is the specifier's own place seen from the
directory: a folder, of that name or of that name with the suffix, that holds no module itself. -/
theorem resolve_loads_or_folder (rules : SearchRules) (hsuffix : rules.suffix = suffix)
    (modules : List (String × Exports)) (process : List String) {specifier directory : String}
    (habsolute : Path.isAbsolute directory = true) (hrelative : Path.isAbsolute specifier = false)
    {location : String} (h : (resolve rules fileSystem specifier directory).result
      (ofList modules process) = .ok location) :
    let m := ofList modules process
    (∃ exports, (fileSystem.loadModule location).result m = .ok exports) ∨
      location = Path.normal (Path.join directory (withoutLegacyStart specifier)) ∧
        (∀ file ∈ candidates location suffix, file ∉ m.modules.names) ∧
        (m.IsFolder (location ++ suffix) ∨ m.IsFolder location) ∧
        (fileSystem.loadModule location).result m =
          .error (.unresolved location (some .noModuleFile)) := by
  intro m
  rw [result_loadModule]
  cases hdirect : atDirectory rules fileSystem m (withoutLegacyStart specifier) directory with
  | true =>
    obtain ⟨place, hplace⟩ : ∃ place : Location,
        place.text = Path.normal (Path.join directory (withoutLegacyStart specifier)) :=
      ⟨_, Location.text_ofBase directory (withoutLegacyStart specifier) habsolute⟩
    rw [result_resolve_of_atDirectory hrelative hdirect] at h
    rw [atDirectory, ← hplace, hsuffix] at hdirect
    rw [← hplace] at h ⊢
    obtain rfl := Except.ok.inj h
    have hpresent : m.present (place.text ++ suffix) = true ∨ m.present place.text = true :=
      Bool.or_eq_true _ _ ▸ hdirect
    obtain ⟨path, hstored⟩ | ⟨hnone, hfolder⟩ := storedAt?_or_isFolder place hpresent
    · obtain ⟨exports, -, hload⟩ := loadModule_of_storedAt? hstored
      exact .inl ⟨exports, hload⟩
    · have hmissing := storedAt?_eq_none_iff.mp hnone
      rw [place.isNormal] at hmissing
      exact .inr ⟨rfl, hmissing, hfolder, loadModule_of_none hnone⟩
  | false =>
    have hload : ∀ {name roots}, m.resolveModule name roots = .ok location →
        ∃ exports, m.loadModule location = .ok exports :=
      exists_load_of_resolveModule (tidy_ofList modules process)
    rw [result_resolve_of_not_atDirectory hrelative hdirect, resolveModule_fileSystem] at h
    split at h
    · exact .inl (hload h)
    · exact .inl (hload h)

theorem notes_load :
    let m := ofList [("/app/mail/notes.py", ∅)] []
    (resolve {} fileSystem "mail.notes" "/app").result m = .ok "/app/mail/notes.py" ∧
      ∃ exports, (fileSystem.loadModule "/app/mail/notes.py").result m = .ok exports := by
  have hfound : (resolve {} fileSystem "mail.notes" "/app").result
      (ofList [("/app/mail/notes.py", ∅)] []) = .ok "/app/mail/notes.py" := by decide +kernel
  have hloads := resolve_loads_or_folder {} rfl [("/app/mail/notes.py", ∅)] [] (by decide)
    (by decide) hfound
  exact ⟨hfound, hloads.resolve_right fun hfolder => absurd hfolder.1 (by decide +kernel)⟩

/-- A folder of notes hides the module of its name that a root has. -/
theorem mail_hidden :
    let m := ofList [("/app/mail/notes.py", ∅), ("/app/site-packages/mail/__init__.py", ∅)] []
    (resolve {} fileSystem "mail" "/app").result m = .ok "/app/mail" ∧
      (fileSystem.loadModule "/app/mail").result m =
        .error (.unresolved "/app/mail" (some .noModuleFile)) ∧
      m.resolveModule "mail" (searchPaths {} "/app") =
        .ok "/app/site-packages/mail/__init__.py" := by
  refine ⟨by decide +kernel, ?_, by decide +kernel⟩
  rw [result_loadModule]
  exact loadModule_of_none (by decide +kernel)

end Wiring.Modules.Memory
