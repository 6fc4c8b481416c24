import Mathlib.Data.List.Find
import Wiring.Proofs.Modules.Memory
import Wiring.Proofs.Path.Upward

/-! What a search for a module comes to. A bare name that does not stand at the directory itself
is the first stored file under the roots, the nearest root first. -/
namespace Wiring.Modules
variable {σ : Type}

/-- Something is there for a specifier at the directory itself, with the suffix or without. -/
def atDirectory (rules : SearchRules) (fs : FileSystem σ) (s : σ)
    (specifier directory : String) : Bool :=
  let joined := Path.normal (Path.join directory specifier)
  fs.present s (joined ++ rules.suffix) || fs.present s joined

theorem result_resolveModule (fs : FileSystem σ) (specifier : String) (roots : List String)
    (s : σ) : (resolveModule fs specifier roots).result s = fs.resolveModule s specifier roots := by
  simp [resolveModule, Act.result_bind, Except.bind, Traced.ofExcept]

theorem result_resolve_of_atDirectory {rules : SearchRules} {fs : FileSystem σ} {s : σ}
    {specifier directory : String} (hrelative : Path.isAbsolute specifier = false)
    (h : atDirectory rules fs s (withoutLegacyStart specifier) directory = true) :
    (resolve rules fs specifier directory).result s =
      .ok (Path.normal (Path.join directory (withoutLegacyStart specifier))) := by
  rw [resolve, if_neg (by simp [hrelative]), Act.result_bind, Act.result_get, Act.after_get]
  exact congrArg (Act.result · s) (if_pos h)

theorem result_resolve_of_not_atDirectory {rules : SearchRules} {fs : FileSystem σ} {s : σ}
    {specifier directory : String} (hrelative : Path.isAbsolute specifier = false)
    (h : atDirectory rules fs s (withoutLegacyStart specifier) directory = false) :
    (resolve rules fs specifier directory).result s =
      if Text.startsWith (withoutLegacyStart specifier) "." then
        fs.resolveModule s (Path.normal (Path.join directory (withoutLegacyStart specifier)))
          (searchPaths rules (Path.normal
            (Path.join directory (Path.directory (withoutLegacyStart specifier)))))
      else fs.resolveModule s (withoutLegacyStart specifier)
        (if rules.processRoots then
          unique (searchPaths rules directory ++ fs.processRoots s (withoutLegacyStart specifier))
        else searchPaths rules directory) := by
  rw [resolve, if_neg (by simp [hrelative]), Act.result_bind, Act.result_get, Act.after_get]
  refine (congrArg (Act.result · s) (if_neg (Bool.not_eq_true _ ▸ h))).trans ?_
  split
  · exact result_resolveModule ..
  · split
    · exact result_resolveModule ..
    · exact result_resolveModule ..

theorem findSome?_unique {α : Type} (f : String → Option α) (xs : List String) :
    (unique xs).findSome? f = xs.findSome? f := by
  have hfold : ∀ kept : List String,
      (xs.foldl (fun kept x => if x ∈ kept then kept else x :: kept) kept).reverse.findSome? f =
        (kept.reverse ++ xs).findSome? f := by
    induction xs with
    | nil => simp
    | cons x xs ih =>
      intro kept
      rw [List.foldl_cons, ih]
      split
      · next hx =>
        rw [List.findSome?_append, List.findSome?_append, List.findSome?_cons]
        cases hkept : kept.reverse.findSome? f with
        | some a => rfl
        | none =>
          have hnone : f x = none := List.findSome?_eq_none_iff.mp hkept x (List.mem_reverse.mpr hx)
          rw [hnone]
      · simp
  exact hfold []

theorem withoutLegacyStart_of_not_legacy {specifier : String}
    (h : Text.startsWith specifier legacyStart = false) :
    withoutLegacyStart specifier = specifier := by
  rw [withoutLegacyStart, if_neg (Bool.eq_false_iff.mp h)]

theorem withoutLegacyStart_of_bare {name : String} (h : Text.startsWith name "." = false) :
    withoutLegacyStart name = name := by
  apply withoutLegacyStart_of_not_legacy
  rw [Bool.eq_false_iff]
  intro hlegacy
  have hdot : ".".toList <+: legacyStart.toList := by decide
  rw [Text.startsWith_iff.mpr (hdot.trans (Text.startsWith_iff.mp hlegacy))] at h
  cases h

namespace Memory
variable {m : Memory}

/-- The files that a name may mean under a root, in the order in which they are tried. -/
def filesUnder (name root : String) : List String :=
  candidates (Path.normal (Path.join root (specifierPath name suffix))) suffix

def nameRoots (rules : SearchRules) (base : Location) (process : List String) : List String :=
  base.text :: base.upward.map (Path.join · rules.dependencyDir) ++
    if rules.processRoots then process else []

theorem findSome?_searched {name : String} (hrelative : Path.isAbsolute name = false)
    (roots : List String) :
    (searched name suffix roots).findSome? m.storedAt? =
      (roots.flatMap (filesUnder name)).find? m.modules.contains := by
  rw [searched, hrelative, if_neg (by decide), List.findSome?_map, List.find?_flatMap]
  rfl

theorem resolveModule_eq_ok_iff {name path : String} (hrelative : Path.isAbsolute name = false)
    {roots : List String} : m.resolveModule name roots = .ok path ↔
      (roots.flatMap (filesUnder name)).find? m.modules.contains = some path := by
  rw [resolveModule, findSome?_searched hrelative]
  split
  · next h => simp [h]
  · next h => simp [h]

theorem resolveModule_eq_error_iff {name : String} (hrelative : Path.isAbsolute name = false)
    {roots : List String} {failure : Failure} : m.resolveModule name roots = .error failure ↔
      (∀ file ∈ roots.flatMap (filesUnder name), file ∉ m.modules.names) ∧
        failure = .unresolved name (some (.noModule roots.length)) := by
  have hlength : (searched name suffix roots).length = roots.length := by
    rw [searched, hrelative, if_neg (by decide), List.length_map]
  have hnone : (roots.flatMap (filesUnder name)).find? m.modules.contains = none ↔
      ∀ file ∈ roots.flatMap (filesUnder name), file ∉ m.modules.names := by
    simp only [List.find?_eq_none, Table.contains_iff_mem_names]
  rw [resolveModule, findSome?_searched hrelative, hlength, ← hnone]
  split
  · next h => simp [h]
  · next h => simp [h, eq_comm]

theorem resolveModule_unique {name path : String} (hrelative : Path.isAbsolute name = false)
    {roots : List String} :
    m.resolveModule name (unique roots) = .ok path ↔ m.resolveModule name roots = .ok path := by
  rw [resolveModule_eq_ok_iff hrelative, resolveModule_eq_ok_iff hrelative, List.find?_flatMap,
    List.find?_flatMap, findSome?_unique]

theorem resolveModule_roots_eq_ok_iff {name path : String}
    (hrelative : Path.isAbsolute name = false) {roots paths : List String}
    (hroots : roots = paths ∨ roots = unique paths) : m.resolveModule name roots = .ok path ↔
      (paths.flatMap (filesUnder name)).find? m.modules.contains = some path := by
  rw [← resolveModule_eq_ok_iff hrelative]
  obtain rfl | rfl := hroots
  · exact Iff.rfl
  · exact resolveModule_unique hrelative

variable {rules : SearchRules} {base : Location} {name : String}

def searchRoots (rules : SearchRules) (directory : String) (process : List String) : List String :=
  searchPaths rules directory ++ if rules.processRoots then process else []

theorem searchRoots_location (hfolder : Path.IsName rules.dependencyDir.toList)
    (base : Location) (process : List String) :
    searchRoots rules base.text process = nameRoots rules base process := by
  rw [searchRoots, searchPaths_location rules hfolder base, nameRoots]

theorem exists_roots_of_kept {specifier directory : String}
    (hrelative : Path.isAbsolute specifier = false) (hname : withoutLegacyStart specifier = name)
    (hbare : Text.startsWith name "." = false)
    (hdirect : atDirectory rules fileSystem m name directory = false) :
    ∃ roots, (roots = searchRoots rules directory m.roots ∨
        roots = unique (searchRoots rules directory m.roots)) ∧
      (resolve rules fileSystem specifier directory).result m = m.resolveModule name roots := by
  subst hname
  rw [result_resolve_of_not_atDirectory hrelative hdirect, hbare, if_neg (by decide),
    resolveModule_fileSystem, processRoots_fileSystem, searchRoots]
  by_cases hprocess : rules.processRoots = true
  · rw [if_pos hprocess, if_pos hprocess]
    exact ⟨_, .inr rfl, rfl⟩
  · rw [if_neg hprocess, if_neg hprocess, List.append_nil]
    exact ⟨_, .inl rfl, rfl⟩

theorem exists_roots_of_bare (hfolder : Path.IsName rules.dependencyDir.toList)
    (hrelative : Path.isAbsolute name = false) (hbare : Text.startsWith name "." = false)
    (hdirect : atDirectory rules fileSystem m name base.text = false) :
    ∃ roots, (roots = nameRoots rules base m.roots ∨ roots = unique (nameRoots rules base m.roots)) ∧
      (resolve rules fileSystem name base.text).result m = m.resolveModule name roots := by
  rw [← searchRoots_location hfolder]
  exact exists_roots_of_kept hrelative (withoutLegacyStart_of_bare hbare) hbare hdirect

theorem resolve_bare_eq_ok_iff (hfolder : Path.IsName rules.dependencyDir.toList)
    (hrelative : Path.isAbsolute name = false) (hbare : Text.startsWith name "." = false)
    (hdirect : atDirectory rules fileSystem m name base.text = false) {path : String} :
    (resolve rules fileSystem name base.text).result m = .ok path ↔
      ((nameRoots rules base m.roots).flatMap (filesUnder name)).find? m.modules.contains =
        some path := by
  obtain ⟨roots, hroots, hresult⟩ := exists_roots_of_bare hfolder hrelative hbare hdirect
  rw [hresult, resolveModule_roots_eq_ok_iff hrelative hroots]

theorem unresolved_of_resolve_bare (hfolder : Path.IsName rules.dependencyDir.toList)
    (hrelative : Path.isAbsolute name = false) (hbare : Text.startsWith name "." = false)
    (hdirect : atDirectory rules fileSystem m name base.text = false) {failure : Failure}
    (h : (resolve rules fileSystem name base.text).result m = .error failure) :
    ∃ reason, failure = .unresolved name reason := by
  obtain ⟨roots, -, hresult⟩ := exists_roots_of_bare hfolder hrelative hbare hdirect
  rw [hresult, resolveModule_eq_error_iff hrelative] at h
  exact ⟨_, h.2⟩

theorem resolve_bare_unresolved_iff (hfolder : Path.IsName rules.dependencyDir.toList)
    (hrelative : Path.isAbsolute name = false) (hbare : Text.startsWith name "." = false)
    (hdirect : atDirectory rules fileSystem m name base.text = false) :
    (∃ reason, (resolve rules fileSystem name base.text).result m =
        .error (.unresolved name reason)) ↔
      ∀ file ∈ (nameRoots rules base m.roots).flatMap (filesUnder name),
        m.modules.get? file = none := by
  have hfound := @resolve_bare_eq_ok_iff m rules base name hfolder hrelative hbare hdirect
  have hstored : ((nameRoots rules base m.roots).flatMap (filesUnder name)).find?
      m.modules.contains = none ↔ ∀ file ∈ (nameRoots rules base m.roots).flatMap (filesUnder name),
        m.modules.get? file = none := by
    simp only [List.find?_eq_none, Table.contains, Option.not_isSome_iff_eq_none]
  rw [← hstored]
  cases hresult : (resolve rules fileSystem name base.text).result m with
  | ok path => simp [hfound.mp hresult]
  | error failure =>
    obtain ⟨reason, rfl⟩ := unresolved_of_resolve_bare hfolder hrelative hbare hdirect hresult
    have hmissing : ∀ path, ((nameRoots rules base m.roots).flatMap (filesUnder name)).find?
        m.modules.contains ≠ some path := by
      intro path h
      rw [hfound.mpr h] at hresult
      cases hresult
    exact ⟨fun _ => Option.eq_none_iff_forall_ne_some.mpr hmissing, fun _ => ⟨reason, rfl⟩⟩

theorem find?_append_of_mem {α : Type} {p q : α → Bool} {xs ys : List α} {x : α}
    (h : (xs ++ ys).find? p = some x) (hx : x ∈ xs) (hpq : ∀ y ∈ xs, q y = p y) :
    (xs ++ ys).find? q = some x := by
  have hfront : xs.find? p = some x := by
    cases hxs : xs.find? p with
    | none => exact absurd (List.find?_some h) (List.find?_eq_none.mp hxs x hx)
    | some y =>
      rw [List.find?_append, hxs] at h
      exact h
  rw [List.find?_append, List.find?_congr hpq, hfront]
  rfl

theorem contains_ofList_append {modules added : List (String × Exports)} {process : List String}
    {file : String} (h : ∀ e ∈ added, Path.normal e.1 ≠ file) :
    (ofList (modules ++ added) process).modules.contains file =
      (ofList modules process).modules.contains file := by
  rw [Bool.eq_iff_iff, Table.contains_iff_mem_names, Table.contains_iff_mem_names,
    mem_names_ofList, mem_names_ofList]
  constructor
  · rintro ⟨e, he, hfile⟩
    obtain he | he := List.mem_append.mp he
    · exact ⟨e, he, hfile⟩
    · exact absurd hfile (h e he)
  · rintro ⟨e, he, hfile⟩
    exact ⟨e, List.mem_append_left added he, hfile⟩

theorem resolve_bare_append (hfolder : Path.IsName rules.dependencyDir.toList)
    (hrelative : Path.isAbsolute name = false) (hbare : Text.startsWith name "." = false)
    {modules added : List (String × Exports)} {process before after : List String}
    {root path : String} (hsplit : nameRoots rules base process = before ++ root :: after)
    (hunder : path ∈ filesUnder name root)
    (hdirect : atDirectory rules fileSystem (ofList modules process) name base.text = false)
    (hpath : (resolve rules fileSystem name base.text).result (ofList modules process) = .ok path)
    (hadded : ∀ e ∈ added, ∀ r ∈ before ++ [root], Path.normal e.1 ∉ filesUnder name r)
    (hdirect' : atDirectory rules fileSystem (ofList (modules ++ added) process) name base.text =
      false) :
    (resolve rules fileSystem name base.text).result (ofList (modules ++ added) process) =
      .ok path := by
  have hfront : (nameRoots rules base process).flatMap (filesUnder name) =
      (before ++ [root]).flatMap (filesUnder name) ++ after.flatMap (filesUnder name) := by
    rw [hsplit, ← List.flatMap_append, List.append_assoc, List.singleton_append]
  have hmem : path ∈ (before ++ [root]).flatMap (filesUnder name) :=
    List.mem_flatMap.mpr ⟨root, List.mem_append_right before (List.mem_singleton_self root), hunder⟩
  have hsame : ∀ file ∈ (before ++ [root]).flatMap (filesUnder name),
      (ofList (modules ++ added) process).modules.contains file =
        (ofList modules process).modules.contains file := by
    intro file hfile
    obtain ⟨r, hr, hfile⟩ := List.mem_flatMap.mp hfile
    exact contains_ofList_append fun e he heq => hadded e he r hr (heq ▸ hfile)
  rw [resolve_bare_eq_ok_iff hfolder hrelative hbare hdirect, roots_ofList, hfront] at hpath
  rw [resolve_bare_eq_ok_iff hfolder hrelative hbare hdirect', roots_ofList, hfront]
  exact find?_append_of_mem hpath hmem hsame

/-- A bare name that the directory itself does not have means the first stored file under the
roots, the nearest root first; the search fails exactly when there is none. What is loaded from
the place that was found is what is stored there. Modules under later roots change nothing, and
neither do roots that are searched twice. -/
theorem resolve_nearest (rules : SearchRules) (hfolder : Path.IsName rules.dependencyDir.toList)
    (modules : List (String × Exports)) (process : List String) (base : Location) (name : String)
    (hrelative : Path.isAbsolute name = false) (hbare : Text.startsWith name "." = false)
    (hdirect : atDirectory rules fileSystem (ofList modules process) name base.text = false) :
    let m := ofList modules process
    let roots := nameRoots rules base process
    let found := (resolve rules fileSystem name base.text).result m
    (∀ path, found = .ok path ↔
      (roots.flatMap (filesUnder name)).find? m.modules.contains = some path) ∧
    ((∃ reason, found = .error (.unresolved name reason)) ↔
      ∀ file ∈ roots.flatMap (filesUnder name), m.modules.get? file = none) ∧
    (∀ failure, found = .error failure → ∃ reason, failure = .unresolved name reason) ∧
    (∀ path, found = .ok path → ∃ exports, m.modules.get? path = some exports ∧
      (fileSystem.loadModule path).result m = .ok exports) ∧
    (∀ (added : List (String × Exports)) (before : List String) (root : String)
        (after : List String) (path : String), roots = before ++ root :: after →
      path ∈ filesUnder name root → found = .ok path →
      (∀ e ∈ added, ∀ r ∈ before ++ [root], Path.normal e.1 ∉ filesUnder name r) →
      atDirectory rules fileSystem (ofList (modules ++ added) process) name base.text = false →
      (resolve rules fileSystem name base.text).result (ofList (modules ++ added) process) =
        .ok path) ∧
    (∀ (paths : List String) (path : String),
      m.resolveModule name (unique paths) = .ok path ↔ m.resolveModule name paths = .ok path) := by
  intro m roots found
  have hroots : m.roots = process := roots_ofList modules process
  have hfound : ∀ path, found = .ok path ↔
      (roots.flatMap (filesUnder name)).find? m.modules.contains = some path := by
    intro path
    rw [resolve_bare_eq_ok_iff hfolder hrelative hbare hdirect, hroots]
  have hnone : (∃ reason, found = .error (.unresolved name reason)) ↔
      ∀ file ∈ roots.flatMap (filesUnder name), m.modules.get? file = none := by
    rw [resolve_bare_unresolved_iff hfolder hrelative hbare hdirect, hroots]
  refine ⟨hfound, hnone, fun failure h => ?_, fun path hpath => ?_, ?_, fun paths path => ?_⟩
  · exact unresolved_of_resolve_bare hfolder hrelative hbare hdirect h
  · have hstored : path ∈ m.modules.names :=
      Table.contains_iff_mem_names.mp (List.find?_some ((hfound path).mp hpath))
    have hnormal := tidy_ofList modules process path hstored
    exact loadModule_of_storedAt? (storedAt?_of_mem hnormal hstored)
  · intro added before root after path hsplit hunder hpath hadded hdirect'
    exact resolve_bare_append hfolder hrelative hbare hsplit hunder hdirect hpath hadded hdirect'
  · exact resolveModule_unique hrelative

/-- Of two packages with one name the one that is nearer to `/srv/app` is found, and it is still
found when the process knows a third. -/
theorem mailkit_nearest :
    let near := ("/srv/site-packages/mailkit.py", (∅ : Exports))
    let far := ("/site-packages/mailkit/__init__.py", (∅ : Exports))
    let search := (resolve {} fileSystem "mailkit" "/srv/app").result
    search (ofList [far, near] ["/opt"]) = .ok near.1 ∧
      search (ofList ([far, near] ++ [("/opt/mailkit.py", ∅)]) ["/opt"]) = .ok near.1 := by
  intro near far search
  obtain ⟨hfound, -, -, -, hadded, -⟩ := resolve_nearest {} (by decide) [far, near] ["/opt"]
    (Location.root.join "srv/app") "mailkit" (by decide) (by decide) (by decide +kernel)
  have hnear : search (ofList [far, near] ["/opt"]) = .ok near.1 :=
    (hfound near.1).mpr (by decide +kernel)
  refine ⟨hnear, hadded [("/opt/mailkit.py", ∅)] ["/srv/app", "/srv/app/site-packages"]
    "/srv/site-packages" ["/site-packages", "/opt"] near.1 ?_ ?_ hnear ?_ ?_⟩
  all_goals decide +kernel

end Memory
end Wiring.Modules
