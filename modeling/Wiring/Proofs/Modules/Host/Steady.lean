import Wiring.Modules.Host.Local
import Wiring.Proofs.Modules.Host.Meaning
import Wiring.Proofs.Modules.Steady

/-! The files of a process. A file stands for the same module whatever the process has loaded so
far, so its file system is steady. -/
namespace Wiring

namespace Modules.Host
variable {p q : Host} {suffix : String}

/-! Names of files. -/

theorem isIdentifier_of_mem_nameParts {path root part : String}
    (h : part ∈ p.nameParts suffix path root) : Text.isIdentifier part = true := by
  unfold nameParts at h
  by_cases hstart : Text.startsWith path (root ++ "/") = true
  · rw [if_pos hstart] at h
    generalize Path.splitExtension (Path.relative p.workingDir.text path root) = stemAndExtension at h
    obtain ⟨stem, extension⟩ := stemAndExtension
    dsimp only at h
    generalize (if ((Text.split '/' stem.toList).map String.ofList).getLast? = some "__init__" then
      _ else _) = parts at h
    by_cases hextension : extension = suffix
    · rw [if_pos hextension] at h
      by_cases hall : parts.all Text.isIdentifier = true
      · rw [if_pos hall] at h
        exact List.all_eq_true.mp hall part h
      · rw [if_neg hall] at h
        cases h
    · rw [if_neg hextension] at h
      cases h
  · rw [if_neg hstart] at h
    cases h

theorem SameSearch.realPath (h : p.SameSearch q) (path : String) : q.realPath path = p.realPath path := by
  simp only [Host.realPath, absolute, h.workingDir]

theorem SameSearch.roots (h : p.SameSearch q) : q.roots = p.roots := by
  have habsolute : q.absolute = p.absolute := by
    funext path
    rw [absolute, absolute, h.workingDir]
  rw [Host.roots, Host.roots, h.searchRoots, habsolute]

theorem SameSearch.importableName (h : p.SameSearch q) (suffix path : String) :
    q.importableName suffix path = p.importableName suffix path := by
  unfold Host.importableName ownedName
  rw [h.roots]
  refine congrArg (fun f => p.roots.findSome? f) (funext fun root => ?_)
  have hparts : q.nameParts suffix path root = p.nameParts suffix path root := by
    rw [nameParts, nameParts, h.workingDir]
  rw [hparts]
  cases hp : p.nameParts suffix path root with
  | nil => rfl
  | cons top parts =>
    have hidentifier : Text.isIdentifier top = true :=
      isIdentifier_of_mem_nameParts (hp ▸ List.mem_cons_self ..)
    have hspec := h.specOf top (Text.dot_not_mem_of_isIdentifier hidentifier)
    have howns : q.ownsTopLevel suffix top root = p.ownsTopLevel suffix top root := by
      simp only [ownsTopLevel, hspec, h.realPath]
    simp only [howns]

theorem SameSearch.lookupPaths (h : p.SameSearch q) (specifier : String) :
    q.lookupPaths specifier = p.lookupPaths specifier := by
  have hroot : q.packageRoot specifier = p.packageRoot specifier := by
    unfold packageRoot
    dsimp only
    split
    · next hidentifier =>
      rw [h.foreign, h.specOf _ (Text.dot_not_mem_of_isIdentifier hidentifier)]
    · rfl
  rw [Host.lookupPaths, Host.lookupPaths, hroot, h.roots]

/-! What a file stands for. -/

def partsOf (name : String) : List String := (Text.split '.' name.toList).map String.ofList

theorem plain_partsOf (name : String) : Plain (partsOf name) := by
  intro part hpart
  obtain ⟨piece, hpiece, rfl⟩ := List.mem_map.mp hpart
  rw [String.toList_ofList]
  exact Text.sep_not_mem_of_mem_split hpiece

def importedView (p : Host) (path name : String) : Except Failure (Option View) :=
  match p.meaning (partsOf name).reverse with
  | .error e => if e.reach = .importing then .ok none else .error e
  | .ok v => .ok (v.filter fun v => p.realPath (v.1.file.getD "") = p.realPath path)

theorem exists_of_importedView {path name : String} {v : View}
    (hblank : p.realPath "" ≠ p.realPath path) (h : p.importedView path name = .ok (some v)) :
    p.meaning (partsOf name).reverse = .ok (some v) ∧
      ∃ file, v.1.file = some file ∧ p.realPath file = p.realPath path := by
  unfold importedView at h
  split at h
  · split at h
    · cases h
    · cases h
  · next v' hmeaning =>
    obtain ⟨rfl, hplace⟩ := Option.filter_eq_some_iff.mp (Except.ok.inj h)
    have hplace : p.realPath (v.1.file.getD "") = p.realPath path := of_decide_eq_true hplace
    refine ⟨hmeaning, ?_⟩
    cases hfile : v.1.file with
    | none =>
      rw [hfile] at hplace
      exact absurd hplace hblank
    | some file =>
      rw [hfile] at hplace
      exact ⟨file, rfl, hplace⟩

def fileView (p : Host) (path : String) : Except Failure View :=
  match p.byFile.get? path with
  | some m => .ok m.view
  | none =>
    if Text.endsWith path programSuffix then
      match p.run path with
      | (exports, none) => .ok (⟨some path, []⟩, exports)
      | (_, some e) => .error e
    else .error (.unresolved path (some .notLoadable))

/-- The module of a file that the file system has not found before. -/
def freshView (p : Host) (suffix path : String) : Except Failure View :=
  (match p.importableName suffix path with
    | some name => p.importedView path name
    | none => .ok none).bind fun v =>
  match v with
  | some v => .ok v
  | none => p.fileView path

def placeView (p : Host) (suffix path : String) : Except Failure View :=
  match p.found.get? path with
  | some m => .ok m.view
  | none => p.freshView suffix path

theorem SameNames.importedView (h : p.SameNames q) (path name : String) :
    q.importedView path name = p.importedView path name := by
  have hplain : Plain (partsOf name).reverse := fun part hpart =>
    plain_partsOf name part (List.mem_reverse.mp hpart)
  simp only [Host.importedView, h.meaning _ hplain, h.realPath]

theorem Agrees.fileView (h : p.Agrees q) (path : String) : q.fileView path = p.fileView path := by
  simp only [Host.fileView, run, h.byFile, h.disk, h.workingDir]

theorem SameNames.freshView (h : p.SameNames q) (hfile : ∀ path, q.fileView path = p.fileView path)
    (suffix path : String) : q.freshView suffix path = p.freshView suffix path := by
  simp only [Host.freshView, h.importableName, h.importedView, hfile]

/-! Loading. -/

theorem importFile_view (p : Host) (path name : String) :
    ((importFile path name).result p).map (Option.map Module.view) = p.importedView path name ∧
      p.Agrees ((importFile path name).after p) := by
  obtain ⟨hmeaning, hagrees⟩ := importFrom_meaning (p := p) .nothing (by simp [Plain])
    (plain_partsOf name)
  rw [List.append_nil] at hmeaning
  unfold Host.importedView
  rw [← hmeaning]
  rcases hrun : importFrom none (partsOf name) p with ⟨⟨r, es⟩, p'⟩
  have hrun' : importFrom none ((Text.split '.' name.toList).map String.ofList) p =
      (⟨r, es⟩, p') := hrun
  have hafter : p.Agrees p' := by
    rw [Act.after, hrun] at hagrees
    exact hagrees
  simp only [Act.result, Act.after, importFile, hrun, hrun']
  cases r with
  | error e =>
    by_cases h : e.reach = .importing
    · simp [h, Except.map, hafter]
    · simp [h, Except.map, hafter]
  | ok m =>
    refine ⟨?_, hafter⟩
    simp only [Except.map, hafter.realPath]
    cases m with
    | none => rfl
    | some m =>
      by_cases h : p.realPath (m.spec.file.getD "") = p.realPath path
      · simp [Option.filter, h, Module.view]
      · simp [Option.filter, h, Module.view]

def keepFile (p : Host) (path : String) (m : Module) : Host :=
  { p with byFile := p.byFile.set path m, created := p.created + 1 }

theorem loadFromFile_of_kept {path : String} {m : Module} (h : p.byFile.get? path = some m) :
    loadFromFile path p = (⟨.ok m, []⟩, p) := by
  rw [loadFromFile, Act.get_bind_apply]
  simp only [h]
  rfl

theorem loadFromFile_of_unloadable {path : String} (hnew : p.byFile.get? path = none)
    (hprogram : Text.endsWith path programSuffix = false) :
    loadFromFile path p = (⟨.error (.unresolved path (some .notLoadable)), []⟩, p) := by
  rw [loadFromFile, Act.get_bind_apply]
  simp only [hnew, hprogram]
  rfl

theorem loadFromFile_of_run {path : String} {exports : Exports}
    (hnew : p.byFile.get? path = none) (hprogram : Text.endsWith path programSuffix = true)
    (hrun : p.run path = (exports, none)) :
    loadFromFile path p =
      (⟨.ok (p.newModule ⟨some path, []⟩ exports), []⟩,
        p.keepFile path (p.newModule ⟨some path, []⟩ exports)) := by
  rw [loadFromFile, Act.get_bind_apply]
  simp only [hnew, hprogram, hrun, if_true]
  rfl

/-- A file that fails while it runs is kept if that ends the process. -/
theorem loadFromFile_of_raising {path : String} {exports : Exports} {e : Failure}
    (hnew : p.byFile.get? path = none) (hprogram : Text.endsWith path programSuffix = true)
    (hrun : p.run path = (exports, some e)) :
    loadFromFile path p = (⟨.error e, []⟩,
      if e.reach = .fatal then p.keepFile path (p.newModule ⟨some path, []⟩ exports) else p) := by
  rw [loadFromFile, Act.get_bind_apply]
  simp only [hnew, hprogram, hrun, if_true]
  by_cases hfatal : e.reach = .fatal
  · simp only [if_pos hfatal]
    rfl
  · simp only [if_neg hfatal]
    rfl

theorem loadFromFile_cases (p : Host) (path : String) :
    (∃ e, p.fileView path = .error e ∧ (loadFromFile path).result p = .error e ∧
        ((loadFromFile path).after p = p ∨ e.reach = .fatal ∧
          (loadFromFile path).after p =
            p.keepFile path (p.newModule ⟨some path, []⟩ (p.run path).1))) ∨
      ∃ m : Module, p.fileView path = .ok m.view ∧ (loadFromFile path).result p = .ok m ∧
        ((loadFromFile path).after p = p ∧ p.byFile.get? path = some m ∨
          (loadFromFile path).after p = p.keepFile path m ∧
            m = p.newModule ⟨some path, []⟩ (p.run path).1) := by
  rw [fileView]
  cases hkept : p.byFile.get? path with
  | some m =>
    rw [Act.result, Act.after, loadFromFile_of_kept hkept]
    exact .inr ⟨m, rfl, rfl, .inl ⟨rfl, rfl⟩⟩
  | none =>
    cases hprogram : Text.endsWith path programSuffix with
    | false =>
      rw [Act.result, Act.after, loadFromFile_of_unloadable hkept hprogram]
      exact .inl ⟨_, rfl, rfl, .inl rfl⟩
    | true =>
      rcases hrun : p.run path with ⟨exports, _ | e⟩
      · rw [Act.result, Act.after, loadFromFile_of_run hkept hprogram hrun]
        exact .inr ⟨_, rfl, rfl, .inr ⟨rfl, rfl⟩⟩
      · rw [Act.result, Act.after, loadFromFile_of_raising hkept hprogram hrun]
        refine .inl ⟨e, rfl, rfl, ?_⟩
        by_cases hfatal : e.reach = .fatal
        · exact .inr ⟨hfatal, if_pos hfatal⟩
        · exact .inl (if_neg hfatal)

theorem fileView_keepFile {path : String} {m : Module} (h : p.fileView path = .ok m.view)
    (other : String) : (p.keepFile path m).fileView other = p.fileView other := by
  have hkept : (p.keepFile path m).byFile.get? other =
      if other = path then some m else p.byFile.get? other := Table.get?_set ..
  by_cases hother : other = path
  · subst hother
    rw [h, fileView, hkept, if_pos rfl]
  · unfold fileView
    rw [hkept, if_neg hother]
    rfl

/-! Places. -/

/-- The process looks for modules in the same places, and finds the same at every place. -/
structure Alike (suffix : String) (p q : Host) : Prop extends SameSearch p q where
  placeView : ∀ path, q.placeView suffix path = p.placeView suffix path

theorem Alike.trans {r : Host} (h : p.Alike suffix q) (h' : q.Alike suffix r) :
    p.Alike suffix r :=
  ⟨h.toSameSearch.trans h'.toSameSearch,
    fun path => (h'.placeView path).trans (h.placeView path)⟩

theorem SameNames.alike (h : p.SameNames q) (hfound : q.found = p.found)
    (hfile : ∀ path, q.fileView path = p.fileView path) : p.Alike suffix q := by
  refine ⟨h.toSameSearch, fun path => ?_⟩
  simp only [placeView, hfound, h.freshView hfile]

theorem Agrees.alike (h : p.Agrees q) : p.Alike suffix q := h.toSameNames.alike h.found h.fileView

theorem alike_keepFile {path : String} {m : Module} (h : p.fileView path = .ok m.view) :
    p.Alike suffix (p.keepFile path m) :=
  (p.sameNames_files _ _ _).alike rfl (fileView_keepFile h)

def keepFound (p : Host) (path : String) (m : Module) : Host :=
  { p with found := p.found.set path m }

theorem alike_keepFound {path : String} {m : Module}
    (h : p.placeView suffix path = .ok m.view) : p.Alike suffix (p.keepFound path m) := by
  have hnames : p.SameNames (p.keepFound path m) := p.sameNames_files _ _ _
  have hfound : ∀ other, (p.keepFound path m).found.get? other =
      if other = path then some m else p.found.get? other := fun _ => Table.get?_set ..
  refine ⟨hnames.toSameSearch, fun other => ?_⟩
  unfold placeView
  rw [hfound]
  by_cases hother : other = path
  · subst hother
    rw [if_pos rfl]
    exact h.symm
  · rw [if_neg hother, hnames.freshView fun _ => rfl]

def importIfNamed (suffix path : String) : Act Host (Option Module) := do
  let p ← Act.get
  match p.importableName suffix path with
  | some name => importFile path name
  | none => pure none

def loadFresh (suffix path : String) : Act Host Module := do
  match ← importIfNamed suffix path with
  | some m => pure m
  | none => loadFromFile path

theorem importIfNamed_view (p : Host) (suffix path : String) :
    ((importIfNamed suffix path).result p).map (Option.map Module.view) =
        (match p.importableName suffix path with
          | some name => p.importedView path name
          | none => .ok none) ∧
      p.Agrees ((importIfNamed suffix path).after p) := by
  unfold importIfNamed
  rw [Act.result, Act.after, Act.get_bind_apply]
  cases p.importableName suffix path with
  | some name => exact importFile_view p path name
  | none => exact ⟨rfl, .refl p⟩

theorem loadFresh_steps (p : Host) (suffix path : String) :
    let imported := (importIfNamed suffix path).result p
    let q := (importIfNamed suffix path).after p
    (∃ e, imported = .error e ∧ (loadFresh suffix path).result p = .error e ∧
        (loadFresh suffix path).after p = q) ∨
      (∃ m, imported = .ok (some m) ∧ (loadFresh suffix path).result p = .ok m ∧
        (loadFresh suffix path).after p = q) ∨
      imported = .ok none ∧ (loadFresh suffix path).result p = (loadFromFile path).result q ∧
        (loadFresh suffix path).after p = (loadFromFile path).after q := by
  intro imported q
  cases himported : imported with
  | error e =>
    exact .inl ⟨e, rfl, Act.bind_eq_error_iff.mpr (.inl himported), Act.after_bind_error himported⟩
  | ok found =>
    cases found with
    | some m =>
      exact .inr (.inl ⟨m, rfl, Act.bind_eq_ok_iff.mpr ⟨some m, himported, rfl⟩,
        Act.after_bind_ok himported⟩)
    | none =>
      refine .inr (.inr ⟨rfl, ?_, Act.after_bind_ok himported⟩)
      rw [loadFresh, Act.result_bind, show (importIfNamed suffix path).result p = _ from himported]
      rfl

theorem loadFresh_cases (p : Host) (suffix path : String) :
    (∃ e, p.freshView suffix path = .error e ∧ (loadFresh suffix path).result p = .error e ∧
        (e.reach ≠ .fatal → p.Alike suffix ((loadFresh suffix path).after p))) ∨
      ∃ m : Module, p.freshView suffix path = .ok m.view ∧
        (loadFresh suffix path).result p = .ok m ∧
        p.Alike suffix ((loadFresh suffix path).after p) := by
  obtain ⟨hview, hagrees⟩ := importIfNamed_view p suffix path
  rw [freshView, ← hview]
  obtain ⟨e, himported, hresult, hafter⟩ | ⟨m, himported, hresult, hafter⟩ |
    ⟨himported, hresult, hafter⟩ := loadFresh_steps p suffix path
  · rw [himported, hresult, hafter]
    exact .inl ⟨e, rfl, rfl, fun _ => hagrees.alike⟩
  · rw [himported, hresult, hafter]
    exact .inr ⟨m, rfl, rfl, hagrees.alike⟩
  · rw [himported, hresult, hafter]
    show (∃ e, p.fileView path = _ ∧ _) ∨ ∃ m, p.fileView path = _ ∧ _
    rw [← hagrees.fileView path]
    obtain ⟨e, hfile, hfails, hkept⟩ | ⟨m, hfile, hbrought, hkept⟩ :=
      loadFromFile_cases ((importIfNamed suffix path).after p) path
    · refine .inl ⟨e, hfile, hfails, fun hreach => ?_⟩
      obtain hsame | ⟨hfatal, -⟩ := hkept
      · rw [hsame]
        exact hagrees.alike
      · exact absurd hfatal hreach
    · refine .inr ⟨m, hfile, hbrought, ?_⟩
      obtain ⟨hsame, -⟩ | ⟨hkept, -⟩ := hkept
      · rw [hsame]
        exact hagrees.alike
      · rw [hkept]
        exact hagrees.alike.trans (alike_keepFile hfile)

theorem loadAt_of_missing {location : String} {e : Failure}
    (hfile : p.findFile suffix location = .error e) :
    loadAt suffix location p = (⟨.error e, []⟩, p) := by
  unfold loadAt
  rw [Act.get_bind_apply, hfile]
  rfl

theorem loadAt_of_found {location path : String} {m : Module}
    (hfile : p.findFile suffix location = .ok path) (hfound : p.found.get? path = some m) :
    loadAt suffix location p = (⟨.ok m, []⟩, p) := by
  unfold loadAt
  rw [Act.get_bind_apply, hfile, Act.ok_bind_apply]
  simp only [hfound]
  rfl

theorem loadAt_of_new {location path : String} (hfile : p.findFile suffix location = .ok path)
    (hnew : p.found.get? path = none) :
    loadAt suffix location p = (do
      let m ← loadFresh suffix path
      Act.log (.loaded path)
      Act.update (·.keepFound path m)
      pure m) p := by
  unfold loadAt loadFresh importIfNamed
  rw [Act.get_bind_apply, hfile, Act.ok_bind_apply]
  simp only [hnew, bind_assoc]
  rw [Act.get_bind_apply]
  cases p.importableName suffix path with
  | none => rfl
  | some name =>
    refine congrFun (congrArg (importFile path name >>= ·) (funext fun imported => ?_)) p
    cases imported <;> rfl

theorem loadAt_new_of_error {location path : String} {e : Failure}
    (hfile : p.findFile suffix location = .ok path) (hnew : p.found.get? path = none)
    (h : (loadFresh suffix path).result p = .error e) :
    (loadAt suffix location).result p = .error e ∧
      (loadAt suffix location).after p = (loadFresh suffix path).after p := by
  have hrun := loadAt_of_new hfile hnew
  constructor
  · rw [Act.result, hrun]
    exact Act.bind_eq_error_iff.mpr (.inl h)
  · rw [Act.after, hrun]
    exact Act.after_bind_error h

theorem loadAt_new_of_ok {location path : String} {m : Module}
    (hfile : p.findFile suffix location = .ok path) (hnew : p.found.get? path = none)
    (h : (loadFresh suffix path).result p = .ok m) :
    (loadAt suffix location).result p = .ok m ∧
      (loadAt suffix location).after p = ((loadFresh suffix path).after p).keepFound path m := by
  have hrun := loadAt_of_new hfile hnew
  constructor
  · rw [Act.result, hrun]
    exact Act.bind_eq_ok_iff.mpr ⟨m, h, rfl⟩
  · rw [Act.after, hrun]
    exact Act.after_bind_ok h

/-- Loading the module of a location brings what its file stands for. Unless the process ends in
it, it changes nothing of what any file stands for. -/
theorem loadAt_cases (p : Host) (suffix location : String) :
    (∃ e, (p.findFile suffix location).bind (p.placeView suffix) = .error e ∧
        (loadAt suffix location).result p = .error e ∧
        (e.reach ≠ .fatal → p.Alike suffix ((loadAt suffix location).after p))) ∨
      ∃ m : Module, (p.findFile suffix location).bind (p.placeView suffix) = .ok m.view ∧
        (loadAt suffix location).result p = .ok m ∧
        p.Alike suffix ((loadAt suffix location).after p) := by
  cases hfile : p.findFile suffix location with
  | error e =>
    refine .inl ⟨e, rfl, by rw [Act.result, loadAt_of_missing hfile], fun _ => ?_⟩
    rw [Act.after, loadAt_of_missing hfile]
    exact (Agrees.refl p).alike
  | ok path =>
    cases hfound : p.found.get? path with
    | some m =>
      have hplace : p.placeView suffix path = .ok m.view := by rw [placeView, hfound]
      refine .inr ⟨m, hplace, ?_, ?_⟩
      · rw [Act.result, loadAt_of_found hfile hfound]
      · rw [Act.after, loadAt_of_found hfile hfound]
        exact (Agrees.refl p).alike
    | none =>
      have hplace : p.placeView suffix path = p.freshView suffix path := by
        rw [placeView, hfound]
      obtain ⟨e, hview, hresult, halike⟩ | ⟨m, hview, hresult, halike⟩ :=
        loadFresh_cases p suffix path
      · obtain ⟨hfails, hafter⟩ := loadAt_new_of_error hfile hfound hresult
        exact .inl ⟨e, hplace.trans hview, hfails, fun hreach => hafter ▸ halike hreach⟩
      · obtain ⟨hbrought, hafter⟩ := loadAt_new_of_ok hfile hfound hresult
        have hkept : ((loadFresh suffix path).after p).placeView suffix path = .ok m.view := by
          rw [halike.placeView, hplace, hview]
        refine .inr ⟨m, hplace.trans hview, hbrought, ?_⟩
        rw [hafter]
        exact halike.trans (alike_keepFound hkept)

theorem loadAt_view (p : Host) (suffix location : String) :
    ((loadAt suffix location).result p).map Module.view =
      (p.findFile suffix location).bind (p.placeView suffix) := by
  obtain ⟨e, hview, hresult, -⟩ | ⟨m, hview, hresult, -⟩ := loadAt_cases p suffix location
  · rw [hview, hresult]
    rfl
  · rw [hview, hresult]
    rfl

theorem result_loadModule (p : Host) (suffix location : String) :
    ((fileSystem suffix).loadModule location).result p =
      ((p.findFile suffix location).bind (p.placeView suffix)).map Prod.snd := by
  show (Module.exports <$> loadAt suffix location).result p = _
  rw [Act.result_map, ← loadAt_view]
  cases (loadAt suffix location).result p <;> rfl

theorem SameSearch.isFile (h : p.SameSearch q) : q.isFile = p.isFile := by
  funext path
  rw [Host.isFile, Host.isFile, h.disk, h.workingDir]

theorem SameSearch.findFile (h : p.SameSearch q) (suffix location : String) :
    q.findFile suffix location = p.findFile suffix location := by
  simp only [Host.findFile, h.isFile, absolute, h.workingDir]

theorem Alike.fileSystem (h : p.Alike suffix q) : (fileSystem suffix).Alike p q := by
  refine ⟨?_, funext h.lookupPaths, ?_, fun location => ?_⟩
  · funext path
    simp only [Host.fileSystem, h.disk, h.workingDir]
  · funext specifier roots
    simp only [Host.fileSystem, resolveModule, h.isFile]
  · have hplace : q.placeView suffix = p.placeView suffix := funext h.placeView
    rw [result_loadModule, result_loadModule, h.findFile, hplace]

end Modules.Host

end Wiring
