import Wiring.Proofs.Modules.Found

/-! Modules that fail while they run. An ordinary failure leaves nothing of the module behind, so
its file is run again whenever it is loaded. A failure that ends the process leaves the module as
far as it came, and every later load of the file brings that. -/
namespace Wiring.Modules.Host
variable {p q : Host} {suffix path location : String} {exports : Exports} {e : Failure} {m : Module}

/-- Neither the file system nor the process has a module of the file. -/
structure Unloaded (p : Host) (path : String) : Prop where
  found : p.found.get? path = none
  byFile : p.byFile.get? path = none

/-- The process has kept this module for the file, and the file system has found no other there. -/
structure Retains (p : Host) (path : String) (m : Module) : Prop where
  byFile : p.byFile.get? path = some m
  found : ∀ m', p.found.get? path = some m' → m' = m

/-- The file is a program, and it is loaded by itself since no name would import it. -/
structure LoadsAlone (p : Host) (suffix path : String) : Prop where
  unnamed : p.importableName suffix path = none
  program : Text.endsWith path programSuffix = true

def withDisk (p : Host) (disk : Disk) : Host := { p with disk }

def withFound (p : Host) (found : Table Module) : Host := { p with found }

theorem SameSearch.loadsAlone (h : p.SameSearch q) (halone : p.LoadsAlone suffix path) :
    q.LoadsAlone suffix path :=
  ⟨(h.importableName suffix path).trans halone.unnamed, halone.program⟩

/-! One load of the file. -/

theorem LoadsAlone.loadFresh (h : p.LoadsAlone suffix path) :
    loadFresh suffix path p = loadFromFile path p := by
  rw [Host.loadFresh, importIfNamed, bind_assoc, Act.get_bind_apply, h.unnamed]
  rfl

theorem LoadsAlone.loadAt_of_raising (h : p.LoadsAlone suffix path)
    (hfile : p.findFile suffix location = .ok path) (hnew : p.Unloaded path)
    (hrun : p.run path = (exports, some e)) :
    (loadAt suffix location).result p = .error e ∧ (loadAt suffix location).after p =
      if e.reach = .fatal then p.keepFile path (p.newModule ⟨some path, []⟩ exports) else p := by
  have hload := h.loadFresh.trans (loadFromFile_of_raising hnew.byFile h.program hrun)
  have hfails : (Host.loadFresh suffix path).result p = .error e := by rw [Act.result, hload]
  obtain ⟨hresult, hafter⟩ := loadAt_new_of_error hfile hnew.found hfails
  rw [hresult, hafter, Act.after, hload]
  exact ⟨rfl, rfl⟩

theorem LoadsAlone.view_loadAt (h : p.LoadsAlone suffix path)
    (hfile : p.findFile suffix location = .ok path) (hnew : p.Unloaded path) :
    ((loadAt suffix location).result p).map Module.view = p.viewOf ⟨some path, []⟩ := by
  have hplace : p.placeView suffix path = p.viewOf ⟨some path, []⟩ := by
    simp only [placeView, hnew.found, freshView, h.unnamed, fileView, hnew.byFile, h.program,
      viewOf]
    rcases hrun : p.run path with ⟨exports, _ | e⟩
    · simp [hrun, Except.bind]
    · simp [hrun, Except.bind]
  rw [loadAt_view, hfile]
  exact hplace

theorem Retains.keepFound (h : p.Retains path m) : (p.keepFound path m).Retains path m where
  byFile := h.byFile
  found m' hm' := by
    rw [Host.keepFound, Table.get?_set, if_pos rfl] at hm'
    exact (Option.some.inj hm').symm

theorem Retains.loadAt (h : p.Retains path m) (halone : p.LoadsAlone suffix path)
    (hfile : p.findFile suffix location = .ok path) :
    (loadAt suffix location).result p = .ok m ∧
      ((loadAt suffix location).after p).Retains path m := by
  cases hfound : p.found.get? path with
  | some m' =>
    rw [Act.result, Act.after, loadAt_of_found hfile hfound, h.found m' hfound]
    exact ⟨rfl, h⟩
  | none =>
    have hload := halone.loadFresh.trans (loadFromFile_of_kept h.byFile)
    have hloads : (loadFresh suffix path).result p = .ok m := by rw [Act.result, hload]
    obtain ⟨hresult, hafter⟩ := loadAt_new_of_ok hfile hfound hloads
    rw [hresult, hafter, Act.after, hload]
    exact ⟨rfl, h.keepFound⟩

theorem viewOf_of_raising (hrun : p.run path = (exports, some e)) :
    p.viewOf ⟨some path, []⟩ = .error e := by
  rw [viewOf, Option.map_some, Option.getD_some, hrun]

theorem Unloaded.retains_keepFile (h : p.Unloaded path) (m : Module) :
    (p.keepFile path m).Retains path m where
  byFile := by rw [keepFile, Table.get?_set, if_pos rfl]
  found m' hm' := by
    have hm' : p.found.get? path = some m' := hm'
    rw [h.found] at hm'
    cases hm'

/-! Loads of other files. -/

/-- The disk is the same, and what was kept or found for other files is as it was. -/
structure Spares (p : Host) (path : String) (q : Host) : Prop extends SameNames p q where
  found : ∀ other, other ≠ path → q.found.get? other = p.found.get? other
  byFile : ∀ other, other ≠ path → q.byFile.get? other = p.byFile.get? other

theorem Agrees.spares (h : p.Agrees q) (path : String) : p.Spares path q where
  toSameNames := h.toSameNames
  found _ _ := by rw [h.found]
  byFile _ _ := by rw [h.byFile]

theorem sameNames_keepFile (p : Host) (path : String) (m : Module) :
    p.SameNames (p.keepFile path m) :=
  p.sameNames_files _ _ _

theorem Spares.keepFile (h : p.Spares path q) (m : Module) : p.Spares path (q.keepFile path m) where
  toSameNames := h.toSameNames.trans (q.sameNames_keepFile path m)
  found := h.found
  byFile other hne := by rw [Host.keepFile, Table.get?_set, if_neg hne, h.byFile other hne]

theorem Spares.keepFound (h : p.Spares path q) (m : Module) :
    p.Spares path (q.keepFound path m) where
  toSameNames := h.toSameNames.trans (q.sameNames_files _ _ _)
  found other hne := by rw [Host.keepFound, Table.get?_set, if_neg hne, h.found other hne]
  byFile := h.byFile

theorem spares_loadFresh (p : Host) (suffix path : String) :
    p.Spares path ((loadFresh suffix path).after p) := by
  obtain ⟨-, hagrees⟩ := importIfNamed_view p suffix path
  have hspares := hagrees.spares path
  obtain ⟨e, -, -, hafter⟩ | ⟨m, -, -, hafter⟩ | ⟨-, -, hafter⟩ := loadFresh_steps p suffix path
  · rwa [hafter]
  · rwa [hafter]
  · obtain hsame | hkept := loadFromFile_after ((importIfNamed suffix path).after p) path
    · rwa [hafter, hsame]
    · rw [hafter, hkept]
      exact hspares.keepFile _

theorem spares_loadAt (hfile : p.findFile suffix location = .ok path) :
    p.Spares path ((loadAt suffix location).after p) := by
  cases hfound : p.found.get? path with
  | some m =>
    rw [Act.after, loadAt_of_found hfile hfound]
    exact (Agrees.refl p).spares path
  | none =>
    have hspares := spares_loadFresh p suffix path
    cases hresult : (loadFresh suffix path).result p with
    | error e =>
      rw [(loadAt_new_of_error hfile hfound hresult).2]
      exact hspares
    | ok m =>
      rw [(loadAt_new_of_ok hfile hfound hresult).2]
      exact hspares.keepFound m

theorem loadAt_finds_or_spares (p : Host) (suffix location path : String) :
    p.findFile suffix location = .ok path ∨
      ((loadAt suffix location).after p).run path = p.run path ∧
      ((loadAt suffix location).after p).found.get? path = p.found.get? path ∧
      ((loadAt suffix location).after p).byFile.get? path = p.byFile.get? path := by
  cases hfile : p.findFile suffix location with
  | error e =>
    rw [Act.after, loadAt_of_missing hfile]
    exact .inr ⟨rfl, rfl, rfl⟩
  | ok other =>
    by_cases hother : other = path
    · exact .inl (congrArg _ hother)
    · have hspares := spares_loadAt hfile
      have hne : path ≠ other := fun h => hother h.symm
      refine .inr ⟨?_, hspares.found path hne, hspares.byFile path hne⟩
      simp only [run, hspares.disk, hspares.workingDir]

/-! What comes later. -/

/-- What becomes of a process that loads this file and others, where no name imports the file. It
turns to other file systems from time to time, none of which has found the file before. -/
inductive Later (path : String) (p : Host) : Host → Prop where
  | now : Later path p p
  | load {q : Host} (h : Later path p q) (suffix location : String)
      (halone : q.LoadsAlone suffix path) : Later path p ((loadAt suffix location).after q)
  | turn {q : Host} (h : Later path p q) (found : Table Module)
      (hnew : found.get? path = none) : Later path p (q.withFound found)

/-- A program that fails in an ordinary way is never kept. -/
theorem Unloaded.later (hnew : p.Unloaded path) (hrun : p.run path = (exports, some e))
    (hordinary : e.reach ≠ .fatal) (h : p.Later path q) :
    q.Unloaded path ∧ q.run path = (exports, some e) := by
  induction h with
  | now => exact ⟨hnew, hrun⟩
  | @load q _ suffix location halone ih =>
    obtain ⟨hq, hqrun⟩ := ih
    obtain hfile | ⟨hsame, hfound, hbyFile⟩ := loadAt_finds_or_spares q suffix location path
    · rw [(halone.loadAt_of_raising hfile hq hqrun).2, if_neg hordinary]
      exact ⟨hq, hqrun⟩
    · exact ⟨⟨hfound.trans hq.found, hbyFile.trans hq.byFile⟩, hsame.trans hqrun⟩
  | turn _ found hfound ih => exact ⟨⟨hfound, ih.1.byFile⟩, ih.2⟩

/-- What was kept for the file stays. -/
theorem Retains.later (hm : p.Retains path m) (h : p.Later path q) : q.Retains path m := by
  induction h with
  | now => exact hm
  | @load q _ suffix location halone ih =>
    obtain hfile | ⟨-, hfound, hbyFile⟩ := loadAt_finds_or_spares q suffix location path
    · exact (ih.loadAt halone hfile).2
    · exact ⟨hbyFile.trans ih.byFile, fun m' hm' => ih.found m' (hfound.symm.trans hm')⟩
  | turn _ found hfound ih =>
    refine ⟨ih.byFile, fun m' hm' => ?_⟩
    have hm' : found.get? path = some m' := hm'
    rw [hfound] at hm'
    cases hm'

/-- A program that is loaded by itself and fails in its run: the failure comes out, and the file
system has found nothing. After an ordinary failure nothing at all has changed, and however the
process goes on, no module of the file is kept, and a load of it brings what a run of it gives then.
A failure that ends the process leaves the module as far as it came, and however the process goes
on, a load of the file brings that, whatever a run of it would give. -/
theorem loadAt_raising (halone : p.LoadsAlone suffix path)
    (hfile : p.findFile suffix location = .ok path) (hnew : p.Unloaded path)
    (hrun : p.run path = (exports, some e)) :
    let q := (loadAt suffix location).after p
    (loadAt suffix location).result p = .error e ∧ q.found = p.found ∧
    (e.reach ≠ .fatal → q = p ∧ ∀ r, q.Later path r → r.Unloaded path ∧
      ∀ suffix' other disk, (r.withDisk disk).LoadsAlone suffix' path →
        (r.withDisk disk).findFile suffix' other = .ok path →
        ((loadAt suffix' other).result (r.withDisk disk)).map Module.view =
          (r.withDisk disk).viewOf ⟨some path, []⟩) ∧
    (e.reach = .fatal → ∃ m : Module, m.view = (⟨some path, []⟩, exports) ∧
      q.byFile.get? path = some m ∧ ∀ r, q.Later path r →
      ∀ suffix' other disk, (r.withDisk disk).LoadsAlone suffix' path →
        (r.withDisk disk).findFile suffix' other = .ok path →
        (loadAt suffix' other).result (r.withDisk disk) = .ok m) := by
  intro q
  obtain ⟨hresult, hafter⟩ := halone.loadAt_of_raising hfile hnew hrun
  refine ⟨hresult, ?_, fun hordinary => ?_, fun hfatal => ?_⟩
  · show ((loadAt suffix location).after p).found = p.found
    rw [hafter]
    split <;> rfl
  · have hq : q = p := hafter.trans (if_neg hordinary)
    refine ⟨hq, fun r hr => ?_⟩
    obtain ⟨hunloaded, -⟩ := hnew.later hrun hordinary (hq ▸ hr)
    exact ⟨hunloaded, fun suffix' other disk halone' hfile' =>
      halone'.view_loadAt hfile' ⟨hunloaded.found, hunloaded.byFile⟩⟩
  · have hq : q = _ := hafter.trans (if_pos hfatal)
    have hretains : q.Retains path (p.newModule ⟨some path, []⟩ exports) := by
      rw [hq]
      exact hnew.retains_keepFile _
    refine ⟨_, rfl, hretains.byFile, fun r hr suffix' other disk halone' hfile' => ?_⟩
    have hr' := hretains.later hr
    have hdisk : (r.withDisk disk).Retains path (p.newModule ⟨some path, []⟩ exports) :=
      ⟨hr'.byFile, hr'.found⟩
    exact (hdisk.loadAt halone' hfile').1

def failingMailer (e : Failure) : Host where
  disk := ({} : Disk).add "/tmp/bp/mailer.py"
    (.program { raises := some e })

def brokenMailer : Host := failingMailer (.raised .ordinary "RuntimeError" "no mail")

def quittingMailer : Host := failingMailer (.raised .fatal "SystemExit" "stopped")

theorem failingMailer_loadsAlone (e : Failure) :
    (failingMailer e).LoadsAlone ".py" "/tmp/bp/mailer.py" :=
  ⟨rfl, by decide⟩

theorem failingMailer_unloaded (e : Failure) : (failingMailer e).Unloaded "/tmp/bp/mailer.py" :=
  ⟨rfl, rfl⟩

/-- An ordinary failure comes again, also in a file system that is new. -/
theorem brokenMailer_fails_again :
    brokenMailer.LoadsAlone ".py" "/tmp/bp/mailer.py" ∧
      brokenMailer.findFile ".py" "/tmp/bp/mailer" = .ok "/tmp/bp/mailer.py" ∧
      brokenMailer.Unloaded "/tmp/bp/mailer.py" ∧
      ∃ exports,
        brokenMailer.run "/tmp/bp/mailer.py" =
          (exports, some (.raised .ordinary "RuntimeError" "no mail")) ∧
        (loadAt ".py" "/tmp/bp/mailer").after brokenMailer = brokenMailer ∧
        ((loadAt ".py" "/tmp/bp/mailer").result (brokenMailer.withFound ∅)).map Module.view =
          .error (.raised .ordinary "RuntimeError" "no mail") := by
  have halone : brokenMailer.LoadsAlone ".py" "/tmp/bp/mailer.py" := failingMailer_loadsAlone _
  have hnew : brokenMailer.Unloaded "/tmp/bp/mailer.py" := failingMailer_unloaded _
  have hfile : brokenMailer.findFile ".py" "/tmp/bp/mailer" = .ok "/tmp/bp/mailer.py" := by
    decide +kernel
  have hfault : (brokenMailer.run "/tmp/bp/mailer.py").2 =
      some (.raised .ordinary "RuntimeError" "no mail") := by decide +kernel
  obtain ⟨exports, hrun⟩ : ∃ exports, brokenMailer.run "/tmp/bp/mailer.py" =
      (exports, some (.raised .ordinary "RuntimeError" "no mail")) := ⟨_, Prod.ext rfl hfault⟩
  obtain ⟨-, -, hordinary, -⟩ := loadAt_raising halone hfile hnew hrun
  obtain ⟨hsame, hlater⟩ := hordinary nofun
  rw [hsame] at hlater
  obtain ⟨-, hagain⟩ := hlater (brokenMailer.withFound ∅) (.turn .now ∅ rfl)
  have hview := hagain ".py" "/tmp/bp/mailer" brokenMailer.disk halone hfile
  exact ⟨halone, hfile, hnew, exports, hrun, hsame, hview.trans (viewOf_of_raising hrun)⟩

/-- A module that ends the process in its run is there from then on, half done. -/
theorem quittingMailer_stays :
    quittingMailer.importableName ".py" "/tmp/bp/mailer.py" = none ∧
      (loadAt ".py" "/tmp/bp/mailer").result quittingMailer =
        .error (.raised .fatal "SystemExit" "stopped") ∧
      ∃ m,
        ((loadAt ".py" "/tmp/bp/mailer").after quittingMailer).byFile.get? "/tmp/bp/mailer.py" =
          some m ∧
        (loadAt ".py" "/tmp/bp/mailer").result
          ((loadAt ".py" "/tmp/bp/mailer").after quittingMailer) = .ok m := by
  have halone : quittingMailer.LoadsAlone ".py" "/tmp/bp/mailer.py" := failingMailer_loadsAlone _
  have hnew : quittingMailer.Unloaded "/tmp/bp/mailer.py" := failingMailer_unloaded _
  have hfile : quittingMailer.findFile ".py" "/tmp/bp/mailer" = .ok "/tmp/bp/mailer.py" := by
    decide +kernel
  have hfault : (quittingMailer.run "/tmp/bp/mailer.py").2 =
      some (.raised .fatal "SystemExit" "stopped") := by decide +kernel
  obtain ⟨exports, hrun⟩ : ∃ exports, quittingMailer.run "/tmp/bp/mailer.py" =
      (exports, some (.raised .fatal "SystemExit" "stopped")) := ⟨_, Prod.ext rfl hfault⟩
  obtain ⟨hresult, hafter⟩ := halone.loadAt_of_raising hfile hnew hrun
  rw [if_pos (show Failure.reach (.raised .fatal "SystemExit" "stopped") = .fatal from rfl)] at hafter
  have hretains := hnew.retains_keepFile
    (quittingMailer.newModule ⟨some "/tmp/bp/mailer.py", []⟩ exports)
  have hsame := quittingMailer.sameNames_keepFile "/tmp/bp/mailer.py"
    (quittingMailer.newModule ⟨some "/tmp/bp/mailer.py", []⟩ exports)
  have hagain := hretains.loadAt (hsame.loadsAlone halone)
    ((hsame.findFile ".py" "/tmp/bp/mailer").trans hfile)
  rw [hafter]
  exact ⟨halone.unnamed, hresult, _, hretains.byFile, hagain.1⟩

end Wiring.Modules.Host
