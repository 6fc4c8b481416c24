import Wiring.Proofs.Modules.Files

/-! Loading brings the module of the file that is found, whatever was loaded before, and keeps it:
from then on every location of this file brings that same module, and nothing is run for it. -/
namespace Wiring

theorem Location.exists_fullPath (l : Location) :
    ∃ l' : Location, l'.text = Disk.fullPath l.segments ∧ l'.segments = l.segments := by
  have hrooted : (l.slashes != 0) = (1 != 0) := by
    rw [bne_iff_ne.mpr l.slashes_ne_zero]
    rfl
  have hsettled : Path.Settled (l.slashes != 0) l.segments.reverse := l.normalForm.settled
  have hform : Path.NormalForm 1 l.segments := ⟨by decide, hrooted ▸ hsettled, l.normalForm.clean⟩
  exact ⟨ofSegments Nat.one_ne_zero hform, rfl, hform.normalSegments_eq⟩

namespace Modules.Host
variable {p q r : Host} {suffix path : String} {m : Module}

/-! Places. -/

theorem look_realPath (hnested : p.disk.Nested) {e : Disk.Entry}
    (h : p.disk.look p.workingDir path = .ok e) :
    p.disk.look p.workingDir (p.realPath path) = .ok e := by
  obtain ⟨l, hl⟩ := p.workingDir.exists_absolute path
  obtain ⟨l', htext, hsegments⟩ := l.exists_fullPath
  have hplace : l.segments = Disk.segmentsOf (p.absolute path) := congrArg Disk.segmentsOf hl
  have hlook := look_of_segments hnested h (hsegments.trans hplace)
  rwa [realPath, ← hplace, ← htext]

theorem run_realPath (hnested : p.disk.Nested) {c : Content}
    (h : p.disk.look p.workingDir path = .ok (.file c)) :
    (p.run (p.realPath path)).1 = (p.run path).1 := by
  simp only [run, Disk.openFile, h, look_realPath hnested h]
  cases c <;> rfl

/-! Modules of files. -/

/-- What the process has kept offers what the files that it names offer. -/
def Faithful (p : Host) : Prop :=
  ∀ key m file, p.byName.get? key = some m ∨ p.byFile.get? key = some m →
    m.spec.file = some file → m.exports = (p.run (p.realPath file)).1

/-- The module names this very file. It offers what the file does, as far as that holds of what the
process has kept. -/
structure ModuleOf (p : Host) (path : String) (m : Module) : Prop where
  file : ∃ file, m.spec.file = some file ∧ p.realPath file = p.realPath path
  exports : p.Faithful → m.exports = (p.run (p.realPath path)).1

theorem exports_of_meaning (hnested : p.disk.Nested) (hfaithful : p.Faithful) {names : List String}
    {v : View} {file : String} (h : p.meaning names = .ok (some v)) (hfile : v.1.file = some file) :
    v.2 = (p.run (p.realPath file)).1 := by
  cases names with
  | nil => cases h
  | cons part outer =>
    obtain ⟨holder, v', houter, hfound, hcases⟩ := meaning_cons_cases h
    obtain rfl := Option.some.inj hfound
    obtain ⟨kept, hkept, rfl⟩ | ⟨hnew, spec, hspec, hview⟩ := hcases
    · exact hfaithful _ kept file (.inl hkept) hfile
    · have hfirst : holder.map Prod.fst = none → p.byName.get? part = none := by
        intro hnone
        obtain rfl : holder = none := Option.map_eq_none_iff.mp hnone
        obtain rfl := eq_nil_of_meaning houter
        exact hnew
      rw [spec_of_viewOf hview] at hfile
      obtain ⟨c, hlook⟩ := exists_look_of_isFile (isFile_of_specBelow hfirst hspec hfile)
      rw [run_realPath hnested hlook, run_of_viewOf hview hfile]

/-- A process whose file system is new. A module that it already has for the path of a file is one
of that file. -/
structure Started (p : Host) : Prop where
  found : p.found = ∅
  byFile : ∀ path m, p.byFile.get? path = some m → m.spec.file = some path
  disk : p.disk.Nested
  workingDir : p.isDirectory p.workingDir.text = true

theorem Started.realPath_blank_ne (hp : p.Started) {c : Content}
    (hlook : p.disk.look p.workingDir path = .ok (.file c)) :
    p.realPath "" ≠ p.realPath path := by
  intro hplace
  have hworking : p.disk.look p.workingDir p.workingDir.text = .ok .directory := by
    have hdirectory := hp.workingDir
    unfold isDirectory at hdirectory
    split at hdirectory
    · assumption
    · cases hdirectory
  have hdirectory := hp.disk.look_eq_ok_iff.mp hworking
  have hfile := Disk.entry?_of_look hlook
  rw [realPath_blank, realPath, absolute] at hplace
  unfold Disk.entry? at hdirectory hfile
  rw [hplace] at hdirectory
  split at hdirectory
  · cases hdirectory
  · next hnone => simp [hnone] at hfile

theorem Started.moduleOf_imported (hp : p.Started) {c : Content}
    (hlook : p.disk.look p.workingDir path = .ok (.file c)) {name : String}
    (h : p.importedView path name = .ok (some m.view)) : p.ModuleOf path m := by
  obtain ⟨hmeaning, file, hfile, hplace⟩ := exists_of_importedView (hp.realPath_blank_ne hlook) h
  refine ⟨⟨file, hfile, hplace⟩, fun hfaithful => ?_⟩
  rw [← hplace]
  exact exports_of_meaning hp.disk hfaithful hmeaning hfile

/-! Loading. -/

theorem loadFromFile_after (p : Host) (path : String) : (loadFromFile path).after p = p ∨
    (loadFromFile path).after p =
      p.keepFile path (p.newModule ⟨some path, []⟩ (p.run path).1) := by
  obtain ⟨e, -, -, hsame | ⟨-, hkept⟩⟩ | ⟨m, -, -, ⟨hsame, -⟩ | ⟨hkept, rfl⟩⟩ :=
    loadFromFile_cases p path
  · exact .inl hsame
  · exact .inr hkept
  · exact .inl hsame
  · exact .inr hkept

theorem loadFromFile_result (h : (loadFromFile path).result p = .ok m) :
    p.byFile.get? path = some m ∨ m = p.newModule ⟨some path, []⟩ (p.run path).1 := by
  obtain ⟨e, -, hresult, -⟩ | ⟨m', -, hresult, ⟨-, hkept⟩ | ⟨-, hnew⟩⟩ := loadFromFile_cases p path
  · rw [h] at hresult
    cases hresult
  · obtain rfl := Except.ok.inj (h.symm.trans hresult)
    exact .inl hkept
  · obtain rfl := Except.ok.inj (h.symm.trans hresult)
    exact .inr hnew

/-- What the process has after some loads. Names mean what they meant, and whatever is kept for a
file or was found there is a module of it. -/
structure Keeps (p q : Host) : Prop extends SameNames p q where
  byFile : ∀ path m, q.byFile.get? path = some m → p.ModuleOf path m
  found : ∀ path m, q.found.get? path = some m → p.ModuleOf path m

theorem Started.keeps (hp : p.Started) : p.Keeps p where
  toSameNames := (Agrees.refl p).toSameNames
  byFile path m hm :=
    ⟨⟨path, hp.byFile path m hm, rfl⟩, fun hfaithful =>
      hfaithful path m path (.inr hm) (hp.byFile path m hm)⟩
  found path m hm := by
    rw [hp.found] at hm
    cases hm

theorem Keeps.agrees (h : p.Keeps q) (h' : q.Agrees r) : p.Keeps r where
  toSameNames := h.toSameNames.trans h'.toSameNames
  byFile := h'.byFile ▸ h.byFile
  found := h'.found ▸ h.found

theorem Keeps.keepFile (h : p.Keeps q) (hm : p.ModuleOf path m) : p.Keeps (q.keepFile path m) where
  toSameNames := h.toSameNames.trans (q.sameNames_files _ _ _)
  byFile := Table.forall_get?_set h.byFile hm
  found := h.found

theorem Keeps.keepFound (h : p.Keeps q) (hm : p.ModuleOf path m) :
    p.Keeps (q.keepFound path m) where
  toSameNames := h.toSameNames.trans (q.sameNames_files _ _ _)
  byFile := h.byFile
  found := Table.forall_get?_set h.found hm

structure Brings (p q : Host) (path : String) (load : Act Host Module) : Prop where
  keeps : p.Keeps (load.after q)
  found : (load.after q).found = q.found
  result : ∀ m, load.result q = .ok m → p.ModuleOf path m

theorem Keeps.brings_file (h : p.Keeps q) (hp : p.Started) {c : Content}
    (hlook : p.disk.look p.workingDir path = .ok (.file c)) :
    p.Brings q path (loadFromFile path) := by
  have hrun : q.run path = p.run path := by simp only [run, h.disk, h.workingDir]
  have hnew : p.ModuleOf path (q.newModule ⟨some path, []⟩ (q.run path).1) :=
    ⟨⟨path, rfl, rfl⟩, fun _ => by rw [run_realPath hp.disk hlook, hrun]; rfl⟩
  refine ⟨?_, ?_, fun m hm => ?_⟩
  · obtain hafter | hafter := loadFromFile_after q path
    · rwa [hafter]
    · rw [hafter]
      exact h.keepFile hnew
  · obtain hafter | hafter := loadFromFile_after q path
    · rw [hafter]
    · rw [hafter]
      rfl
  · obtain hkept | rfl := loadFromFile_result hm
    · exact h.byFile path m hkept
    · exact hnew

theorem Keeps.brings_fresh (h : p.Keeps q) (hp : p.Started) {c : Content}
    (hlook : p.disk.look p.workingDir path = .ok (.file c)) :
    p.Brings q path (loadFresh suffix path) := by
  obtain ⟨hview, hagrees⟩ := importIfNamed_view q suffix path
  have hkeeps := h.agrees hagrees
  obtain ⟨e, himported, hresult, hafter⟩ | ⟨m, himported, hresult, hafter⟩ |
    ⟨himported, hresult, hafter⟩ := loadFresh_steps q suffix path
  · refine ⟨hafter ▸ hkeeps, hafter ▸ hagrees.found, fun m hm => ?_⟩
    rw [hresult] at hm
    cases hm
  · refine ⟨hafter ▸ hkeeps, hafter ▸ hagrees.found, fun m' hm => ?_⟩
    obtain rfl := Except.ok.inj (hresult.symm.trans hm)
    rw [himported] at hview
    split at hview
    · next name _ =>
      exact hp.moduleOf_imported hlook ((h.importedView path name).symm.trans hview.symm)
    · cases hview
  · have hbrings := hkeeps.brings_file hp hlook
    exact ⟨hafter ▸ hbrings.keeps, hafter ▸ hbrings.found.trans hagrees.found,
      fun m hm => hbrings.result m (hresult ▸ hm)⟩

theorem findFile_eq_ok_iff {location : String} : p.findFile suffix location = .ok path ↔
    ∃ file, (candidates location suffix).find? p.isFile = some file ∧ p.absolute file = path := by
  rw [findFile]
  cases (candidates location suffix).find? p.isFile with
  | none => simp
  | some file => simp

theorem exists_look_of_findFile (hnested : p.disk.Nested) {location : String}
    (h : p.findFile suffix location = .ok path) :
    ∃ c, p.disk.look p.workingDir path = .ok (.file c) := by
  obtain ⟨file, hfound, rfl⟩ := findFile_eq_ok_iff.mp h
  obtain ⟨c, hlook⟩ := exists_look_of_isFile (List.find?_some hfound)
  exact ⟨c, look_absolute hnested hlook⟩

/-- What was found before stays found, and what is loaded is of the file found and is found from
then on. -/
theorem Keeps.load (h : p.Keeps q) (hp : p.Started) (suffix location : String) :
    p.Keeps ((loadAt suffix location).after q) ∧
      (∀ path m, q.found.get? path = some m →
        ((loadAt suffix location).after q).found.get? path = some m) ∧
      ∀ m, (loadAt suffix location).result q = .ok m → ∃ path,
        q.findFile suffix location = .ok path ∧ p.ModuleOf path m ∧
          ((loadAt suffix location).after q).found.get? path = some m := by
  cases hfile : q.findFile suffix location with
  | error e =>
    have hrun := loadAt_of_missing hfile
    rw [Act.after, Act.result, hrun]
    refine ⟨h, fun _ _ hm => hm, ?_⟩
    rintro m ⟨⟩
  | ok path =>
    cases hfound : q.found.get? path with
    | some m =>
      have hrun := loadAt_of_found hfile hfound
      rw [Act.after, Act.result, hrun]
      refine ⟨h, fun _ _ hm => hm, ?_⟩
      rintro m ⟨⟩
      exact ⟨path, rfl, h.found path m hfound, hfound⟩
    | none =>
      have hplace : p.findFile suffix location = .ok path :=
        (h.findFile suffix location).symm.trans hfile
      obtain ⟨c, hlook⟩ := exists_look_of_findFile hp.disk hplace
      have hbrings : p.Brings q path (loadFresh suffix path) := h.brings_fresh hp hlook
      cases hresult : (loadFresh suffix path).result q with
      | error e =>
        obtain ⟨hfails, hafter⟩ := loadAt_new_of_error hfile hfound hresult
        rw [hafter, hfails, hbrings.found]
        refine ⟨hbrings.keeps, fun _ _ hm => hm, ?_⟩
        rintro m ⟨⟩
      | ok m =>
        obtain ⟨hbrought, hafter⟩ := loadAt_new_of_ok hfile hfound hresult
        have hmodule := hbrings.result m hresult
        have hkept : ∀ other, ((loadAt suffix location).after q).found.get? other =
            if other = path then some m else q.found.get? other := by
          intro other
          rw [hafter, Host.keepFound, Table.get?_set, hbrings.found]
        refine ⟨hafter ▸ hbrings.keeps.keepFound hmodule, fun other m' hm => ?_, fun m' hm => ?_⟩
        · rw [hkept, if_neg, hm]
          rintro rfl
          rw [hfound] at hm
          cases hm
        · rw [hbrought] at hm
          obtain rfl := Except.ok.inj hm
          exact ⟨path, rfl, hmodule, by rw [hkept, if_pos rfl]⟩

theorem Keeps.afterLoads (h : p.Keeps q) (hp : p.Started) (suffix : String)
    (locations : List String) :
    p.Keeps (q.afterLoads suffix locations) :=
  afterLoads_induction (P := p.Keeps) (fun _ location hq => (hq.load hp suffix location).1) h
    locations

theorem Keeps.found_afterLoads (h : p.Keeps q) (hp : p.Started)
    (hm : q.found.get? path = some m) (locations : List String) :
    (q.afterLoads suffix locations).found.get? path = some m := by
  have hstep : ∀ r location, p.Keeps r ∧ r.found.get? path = some m →
      p.Keeps ((loadAt suffix location).after r) ∧
        ((loadAt suffix location).after r).found.get? path = some m := by
    rintro r location ⟨hr, hfound⟩
    obtain ⟨hkeeps, hstays, -⟩ := hr.load hp suffix location
    exact ⟨hkeeps, hstays path m hfound⟩
  exact (afterLoads_induction hstep ⟨h, hm⟩ locations).2

/-- Whatever was loaded before, a location brings a module of the very file that is found for it.
From then on every location of this file brings that same module. What was found is brought without
a look into any file, so nothing is run or logged for it and nothing changes. -/
theorem loadAt_found (hp : p.Started) (suffix : String) (earlier : List String) :
    let q := p.afterLoads suffix earlier
    (∀ location m, (loadAt suffix location).result q = .ok m →
      (∃ file, (candidates location suffix).find? p.isFile = some file ∧
        p.ModuleOf (p.absolute file) m) ∧
      ∀ later other,
        let r := ((loadAt suffix location).after q).afterLoads suffix later
        r.findFile suffix other = q.findFile suffix location →
          loadAt suffix other r = (⟨.ok m, []⟩, r)) ∧
    ∀ path m, q.found.get? path = some m → ∀ location disk,
      ({ q with disk } : Host).findFile suffix location = .ok path →
        loadAt suffix location { q with disk } = (⟨.ok m, []⟩, { q with disk }) := by
  intro q
  have hkeeps : p.Keeps q := hp.keeps.afterLoads hp suffix earlier
  refine ⟨fun location m hm => ?_, fun path m hm location disk hfile => loadAt_of_found hfile hm⟩
  obtain ⟨hafter, -, hloaded⟩ := hkeeps.load hp suffix location
  obtain ⟨path, hfile, hmodule, hfound⟩ := hloaded m hm
  constructor
  · rw [hkeeps.findFile] at hfile
    obtain ⟨file, hfirst, rfl⟩ := findFile_eq_ok_iff.mp hfile
    exact ⟨file, hfirst, hmodule⟩
  · intro later other r hsame
    exact loadAt_of_found (hsame.trans hfile) (hafter.found_afterLoads hp hfound later)

def shadowedMailers : Memory :=
  .ofList [("/lib/mailer.py", Table.ofList [("Mailer", .text "")]),
    ("/app/mailer.py", Table.ofList [("Postman", .text "")])] []

/-- The second mailer cannot be imported, for its name means the first. It is loaded all the same,
and once only. -/
theorem shadowed_mailer_found :
    let p : Host := { disk := shadowedMailers.disk, searchRoots := ["/lib", "/app"] }
    let q := p.afterLoads ".py" ["/lib/mailer"]
    ∃ m, (loadAt ".py" "/app/mailer").result q = .ok m ∧ p.ModuleOf "/app/mailer.py" m ∧
      m.exports.names = ["Postman"] ∧
      let r := ((loadAt ".py" "/app/mailer").after q).afterLoads ".py" ["/lib/mailer"]
      loadAt ".py" "/app/mailer.py" r = (⟨.ok m, []⟩, r) := by
  intro p q
  have hstorable : shadowedMailers.Storable := by
    constructor
    all_goals decide +kernel
  have hstarted : p.Started := by
    refine ⟨rfl, ?_, hstorable.nested, by decide +kernel⟩
    rintro path m ⟨⟩
  have hfaithful : p.Faithful := by
    rintro key m file (⟨⟨⟩⟩ | ⟨⟨⟩⟩)
  have hq : p.Keeps q := hstarted.keeps.afterLoads hstarted ".py" ["/lib/mailer"]
  have hloads : ((loadAt ".py" "/app/mailer").result q).toBool = true := by decide +kernel
  cases hload : (loadAt ".py" "/app/mailer").result q with
  | error e =>
    rw [hload] at hloads
    cases hloads
  | ok m =>
    obtain ⟨⟨file, hfirst, hmodule⟩, hagain⟩ :=
      (loadAt_found hstarted ".py" ["/lib/mailer"]).1 "/app/mailer" m hload
    have hfile : (candidates "/app/mailer" ".py").find? p.isFile = some "/app/mailer.py" := by
      decide +kernel
    obtain rfl : "/app/mailer.py" = file := Option.some.inj (hfile.symm.trans hfirst)
    have habsolute : p.absolute "/app/mailer.py" = "/app/mailer.py" := by decide +kernel
    rw [habsolute] at hmodule
    have hnames : (p.run (p.realPath "/app/mailer.py")).1.names = ["Postman"] := by decide +kernel
    rw [← hmodule.exports hfaithful] at hnames
    refine ⟨m, rfl, hmodule, hnames, hagain ["/lib/mailer"] "/app/mailer.py" ?_⟩
    have hr := (hq.load hstarted ".py" "/app/mailer").1.afterLoads hstarted ".py" ["/lib/mailer"]
    rw [hr.findFile, hq.findFile]
    decide +kernel

end Modules.Host
end Wiring
