import Wiring.Proofs.Modules.Host.Steady
import Wiring.Proofs.Modules.Stored

/-! A process that has loaded nothing yet, on a disk with the modules of a memory. Whatever way it
takes to load a file, by a name or by itself, it gets what is stored there. -/
namespace Wiring.Modules.Host
variable {p : Host} {m : Memory} {path : String} {exports : Exports}

/-- The process has loaded nothing, its disk has the modules of the memory, and the place where it
works is no file. -/
structure Fresh (p : Host) (m : Memory) : Prop where
  disk : p.disk = m.disk
  byName : p.byName = ∅
  byFile : p.byFile = ∅
  found : p.found = ∅
  workingDir : Disk.fullPath p.workingDir.segments ∉ m.modules.names

structure Offers (p : Host) (m : Memory) (path : String) (exports : Exports) : Prop where
  stored : m.modules.get? (p.realPath path) = some exports
  run : p.run path = (exports, none)

theorem offers_of_look (hdisk : p.disk = m.disk) {c : Content}
    (h : p.disk.look p.workingDir path = .ok (.file c)) : ∃ exports, p.Offers m path exports := by
  have hentry := Disk.entry?_of_look h
  rw [hdisk] at hentry
  obtain ⟨exports, hstored, rfl⟩ := Memory.get?_of_entry?_disk hentry
  exact ⟨exports, hstored, by rw [Host.run, Disk.openFile, h]⟩

theorem exists_look_of_isFile (h : p.isFile path = true) :
    ∃ c, p.disk.look p.workingDir path = .ok (.file c) := by
  rw [isFile, Disk.isFile, Bool.and_eq_true] at h
  obtain ⟨-, hfile⟩ := h
  split at hfile
  · next c hlook => exact ⟨c, hlook⟩
  · cases hfile

theorem offers_of_isFile (hdisk : p.disk = m.disk) (h : p.isFile path = true) :
    ∃ exports, p.Offers m path exports := by
  obtain ⟨c, hlook⟩ := exists_look_of_isFile h
  exact offers_of_look hdisk hlook

theorem run_eq (hdisk : p.disk = m.disk) (path : String) : ∃ exports, p.run path = (exports, none) := by
  cases hlook : p.disk.look p.workingDir path with
  | error f => exact ⟨∅, by rw [Host.run, Disk.openFile, hlook]⟩
  | ok e =>
    cases e with
    | directory => exact ⟨∅, by rw [Host.run, Disk.openFile, hlook]⟩
    | file c =>
      obtain ⟨exports, hoffers⟩ := offers_of_look hdisk hlook
      exact ⟨exports, hoffers.run⟩

/-! Names. -/

theorem isFile_of_specIn {name directory file : String} {spec : Spec}
    (h : p.specIn name directory = some spec) (hfile : spec.file = some file) :
    p.isFile file = true := by
  simp only [specIn] at h
  split at h
  · next hpackage =>
    obtain rfl := Option.some.inj h
    exact Option.some.inj hfile ▸ hpackage
  · split at h
    · next hmodule =>
      obtain rfl := Option.some.inj h
      exact Option.some.inj hfile ▸ hmodule
    · split at h
      · obtain rfl := Option.some.inj h
        cases hfile
      · cases h

theorem isFile_of_specAmong {name file : String} {directories : List String} {spec : Spec}
    (h : p.specAmong name directories = some spec) (hfile : spec.file = some file) :
    p.isFile file = true := by
  rw [specAmong] at h
  split at h
  · next found hfound =>
    cases h
    obtain ⟨directory, -, hspec⟩ := List.mem_filterMap.mp (List.mem_of_find?_eq_some hfound)
    exact isFile_of_specIn hspec hfile
  · split at h
    · cases h
    · cases h
      cases hfile

theorem isFile_of_specBelow {outer part file : String} {holder : Option Spec} {spec : Spec}
    (hnew : holder = none → p.byName.get? part = none)
    (h : p.specBelow outer holder part = .ok spec) (hfile : spec.file = some file) :
    p.isFile file = true := by
  unfold specBelow at h
  split at h
  · split at h
    · next found hfound =>
      cases h
      rw [specOf, hnew rfl] at hfound
      split at hfound
      · cases hfound
      · exact isFile_of_specAmong hfound hfile
    · cases h
  · split at h
    · split at h
      · next found hfound =>
        cases h
        exact isFile_of_specAmong hfound hfile
      · cases h
    · cases h

theorem reach_of_specBelow {outer part : String} {holder : Option Spec} {e : Failure}
    (h : p.specBelow outer holder part = .error e) : e.reach = .importing := by
  unfold specBelow at h
  split at h
  · split at h
    · cases h
    · cases h
      rfl
  · split at h
    · split at h
      · cases h
      · cases h
        rfl
    · cases h
      rfl

theorem viewOf_eq (hdisk : p.disk = m.disk) (spec : Spec) :
    ∃ exports, p.viewOf spec = .ok (spec, exports) ∧
      ∀ file, spec.file = some file → p.run file = (exports, none) := by
  rw [viewOf]
  cases hfile : spec.file with
  | none =>
    refine ⟨∅, rfl, ?_⟩
    rintro file ⟨⟩
  | some file =>
    obtain ⟨exports, hrun⟩ := run_eq hdisk file
    refine ⟨exports, by simp [hrun], ?_⟩
    rintro other ⟨⟩
    exact hrun

theorem Fresh.meaning (h : p.Fresh m) (path : List String) :
    (∀ e, p.meaning path = .error e → e.reach = .importing) ∧
      ∀ v, p.meaning path = .ok (some v) → ∀ file, v.1.file = some file →
        p.isFile file = true ∧ p.run file = (v.2, none) := by
  induction path with
  | nil =>
    constructor
    · rintro e ⟨⟩
    · rintro v ⟨⟩
  | cons part outer ih =>
    rw [Host.meaning, h.byName, Table.get?_empty]
    cases houter : p.meaning outer with
    | error e =>
      constructor
      · rintro e' ⟨⟩
        exact ih.1 e houter
      · rintro v ⟨⟩
    | ok holder =>
      cases hspec : p.specBelow (dotted outer) (holder.map Prod.fst) part with
      | error e =>
        simp only [Except.bind, Except.map, hspec]
        constructor
        · rintro e' ⟨⟩
          exact reach_of_specBelow hspec
        · rintro v ⟨⟩
      | ok spec =>
        obtain ⟨exports, hview, hrun⟩ := viewOf_eq h.disk spec
        simp only [Except.bind, Except.map, hspec, hview]
        constructor
        · rintro e' ⟨⟩
        · rintro v ⟨⟩ file hfile
          have hnew : p.byName.get? part = none := by rw [h.byName, Table.get?_empty]
          exact ⟨isFile_of_specBelow (fun _ => hnew) hspec hfile, hrun file hfile⟩

/-! Files. -/

theorem realPath_blank (p : Host) : p.realPath "" = Disk.fullPath p.workingDir.segments := by
  rw [realPath, absolute, Path.absolute, if_neg (by decide), Disk.segmentsOf,
    Path.normalSegments_normal, Path.normalSegments_join p.workingDir.isAbsolute rfl]
  simp [Text.split, Path.climb_blank, Location.segments, Disk.segmentsOf]

theorem Fresh.realPath_blank_ne (h : p.Fresh m) (hoffers : p.Offers m path exports) :
    p.realPath "" ≠ p.realPath path := by
  intro hplace
  have hmem := Table.mem_names_of_get? hoffers.stored
  rw [← hplace, realPath_blank] at hmem
  exact h.workingDir hmem

theorem Fresh.importedView (h : p.Fresh m) (hoffers : p.Offers m path exports) (name : String) :
    ∃ found, p.importedView path name = .ok found ∧ ∀ v, found = some v → v.2 = exports := by
  obtain ⟨hfails, hviews⟩ := h.meaning (partsOf name).reverse
  cases hview : p.importedView path name with
  | error e =>
    rw [Host.importedView] at hview
    cases hmeaning : p.meaning (partsOf name).reverse with
    | error e' => simp [hmeaning, hfails e' hmeaning] at hview
    | ok found => simp [hmeaning] at hview
  | ok found =>
    refine ⟨found, rfl, ?_⟩
    rintro v rfl
    obtain ⟨hmeaning, file, hfile, hplace⟩ :=
      exists_of_importedView (h.realPath_blank_ne hoffers) hview
    obtain ⟨hisFile, hrun⟩ := hviews v hmeaning file hfile
    obtain ⟨exports', hoffers'⟩ := offers_of_isFile h.disk hisFile
    have hstored := hoffers'.stored
    rw [hplace, hoffers.stored] at hstored
    have hsame : (v.2, none) = (exports', none) := hrun.symm.trans hoffers'.run
    rw [(Prod.mk.inj hsame).1, Option.some.inj hstored]

theorem Fresh.fileView (h : p.Fresh m) (hoffers : p.Offers m path exports) : p.fileView path =
    if Text.endsWith path programSuffix then .ok (⟨some path, []⟩, exports)
    else .error (.unresolved path (some .notLoadable)) := by
  rw [Host.fileView, h.byFile, Table.get?_empty]
  simp [hoffers.run]

end Wiring.Modules.Host
