import Wiring.Proofs.Modules.Present
import Wiring.Proofs.Modules.Search

/-! Relative specifiers. Each is looked for at its own place, seen from the directory, and what is
not there is found under no root either. -/
namespace Wiring
open Wiring.Path (Segment)

namespace Location

theorem split_child (l : Location) {s : Segment} (h : Path.IsName s) :
    Text.split '/' (l.child s h).text.toList =
      List.replicate l.slashes [] ++ (l.segments ++ [s]) := by
  rw [text_child, toList_ofSegments, Path.split_replicate_append,
    Path.split_join (by simp) (l.normalForm.concat h).clean]

theorem text_append_slash_prefix (l : Location) (hroot : l.segments ≠ []) {s : Segment}
    (h : Path.IsName s) : (l.text ++ "/").toList <+: (l.child s h).text.toList := by
  rw [text_append_slash_prefix_iff hroot (l.slashes_child h), below_iff, segments_child]
  exact ⟨List.prefix_append _ _, by simp⟩

theorem text_prefix_child (l : Location) {s : Segment} (h : Path.IsName s) :
    l.text.toList <+: (l.child s h).text.toList := by
  by_cases hroot : l.segments = []
  · rw [text_child, toList_ofSegments, l.toList_slashes, hroot]
    exact ⟨s, by simp [Text.join]⟩
  · have hbegins := l.text_append_slash_prefix hroot h
    rw [String.toList_append] at hbegins
    exact (List.prefix_append _ _).trans hbegins

theorem segments_ne_nil (l : Location) (h : l.text ≠ "/") (h' : l.text ≠ "//") :
    l.segments ≠ [] := by
  intro hroot
  have hle : l.slashes ≤ 2 := Path.rootSlashes_le _
  have htext := l.ofSegments_segments
  rw [hroot] at htext
  have hcases : l.slashes = 1 ∨ l.slashes = 2 := by
    have := l.slashes_ne_zero
    omega
  obtain hslashes | hslashes := hcases
  · rw [hslashes] at htext
    exact h htext.symm
  · rw [hslashes] at htext
    exact h' htext.symm

end Location

namespace Disk
variable {d : Disk} {w : Location}

theorem follow_append (place xs ys : List Segment) :
    d.follow place (xs ++ ys) = (d.follow place xs).bind (d.follow · ys) := by
  induction xs generalizing place with
  | nil => rfl
  | cons s xs ih =>
    rw [List.cons_append, follow, follow]
    split
    · rfl
    · rfl
    · split
      · exact ih place
      · split
        · exact ih place.dropLast
        · exact ih (place ++ [s])

theorem directory_of_follow_cons {place ss end' : List Segment} {s : Segment}
    (h : d.follow place (s :: ss) = .ok end') : d.entry? place = some .directory := by
  rw [follow] at h
  split at h
  · cases h
  · cases h
  · assumption

theorem present_of_isFile {path : String} (h : d.isFile w path = true) :
    d.present w path = true := by
  rw [isFile, Bool.and_eq_true] at h
  obtain ⟨hname, hfile⟩ := h
  rw [present, hname, Bool.true_and]
  cases hlook : d.look w path with
  | error f => simp [hlook] at hfile
  | ok e => rfl

theorem isName_of_prefix {path longer : String} (hbegins : path.toList <+: longer.toList)
    (h : isName longer = true) : isName path = true := by
  simp only [isName, Bool.not_eq_true', List.contains_eq_mem, decide_eq_false_iff_not] at h ⊢
  exact fun hzero => h (hbegins.subset hzero)

theorem placeOf_location (l : Location) :
    d.placeOf w l.text = d.follow [] (Text.split '/' l.text.toList) := by
  have hne : l.text ≠ "" := by
    intro hempty
    have habsolute := l.isAbsolute
    rw [hempty] at habsolute
    cases habsolute
  rw [placeOf, if_neg hne, if_pos l.isAbsolute]

theorem exists_placeOf_of_child {l : Location} {s : Segment} (hs : Path.IsName s)
    {place : List Segment} (h : d.placeOf w (l.child s hs).text = .ok place) :
    ∃ q, d.placeOf w l.text = .ok q ∧ d.entry? q = some .directory := by
  rw [placeOf_location, l.split_child hs, ← List.append_assoc, follow_append] at h
  cases hfollow : d.follow [] (List.replicate l.slashes [] ++ l.segments) with
  | error f =>
    rw [hfollow] at h
    cases h
  | ok q =>
    rw [hfollow] at h
    have hdirectory : d.entry? q = some .directory := directory_of_follow_cons h
    obtain ⟨n, hsplit⟩ : ∃ n, Text.split '/' l.text.toList =
        List.replicate l.slashes [] ++ l.segments ++ List.replicate n [] := l.split_text
    refine ⟨q, ?_, hdirectory⟩
    have hstay := follow_replicate hdirectory n []
    rw [List.append_nil] at hstay
    rw [placeOf_location, hsplit, follow_append, hfollow]
    exact hstay

theorem present_of_isFile_child {l : Location} {s : Segment} (hs : Path.IsName s)
    (h : d.isFile w (l.child s hs).text = true) : d.present w l.text = true := by
  rw [isFile, Bool.and_eq_true] at h
  obtain ⟨hname, hfile⟩ := h
  obtain ⟨place, hplace⟩ : ∃ place, d.placeOf w (l.child s hs).text = .ok place := by
    cases hplace : d.placeOf w (l.child s hs).text with
    | ok place => exact ⟨place, rfl⟩
    | error f => simp [look, hplace] at hfile
  obtain ⟨q, hq, hdirectory⟩ := exists_placeOf_of_child hs hplace
  have hlook : d.look w l.text = .ok .directory := by
    simp only [look, hq, hdirectory]
  rw [present, isName_of_prefix (l.text_prefix_child hs) hname, hlook]
  rfl

end Disk

namespace FileSystem
variable {σ : Type}

/-- At a place that is not there, with the suffix or without, no module is found. -/
def FindsOnlyThere (fs : FileSystem σ) (s : σ) (suffix place : String) : Prop :=
  fs.present s (place ++ suffix) = false → fs.present s place = false →
    ∀ roots, fs.resolveModule s place roots = .error (.unresolved place (some (.noModule 1)))

def foundAt (fs : FileSystem σ) (s : σ) (suffix place : String) : Except Failure String :=
  if fs.present s (place ++ suffix) || fs.present s place then .ok place
  else .error (.unresolved place (some (.noModule 1)))

theorem foundAt_congr {fs : FileSystem σ} {s t : σ} (h : fs.present s = fs.present t)
    (suffix place : String) : fs.foundAt s suffix place = fs.foundAt t suffix place := by
  rw [foundAt, foundAt, h]

end FileSystem

namespace Modules
variable {σ : Type}

theorem searched_location (l : Location) (suffix : String) (roots : List String) :
    searched l.text suffix roots = [l.text] := by
  rw [searched, if_pos l.isAbsolute]

theorem isName_packageFile : Path.IsName ("__init__" ++ Memory.suffix).toList := by decide

theorem Host.present_of_isFile_candidate {p : Host} {l : Location} {path : String}
    (hpath : path ∈ candidates l.text Memory.suffix) (h : p.isFile path = true) :
    p.disk.present p.workingDir (l.text ++ Memory.suffix) = true ∨
      p.disk.present p.workingDir l.text = true := by
  simp only [candidates, List.mem_cons, List.not_mem_nil, or_false] at hpath
  obtain rfl | rfl | rfl := hpath
  · exact .inr (Disk.present_of_isFile h)
  · exact .inl (Disk.present_of_isFile h)
  · rw [l.join_name isName_packageFile] at h
    exact .inr (Disk.present_of_isFile_child isName_packageFile h)

theorem Host.findsOnlyThere (p : Host) (l : Location) :
    (Host.fileSystem Memory.suffix).FindsOnlyThere p Memory.suffix l.text := by
  intro hsuffixed hplain roots
  have hnone : (candidates l.text Memory.suffix).find? p.isFile = none := by
    rw [List.find?_eq_none]
    intro path hpath hfile
    obtain h | h := present_of_isFile_candidate hpath hfile
    · exact absurd h (Bool.eq_false_iff.mp hsuffixed)
    · exact absurd h (Bool.eq_false_iff.mp hplain)
  show Host.resolveModule Memory.suffix p l.text roots = _
  rw [Host.resolveModule, searched_location]
  simp [hnone]

theorem Memory.present_of_stored_candidate {m : Memory} {l : Location} (hroot : l.segments ≠ [])
    {path : String} (hpath : path ∈ candidates l.text Memory.suffix) (h : path ∈ m.modules.names) :
    m.present (l.text ++ Memory.suffix) = true ∨ m.present l.text = true := by
  obtain ⟨file, hfile, -⟩ := l.exists_of_mem_candidates hpath
  simp only [candidates, List.mem_cons, List.not_mem_nil, or_false] at hpath
  obtain rfl | rfl | rfl := hpath
  · exact .inr (present_iff.mpr (.inl (l.isNormal.symm ▸ h)))
  · refine .inl (present_iff.mpr (.inl ?_))
    rw [← hfile, file.isNormal, hfile]
    exact h
  · rw [l.join_name isName_packageFile] at h
    refine .inr (present_iff.mpr (.inr ⟨_, h, ?_⟩))
    rw [l.isNormal]
    exact Text.startsWith_iff.mpr (l.text_append_slash_prefix hroot isName_packageFile)

theorem Memory.findsOnlyThere (m : Memory) {l : Location} (hroot : l.segments ≠ []) :
    Memory.fileSystem.FindsOnlyThere m Memory.suffix l.text := by
  intro hsuffixed hplain roots
  have hnone : m.storedAt? l.text = none := by
    rw [storedAt?_eq_none_iff, l.isNormal]
    intro path hpath hstored
    obtain h | h := present_of_stored_candidate hroot hpath hstored
    · exact absurd h (Bool.eq_false_iff.mp hsuffixed)
    · exact absurd h (Bool.eq_false_iff.mp hplain)
  rw [resolveModule_fileSystem, Memory.resolveModule, searched_location]
  simp [hnone]

theorem isAbsolute_of_dot {specifier : String} (h : Text.startsWith specifier "." = true) :
    Path.isAbsolute specifier = false := by
  obtain ⟨rest, hrest⟩ := Text.startsWith_iff.mp h
  rw [Path.isAbsolute, ← hrest]
  rfl

def relativeRoots (rules : SearchRules) (specifier directory : String) : List String :=
  searchPaths rules (Path.normal (Path.join directory (Path.directory specifier)))

theorem result_resolve_of_dot {rules : SearchRules} {fs : FileSystem σ} {s : σ}
    {specifier directory : String} (hdot : Text.startsWith specifier "." = true)
    (hlegacy : Text.startsWith specifier legacyStart = false) :
    let place := Path.normal (Path.join directory specifier)
    (resolve rules fs specifier directory).result s =
      if atDirectory rules fs s specifier directory then .ok place
      else fs.resolveModule s place (relativeRoots rules specifier directory) := by
  intro place
  have hrelative := isAbsolute_of_dot hdot
  have hkept := withoutLegacyStart_of_not_legacy hlegacy
  cases hthere : atDirectory rules fs s specifier directory with
  | true => rw [result_resolve_of_atDirectory hrelative (hkept.symm ▸ hthere), hkept, if_pos rfl]
  | false =>
    rw [result_resolve_of_not_atDirectory hrelative (hkept.symm ▸ hthere), hkept, if_pos hdot,
      if_neg (by decide), relativeRoots]

/-- Where modules are found only at places that are there, a relative specifier means its own place
or nothing. -/
theorem result_resolve_relative {rules : SearchRules} {fs : FileSystem σ} {s : σ}
    {specifier directory : String} (hdot : Text.startsWith specifier "." = true)
    (hlegacy : Text.startsWith specifier legacyStart = false)
    (honly : fs.FindsOnlyThere s rules.suffix (Path.normal (Path.join directory specifier))) :
    (resolve rules fs specifier directory).result s =
      fs.foundAt s rules.suffix (Path.normal (Path.join directory specifier)) := by
  rw [result_resolve_of_dot hdot hlegacy, FileSystem.foundAt]
  cases hthere : atDirectory rules fs s specifier directory with
  | true => exact (if_pos hthere).symm
  | false =>
    obtain ⟨hsuffixed, hplain⟩ := Bool.or_eq_false_iff.mp hthere
    rw [honly hsuffixed hplain, hsuffixed, hplain]
    rfl

/-- A relative specifier means its own place, if that is there with the suffix or without, and
nothing otherwise. So neither the dependency folder nor the roots of the process have a part in it,
and the search that comes after the look at the place finds nothing. In memory this holds of every
place but the roots. -/
theorem resolve_relative {rules : SearchRules} (hsuffix : rules.suffix = Memory.suffix)
    {directory specifier : String} (habsolute : Path.isAbsolute directory = true)
    (hdot : Text.startsWith specifier "." = true)
    (hlegacy : Text.startsWith specifier legacyStart = false) :
    let place := Path.normal (Path.join directory specifier)
    (∀ p : Host,
      (resolve rules (Host.fileSystem Memory.suffix) specifier directory).result p =
        (Host.fileSystem Memory.suffix).foundAt p Memory.suffix place ∧
      (Host.fileSystem Memory.suffix).FindsOnlyThere p Memory.suffix place ∧
      ∀ (rules' : SearchRules) (q : Host), rules'.suffix = Memory.suffix → q.disk = p.disk →
        q.workingDir = p.workingDir →
          (resolve rules' (Host.fileSystem Memory.suffix) specifier directory).result q =
            (resolve rules (Host.fileSystem Memory.suffix) specifier directory).result p) ∧
    (place ≠ "/" → place ≠ "//" → ∀ m : Memory,
      (resolve rules Memory.fileSystem specifier directory).result m =
        Memory.fileSystem.foundAt m Memory.suffix place ∧
      Memory.fileSystem.FindsOnlyThere m Memory.suffix place ∧
      ∀ (rules' : SearchRules) (n : Memory), rules'.suffix = Memory.suffix →
        n.modules = m.modules →
          (resolve rules' Memory.fileSystem specifier directory).result n =
            (resolve rules Memory.fileSystem specifier directory).result m) := by
  intro place
  obtain ⟨l, hl⟩ : ∃ l : Location, l.text = place :=
    ⟨_, Location.text_ofBase directory specifier habsolute⟩
  have hhost : ∀ p : Host, (Host.fileSystem Memory.suffix).FindsOnlyThere p Memory.suffix place :=
    fun p => hl ▸ p.findsOnlyThere l
  have hfoundHost : ∀ (r : SearchRules) (p : Host), r.suffix = Memory.suffix →
      (resolve r (Host.fileSystem Memory.suffix) specifier directory).result p =
        (Host.fileSystem Memory.suffix).foundAt p Memory.suffix place := by
    intro r p hr
    rw [result_resolve_relative hdot hlegacy (hr.symm ▸ hhost p), hr]
  refine ⟨fun p => ⟨hfoundHost rules p hsuffix, hhost p, fun rules' q hr hdisk hworking => ?_⟩,
    fun hroot hroot' m => ?_⟩
  · have hpresent : (Host.fileSystem Memory.suffix).present q =
        (Host.fileSystem Memory.suffix).present p := by
      simp only [Host.fileSystem, hdisk, hworking]
    rw [hfoundHost rules' q hr, hfoundHost rules p hsuffix, FileSystem.foundAt_congr hpresent]
  · have hmemory : ∀ n : Memory, Memory.fileSystem.FindsOnlyThere n Memory.suffix place :=
      fun n => hl ▸ n.findsOnlyThere (l.segments_ne_nil (hl ▸ hroot) (hl ▸ hroot'))
    have hfoundMemory : ∀ (r : SearchRules) (n : Memory), r.suffix = Memory.suffix →
        (resolve r Memory.fileSystem specifier directory).result n =
          Memory.fileSystem.foundAt n Memory.suffix place := by
      intro r n hr
      rw [result_resolve_relative hdot hlegacy (hr.symm ▸ hmemory n), hr]
    refine ⟨hfoundMemory rules m hsuffix, hmemory m, fun rules' n hr hmodules => ?_⟩
    have hpresent : Memory.fileSystem.present n = Memory.fileSystem.present m :=
      funext fun path => by simp only [Memory.fileSystem, Memory.present, hmodules]
    rw [hfoundMemory rules' n hr, hfoundMemory rules m hsuffix,
      FileSystem.foundAt_congr hpresent]

theorem only_mailer_beside :
    let m := Memory.ofList [("/app/mailer.py", ∅), ("/app/site-packages/queue.py", ∅)]
      ["/app/site-packages"]
    let p : Host := { disk := m.disk, searchRoots := ["/app/site-packages"] }
    let onDisk := fun specifier =>
      (resolve {} (Host.fileSystem Memory.suffix) specifier "/app").result p
    let inMemory := fun specifier => (resolve {} Memory.fileSystem specifier "/app").result m
    onDisk "./mailer" = .ok "/app/mailer" ∧ inMemory "./mailer" = .ok "/app/mailer" ∧
      onDisk "./queue" = .error (.unresolved "/app/queue" (some (.noModule 1))) ∧
      inMemory "./queue" = .error (.unresolved "/app/queue" (some (.noModule 1))) := by
  intro m p onDisk inMemory
  obtain ⟨hdisk, hmemory⟩ :=
    @resolve_relative {} rfl "/app" "./mailer" rfl (by decide +kernel) (by decide +kernel)
  obtain ⟨hdisk', hmemory'⟩ :=
    @resolve_relative {} rfl "/app" "./queue" rfl (by decide +kernel) (by decide +kernel)
  refine ⟨(hdisk p).1.trans ?_, (hmemory ?_ ?_ m).1.trans ?_, (hdisk' p).1.trans ?_,
    (hmemory' ?_ ?_ m).1.trans ?_⟩
  all_goals decide +kernel

end Modules
end Wiring
