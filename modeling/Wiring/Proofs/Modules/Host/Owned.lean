import Wiring.Modules.Host.Local
import Wiring.Proofs.Modules.Present
import Wiring.Proofs.Path.Downward

/-! The dotted names of files. The way from a search root to a file and the name of the file can be
read off each other, so a file gets a name exactly where a search root owns it under that name. -/
namespace Wiring

theorem Text.isName_of_isIdentifier {s : String} (h : Text.isIdentifier s = true) :
    Path.IsName s.toList := by
  have hdot := Text.dot_not_mem_of_isIdentifier h
  refine ⟨?_, ?_, ?_, Text.slash_not_mem_of_isIdentifier h⟩
  · intro hnil
    obtain rfl : s = "" := String.toList_eq_nil_iff.mp hnil
    cases h
  · intro hhere
    exact hdot (by simp [hhere, Path.here])
  · intro hup
    exact hdot (by simp [hup, Path.up])

namespace Modules.Host
variable {p : Host} {owns : String → String → Bool} {suffix way name : String}
  {parts steps : List String}

/-! Names read off the way to a file. -/

/-- The parts of a name go down to a file by these steps: by themselves to a module, and with one
step more to the file of a package. The file of a package is no module of its own. -/
def StepsOf (parts steps : List String) : Prop :=
  steps = parts ∧ parts.getLast? ≠ some "__init__" ∨ steps = parts ++ ["__init__"]

def partsOfSteps (steps : List String) : List String :=
  if steps.getLast? = some "__init__" then steps.dropLast else steps

def partsOfWay (suffix way : String) : List String :=
  if (Path.splitExtension way).2 = suffix then
    let parts := partsOfSteps
      ((Text.split '/' (Path.splitExtension way).1.toList).map String.ofList)
    if parts.all Text.isIdentifier then parts else []
  else []

theorem nameParts_eq (p : Host) (suffix path root : String) : p.nameParts suffix path root =
    if Text.startsWith path (root ++ "/") then
      partsOfWay suffix (Path.relative p.workingDir.text path root)
    else [] := by
  unfold nameParts partsOfWay
  generalize Path.splitExtension (Path.relative p.workingDir.text path root) = split
  obtain ⟨stem, extension⟩ := split
  rfl

theorem partsOfSteps_eq_iff : partsOfSteps steps = parts ↔ StepsOf parts steps := by
  unfold partsOfSteps
  constructor
  · rintro rfl
    by_cases hlast : steps.getLast? = some "__init__"
    · obtain ⟨front, rfl⟩ := List.getLast?_eq_some_iff.mp hlast
      rw [if_pos hlast, List.dropLast_concat]
      exact .inr rfl
    · rw [if_neg hlast]
      exact .inl ⟨rfl, hlast⟩
  · rintro (⟨rfl, hlast⟩ | rfl)
    · rw [if_neg hlast]
    · rw [if_pos List.getLast?_concat, List.dropLast_concat]

theorem StepsOf.ne_nil (h : StepsOf parts steps) (hne : parts ≠ []) : steps ≠ [] := by
  obtain ⟨rfl, -⟩ | rfl := h
  · exact hne
  · simp

theorem StepsOf.isIdentifier (h : StepsOf parts steps)
    (hparts : ∀ part ∈ parts, Text.isIdentifier part = true) :
    ∀ step ∈ steps, Text.isIdentifier step = true := by
  have hinit : Text.isIdentifier "__init__" = true := by decide +kernel
  obtain ⟨rfl, -⟩ | rfl := h
  · exact hparts
  · intro step hstep
    obtain hstep | hstep := List.mem_append.mp hstep
    · exact hparts step hstep
    · exact List.mem_singleton.mp hstep ▸ hinit

theorem split_intercalate (sep : String) {c : Char} (hsep : sep.toList = [c]) (hne : steps ≠ [])
    (hclean : ∀ step ∈ steps, c ∉ step.toList) :
    Text.split c (sep.intercalate steps).toList = steps.map String.toList := by
  rw [Text.toList_intercalate hsep, Path.split_join (by simpa using hne)]
  simpa using hclean

theorem base_intercalate {front : List String} {step : String}
    (hclean : ∀ s ∈ front ++ [step], '/' ∉ s.toList) :
    Path.base ("/".intercalate (front ++ [step])) = step := by
  have hlast := congrArg List.getLast? (split_intercalate "/" rfl (by simp) hclean)
  rw [Text.getLast?_split, List.map_append, List.map_singleton, List.getLast?_concat] at hlast
  rw [← String.toList_inj, Path.toList_base]
  exact Option.some.inj hlast

theorem splitExtension_steps (hsuffix : Path.IsExtension suffix) (hne : steps ≠ [])
    (hsteps : ∀ step ∈ steps, Text.isIdentifier step = true) :
    Path.splitExtension ("/".intercalate steps ++ suffix) = ("/".intercalate steps, suffix) := by
  obtain ⟨front, step, rfl⟩ : ∃ front step, steps = front ++ [step] :=
    ⟨_, _, (List.dropLast_concat_getLast hne).symm⟩
  have hbase := base_intercalate
    fun step hstep => Text.slash_not_mem_of_isIdentifier (hsteps step hstep)
  have hstep : Text.isIdentifier step = true := hsteps step (by simp)
  refine Path.splitExtension_append hsuffix ?_ ?_
  · rw [hbase]
    exact (Text.isName_of_isIdentifier hstep).ne_nil
  · rw [hbase]
    exact Text.dot_not_mem_of_isIdentifier hstep

theorem segments_ne_nil_of_steps {root path : Location} (hne : steps ≠ [])
    (hsteps : ∀ step ∈ steps, Text.isIdentifier step = true)
    (h : path.text = root.text ++ "/" ++ ("/".intercalate steps ++ suffix)) :
    path.segments ≠ [] := by
  obtain ⟨front, step, rfl⟩ : ∃ front step, steps = front ++ [step] :=
    ⟨_, _, (List.dropLast_concat_getLast hne).symm⟩
  have hname := Text.isName_of_isIdentifier (hsteps step (by simp))
  obtain ⟨c, cs, hc⟩ := List.exists_cons_of_ne_nil hname.ne_nil
  have hmem : c ∈ path.text.toList := by
    have hend := Path.base_suffix ("/".intercalate (front ++ [step]))
    rw [base_intercalate fun s hs => Text.slash_not_mem_of_isIdentifier (hsteps s hs), hc] at hend
    have hway := hend.subset (List.mem_cons_self ..)
    simp only [h, String.toList_append, List.mem_append]
    exact .inr (.inl hway)
  intro hroot
  exact hname.clean (by simp [hc, Location.eq_slash_of_mem_text hroot hmem])

theorem partsOfWay_eq_iff (hne : parts ≠ []) : partsOfWay suffix way = parts ↔
    Path.IsExtension suffix ∧ (∀ part ∈ parts, Text.isIdentifier part = true) ∧
      ∃ steps, StepsOf parts steps ∧ way = "/".intercalate steps ++ suffix := by
  unfold partsOfWay
  constructor
  · intro h
    obtain ⟨hway, hextension⟩ := Path.splitExtension_spec way
    by_cases hsuffix : (Path.splitExtension way).2 = suffix
    · rw [if_pos hsuffix] at h
      by_cases hall : (partsOfSteps ((Text.split '/'
          (Path.splitExtension way).1.toList).map String.ofList)).all Text.isIdentifier = true
      · have hparts := (if_pos hall).symm.trans h
        refine ⟨hsuffix ▸ hextension, fun part hpart => ?_, _, partsOfSteps_eq_iff.mp hparts, ?_⟩
        · exact List.all_eq_true.mp hall part (hparts ▸ hpart)
        · rw [Text.intercalate_split (c := '/') rfl, ← hsuffix, hway]
      · exact absurd ((if_neg hall).symm.trans h).symm hne
    · exact absurd ((if_neg hsuffix).symm.trans h).symm hne
  · rintro ⟨hextension, hparts, steps, hsteps, rfl⟩
    have hidentifiers := hsteps.isIdentifier hparts
    have hsplit := split_intercalate (c := '/') "/" rfl (hsteps.ne_nil hne)
      fun step hstep => Text.slash_not_mem_of_isIdentifier (hidentifiers step hstep)
    have hall : parts.all Text.isIdentifier = true := List.all_eq_true.mpr hparts
    rw [splitExtension_steps hextension (hsteps.ne_nil hne) hidentifiers, if_pos rfl]
    dsimp only
    have hback : (steps.map String.toList).map String.ofList = steps := by simp
    rw [hsplit, hback, partsOfSteps_eq_iff.mpr hsteps, if_pos hall]

theorem partsOfWay_here (suffix : String) : partsOfWay suffix "." = [] := by
  have hsplit : Path.splitExtension "." = (".", "") := by decide
  have hparts : partsOfSteps ((Text.split '/' ".".toList).map String.ofList) = ["."] := by decide
  have hname : ["."].all Text.isIdentifier = false := by decide +kernel
  unfold partsOfWay
  by_cases hsuffix : "" = suffix
  · rw [hsplit, if_pos hsuffix]
    dsimp only
    rw [hparts, hname, if_neg Bool.false_ne_true]
  · rw [hsplit, if_neg hsuffix]

/-- Below a directory the parts of a name are spelled by the path of the file, after a slash. -/
theorem nameParts_eq_iff {root path : Location} (hne : parts ≠ []) :
    p.nameParts suffix path.text root.text = parts ↔
      Path.IsExtension suffix ∧ (∀ part ∈ parts, Text.isIdentifier part = true) ∧
        ∃ steps, StepsOf parts steps ∧
          path.text = root.text ++ "/" ++ ("/".intercalate steps ++ suffix) := by
  rw [nameParts_eq]
  constructor
  · intro h
    by_cases hstart : Text.startsWith path.text (root.text ++ "/") = true
    · rw [if_pos hstart] at h
      obtain ⟨way, hpath⟩ := Text.startsWith_iff_exists.mp hstart
      -- A root may continue another one, as `//` does `/`. The way between them is `.`, no name.
      by_cases hroot : path.segments = []
      · have hdown : path.segments = root.segments ++ [] := by
          rw [hroot, Location.segments_eq_nil_of_way hpath hroot]
          rfl
        rw [Location.relative_text p.workingDir hdown] at h
        exact absurd ((partsOfWay_here suffix).symm.trans h).symm hne
      · rw [Location.relative_of_way p.workingDir hpath (Location.named_of_way hpath hroot)] at h
        obtain ⟨hextension, hparts, steps, hsteps, hway⟩ := (partsOfWay_eq_iff hne).mp h
        exact ⟨hextension, hparts, steps, hsteps, hway ▸ hpath⟩
    · exact absurd ((if_neg hstart).symm.trans h).symm hne
  · rintro ⟨hextension, hparts, steps, hsteps, hpath⟩
    have hstart : Text.startsWith path.text (root.text ++ "/") = true :=
      Text.startsWith_iff_exists.mpr ⟨_, hpath⟩
    have hsegments :=
      segments_ne_nil_of_steps (hsteps.ne_nil hne) (hsteps.isIdentifier hparts) hpath
    rw [if_pos hstart, Location.relative_of_way p.workingDir hpath
      (Location.named_of_way hpath hsegments)]
    exact (partsOfWay_eq_iff hne).mpr ⟨hextension, hparts, steps, hsteps, rfl⟩

/-! Names that search roots own. -/

/-- A directory owns a file under the name of these parts: they are identifiers, the path of the
file is that of the directory, a slash, the steps of the name and the suffix, which is an extension,
and the first part is the directory's own. -/
structure OwnedAs (owns : String → String → Bool) (suffix path root : String)
    (parts : List String) : Prop where
  ne_nil : parts ≠ []
  isExtension : Path.IsExtension suffix
  identifiers : ∀ part ∈ parts, Text.isIdentifier part = true
  spelled : ∃ steps, StepsOf parts steps ∧
    path = root ++ "/" ++ ("/".intercalate steps ++ suffix)
  owned : ∃ top ∈ parts.head?, owns top root = true

def nameBelow (p : Host) (owns : String → String → Bool) (suffix path root : String) :
    Option String :=
  ((p.nameParts suffix path root).head?.filter (owns · root)).map fun _ =>
    ".".intercalate (p.nameParts suffix path root)

theorem ownedName_eq (p : Host) (owns : String → String → Bool) (suffix path : String) :
    p.ownedName owns suffix path = p.roots.findSome? (p.nameBelow owns suffix path) := by
  unfold ownedName
  refine congrArg (fun f => p.roots.findSome? f) (funext fun root => ?_)
  rw [nameBelow]
  cases p.nameParts suffix path root with
  | nil => rfl
  | cons top parts => cases howns : owns top root <;> simp [howns, Option.filter]

theorem nameBelow_eq_some_iff {root path : Location} :
    p.nameBelow owns suffix path.text root.text = some name ↔
      ∃ parts, OwnedAs owns suffix path.text root.text parts ∧ ".".intercalate parts = name := by
  rw [nameBelow, Option.map_eq_some_iff]
  simp only [Option.filter_eq_some_iff]
  constructor
  · rintro ⟨top, ⟨htop, howns⟩, rfl⟩
    have hne : p.nameParts suffix path.text root.text ≠ [] := by
      intro hnil
      rw [hnil] at htop
      cases htop
    obtain ⟨hextension, hparts, hspelled⟩ := (nameParts_eq_iff hne).mp rfl
    exact ⟨_, ⟨hne, hextension, hparts, hspelled, top, htop, howns⟩, rfl⟩
  · rintro ⟨parts, howned, rfl⟩
    obtain ⟨top, htop, howns⟩ := howned.owned
    rw [(nameParts_eq_iff howned.ne_nil).mpr
      ⟨howned.isExtension, howned.identifiers, howned.spelled⟩]
    exact ⟨top, ⟨htop, howns⟩, rfl⟩

theorem nameBelow_eq_none_iff {root path : Location} :
    p.nameBelow owns suffix path.text root.text = none ↔
      ∀ parts, ¬ OwnedAs owns suffix path.text root.text parts := by
  rw [Option.eq_none_iff_forall_ne_some]
  constructor
  · exact fun h parts howned => h _ (nameBelow_eq_some_iff.mpr ⟨parts, howned, rfl⟩)
  · intro h name hname
    obtain ⟨parts, howned, -⟩ := nameBelow_eq_some_iff.mp hname
    exact h parts howned

theorem OwnedAs.split_name {path root : String} (h : OwnedAs owns suffix path root parts) :
    (Text.split '.' (".".intercalate parts).toList).map String.ofList = parts := by
  have hclean : ∀ part ∈ parts, '.' ∉ part.toList :=
    fun part hpart => Text.dot_not_mem_of_isIdentifier (h.identifiers part hpart)
  rw [split_intercalate (c := '.') "." rfl h.ne_nil hclean]
  simp

theorem exists_location_of_mem_roots {root : String} (h : root ∈ p.roots) :
    ∃ l : Location, l.text = root := by
  obtain ⟨entry, -, rfl⟩ := List.mem_map.mp h
  exact p.workingDir.exists_absolute entry

/-- A file has the name under which the first search root that owns it does so. -/
theorem ownedName_eq_some_iff {path : Location} :
    p.ownedName owns suffix path.text = some name ↔
      ∃ before root after, p.roots = before ++ root :: after ∧
        (∀ earlier ∈ before, ∀ others, ¬ OwnedAs owns suffix path.text earlier others) ∧
        OwnedAs owns suffix path.text root
          ((Text.split '.' name.toList).map String.ofList) := by
  rw [ownedName_eq, List.findSome?_eq_some_iff]
  refine exists_congr fun before => exists_congr fun root => exists_congr fun after =>
    and_congr_right fun hroots => ?_
  have hlocation : ∀ r ∈ before ++ root :: after, ∃ l : Location, l.text = r :=
    fun r hr => exists_location_of_mem_roots (hroots ▸ hr)
  obtain ⟨l, rfl⟩ := hlocation root (by simp)
  constructor
  · rintro ⟨hname, hbefore⟩
    obtain ⟨parts, howned, rfl⟩ := nameBelow_eq_some_iff.mp hname
    refine ⟨fun earlier hearlier => ?_, howned.split_name.symm ▸ howned⟩
    obtain ⟨l', rfl⟩ := hlocation earlier (by simp [hearlier])
    exact nameBelow_eq_none_iff.mp (hbefore _ hearlier)
  · rintro ⟨hbefore, howned⟩
    refine ⟨nameBelow_eq_some_iff.mpr ⟨_, howned, Text.intercalate_split rfl name⟩, ?_⟩
    intro earlier hearlier
    obtain ⟨l', rfl⟩ := hlocation earlier (by simp [hearlier])
    exact nameBelow_eq_none_iff.mpr (hbefore _ hearlier)

theorem OwnedAs.endsWith {path root : String} (h : OwnedAs owns suffix path root parts) :
    Text.endsWith path suffix = true := by
  obtain ⟨steps, -, rfl⟩ := h.spelled
  rw [← String.append_assoc]
  exact Text.endsWith_append ..

def filesOf (suffix : String) (parts : List String) : List String :=
  ["/".intercalate parts ++ suffix, "/".intercalate parts ++ "/__init__" ++ suffix]

theorem StepsOf.mem_filesOf (h : StepsOf parts steps) (hne : parts ≠ []) (suffix : String) :
    "/".intercalate steps ++ suffix ∈ filesOf suffix parts := by
  obtain ⟨rfl, -⟩ | rfl := h
  · exact List.mem_cons_self ..
  · have hinit : "/".intercalate (parts ++ ["__init__"]) = "/".intercalate parts ++ "/__init__" := by
      rw [String.intercalate_append_of_ne_nil hne (by simp), String.intercalate_singleton,
        String.append_assoc]
      rfl
    rw [hinit]
    exact List.mem_cons_of_mem _ (List.mem_cons_self ..)

theorem OwnedAs.exists_file {root path : Location}
    (h : OwnedAs owns suffix path.text root.text parts) :
    ∃ file ∈ filesOf suffix parts, Path.Named file ∧ path.text = root.text ++ "/" ++ file := by
  obtain ⟨steps, hsteps, hpath⟩ := h.spelled
  have hleaves := segments_ne_nil_of_steps (hsteps.ne_nil h.ne_nil)
    (hsteps.isIdentifier h.identifiers) hpath
  exact ⟨_, hsteps.mem_filesOf h.ne_nil suffix, Location.named_of_way hpath hleaves, hpath⟩

/-- A file gets a name exactly from the first search root that owns it under this name. The parts
of the name are identifiers. The path is the root joined with the parts and the suffix, or with the
parts, `__init__` and the suffix; where the root is `/`, it may have one slash more in front. So the
file lies below the root, by its segments, and has the suffix. -/
theorem ownedName_spells_path (p : Host) (owns : String → String → Bool) (suffix : String)
    (path : Location) (name : String) :
    let parts := (Text.split '.' name.toList).map String.ofList
    p.ownedName owns suffix path.text = some name ↔
      ∃ before root after, p.roots = before ++ root :: after ∧
        (∀ earlier ∈ before, ∀ others, ¬ OwnedAs owns suffix path.text earlier others) ∧
        OwnedAs owns suffix path.text root parts ∧
        (∀ part ∈ parts, Text.isIdentifier part = true) ∧
        (∃ file ∈ filesOf suffix parts, path.text = Path.join root file ∨
          root = "/" ∧ path.text = "/" ++ Path.join root file) ∧
        Path.Below root path.text ∧ Text.endsWith path.text suffix = true := by
  intro parts
  rw [ownedName_eq_some_iff]
  refine exists_congr fun before => exists_congr fun root => exists_congr fun after =>
    and_congr_right fun hroots => and_congr_right fun _ => ⟨fun howned => ?_, And.left⟩
  obtain ⟨l, rfl⟩ : ∃ l : Location, l.text = root :=
    exists_location_of_mem_roots (hroots ▸ List.mem_append_right _ (List.mem_cons_self ..))
  obtain ⟨file, hfile, hnamed, hpath⟩ := howned.exists_file
  exact ⟨howned, howned.identifiers, ⟨file, hfile, Location.text_eq_join_of_way hpath hnamed⟩,
    (l.below_iff path).mpr (Location.prefix_of_way hpath hnamed), howned.endsWith⟩

/-- Of the roots above a package the first that owns it counts, and a root whose text alone begins
the path is none of them. -/
example : ({ disk := {}, searchRoots := ["/srv/ap", "/srv/app", "/srv"] } : Host).ownedName
    (fun _ root => root ≠ "/srv/app") ".py" "/srv/app/mail/__init__.py" = some "app.mail" := by
  decide +kernel

/-- A file that is spelled with two slashes gets a name from the root of one slash, and joined with
the parts of this name the root spells the same file with one slash. -/
theorem doubled_slash_named :
    let p : Host :=
      { disk := ({} : Disk).add "/tmp/bp/mailer.py" (.program {}), searchRoots := ["/"] }
    let path := "//tmp/mailer.py"
    (Path.isAbsolute path = true ∧ Path.normal path = path) ∧
      p.importableName ".py" path = some "tmp.mailer" ∧
      (∀ root ∈ p.roots, ∀ file ∈ filesOf ".py"
        ((Text.split '.' "tmp.mailer".toList).map String.ofList), path ≠ Path.join root file) ∧
      p.realPath path = p.realPath "/tmp/mailer.py" := by
  decide +kernel

end Modules.Host
end Wiring
