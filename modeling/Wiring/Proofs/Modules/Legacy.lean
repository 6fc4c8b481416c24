import Wiring.Proofs.Modules.Literal
import Wiring.Proofs.Modules.Rooted

/-! Specifiers with the legacy start. What is searched for is the name that follows the start, so
that the file which such a specifier names literally is found only where that search comes upon
it. -/
namespace Wiring

namespace Modules
variable {rest : String} {base : Location}

theorem withoutLegacyStart_append (rest : String) :
    withoutLegacyStart (legacyStart ++ rest) = rest := by
  have hlegacy : Text.startsWith (legacyStart ++ rest) legacyStart = true := by
    rw [Text.startsWith_iff, String.toList_append]
    exact List.prefix_append ..
  have hlength : legacyStart.length = legacyStart.toList.length := by decide
  rw [withoutLegacyStart, if_pos hlegacy, String.toList_append, hlength, List.drop_left,
    String.ofList_toList]

section Roots
variable {rules : SearchRules} {directory path : String}

theorem isAbsolute_text_of_root {t : Path.Trail} {n : Nat} (hn : n ≠ 0)
    (h : t.root = String.ofList (List.replicate n '/')) : Path.isAbsolute t.text = true := by
  obtain ⟨k, rfl⟩ := Nat.exists_eq_succ_of_ne_zero hn
  have hne : t.root ≠ "" := by simp [h, List.replicate_succ]
  rw [Path.Trail.text, if_neg fun hempty => hne hempty.1, h, Path.isAbsolute, String.toList_append,
    String.toList_ofList, List.replicate_succ, List.cons_append, List.head?_cons]
  rfl

theorem isAbsolute_of_mem_searchPaths (h : Path.isAbsolute directory = true)
    (hpath : path ∈ searchPaths rules directory) : Path.isAbsolute path = true := by
  rw [searchPaths, List.mem_cons, List.mem_map] at hpath
  obtain rfl | ⟨t, ht, rfl⟩ := hpath
  · exact h
  · obtain ⟨k, -, rfl⟩ := List.mem_map.mp ht
    rw [Path.Trail.append]
    split
    · next hfolder =>
      refine isAbsolute_text_of_root (fun hnone => hfolder ?_) rfl
      rw [Path.Trail.ofText, hnone, List.replicate_zero, String.ofList_nil]
    · exact isAbsolute_text_of_root ((Path.isAbsolute_iff directory).mp h) rfl

end Roots

namespace Memory

def alone (base : Location) (rest : String) (exports : Exports) : Memory :=
  ofList [(literalFile base rest, exports)] []

section Alone
variable {exports : Exports}

theorem mem_names_alone (h : Path.Named rest) {file : String} :
    file ∈ (alone base rest exports).modules.names ↔ file = literalFile base rest := by
  have hnormal : Path.normal (literalFile base rest) = literalFile base rest := by
    rw [literalFile_eq h, Location.isNormal]
  rw [alone, mem_names_ofList]
  simp [hnormal, eq_comm]

theorem present_alone_iff (h : Path.Named rest) {l : Location} (hroot : l.segments ≠ [])
    (hslashes : l.slashes = base.slashes) : (alone base rest exports).present l.text = true ↔
      l.text = literalFile base rest ∨ Path.Below l.text (literalFile base rest) := by
  have hslashes' : ((sharedFolder base).join (rest ++ suffix)).slashes = l.slashes := by
    rw [(sharedFolder base).slashes_join (h.append (isName_suffixed h)).isAbsolute,
      slashes_sharedFolder, hslashes]
  rw [present_iff, l.isNormal, mem_names_alone h]
  simp only [mem_names_alone h, exists_eq_left, Text.startsWith_iff]
  rw [literalFile_eq h, Location.text_append_slash_prefix_iff hroot hslashes']

theorem below_literalFile_iff (h : Path.Named rest) :
    Path.Below (base.join rest).text (literalFile base rest) ↔
      base.segments = [] ∧ ∀ s ∈ Text.split '/' rest.toList, s = folderName := by
  rw [literalFile_eq h, Location.below_iff, segments_join_rest h, segments_join_suffixed h,
    segments_sharedFolder, prefix_moved_iff, ← split_rest]

theorem atDirectory_alone_iff {rules : SearchRules} (hsuffix : rules.suffix = suffix)
    (h : Path.Named rest) :
    atDirectory rules fileSystem (alone base rest exports) rest base.text = true ↔
      base = sharedFolder base ∨
        base.segments = [] ∧ ∀ s ∈ Text.split '/' rest.toList, s = folderName := by
  have hrelative := (h.append (isName_suffixed h)).isAbsolute
  have hplace : (base.join rest).segments ≠ [] := by simp [segments_join_rest h]
  have hplace' : (base.join (rest ++ suffix)).segments ≠ [] := by simp [segments_join_suffixed h]
  have hbelow' : ¬ Path.Below (base.join (rest ++ suffix)).text (literalFile base rest) := by
    rw [literalFile_eq h, Location.below_iff, segments_join_suffixed h, segments_join_suffixed h,
      segments_sharedFolder, prefix_moved_iff]
    rintro ⟨-, hall⟩
    exact suffixed_ne_folder (Path.base rest) (hall _ (by simp))
  rw [atDirectory, hsuffix, ← base.text_join, ← base.text_join_append h (isName_suffixed h),
    Bool.or_eq_true, present_fileSystem, present_alone_iff h hplace' (base.slashes_join hrelative),
    present_alone_iff h hplace (base.slashes_join h.isAbsolute), join_suffixed_eq_iff h,
    below_literalFile_iff h, or_iff_left hbelow', or_iff_right (join_rest_ne h)]

end Alone

/-- A search for what follows the legacy start comes upon the literal file: the directory is the
folder of the file, or it is the root and the file lies in folders of that name only, or one of the
roots is the folder and the name means itself below it. -/
def Reached (rules : SearchRules) (base : Location) (rest : String) : Prop :=
  base = sharedFolder base ∨
    (base.segments = [] ∧ ∀ s ∈ Text.split '/' rest.toList, s = folderName) ∨
    Text.startsWith rest "." = false ∧ specifierPath rest suffix = rest ∧
      ∃ root ∈ searchPaths rules base.text, Path.normal root = (sharedFolder base).text

instance (rules : SearchRules) (base : Location) (rest : String) :
    Decidable (Reached rules base rest) :=
  inferInstanceAs (Decidable (_ ∨ _ ∨ _))

variable {rules : SearchRules} {m m' : Memory}

theorem present_mono (hnames : ∀ file ∈ m.modules.names, file ∈ m'.modules.names) {path : String}
    (h : m.present path = true) : m'.present path = true := by
  rw [present_iff] at h ⊢
  obtain h | ⟨file, hfile, hbelow⟩ := h
  · exact .inl (hnames _ h)
  · exact .inr ⟨file, hnames file hfile, hbelow⟩

theorem atDirectory_mono (hnames : ∀ file ∈ m.modules.names, file ∈ m'.modules.names)
    {specifier directory : String} (h : atDirectory rules fileSystem m specifier directory = true) :
    atDirectory rules fileSystem m' specifier directory = true := by
  rw [atDirectory, present_fileSystem, Bool.or_eq_true] at h ⊢
  exact h.imp (present_mono hnames) (present_mono hnames)

theorem exists_unresolved_of_forall_ne {name : String} {roots : List String}
    (h : ∀ path, m.resolveModule name roots ≠ .ok path) :
    ∃ reason, m.resolveModule name roots = .error (.unresolved name reason) := by
  cases hresult : m.resolveModule name roots with
  | ok path => exact absurd hresult (h path)
  | error failure =>
    rw [resolveModule] at hresult
    split at hresult
    · cases hresult
    · obtain rfl := Except.error.inj hresult
      exact ⟨_, rfl⟩

/-- A stored literal file that is reached is found, or a file that is nearer. -/
theorem exists_found_of_reached (hsuffix : rules.suffix = suffix) (h : Path.Named rest)
    (hreached : Reached rules base rest) (hstored : literalFile base rest ∈ m.modules.names) :
    ∃ location, (resolve rules fileSystem (legacyStart ++ rest) base.text).result m = .ok location ∧
      (atDirectory rules fileSystem m rest base.text = true ∧
          location = Path.normal (Path.join base.text rest) ∨
        ∃ before root after, searchPaths rules base.text = before ++ root :: after ∧
          Path.normal root = (sharedFolder base).text ∧
          ((before ++ [root]).flatMap (filesUnder rest)).find? m.modules.contains =
            some location) := by
  have hkept := withoutLegacyStart_append rest
  have hrelative := isAbsolute_legacy rest
  cases hdirect : atDirectory rules fileSystem m rest base.text with
  | true =>
    rw [result_resolve_of_atDirectory hrelative (hkept.symm ▸ hdirect), hkept]
    exact ⟨_, rfl, .inl ⟨rfl, rfl⟩⟩
  | false =>
    have hnames : ∀ file ∈ (alone base rest ∅).modules.names, file ∈ m.modules.names := by
      intro file hfile
      rw [(mem_names_alone h).mp hfile]
      exact hstored
    have hnot : ¬ (base = sharedFolder base ∨
        base.segments = [] ∧ ∀ s ∈ Text.split '/' rest.toList, s = folderName) := by
      intro hthere
      rw [atDirectory_mono hnames ((atDirectory_alone_iff hsuffix h).mpr hthere)] at hdirect
      cases hdirect
    obtain ⟨hbare, hitself, root, hroot, hfolder⟩ :=
      (or_assoc.mpr hreached).resolve_left hnot
    obtain ⟨before, after, hsplit⟩ := List.append_of_mem hroot
    have hliteral : literalFile base rest ∈ (before ++ [root]).flatMap (filesUnder rest) := by
      refine List.mem_flatMap.mpr ⟨root, List.mem_concat_self, ?_⟩
      rw [literalFile_mem_filesUnder_iff h hbare (isAbsolute_of_mem_searchPaths base.isAbsolute hroot)]
      exact ⟨hitself, hfolder⟩
    have hsome : (((before ++ [root]).flatMap (filesUnder rest)).find?
        m.modules.contains).isSome = true :=
      List.find?_isSome.mpr ⟨_, hliteral, Table.contains_iff_mem_names.mpr hstored⟩
    obtain ⟨location, hlocation⟩ := Option.isSome_iff_exists.mp hsome
    obtain ⟨roots, hroots, hresult⟩ := exists_roots_of_kept hrelative hkept hbare hdirect
    refine ⟨location, ?_, .inr ⟨before, root, after, hsplit, hfolder, hlocation⟩⟩
    rw [hresult, resolveModule_roots_eq_ok_iff h.isAbsolute hroots, searchRoots, hsplit,
      List.append_cons, List.append_assoc, List.flatMap_append, List.find?_append, hlocation,
      Option.some_or]

theorem exists_unresolved_of_not_reached (hsuffix : rules.suffix = suffix) (h : Path.Named rest)
    (hreached : ¬ Reached rules base rest) (exports : Exports) :
    ∃ subject reason,
      (resolve rules fileSystem (legacyStart ++ rest) base.text).result (alone base rest exports) =
        .error (.unresolved subject reason) := by
  have hkept := withoutLegacyStart_append rest
  have hrelative := isAbsolute_legacy rest
  have hdirect : atDirectory rules fileSystem (alone base rest exports) rest base.text = false := by
    rw [← Bool.not_eq_true, atDirectory_alone_iff hsuffix h]
    exact fun hthere => hreached (or_assoc.mp (.inl hthere))
  cases hbare : Text.startsWith rest "." with
  | true =>
    have hplace : Path.isAbsolute (base.join rest).text = true := (base.join rest).isAbsolute
    rw [result_resolve_of_not_atDirectory hrelative (hkept.symm ▸ hdirect), hkept, if_pos hbare,
      ← base.text_join, resolveModule_fileSystem]
    refine ⟨_, exists_unresolved_of_forall_ne fun path hfound => hreached (.inl ?_)⟩
    obtain ⟨hcandidate, hstored⟩ :=
      mem_of_storedAt? ((resolveModule_absolute_eq_ok_iff hplace _).mp hfound)
    rw [(mem_names_alone h).mp hstored, (base.join rest).isNormal] at hcandidate
    exact (literalFile_mem_candidates_iff h).mp hcandidate
  | false =>
    obtain ⟨roots, hroots, hresult⟩ := exists_roots_of_kept hrelative hkept hbare hdirect
    rw [hresult]
    refine ⟨_, exists_unresolved_of_forall_ne fun path hfound => hreached (.inr (.inr ?_))⟩
    have hprocess : (alone base rest exports).roots = [] := roots_ofList ..
    rw [resolveModule_roots_eq_ok_iff h.isAbsolute hroots, hprocess, searchRoots, ite_self,
      List.append_nil] at hfound
    have hliteral : path = literalFile base rest :=
      (mem_names_alone h).mp (Table.contains_iff_mem_names.mp (List.find?_some hfound))
    obtain ⟨root, hroot, hunder⟩ := List.mem_flatMap.mp (List.mem_of_find?_eq_some hfound)
    rw [hliteral, literalFile_mem_filesUnder_iff h hbare
      (isAbsolute_of_mem_searchPaths base.isAbsolute hroot)] at hunder
    exact ⟨hbare, hunder.1, root, hroot, hunder.2⟩

theorem exists_root_of_folder (hfolder : rules.dependencyDir = "site-packages") (base : Location) :
    ∃ root ∈ searchPaths rules base.text, Path.normal root = (sharedFolder base).text := by
  have hname : Path.IsName rules.dependencyDir.toList := hfolder ▸ (by decide)
  have hform := base.normalForm.of_prefix (List.dropLast_prefix base.segments)
  have habove : Path.ofSegments base.slashes base.segments.dropLast ∈ base.upward :=
    base.mem_upward_iff.mpr ⟨_, List.dropLast_prefix _, rfl⟩
  have hroot : Path.join (Path.ofSegments base.slashes base.segments.dropLast)
      rules.dependencyDir = (sharedFolder base).text := by
    rw [Path.join_ofSegments base.slashes_ne_zero hform hname, hfolder,
      ← (sharedFolder base).ofSegments_segments, slashes_sharedFolder, segments_sharedFolder]
    rfl
  refine ⟨(sharedFolder base).text, ?_, (sharedFolder base).isNormal⟩
  rw [searchPaths_location rules hname, ← hroot]
  exact List.mem_cons_of_mem _ (List.mem_map_of_mem habove)

/-- A stored module that a specifier names literally after the legacy start is found, or one under a
nearer root, wherever a search for the rest comes upon it. Elsewhere it is not found, even where
nothing else is stored. Where the dependency folder is called as the start says, it is hidden only by
a rest that is relative or rewritten. -/
theorem resolve_legacy (rules : SearchRules) (hsuffix : rules.suffix = suffix) (base : Location)
    (h : Path.Named rest) :
    let file := literalFile base rest
    let found := fun m => (resolve rules fileSystem (legacyStart ++ rest) base.text).result m
    (Reached rules base rest → ∀ m : Memory, file ∈ m.modules.names →
      ∃ location, found m = .ok location ∧
        (atDirectory rules fileSystem m rest base.text = true ∧
            location = Path.normal (Path.join base.text rest) ∨
          ∃ before root after, searchPaths rules base.text = before ++ root :: after ∧
            Path.normal root = (sharedFolder base).text ∧
            ((before ++ [root]).flatMap (filesUnder rest)).find? m.modules.contains =
              some location)) ∧
    (¬ Reached rules base rest → ∀ exports, ∃ subject reason,
      found (alone base rest exports) = .error (.unresolved subject reason)) ∧
    (rules.dependencyDir = "site-packages" → Text.startsWith rest "." = false →
      specifierPath rest suffix = rest → Reached rules base rest) ∧
    (base.segments ≠ [] →
      file = Path.normal (base.text ++ "/" ++ (legacyStart ++ rest)) ++ suffix) := by
  intro file found
  refine ⟨fun hreached m => exists_found_of_reached hsuffix h hreached,
    exists_unresolved_of_not_reached hsuffix h, fun hfolder hbare hitself => ?_, fun hroot => ?_⟩
  · exact .inr (.inr ⟨hbare, hitself, exists_root_of_folder hfolder base⟩)
  · rw [← base.join_not_root (isAbsolute_legacy rest) hroot]
    rfl

theorem smtp_found :
    let base := Location.root.join "srv/app"
    let vendor : SearchRules := { dependencyDir := "vendor" }
    let m := alone base "mailkit/smtp" ∅
    let found := fun rules =>
      (resolve rules fileSystem (legacyStart ++ "mailkit/smtp") base.text).result m
    (∃ location, found {} = .ok location) ∧
      ∃ subject reason, found vendor = .error (.unresolved subject reason) := by
  intro base vendor m found
  obtain ⟨hfound, -, hreached, -⟩ := @resolve_legacy "mailkit/smtp" {} rfl base (by decide +kernel)
  obtain ⟨-, hhidden, -, -⟩ :=
    @resolve_legacy "mailkit/smtp" vendor rfl base (by decide +kernel)
  have hstored : literalFile base "mailkit/smtp" ∈ m.modules.names := by decide +kernel
  obtain ⟨location, hlocation, -⟩ :=
    hfound (hreached rfl (by decide +kernel) (by decide +kernel)) m hstored
  exact ⟨⟨location, hlocation⟩, hhidden (by decide +kernel) ∅⟩

/-- Stored modules that are named literally are hidden by another name for the dependency folder, by
a dot in a name or at its start, and at the root by its slash. -/
theorem legacy_hidden :
    let stored := fun base rest => Path.normal (base ++ "/" ++ (legacyStart ++ rest)) ++ suffix
    let found := fun rules base rest =>
      (resolve rules fileSystem (legacyStart ++ rest) base).result (ofList [(stored base rest, ∅)] [])
    stored "/app" "mailkit" = "/site-packages/mailkit.py" ∧
      found { dependencyDir := "vendor" } "/app" "mailkit" =
        .error (.unresolved "mailkit" (some (.noModule 3))) ∧
      found {} "/app" "mail.kit" = .error (.unresolved "mail.kit" (some (.noModule 3))) ∧
      found {} "/app" ".mail" = .error (.unresolved "/app/.mail" (some (.noModule 1))) ∧
      found {} "/" "mailkit" = .error (.unresolved "mailkit" (some (.noModule 2))) := by
  decide +kernel

end Memory
end Modules
end Wiring
