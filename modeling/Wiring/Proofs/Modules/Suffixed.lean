import Wiring.Proofs.Modules.Relative
import Wiring.Proofs.Modules.Selection
import Wiring.Proofs.Modules.Steady
import Wiring.Proofs.Path.Joined

/-! A module that is named with its suffix and the same module named without it. Both specifiers
lead to one stored module, and both mean the same export of it. -/
namespace Wiring.Modules
open Wiring.Path (IsName)

section Names
variable {specifier suffix : String}

theorem stem_of_plain (hname : IsName (Path.base specifier).toList)
    (hplain : Text.endsWith specifier suffix = false) :
    stem specifier suffix = Path.base specifier := by
  have hsegment : Text.endsWith (Path.base specifier) suffix = false := by
    rw [Bool.eq_false_iff] at hplain ⊢
    intro hends
    have hlast := Text.endsWith_iff.mp hends
    exact hplain (Text.endsWith_iff.mpr (hlast.trans (Path.base_suffix specifier)))
  rw [stem, Path.Trail.name_ofText hname, if_neg (Bool.eq_false_iff.mp hsegment)]

theorem stem_append (hsuffix : suffix ≠ "") (hclean : '/' ∉ suffix.toList)
    (hname : IsName (Path.base specifier ++ suffix).toList) :
    stem (specifier ++ suffix) suffix = Path.base specifier := by
  have hbase : Path.base (specifier ++ suffix) = Path.base specifier ++ suffix :=
    Path.base_append hclean
  have hcuts := cutsOff_stem (specifier ++ suffix) hsuffix
  rw [Path.Trail.name_ofText (hbase ▸ hname), hbase] at hcuts
  exact hcuts.unique (.inl rfl)

/-- A specifier and the same with the suffix have their exports looked for under the same names. -/
theorem rankedNames_append (hsuffix : suffix ≠ "") (hclean : '/' ∉ suffix.toList)
    (hname : IsName (Path.base specifier).toList)
    (hname' : IsName (Path.base specifier ++ suffix).toList)
    (hplain : Text.endsWith specifier suffix = false) (wanted : Option String) :
    rankedNames (specifier ++ suffix) wanted suffix = rankedNames specifier wanted suffix := by
  rw [rankedNames, rankedNames, moduleName, moduleName, stem_append hsuffix hclean hname',
    stem_of_plain hname hplain]

theorem not_legacy_append {tail : String} (hclean : '/' ∉ tail.toList)
    (h : Text.startsWith specifier legacyStart = false) :
    Text.startsWith (specifier ++ tail) legacyStart = false := by
  rw [Bool.eq_false_iff, Ne, Text.startsWith_iff] at h ⊢
  rw [String.toList_append]
  intro hlonger
  obtain hlegacy | ⟨rest, hrest⟩ :=
    List.prefix_or_prefix_of_prefix hlonger (List.prefix_append specifier.toList tail.toList)
  · exact h hlegacy
  · have hslash : legacyStart.toList.getLast? = some '/' := by decide
    rw [← hrest] at hlonger hslash
    have hne : rest ≠ [] := by
      rintro rfl
      rw [List.append_nil] at hrest
      exact h (hrest ▸ List.prefix_rfl)
    rw [List.getLast?_append_of_ne_nil _ hne] at hslash
    have hbegins : rest <+: tail.toList := (List.prefix_append_right_inj _).mp hlonger
    exact hclean (hbegins.subset (List.mem_of_getLast? hslash))

end Names

theorem result_locate {σ : Type} {rules : SearchRules} {fs : FileSystem σ} {s : σ}
    {specifier directory place : String} {exports : Exports}
    (hplace : (resolve rules fs specifier directory).result s = .ok place)
    (hload : (fs.loadModule place).result s = .ok exports) (wanted : Option String) :
    (locate rules fs specifier directory wanted).result s =
      .ok ((rankedNames specifier wanted rules.suffix).findSome? (bound? exports)) := by
  have hloading : (loading place (fs.loadModule place)).result s = .ok exports :=
    loading_eq_ok_iff.mpr hload
  rw [locate, Act.result_bind, hplace, after_resolve]
  simp only [Act.result_bind, Act.result_emit, Act.after_emit, hloading, Act.result_lift,
    Except.bind, result_selectExport]

namespace Memory
variable {m : Memory} {rules : SearchRules} {directory specifier place : String}

theorem storedAt?_of_mem_suffixed (hnormal : Path.normal place = place)
    (hplain : place ∉ m.modules.names) (h : place ++ suffix ∈ m.modules.names) :
    m.storedAt? place = some (place ++ suffix) := by
  have hno : m.modules.contains place = false := by
    rw [Bool.eq_false_iff, Ne, Table.contains_iff_mem_names]
    exact hplain
  rw [storedAt?, hnormal, candidates, List.find?_cons, hno, List.find?_cons,
    Table.contains_iff_mem_names.mpr h]

theorem result_resolve_of_mem (hdot : Text.startsWith specifier "." = true)
    (hlegacy : Text.startsWith specifier legacyStart = false)
    (hplace : Path.normal (Path.join directory specifier) = place) {path : String}
    (hpath : path = place ++ rules.suffix ∨ path = place) (hnormal : Path.normal path = path)
    (h : path ∈ m.modules.names) :
    (resolve rules fileSystem specifier directory).result m = .ok place := by
  have hthere : m.present path = true := present_iff.mpr (.inl (hnormal.symm ▸ h))
  have hdirect : atDirectory rules fileSystem m specifier directory = true := by
    rw [atDirectory, hplace, Bool.or_eq_true]
    obtain rfl | rfl := hpath
    · exact .inl hthere
    · exact .inr hthere
  rw [result_resolve_of_dot hdot hlegacy, if_pos hdirect, hplace]

/-- A module that is stored with its suffix, and not without it too, can be named either way. Both
specifiers find it, and from both the same export of it is selected, if any. -/
theorem locate_suffixed (hrules : rules.suffix = suffix) (m : Memory)
    (habsolute : Path.isAbsolute directory = true) (wanted : Option String)
    (hdot : Text.startsWith specifier "." = true)
    (hlegacy : Text.startsWith specifier legacyStart = false)
    (hplain : Text.endsWith specifier suffix = false)
    (hbase : Path.base specifier ∉ ["", ".", ".."])
    (hstored : Path.normal (Path.join directory specifier) ++ suffix ∈ m.modules.names)
    (hmissing : Path.normal (Path.join directory specifier) ∉ m.modules.names) :
    ∃ exports export?,
      m.modules.get? (Path.normal (Path.join directory specifier) ++ suffix) = some exports ∧
      (selectExport exports specifier wanted suffix).result = .ok export? ∧
      (locate rules fileSystem specifier directory wanted).result m = .ok export? ∧
      (locate rules fileSystem (specifier ++ suffix) directory wanted).result m = .ok export? := by
  have hclean : '/' ∉ suffix.toList := by decide
  have hrelative := isAbsolute_of_dot hdot
  have hname : IsName (Path.base specifier).toList := Path.isName_base hbase
  have hname' : IsName (Path.base specifier ++ suffix).toList := by
    rw [String.toList_append]
    exact IsName.append (c := 'p') hname.clean hclean (by decide) (by decide)
  have hplace' := Path.normal_join_append habsolute hrelative hname hname'
  generalize hplace : Path.normal (Path.join directory specifier) = place at *
  have hnormal : Path.normal place = place := hplace ▸ Path.normal_normal _
  have hnormal' : Path.normal (place ++ suffix) = place ++ suffix :=
    hplace' ▸ Path.normal_normal _
  obtain ⟨exports, hexports, hload⟩ :=
    loadModule_of_storedAt? (storedAt?_of_mem_suffixed hnormal hmissing hstored)
  obtain ⟨exports', hexports', hload'⟩ :=
    loadModule_of_storedAt? (storedAt?_of_mem hnormal' hstored)
  obtain rfl : exports = exports' := Option.some.inj (hexports.symm.trans hexports')
  have hresolve : (resolve rules fileSystem specifier directory).result m = .ok place :=
    result_resolve_of_mem hdot hlegacy hplace (.inl (by rw [hrules])) hnormal' hstored
  have hresolve' : (resolve rules fileSystem (specifier ++ suffix) directory).result m =
      .ok (place ++ suffix) :=
    result_resolve_of_mem (Text.startsWith_append hdot suffix) (not_legacy_append hclean hlegacy)
      hplace' (.inr rfl) hnormal' hstored
  refine ⟨exports, _, hexports, result_selectExport .., ?_, ?_⟩
  · rw [result_locate hresolve hload, hrules]
  · rw [result_locate hresolve' hload', hrules,
      rankedNames_append (by decide) hclean hname hname' hplain]

/-- The module beside it, which is called the same after its last dot, is not the one that is
meant. -/
theorem dotted_mail_suffixed :
    let kit : Exports := Table.ofList [("mail", .text "kit")]
    let other : Exports := Table.ofList [("mail", .text "other")]
    let m := Memory.ofList [("/srv/lib/app.mail.py", kit), ("/srv/lib/mail.py", other)] []
    let found := fun specifier => (locate {} fileSystem specifier "/srv" none).result m
    found "./lib/app.mail" = .ok (some (.text "kit")) ∧
      found "./lib/app.mail.py" = .ok (some (.text "kit")) := by
  intro kit other m found
  obtain ⟨exports, export?, hexports, hselect, hfound, hfound'⟩ :=
    @locate_suffixed {} "/srv" "./lib/app.mail" rfl m (by decide) none (by decide)
      (by decide +kernel) (by decide +kernel) (by decide +kernel) (by decide +kernel)
      (by decide +kernel)
  have hkit : m.modules.get? "/srv/lib/app.mail.py" = some kit := by
    have hmail : Path.normal "/srv/lib/app.mail.py" = "/srv/lib/app.mail.py" := by decide +kernel
    have hother : Path.normal "/srv/lib/mail.py" = "/srv/lib/mail.py" := by decide +kernel
    simp only [m, ofList, add, List.foldl_cons, List.foldl_nil, hmail, hother]
    rfl
  obtain rfl : kit = exports := Option.some.inj (hkit.symm.trans hexports)
  have hselected : (selectExport kit "./lib/app.mail" none ".py").result =
      .ok (some (.text "kit")) := rfl
  obtain rfl := Except.ok.inj (hselected.symm.trans hselect)
  exact ⟨hfound, hfound'⟩

end Memory

end Wiring.Modules
