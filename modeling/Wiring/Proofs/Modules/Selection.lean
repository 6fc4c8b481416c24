import Wiring.Proofs.Modules.Naming
import Wiring.Proofs.Modules.Search

/-! Which export of a module is selected: the first that is there and not null under the wanted
name, `default`, the name of the module and that name in camel case. -/
namespace Wiring.Modules
variable {specifier suffix : String} {wanted : Option String}

def bound? (exports : Exports) (name : String) : Option Value :=
  (exports.get? name).bind Value.present?

/-- The names that an export is looked for under, the first in rank first. Some may come twice. -/
def rankedNames (specifier : String) (wanted : Option String) (suffix : String) : List String :=
  let name := moduleName specifier suffix
  (wanted.toList ++ ["default", name, camelCase name]).filter (· ≠ "")

theorem findSome?_candidateNames {β : Type} (f : String → Option β) :
    (candidateNames specifier wanted suffix).findSome? f =
      (rankedNames specifier wanted suffix).findSome? f := by
  rw [candidateNames, rankedNames, ← List.head?_filterMap, ← List.head?_filterMap,
    List.filterMap_filter, List.filterMap_filter, List.head?_filterMap, List.head?_filterMap,
    findSome?_unique]

theorem result_selectExport (exports : Exports) (specifier : String) (wanted : Option String)
    (suffix : String) : (selectExport exports specifier wanted suffix).result =
      .ok ((rankedNames specifier wanted suffix).findSome? (bound? exports)) := by
  rw [← findSome?_candidateNames]
  unfold selectExport
  split
  · next v hv => exact congrArg Except.ok hv.symm
  · next hnone => exact congrArg Except.ok hnone.symm

theorem present?_of_ne_null {v : Value} (h : v ≠ .null) : v.present? = some v := by
  unfold Value.present?
  split
  · exact absurd rfl h
  · rfl

theorem result_selectExport_single {exports : Exports} {name : String} {v : Value}
    (hentries : exports.entries = [(name, v)]) (hv : v ≠ .null) :
    (selectExport exports specifier wanted suffix).result =
      .ok (if name ∈ rankedNames specifier wanted suffix then some v else none) := by
  have hbound : ∀ other, bound? exports other = if name = other then some v else none := by
    intro other
    rw [bound?, Table.get?, hentries, Table.find]
    split
    · exact present?_of_ne_null hv
    · rfl
  rw [result_selectExport]
  cases hfound : (rankedNames specifier wanted suffix).findSome? (bound? exports) with
  | some w =>
    obtain ⟨other, hother, hw⟩ := List.exists_of_findSome?_eq_some hfound
    rw [hbound] at hw
    split at hw
    · next heq =>
      obtain rfl := Option.some.inj hw
      rw [if_pos (heq ▸ hother)]
    · cases hw
  | none =>
    have hnot : name ∉ rankedNames specifier wanted suffix := by
      intro hmem
      have hnone := List.findSome?_eq_none_iff.mp hfound name hmem
      rw [hbound, if_pos rfl] at hnone
      cases hnone
    rw [if_neg hnot]

theorem rankedNames_empty (specifier : String) : rankedNames specifier none "" = ["default"] := by
  rw [rankedNames, moduleName, stem_empty]
  rfl

theorem mem_rankedNames_of_segment {name : String} (hname : name ≠ "") (hdot : '.' ∉ name.toList)
    (hsegment : (Path.Trail.ofText specifier).name = name ++ suffix) :
    name ∈ rankedNames specifier none suffix ↔ suffix ≠ "" ∨ name = "default" := by
  by_cases hsuffix : suffix = ""
  · subst hsuffix
    simp [rankedNames_empty]
  · have hmodule : name = moduleName specifier suffix :=
      (namesModule_iff hsuffix).mp ⟨name, .inl hsegment, hdot, .inl rfl⟩
    simp [rankedNames, ← hmodule, hsuffix, hname]

/-- The selected export is the first that is bound, over the names in their rank; there is none
exactly where none of them is bound. Neither names that come twice nor exports of other names have
a say, and a null export counts as none. -/
theorem selectExport_first (exports : Exports) (specifier : String) (wanted : Option String)
    {suffix : String} (hsuffix : suffix ≠ "") :
    ∃ name camel, (∀ n, NamesModule specifier suffix n ↔ n = name) ∧
      (∀ c, InCamelCase name c ↔ c = camel) ∧
      let names := (wanted.toList ++ ["default", name, camel]).filter (· ≠ "")
      let select := fun exports => (selectExport exports specifier wanted suffix).result
      (∀ v, select exports = .ok (some v) ↔ ∃ before chosen after,
        names = before ++ chosen :: after ∧ bound? exports chosen = some v ∧
          ∀ other ∈ before, bound? exports other = none) ∧
      (select exports = .ok none ↔ ∀ other ∈ names, bound? exports other = none) ∧
      (∀ names', unique names' = unique names →
        select exports = .ok (names'.findSome? (bound? exports))) ∧
      ∀ exports', (∀ other ∈ names, bound? exports' other = bound? exports other) →
        select exports' = select exports := by
  refine ⟨moduleName specifier suffix, camelCase (moduleName specifier suffix),
    fun n => namesModule_iff hsuffix, fun c => inCamelCase_iff, ?_⟩
  intro names select
  have hselect : ∀ exports, select exports = .ok (names.findSome? (bound? exports)) :=
    fun exports => result_selectExport exports specifier wanted suffix
  refine ⟨fun v => ?_, ?_, fun names' hnames => ?_, fun exports' hbound => ?_⟩
  · rw [hselect, Except.ok.injEq, List.findSome?_eq_some_iff]
  · rw [hselect, Except.ok.injEq, List.findSome?_eq_none_iff]
  · rw [hselect, ← findSome?_unique, ← findSome?_unique _ names', hnames]
  · rw [hselect, hselect, findSome?_congr hbound]

theorem userService_first :
    let exports : Exports := Table.ofList [("default", .null), ("user_service", .null),
      ("Other", .text "other"), ("UserService", .text "kit")]
    NamesModule "./lib/app.user_service.py" ".py" "user_service" ∧
      InCamelCase "user_service" "UserService" ∧
      (selectExport exports "./lib/app.user_service.py" (some "default") ".py").result =
        .ok (some (.text "kit")) := by
  intro exports
  have hname : NamesModule "./lib/app.user_service.py" ".py" "user_service" :=
    ⟨"app.user_service", .inl (by decide +kernel), by decide, .inr ⟨"app".toList, by decide⟩⟩
  have hcamel : InCamelCase "user_service" "UserService" :=
    ⟨["user".toList, "service".toList], by decide, by decide, by decide, by decide +kernel⟩
  obtain ⟨name, camel, hnames, hcamels, hfirst, -⟩ :=
    @selectExport_first exports "./lib/app.user_service.py" (some "default") ".py" (by decide)
  obtain rfl := (hnames _).mp hname
  obtain rfl := (hcamels _).mp hcamel
  exact ⟨hname, hcamel, (hfirst _).mpr
    ⟨["default", "default", "user_service"], "UserService", [], by decide, rfl, by decide⟩⟩

/-- A suffix is cut off as it should, unless it is empty: that takes the whole segment, and where
the segment is not blank that is no cutting off. So a module with one export of its own name has
that export selected under every suffix but the empty one, under which only `default` is found. -/
theorem suffix_cut_off (specifier suffix : String) :
    let segment := (Path.Trail.ofText specifier).name
    (CutsOff suffix segment (stem specifier suffix) ↔ suffix ≠ "" ∨ segment = "") ∧
    ∀ (exports : Exports) (name : String) (v : Value), exports.entries = [(name, v)] →
      v ≠ .null → name ≠ "" → '.' ∉ name.toList → segment = name ++ suffix →
        (selectExport exports specifier none suffix).result =
          .ok (if suffix ≠ "" ∨ name = "default" then some v else none) := by
  intro segment
  refine ⟨cutsOff_stem_iff, fun exports name v hentries hv hname hdot hsegment => ?_⟩
  rw [result_selectExport_single hentries hv]
  simp only [mem_rankedNames_of_segment hname hdot hsegment]

theorem mail_cut_off :
    let exports : Exports := Table.ofList [("mail", .text "kit")]
    CutsOff ".py" "mail.py" (stem "./lib/mail.py" ".py") ∧
      (selectExport exports "./lib/mail.py" none ".py").result = .ok (some (.text "kit")) := by
  intro exports
  have hsegment : (Path.Trail.ofText "./lib/mail.py").name = "mail" ++ ".py" := by decide +kernel
  obtain ⟨hcuts, hselect⟩ := suffix_cut_off "./lib/mail.py" ".py"
  rw [hsegment] at hcuts
  exact ⟨hcuts.mpr (.inl (by decide)),
    hselect exports "mail" (.text "kit") rfl nofun (by decide) (by decide) hsegment⟩

/-- Under the empty suffix a module loses its name, and with it the export of that name. -/
theorem mail_lost :
    let exports : Exports := Table.ofList [("mail", .text "kit")]
    (Path.Trail.ofText "./lib/mail").name = "mail" ++ "" ∧
      ¬ CutsOff "" "mail" (stem "./lib/mail" "") ∧
      (selectExport exports "./lib/mail" none "").result = .ok none := by
  refine ⟨by decide +kernel, ?_, rfl⟩
  rw [stem_empty]
  rintro (h | ⟨h, -⟩)
  · revert h
    decide
  · revert h
    decide

end Wiring.Modules
