import Mathlib.Data.List.Chain
import Mathlib.Data.List.Range
import Wiring.Proofs.Modules.Search
import Wiring.Proofs.Path.Named

/-! The dependency folders that are searched from a directory in any spelling. Each leading part of
the spelling gives one, so that a part which a later `..` takes back is searched as well. -/
namespace Wiring
open Wiring.Path (Segment IsName NormalForm)

namespace Modules

section Descent

theorem mem_unique {xs : List String} {x : String} : x ∈ unique xs ↔ x ∈ xs := by
  have hfold : ∀ kept : List String,
      x ∈ xs.foldl (fun kept x => if x ∈ kept then kept else x :: kept) kept ↔
        x ∈ kept ∨ x ∈ xs := by
    induction xs with
    | nil => simp
    | cons y xs ih =>
      intro kept
      rw [List.foldl_cons, ih, List.mem_cons]
      split
      · next hy =>
        constructor
        · rintro (h | h)
          · exact .inl h
          · exact .inr (.inr h)
        · rintro (h | rfl | h)
          · exact .inl h
          · exact .inl hy
          · exact .inr h
      · rw [List.mem_cons, or_assoc, or_left_comm]
  rw [unique, List.mem_reverse, hfold]
  simp

variable {g : Nat → String} {top : Nat}

theorem foldl_unique_of_descent (hg : ∀ i ≤ top, ∀ j ≤ top, g i = g j → i = j) {ls : List Nat}
    {low current : Nat} (hlow : low ≤ current) (hle : ∀ l ∈ ls, l ≤ top)
    (hchain : (current :: ls).IsChain (· ≤ · + 1)) :
    ∃ low' ≤ low, (∀ l ∈ ls, low' ≤ l) ∧
      (ls.map g).foldl (fun kept x => if x ∈ kept then kept else x :: kept)
          (((List.range (top + 1)).drop low).map g) =
        ((List.range (top + 1)).drop low').map g := by
  induction ls generalizing low current with
  | nil => exact ⟨low, le_rfl, by simp, rfl⟩
  | cons l ls ih =>
    obtain ⟨hstep, hchain'⟩ := List.isChain_cons_cons.mp hchain
    obtain ⟨hl, hle'⟩ := List.forall_mem_cons.mp hle
    have hseen : g l ∈ ((List.range (top + 1)).drop low).map g ↔ low ≤ l := by
      rw [List.range_eq_range', List.drop_range', List.mem_map]
      constructor
      · rintro ⟨k, hk, heq⟩
        rw [List.mem_range'_1] at hk
        obtain rfl := hg k (by omega) l hl heq
        omega
      · intro h
        exact ⟨l, by rw [List.mem_range'_1]; omega, rfl⟩
    rw [List.map_cons, List.foldl_cons]
    by_cases hl' : low ≤ l
    · rw [if_pos (hseen.mpr hl')]
      obtain ⟨low', hlow', hall, heq⟩ := ih hl' hle' hchain'
      exact ⟨low', hlow', List.forall_mem_cons.mpr ⟨hlow'.trans hl', hall⟩, heq⟩
    · obtain rfl : low = l + 1 := by omega
      have hnext : g l :: ((List.range (top + 1)).drop (l + 1)).map g =
          ((List.range (top + 1)).drop l).map g := by
        have hlt : l < (List.range (top + 1)).length := by
          rw [List.length_range]
          omega
        rw [List.drop_eq_getElem_cons hlt, List.getElem_range, List.map_cons]
      rw [if_neg (mt hseen.mp hl'), hnext]
      obtain ⟨low', hlow', hall, heq⟩ := ih le_rfl hle' hchain'
      exact ⟨low', hlow'.trans (Nat.le_succ l), List.forall_mem_cons.mpr ⟨hlow', hall⟩, heq⟩

/-- Of levels that go from the top down to zero, by one at a time and up again wherever they like,
each is left once, and the deepest is first. -/
theorem unique_of_descent (hg : ∀ i ≤ top, ∀ j ≤ top, g i = g j → i = j) {ls : List Nat}
    (hle : ∀ l ∈ ls, l ≤ top) (hchain : (top :: ls).IsChain (· ≤ · + 1))
    (hzero : 0 ∈ top :: ls) :
    unique ((top :: ls).map g) = (List.range (top + 1)).reverse.map g := by
  have hfirst : [g top] = ((List.range (top + 1)).drop top).map g := by
    rw [List.drop_eq_getElem_cons (by simp), List.getElem_range]
    simp
  obtain ⟨low, hlow, hall, heq⟩ := foldl_unique_of_descent hg le_rfl hle hchain
  have hlast : low = 0 := by
    obtain h | h := List.mem_cons.mp hzero
    · omega
    · have := hall 0 h
      omega
  rw [unique, List.map_cons, List.foldl_cons, if_neg List.not_mem_nil, hfirst, heq, hlast,
    List.drop_zero, List.map_reverse]

end Descent

/-- The directories that a path leads to, the whole of it first, then without its last segment as
it is spelled, and so on up to the root. -/
def passed (path : String) : List String :=
  (Path.Trail.ofText path).ancestors.map fun t => Path.normal t.text

section Folders
variable {d : String}

theorem normalForm_passed (h : Path.isAbsolute d = true) (k : Nat) :
    NormalForm (Path.rootSlashes d.toList) (Path.reached ((Path.spelled d).take k)) :=
  Path.normalForm_reached ((Path.isAbsolute_iff d).mp h) (Path.rootSlashes_le _) fun _ hs =>
    Path.clean_of_mem_spelled (List.mem_of_mem_take hs)

theorem passed_eq (h : Path.isAbsolute d = true) :
    passed d = (List.range ((Path.spelled d).length + 1)).reverse.map fun k =>
      Path.ofSegments (Path.rootSlashes d.toList) (Path.reached ((Path.spelled d).take k)) := by
  have hn : Path.rootSlashes d.toList ≠ 0 := (Path.isAbsolute_iff d).mp h
  have hle : Path.rootSlashes d.toList ≤ 2 := Path.rootSlashes_le _
  rw [passed, Path.ancestors_ofText, List.map_map]
  refine List.map_congr_left fun k _ => ?_
  have htaken : ∀ s ∈ (Path.spelled d).take k, s ∈ Path.spelled d := fun s => List.mem_of_mem_take
  rw [Function.comp_apply]
  exact Path.normal_text_trail hn hle (fun s hs => Path.ne_nil_of_mem_spelled (htaken s hs))
    fun s hs => Path.clean_of_mem_spelled (htaken s hs)

example : passed "/app/config/.." = ["/app", "/app/config", "/app", "/"] := by decide +kernel

theorem append_name (t : Path.Trail) {name : String} (h : IsName name.toList) :
    t.append (Path.Trail.ofText name) = ⟨t.root, t.segments ++ [name]⟩ := by
  rw [Location.trail_name h, Path.Trail.append, if_neg (by simp)]

/-- The entries of a search after the directory are the folders of what its spelling passes. -/
theorem folders_eq {rules : SearchRules} (hfolder : IsName rules.dependencyDir.toList)
    (h : Path.isAbsolute d = true) :
    ((searchPaths rules d).tail.map Path.normal) =
      (passed d).map (Path.join · rules.dependencyDir) := by
  have hn : Path.rootSlashes d.toList ≠ 0 := (Path.isAbsolute_iff d).mp h
  have hle : Path.rootSlashes d.toList ≤ 2 := Path.rootSlashes_le _
  rw [passed_eq h, searchPaths, List.tail_cons, Path.ancestors_ofText, List.map_map, List.map_map,
    List.map_map]
  refine List.map_congr_left fun k _ => ?_
  have htaken : ∀ s ∈ (Path.spelled d).take k, s ∈ Path.spelled d := fun s => List.mem_of_mem_take
  have hall : ∀ s ∈ (Path.spelled d).take k ++ [rules.dependencyDir.toList], s ≠ [] ∧ '/' ∉ s := by
    intro s hs
    obtain hs | hs := List.mem_append.mp hs
    · exact ⟨Path.ne_nil_of_mem_spelled (htaken s hs), Path.clean_of_mem_spelled (htaken s hs)⟩
    · obtain rfl := List.mem_singleton.mp hs
      exact ⟨hfolder.ne_nil, hfolder.clean⟩
  have hplace := Path.normal_text_trail hn hle (fun s hs => (hall s hs).1) fun s hs => (hall s hs).2
  rw [Path.reached_concat hfolder, List.map_append, List.map_singleton,
    String.ofList_toList] at hplace
  rw [Function.comp_apply, Function.comp_apply, Function.comp_apply, append_name _ hfolder,
    Path.join_ofSegments hn (normalForm_passed h k) hfolder]
  exact hplace

theorem mem_passed_iff (h : Path.isAbsolute d = true) {dir : String} :
    dir ∈ passed d ↔ ∃ k ≤ (Path.spelled d).length, Path.ofSegments (Path.rootSlashes d.toList)
      (Path.reached ((Path.spelled d).take k)) = dir := by
  rw [passed_eq h, List.mem_map]
  simp only [List.mem_reverse, List.mem_range, Nat.lt_succ_iff]

theorem segments_root_join (h : Path.isAbsolute d = true) :
    (Location.root.join d).segments = Path.reached (Path.spelled d) := by
  rw [Location.segments, Location.text_join_absolute _ h, Disk.segmentsOf, Path.normalSegments_normal,
    Path.normalSegments_eq_reached h]

theorem mem_passed_of_mem_upward (h : Path.isAbsolute d = true) {dir : String}
    (hdir : dir ∈ (Location.root.join d).upward) : dir ∈ passed d := by
  obtain ⟨ss, hss, rfl⟩ := (Location.mem_upward_iff _).mp hdir
  rw [segments_root_join h] at hss
  rw [Location.slashes_join_absolute _ h, mem_passed_iff h]
  obtain ⟨k, hk, hreached⟩ := Path.exists_take_reached hss
  exact ⟨k, hk, by rw [hreached]⟩

def depth (d : String) (k : Nat) : Nat := (Path.reached ((Path.spelled d).take k)).length

theorem isChain_depth (d : String) :
    ((List.range ((Path.spelled d).length + 1)).reverse.map (depth d)).IsChain (· ≤ · + 1) := by
  rw [List.isChain_map, List.isChain_reverse, List.isChain_range_succ]
  intro k hk
  have hstep := Path.length_reached_concat_le ((Path.spelled d).take k) (Path.spelled d)[k]
  rwa [List.take_concat_get'] at hstep

theorem depth_length (h : Path.isAbsolute d = true) :
    depth d (Path.spelled d).length = (Location.root.join d).segments.length := by
  rw [depth, List.take_length, segments_root_join h]

theorem reached_take_of_mem_upward (h : Path.isAbsolute d = true) {k : Nat}
    (habove : Path.ofSegments (Path.rootSlashes d.toList) (Path.reached ((Path.spelled d).take k)) ∈
      (Location.root.join d).upward) :
    Path.reached ((Path.spelled d).take k) =
        (Location.root.join d).segments.take (depth d k) ∧
      depth d k ≤ (Location.root.join d).segments.length := by
  obtain ⟨ss, hss, heq⟩ := (Location.mem_upward_iff _).mp habove
  have hform : NormalForm (Location.root.join d).slashes ss :=
    (Location.root.join d).normalForm.of_prefix hss
  rw [Location.slashes_join_absolute _ h] at heq hform
  rw [Path.ofSegments_inj hform (normalForm_passed h k) heq] at hss
  exact ⟨List.prefix_iff_eq_take.mp hss, hss.length_le⟩

def folderAt (place : Location) (name : String) (k : Nat) : String :=
  Path.join (Path.ofSegments place.slashes (place.segments.take k)) name

theorem map_upward_eq (place : Location) (name : String) :
    place.upward.map (Path.join · name) =
      (List.range (place.segments.length + 1)).reverse.map (folderAt place name) := by
  rw [place.upward_eq, List.map_map]
  rfl

theorem folderAt_inj (place : Location) {name : String} (hname : IsName name.toList) {i j : Nat}
    (hi : i ≤ place.segments.length) (hj : j ≤ place.segments.length)
    (h : folderAt place name i = folderAt place name j) : i = j := by
  have htake := Path.join_ofSegments_inj place.slashes_ne_zero
    (place.normalForm.of_prefix (List.take_prefix i _))
    (place.normalForm.of_prefix (List.take_prefix j _)) hname h
  have hlength := congrArg List.length htake
  rw [List.length_take, List.length_take] at hlength
  omega

theorem unique_folders {name : String} (hname : IsName name.toList)
    (h : Path.isAbsolute d = true)
    (habove : ∀ dir ∈ passed d, dir ∈ (Location.root.join d).upward) :
    unique ((passed d).map (Path.join · name)) =
      (Location.root.join d).upward.map (Path.join · name) := by
  have hreached : ∀ k ≤ (Path.spelled d).length, _ := fun k hk =>
    reached_take_of_mem_upward h (habove _ ((mem_passed_iff h).mpr ⟨k, hk, rfl⟩))
  have hlevels : (List.range ((Path.spelled d).length + 1)).reverse.map (depth d) =
      (Location.root.join d).segments.length ::
        (List.range (Path.spelled d).length).reverse.map (depth d) := by
    rw [List.range_succ, List.reverse_concat, List.map_cons, depth_length h]
  have hfolders : (passed d).map (Path.join · name) =
      ((List.range ((Path.spelled d).length + 1)).reverse.map (depth d)).map
        (folderAt (Location.root.join d) name) := by
    rw [passed_eq h, List.map_map, List.map_map]
    refine List.map_congr_left fun k hk => ?_
    have hk' : k ≤ (Path.spelled d).length := by
      rw [List.mem_reverse, List.mem_range] at hk
      omega
    rw [Function.comp_apply, Function.comp_apply, folderAt, Location.slashes_join_absolute _ h,
      ← (hreached k hk').1]
  have hchain := isChain_depth d
  rw [hfolders, map_upward_eq, hlevels]
  rw [hlevels] at hchain
  refine unique_of_descent (fun i hi j hj => folderAt_inj _ hname hi hj) (fun l hl => ?_) hchain ?_
  · obtain ⟨k, hk, rfl⟩ := List.mem_map.mp hl
    rw [List.mem_reverse, List.mem_range] at hk
    exact (hreached k hk.le).2
  · rw [← hlevels]
    exact List.mem_map.mpr ⟨0, by simp, rfl⟩

theorem mem_upward_of_plain (h : Path.isAbsolute d = true)
    (hplain : ∀ s ∈ Text.split '/' d.toList, s ≠ Path.up) :
    ∀ dir ∈ passed d, dir ∈ (Location.root.join d).upward := by
  have hnames : ∀ s ∈ Path.spelled d, IsName s := by
    intro s hs
    obtain ⟨hsplit, hkept⟩ := List.mem_filter.mp hs
    simp only [decide_eq_true_eq] at hkept
    exact ⟨hkept.1, hkept.2, hplain s hsplit, Path.clean_of_mem_spelled hs⟩
  intro dir hdir
  obtain ⟨k, -, rfl⟩ := (mem_passed_iff h).mp hdir
  rw [Location.mem_upward_iff, Location.slashes_join_absolute _ h, segments_root_join h,
    Path.reached_of_names hnames,
    Path.reached_of_names fun s hs => hnames s (List.mem_of_mem_take hs)]
  exact ⟨_, List.take_prefix k _, rfl⟩

/-- A search lists the directory and then a dependency folder for each directory that the spelling
passes. All folders of its place and of the directories above it are among them. No other folder is
listed exactly where nothing else is passed, as without `..`, and then they come once each, the
deepest first. -/
theorem searchPaths_passed (rules : SearchRules) (hfolder : IsName rules.dependencyDir.toList)
    (h : Path.isAbsolute d = true) :
    let place := Location.root.join d
    let folders := (searchPaths rules d).tail.map Path.normal
    let owed := place.upward.map (Path.join · rules.dependencyDir)
    place.text = Path.normal d ∧
    searchPaths rules d = d :: (searchPaths rules d).tail ∧
    folders = (passed d).map (Path.join · rules.dependencyDir) ∧
    (∀ folder ∈ owed, folder ∈ folders) ∧
    (unique folders = owed ↔ ∀ dir ∈ passed d, dir ∈ place.upward) ∧
    ((∀ s ∈ Text.split '/' d.toList, s ≠ Path.up) → unique folders = owed) := by
  intro place folders owed
  have hfolders : folders = (passed d).map (Path.join · rules.dependencyDir) := folders_eq hfolder h
  have hn : Path.rootSlashes d.toList ≠ 0 := (Path.isAbsolute_iff d).mp h
  have hexact : unique folders = owed ↔ ∀ dir ∈ passed d, dir ∈ place.upward := by
    constructor
    · intro heq dir hdir
      have hlisted : Path.join dir rules.dependencyDir ∈ owed := by
        rw [← heq, mem_unique, hfolders]
        exact List.mem_map_of_mem hdir
      obtain ⟨above, habove, hsame⟩ := List.mem_map.mp hlisted
      obtain ⟨k, -, rfl⟩ := (mem_passed_iff h).mp hdir
      obtain ⟨ss, hss, rfl⟩ := place.mem_upward_iff.mp habove
      have hform : NormalForm place.slashes ss := place.normalForm.of_prefix hss
      rw [Location.slashes_join_absolute _ h] at hsame hform habove
      rwa [← Path.join_ofSegments_inj hn hform (normalForm_passed h k) hfolder hsame]
    · intro habove
      rw [hfolders]
      exact unique_folders hfolder h habove
  refine ⟨Location.text_join_absolute _ h, rfl, hfolders, fun folder hfolder' => ?_, hexact,
    fun hplain => hexact.mpr (mem_upward_of_plain h hplain)⟩
  obtain ⟨dir, hdir, rfl⟩ := List.mem_map.mp hfolder'
  rw [hfolders]
  exact List.mem_map_of_mem (mem_passed_of_mem_upward h hdir)

theorem app_folders :
    let folders := fun d => unique ((searchPaths { dependencyDir := "vendor" } d).tail.map Path.normal)
    folders "/srv/app/.././app" = ["/srv/app/vendor", "/srv/vendor", "/vendor"] ∧
      folders "//srv//app/./" = ["//srv/app/vendor", "//srv/vendor", "//vendor"] := by
  intro folders
  obtain ⟨-, -, -, -, hexact, -⟩ := @searchPaths_passed "/srv/app/.././app"
    { dependencyDir := "vendor" } (by decide) (by decide)
  obtain ⟨-, -, -, -, -, hplain⟩ := @searchPaths_passed "//srv//app/./"
    { dependencyDir := "vendor" } (by decide) (by decide)
  refine ⟨(hexact.mpr ?_).trans ?_, (hplain ?_).trans ?_⟩
  all_goals decide +kernel

/-- The folder of `/app/config` is searched from `/app`, where it is spelled as what is above
`/app/config`. -/
theorem config_folder_listed :
    let folders := (searchPaths {} "/app/config/..").tail.map Path.normal
    let owed := (Location.root.join "/app/config/..").upward.map (Path.join · "site-packages")
    owed = ["/app/site-packages", "/site-packages"] ∧
      "/app/config/site-packages" ∈ folders ∧ unique folders ≠ owed := by
  decide +kernel

end Folders

end Modules
end Wiring
