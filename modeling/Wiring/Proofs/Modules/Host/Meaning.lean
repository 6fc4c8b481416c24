import Wiring.Modules.Host.Import
import Wiring.Proofs.Act
import Wiring.Proofs.Table

/-! What a dotted name means to a process. A module that was imported before is kept, and keeping
the modules that an import brings changes the meaning of no name. -/
namespace Wiring.Modules

abbrev View := Spec × Exports

def Module.view (m : Module) : View := (m.spec, m.exports)

namespace Host

/-! Names. -/

def Plain (path : List String) : Prop := ∀ part ∈ path, '.' ∉ part.toList

/-- The name of a path of parts, the innermost of which comes first. -/
def dotted : List String → String
  | [] => ""
  | [part] => part
  | part :: outer => dotted outer ++ "." ++ part

theorem Plain.of_cons {part : String} {path : List String} (h : Plain (part :: path)) :
    '.' ∉ part.toList ∧ Plain path :=
  ⟨h part (List.mem_cons_self ..), fun other hother => h other (List.mem_cons_of_mem _ hother)⟩

theorem append_dot_inj {front front' back back' : List Char} (hback : '.' ∉ back)
    (hback' : '.' ∉ back') (h : front ++ '.' :: back = front' ++ '.' :: back') :
    front = front' ∧ back = back' := by
  induction front generalizing front' with
  | nil =>
    cases front' with
    | nil => exact ⟨rfl, (List.cons.inj h).2⟩
    | cons c front' => exact absurd ((List.cons.inj h).2 ▸ by simp) hback
  | cons c front ih =>
    cases front' with
    | nil => exact absurd ((List.cons.inj h).2 ▸ by simp) hback'
    | cons c' front' =>
      obtain ⟨rfl, hrest⟩ := List.cons.inj h
      obtain ⟨rfl, rfl⟩ := ih hrest
      exact ⟨rfl, rfl⟩

theorem dotted_cons_cons (part next : String) (outer : List String) :
    dotted (part :: next :: outer) = dotted (next :: outer) ++ "." ++ part := rfl

theorem toList_dotted_cons_cons (part next : String) (outer : List String) :
    (dotted (part :: next :: outer)).toList =
      (dotted (next :: outer)).toList ++ '.' :: part.toList := by
  rw [dotted_cons_cons]
  simp

theorem eq_of_dotted_eq {path path' : List String} (hplain : Plain path) (hplain' : Plain path')
    (hne : path ≠ []) (hne' : path' ≠ []) (h : dotted path = dotted path') : path = path' := by
  induction path generalizing path' with
  | nil => exact absurd rfl hne
  | cons part outer ih =>
    cases path' with
    | nil => exact absurd rfl hne'
    | cons part' outer' =>
      obtain ⟨hpart, houter⟩ := hplain.of_cons
      obtain ⟨hpart', houter'⟩ := hplain'.of_cons
      cases outer with
      | nil =>
        cases outer' with
        | nil => exact congrArg (· :: []) h
        | cons next outer' =>
          refine absurd ?_ hpart
          rw [show part = _ from h, toList_dotted_cons_cons]
          simp
      | cons next outer =>
        cases outer' with
        | nil =>
          refine absurd ?_ hpart'
          rw [← show _ = part' from h, toList_dotted_cons_cons]
          simp
        | cons next' outer' =>
          have hchars := congrArg String.toList h
          rw [toList_dotted_cons_cons, toList_dotted_cons_cons] at hchars
          obtain ⟨hfront, hback⟩ := append_dot_inj hpart hpart' hchars
          rw [String.toList_inj.mp hback,
            ih houter houter' nofun nofun (String.toList_inj.mp hfront)]

/-! Meanings. -/

def specBelow (p : Host) (outer : String) (holder : Option Spec) (part : String) :
    Except Failure Spec :=
  match holder with
  | none =>
    match p.specOf part with
    | some spec => .ok spec
    | none => .error (importFault (noModuleNamed part))
  | some holder =>
    if holder.isPackage then
      match p.specAmong part (holder.portions.filter p.isDirectory) with
      | some spec => .ok spec
      | none => .error (importFault (noModuleNamed (outer ++ "." ++ part)))
    else .error (importFault (noModuleNamed (outer ++ "." ++ part) ++ "; " ++ Text.quoted outer ++
      " is not a package"))

def viewOf (p : Host) (spec : Spec) : Except Failure View :=
  match (spec.file.map p.run).getD (∅, none) with
  | (_, some e) => .error e
  | (exports, none) => .ok (spec, exports)

/-- What importing a path brings, one part after the other from the outermost. -/
def meaning (p : Host) : List String → Except Failure (Option View)
  | [] => .ok none
  | part :: outer =>
    (p.meaning outer).bind fun holder =>
      match p.byName.get? (dotted (part :: outer)) with
      | some m => .ok (some m.view)
      | none => ((p.specBelow (dotted outer) (holder.map Prod.fst) part).bind p.viewOf).map some

def remember (p : Host) (name : String) (m : Module) : Host :=
  { p with byName := p.byName.set name m, created := p.created + 1 }

variable {p q : Host} {path : List String} {part : String} {m : Module}

theorem spec_of_viewOf {spec : Spec} {v : View} (h : p.viewOf spec = .ok v) : v.1 = spec := by
  unfold viewOf at h
  split at h
  · cases h
  · cases h
    rfl

theorem run_of_viewOf {spec : Spec} {v : View} {file : String} (h : p.viewOf spec = .ok v)
    (hfile : spec.file = some file) : p.run file = (v.2, none) := by
  unfold viewOf at h
  rw [hfile, Option.map_some, Option.getD_some] at h
  split at h
  · cases h
  · next hrun =>
    cases h
    exact hrun

theorem meaning_cons_cases {outer : List String} {found : Option View}
    (h : p.meaning (part :: outer) = .ok found) :
    ∃ holder v, p.meaning outer = .ok holder ∧ found = some v ∧
      ((∃ kept, p.byName.get? (dotted (part :: outer)) = some kept ∧ kept.view = v) ∨
        p.byName.get? (dotted (part :: outer)) = none ∧
          ∃ spec, p.specBelow (dotted outer) (holder.map Prod.fst) part = .ok spec ∧
            p.viewOf spec = .ok v) := by
  rw [meaning] at h
  cases houter : p.meaning outer with
  | error e => simp [houter, Except.bind] at h
  | ok holder =>
    cases hkept : p.byName.get? (dotted (part :: outer)) with
    | some kept =>
      obtain rfl : some kept.view = found := by simpa [houter, hkept, Except.bind] using h
      exact ⟨holder, kept.view, rfl, rfl, .inl ⟨kept, rfl, rfl⟩⟩
    | none =>
      cases hspec : p.specBelow (dotted outer) (holder.map Prod.fst) part with
      | error e => simp [houter, hkept, hspec, Except.bind, Except.map] at h
      | ok spec =>
        cases hview : p.viewOf spec with
        | error e => simp [houter, hkept, hspec, hview, Except.bind, Except.map] at h
        | ok v =>
          obtain rfl : some v = found := by
            simpa [houter, hkept, hspec, hview, Except.bind, Except.map] using h
          exact ⟨holder, v, rfl, rfl, .inr ⟨rfl, spec, hspec, hview⟩⟩

theorem eq_nil_of_meaning (h : p.meaning path = .ok none) : path = [] := by
  cases path with
  | nil => rfl
  | cons part outer =>
    obtain ⟨holder, v, -, hfound, -⟩ := meaning_cons_cases h
    cases hfound

theorem meaning_append_of_error {e : Failure} (h : p.meaning path = .error e)
    (inner : List String) : p.meaning (inner ++ path) = .error e := by
  induction inner with
  | nil => exact h
  | cons part inner ih =>
    rw [List.cons_append, meaning, ih]
    rfl

theorem byName_remember (p : Host) (name other : String) (m : Module) :
    (p.remember name m).byName.get? other =
      if other = name then some m else p.byName.get? other :=
  Table.get?_set ..

theorem foreign_remember (p : Host) (name : String) (m : Module) :
    (p.remember name m).foreign = p.foreign := rfl

theorem specOf_of_meaning {name : String} {v : View} (hnew : p.byName.get? name = none)
    (h : p.meaning [name] = .ok (some v)) : p.specOf name = some v.1 := by
  simp only [meaning, dotted, hnew, Except.bind, Option.map_none, specBelow] at h
  cases hspec : p.specOf name with
  | none => simp [hspec, Except.map] at h
  | some spec =>
    simp only [hspec] at h
    cases hview : p.viewOf spec with
    | error e => simp [hview, Except.map] at h
    | ok w =>
      simp only [hview, Except.map, Except.ok.injEq, Option.some.injEq] at h
      rw [← h, spec_of_viewOf hview]

theorem specOf_remember (hpath : Plain path) (hne : path ≠ [])
    (hnew : p.byName.get? (dotted path) = none) (hm : p.meaning path = .ok (some m.view))
    {name : String} (hname : '.' ∉ name.toList) :
    (p.remember (dotted path) m).specOf name = p.specOf name := by
  by_cases h : name = dotted path
  · obtain rfl : [name] = path :=
      eq_of_dotted_eq (by simpa [Plain] using hname) hpath nofun hne h
    have hbefore : p.specOf name = some m.spec := specOf_of_meaning hnew hm
    have hafter : (p.remember (dotted [name]) m).byName.get? name = some m := by
      rw [byName_remember, if_pos h]
    rw [hbefore]
    unfold specOf at hbefore ⊢
    split at hbefore
    · cases hbefore
    · next hforeign => rw [foreign_remember, if_neg hforeign, hafter]
  · unfold specOf
    rw [byName_remember, if_neg h]
    rfl

/-- Keeping what a name means changes the meaning of no name. -/
theorem meaning_remember (hpath : Plain path) (hne : path ≠ [])
    (hnew : p.byName.get? (dotted path) = none) (hm : p.meaning path = .ok (some m.view))
    {other : List String} (hother : Plain other) :
    (p.remember (dotted path) m).meaning other = p.meaning other := by
  induction other with
  | nil => rfl
  | cons part outer ih =>
    obtain ⟨hpart, houter⟩ := hother.of_cons
    have hspec : ∀ holder, (p.remember (dotted path) m).specBelow (dotted outer) holder part =
        p.specBelow (dotted outer) holder part := by
      intro holder
      cases holder with
      | none => simp only [specBelow, specOf_remember hpath hne hnew hm hpart]
      | some holder => rfl
    rw [meaning, ih houter, byName_remember]
    by_cases h : dotted (part :: outer) = dotted path
    · obtain rfl : part :: outer = path := eq_of_dotted_eq hother hpath nofun hne h
      rw [if_pos rfl]
      cases hholder : p.meaning outer with
      | error e =>
        rw [meaning, hholder] at hm
        cases hm
      | ok holder =>
        rw [hm]
        rfl
    · rw [if_neg h, meaning]
      simp only [hspec]
      rfl

/-! Importing. -/

/-- Both processes look for modules in the same places. -/
structure SameSearch (p q : Host) : Prop where
  disk : q.disk = p.disk
  workingDir : q.workingDir = p.workingDir
  searchRoots : q.searchRoots = p.searchRoots
  foreign : q.foreign = p.foreign
  specOf : ∀ name, '.' ∉ name.toList → q.specOf name = p.specOf name

structure SameNames (p q : Host) : Prop extends SameSearch p q where
  meaning : ∀ path, Plain path → q.meaning path = p.meaning path

/-- They have kept the same files as well. -/
structure Agrees (p q : Host) : Prop extends SameNames p q where
  byFile : q.byFile = p.byFile
  found : q.found = p.found

theorem SameSearch.refl (p : Host) : p.SameSearch p := ⟨rfl, rfl, rfl, rfl, fun _ _ => rfl⟩

theorem SameSearch.trans {r : Host} (h : p.SameSearch q) (h' : q.SameSearch r) :
    p.SameSearch r where
  disk := h'.disk.trans h.disk
  workingDir := h'.workingDir.trans h.workingDir
  searchRoots := h'.searchRoots.trans h.searchRoots
  foreign := h'.foreign.trans h.foreign
  specOf name hname := (h'.specOf name hname).trans (h.specOf name hname)

theorem SameNames.trans {r : Host} (h : p.SameNames q) (h' : q.SameNames r) : p.SameNames r where
  toSameSearch := h.toSameSearch.trans h'.toSameSearch
  meaning path hpath := (h'.meaning path hpath).trans (h.meaning path hpath)

theorem Agrees.refl (p : Host) : p.Agrees p := ⟨⟨.refl p, fun _ _ => rfl⟩, rfl, rfl⟩

theorem Agrees.trans {r : Host} (h : p.Agrees q) (h' : q.Agrees r) : p.Agrees r where
  toSameNames := h.toSameNames.trans h'.toSameNames
  byFile := h'.byFile.trans h.byFile
  found := h'.found.trans h.found

theorem agrees_remember (hpath : Plain path) (hne : path ≠ [])
    (hnew : p.byName.get? (dotted path) = none) (hm : p.meaning path = .ok (some m.view)) :
    p.Agrees (p.remember (dotted path) m) :=
  ⟨⟨⟨rfl, rfl, rfl, rfl, fun _ hname => specOf_remember hpath hne hnew hm hname⟩,
    fun _ hother => meaning_remember hpath hne hnew hm hother⟩, rfl, rfl⟩

theorem meaning_files (p : Host) (byFile found : Table Module) (created : Nat)
    (path : List String) :
    ({ p with byFile, found, created } : Host).meaning path = p.meaning path := by
  induction path with
  | nil => rfl
  | cons part outer ih =>
    rw [meaning, meaning, ih]
    rfl

theorem sameNames_files (p : Host) (byFile found : Table Module) (created : Nat) :
    p.SameNames { p with byFile, found, created } :=
  ⟨⟨rfl, rfl, rfl, rfl, fun _ _ => rfl⟩, fun path _ => p.meaning_files byFile found created path⟩

/-- What was imported by a path so far: its name and its module, or nothing by no parts. -/
inductive Imported (p : Host) : List String → Option (String × Module) → Prop where
  | nothing : Imported p [] none
  | module {part : String} {outer : List String} {m : Module}
      (h : p.meaning (part :: outer) = .ok (some m.view)) :
      Imported p (part :: outer) (some (dotted (part :: outer), m))

theorem runNamed_of_viewOf {spec : Spec} {v : View} (name : String) (h : p.viewOf spec = .ok v) :
    ∃ m : Module, m.view = v ∧ (runNamed name spec).result p = .ok m ∧
      (runNamed name spec).after p = p.remember name m := by
  unfold viewOf at h
  split at h
  · cases h
  · next exports hrun =>
    cases h
    refine ⟨p.newModule spec exports, rfl, ?_, ?_⟩
    · rw [runNamed, Act.result_bind, Act.result_get, Act.after_get]
      simp only [Except.bind, hrun]
      rfl
    · rw [runNamed, Act.after_bind_ok (Act.result_get p), hrun]
      rfl

theorem runNamed_of_error {spec : Spec} {e : Failure} (name : String)
    (h : p.viewOf spec = .error e) :
    (runNamed name spec).result p = .error e ∧ (runNamed name spec).after p = p := by
  unfold viewOf at h
  split at h
  · next hrun =>
    cases h
    constructor
    · rw [runNamed, Act.result_bind, Act.result_get, Act.after_get]
      simp only [Except.bind, hrun]
      rfl
    · rw [runNamed, Act.after_bind_ok (Act.result_get p), hrun]
      rfl
  · cases h

theorem importBelow_of_new {outer : Option (String × Module)} (houter : p.Imported path outer)
    (hnew : p.byName.get? (dotted (part :: path)) = none) :
    importBelow outer part p =
      (match p.specBelow (dotted path) (outer.map fun o : String × Module => o.2.spec) part with
        | .ok spec => Prod.mk (dotted (part :: path)) <$> runNamed (dotted (part :: path)) spec
        | .error e => Act.fail e) p := by
  unfold importBelow
  rw [Act.get_bind_apply]
  cases houter with
  | nothing =>
    have hnew' : p.byName.get? part = none := hnew
    simp only [hnew', specBelow, Option.map_none]
    cases p.specOf part <;> rfl
  | @module next outer m h =>
    have hname : dotted (next :: outer) ++ "." ++ part = dotted (part :: next :: outer) := rfl
    simp only [hname, hnew, specBelow, Option.map_some]
    by_cases hpackage : m.spec.isPackage = true
    · simp only [hpackage, if_true]
      cases p.specAmong part (m.spec.portions.filter p.isDirectory) <;> rfl
    · simp only [hpackage]
      rfl

theorem meaning_of_new {outer : Option (String × Module)} (houter : p.Imported path outer)
    (hnew : p.byName.get? (dotted (part :: path)) = none) :
    p.meaning (part :: path) =
      ((p.specBelow (dotted path) (outer.map fun o : String × Module => o.2.spec) part).bind
        p.viewOf).map some := by
  rw [meaning]
  cases houter with
  | nothing =>
    rw [hnew]
    rfl
  | module h =>
    rw [h, hnew]
    rfl

theorem meaning_of_kept {outer : Option (String × Module)} (houter : p.Imported path outer)
    (hkept : p.byName.get? (dotted (part :: path)) = some m) :
    p.meaning (part :: path) = .ok (some m.view) := by
  rw [meaning, hkept]
  cases houter with
  | nothing => rfl
  | module h =>
    rw [h]
    rfl

theorem importBelow_of_kept {outer : Option (String × Module)} (houter : p.Imported path outer)
    (hkept : p.byName.get? (dotted (part :: path)) = some m) :
    importBelow outer part p = (⟨.ok (dotted (part :: path), m), []⟩, p) := by
  unfold importBelow
  rw [Act.get_bind_apply]
  cases houter with
  | nothing =>
    have hkept' : p.byName.get? part = some m := hkept
    simp only [hkept']
    rfl
  | @module next outer holder h =>
    have hkept' : p.byName.get? (dotted (next :: outer) ++ "." ++ part) = some m := hkept
    simp only [hkept']
    rfl

/-- Importing one part more fails as the meaning says and keeps nothing, or it brings what the
meaning says, which was kept before or is kept from then on. -/
theorem importBelow_cases {outer : Option (String × Module)} (houter : p.Imported path outer)
    (part : String) :
    (∃ e, p.meaning (part :: path) = .error e ∧ (importBelow outer part).result p = .error e ∧
        (importBelow outer part).after p = p) ∨
      ∃ m : Module, p.meaning (part :: path) = .ok (some m.view) ∧
        (importBelow outer part).result p = .ok (dotted (part :: path), m) ∧
        ((importBelow outer part).after p = p ∨
          p.byName.get? (dotted (part :: path)) = none ∧
            (importBelow outer part).after p = p.remember (dotted (part :: path)) m) := by
  cases hkept : p.byName.get? (dotted (part :: path)) with
  | some m =>
    have hrun := importBelow_of_kept houter hkept
    exact .inr ⟨m, meaning_of_kept houter hkept, by rw [Act.result, hrun],
      .inl (by rw [Act.after, hrun])⟩
  | none =>
    have hrun := importBelow_of_new houter hkept
    rw [meaning_of_new houter hkept, Act.result, Act.after, hrun]
    cases p.specBelow (dotted path) (outer.map fun o : String × Module => o.2.spec) part with
    | error e => exact .inl ⟨e, rfl, rfl, rfl⟩
    | ok spec =>
      cases hview : p.viewOf spec with
      | error e =>
        obtain ⟨hresult, hafter⟩ := runNamed_of_error (dotted (part :: path)) hview
        refine .inl ⟨e, by simp [Except.bind, Except.map, hview], ?_, ?_⟩
        · show (Prod.mk _ <$> runNamed _ spec).result p = .error e
          rw [Act.result_map, hresult]
          rfl
        · show (Prod.mk _ <$> runNamed _ spec).after p = p
          rw [Act.after_map, hafter]
      | ok v =>
        obtain ⟨m, rfl, hresult, hafter⟩ := runNamed_of_viewOf (dotted (part :: path)) hview
        refine .inr ⟨m, by simp [Except.bind, Except.map, hview], ?_, .inr ⟨rfl, ?_⟩⟩
        · show (Prod.mk _ <$> runNamed _ spec).result p = .ok _
          rw [Act.result_map, hresult]
          rfl
        · show (Prod.mk _ <$> runNamed _ spec).after p = _
          rw [Act.after_map, hafter]

/-- Importing brings what the whole path means, and leaves every name its meaning. -/
theorem importFrom_meaning {outer : Option (String × Module)} (houter : p.Imported path outer)
    (hpath : Plain path) {parts : List String} (hparts : Plain parts) :
    ((importFrom outer parts).result p).map (Option.map Module.view) =
        p.meaning (parts.reverse ++ path) ∧
      p.Agrees ((importFrom outer parts).after p) := by
  induction parts generalizing p path outer with
  | nil =>
    refine ⟨?_, .refl p⟩
    cases houter with
    | nothing => rfl
    | module h =>
      rw [List.reverse_nil, List.nil_append, h]
      rfl
  | cons part parts ih =>
    obtain ⟨hpart, hrest⟩ := hparts.of_cons
    have hplain : Plain (part :: path) := by
      intro other hother
      obtain rfl | hother := List.mem_cons.mp hother
      · exact hpart
      · exact hpath other hother
    rw [importFrom, List.reverse_cons, List.append_assoc, List.singleton_append]
    obtain ⟨e, hmeaning, hresult, hafter⟩ | ⟨m, hmeaning, hresult, hafter⟩ :=
      importBelow_cases houter part
    · rw [Act.result_bind, hresult, Act.after_bind_error hresult, hafter,
        meaning_append_of_error hmeaning]
      exact ⟨rfl, .refl p⟩
    · have hagrees : p.Agrees ((importBelow outer part).after p) := by
        obtain hafter | ⟨hnew, hafter⟩ := hafter
        · rw [hafter]
          exact .refl p
        · rw [hafter]
          exact agrees_remember hplain nofun hnew hmeaning
      have hall : Plain (parts.reverse ++ part :: path) := by
        intro other hother
        obtain hother | hother := List.mem_append.mp hother
        · exact hrest other (List.mem_reverse.mp hother)
        · exact hplain other hother
      have himported : ((importBelow outer part).after p).Imported (part :: path)
          (some (dotted (part :: path), m)) :=
        .module (by rw [hagrees.meaning _ hplain, hmeaning])
      obtain ⟨hview, hlater⟩ := ih himported hplain hrest
      rw [Act.result_bind, hresult, Act.after_bind_ok hresult]
      refine ⟨?_, hagrees.trans hlater⟩
      rw [← hagrees.meaning _ hall]
      exact hview

end Host
end Wiring.Modules
