import Wiring.Proofs.Modules.Relative

/-! Relative specifiers seen from any directory. Seen from an absolute one they mean files at their
own place. Seen from a relative one their place is relative again, so that a search that does not
find it there goes on under the roots. -/
namespace Wiring

namespace Path

theorem isAbsolute_join_of_relative {base part : String} (hpart : isAbsolute part = false) :
    isAbsolute (join base part) = isAbsolute base := by
  cases hbase : isAbsolute base with
  | true => exact isAbsolute_join hbase part
  | false =>
    rw [join, hpart, if_neg (by decide)]
    cases hchars : base.toList with
    | nil =>
      obtain rfl : base = "" := String.toList_eq_nil_iff.mp hchars
      rw [if_pos (.inl rfl), String.empty_append, hpart]
    | cons c cs =>
      rw [isAbsolute, hchars] at hbase
      split <;> simpa [isAbsolute, hchars] using hbase

end Path

namespace Modules
variable {σ : Type} {rules : SearchRules} {specifier directory : String}

theorem events_resolve_relative (fs : FileSystem σ) (s : σ)
    (hdot : Text.startsWith specifier "." = true)
    (hlegacy : Text.startsWith specifier legacyStart = false) :
    let place := Path.normal (Path.join directory specifier)
    let roots := relativeRoots rules specifier directory
    (resolve rules fs specifier directory).events s =
      if atDirectory rules fs s specifier directory then []
      else [.log (.resolving place roots.length), .resolvedModule place roots] := by
  intro place roots
  have hkept := withoutLegacyStart_of_not_legacy hlegacy
  rw [resolve, if_neg (by simp [isAbsolute_of_dot hdot])]
  simp only [hkept]
  rw [Act.events, Act.get_bind_apply]
  cases hthere : atDirectory rules fs s specifier directory with
  | true => exact congrArg (Act.events · s) (if_pos hthere)
  | false =>
    refine (congrArg (Act.events · s) (if_neg (Bool.not_eq_true _ ▸ hthere))).trans ?_
    exact congrArg (Act.events · s) (if_pos hdot)

namespace Memory
variable {m : Memory}

theorem resolveModule_absolute_eq_ok_iff {place path : String}
    (habsolute : Path.isAbsolute place = true) (roots : List String) :
    m.resolveModule place roots = .ok path ↔ m.storedAt? place = some path := by
  rw [resolveModule, searched, if_pos habsolute, List.findSome?_singleton]
  split
  · next h => simp [h]
  · next h => simp [h]

/-- From an absolute directory a relative specifier leads to a file that its own place denotes, and
nothing but that place is searched for. From a relative one the place is searched for under every
root, and the first stored file that it can mean under one of them is found. -/
theorem resolve_dotted (rules : SearchRules) (m : Memory) (directory : String)
    (hdot : Text.startsWith specifier "." = true)
    (hlegacy : Text.startsWith specifier legacyStart = false) :
    let place := Path.normal (Path.join directory specifier)
    let roots := relativeRoots rules specifier directory
    let direct := atDirectory rules fileSystem m specifier directory
    let found := (resolve rules fileSystem specifier directory).result m
    (∀ name roots', .resolvedModule name roots' ∈
        (resolve rules fileSystem specifier directory).events m →
      name = place ∧ Path.isAbsolute name = Path.isAbsolute directory) ∧
    (Path.isAbsolute directory = true → ∀ location, found = .ok location →
      location ∈ candidates place suffix) ∧
    (Path.isAbsolute directory = false → ∀ location, found = .ok location ↔
      direct = true ∧ location = place ∨
      direct = false ∧ (roots.flatMap (filesUnder place)).find? m.modules.contains = some location)
    := by
  intro place roots direct found
  have hplace : Path.isAbsolute place = Path.isAbsolute directory := by
    rw [Path.isAbsolute_normal, Path.isAbsolute_join_of_relative (isAbsolute_of_dot hdot)]
  have hresult : found = if direct then .ok place else m.resolveModule place roots := by
    rw [← resolveModule_fileSystem]
    exact result_resolve_of_dot hdot hlegacy
  refine ⟨fun name roots' hevent => ?_, fun habsolute location hfound => ?_,
    fun hdirectory location => ?_⟩
  · rw [events_resolve_relative fileSystem m hdot hlegacy] at hevent
    split at hevent
    · cases hevent
    · simp only [List.mem_cons, List.not_mem_nil, or_false, reduceCtorEq, false_or,
        Event.resolvedModule.injEq] at hevent
      exact ⟨hevent.1, hevent.1 ▸ hplace⟩
  · rw [hresult] at hfound
    split at hfound
    · obtain rfl := Except.ok.inj hfound
      exact List.mem_cons_self
    · rw [resolveModule_absolute_eq_ok_iff (hplace.trans habsolute)] at hfound
      have hcandidate := (mem_of_storedAt? hfound).1
      rwa [Path.normal_normal] at hcandidate
  · rw [hresult]
    cases direct with
    | true => simp [eq_comm]
    | false => simp [resolveModule_eq_ok_iff (hplace.trans hdirectory)]

theorem mail_from_conf :
    let m := ofList [("/conf/mail/__init__.py", ∅), ("conf/site-packages/conf/mail.py", ∅)] []
    let found := fun directory => (resolve {} fileSystem "./mail" directory).result m
    (∃ location ∈ candidates "/conf/mail" suffix, found "/conf" = .ok location) ∧
      found "conf" = .ok "conf/site-packages/conf/mail.py" := by
  intro m found
  have hdot : Text.startsWith "./mail" "." = true := by decide +kernel
  have hlegacy : Text.startsWith "./mail" legacyStart = false := by decide +kernel
  obtain ⟨-, habsolute, -⟩ := resolve_dotted {} m "/conf" hdot hlegacy
  obtain ⟨-, -, hrelative⟩ := resolve_dotted {} m "conf" hdot hlegacy
  have hbeside : found "/conf" = .ok "/conf/mail" := by decide +kernel
  refine ⟨⟨"/conf/mail", ?_, hbeside⟩, (hrelative (by decide) _).mpr (.inr ?_)⟩
  · have hplace : Path.normal (Path.join "/conf" "./mail") = "/conf/mail" := by decide +kernel
    exact hplace ▸ habsolute (by decide) _ hbeside
  · decide +kernel

/-- A relative place is joined to its own directory once more, and another module is found there. -/
theorem nested_mail_found :
    let m := ofList [("conf/conf/mail.py", ∅)] []
    (resolve {} fileSystem "./mail" "conf").result m = .ok "conf/conf/mail.py" ∧
      "conf/conf/mail.py" ∉ candidates (Path.normal (Path.join "conf" "./mail")) suffix ∧
      (∃ name roots, .resolvedModule name roots ∈
        (resolve {} fileSystem "./mail" "conf").events m ∧ Path.isAbsolute name = false) := by
  refine ⟨by decide +kernel, by decide +kernel, "conf/mail",
    ["conf", "conf/site-packages", "site-packages"], by decide +kernel, by decide⟩

end Memory
end Modules
end Wiring
