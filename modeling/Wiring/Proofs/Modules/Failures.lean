import Wiring.Modules.Export
import Wiring.Modules.Memory
import Wiring.Modules.Registry
import Wiring.Proofs.Act

/-! The failures in which looking for a module can end, and the events that it can emit before. -/
namespace Wiring
namespace Modules
variable {σ : Type} {P : Failure → Prop} {Q : Event → Prop}

theorem selectExport_within (hnoExport : ∀ specifier wanted, Q (.log (.noExport specifier wanted)))
    (exports : Exports) (specifier : String) (wanted : Option String) (suffix : String) :
    (selectExport exports specifier wanted suffix).Within P Q := by
  unfold selectExport
  split
  · exact .pure _
  · exact .bind (.emit (hnoExport _ _)) fun _ => .pure _

theorem loading_within (h : ∀ subject reason, P (.unresolved subject reason))
    {location : String} {load : Act σ Exports} (hload : load.Within P Q) :
    (loading location load).Within P Q where
  failsOnly s e he := by
    have hs := hload.failsOnly s
    rcases hrun : load s with ⟨⟨r, es⟩, s'⟩
    simp only [Act.result, loading, hrun] at he hs
    cases r with
    | ok exports => cases he
    | error e' =>
      by_cases hkept : e'.isOwn || e'.reach = .fatal
      · simp only [hkept, if_true] at he
        exact hs e he
      · simp only [hkept] at he
        cases he
        exact h _ _
  emitsOnly s e he := by
    have hs := hload.emitsOnly s e
    rcases hrun : load s with ⟨⟨r, es⟩, s'⟩
    simp only [Act.events, loading, hrun] at he hs
    cases r with
    | ok exports => exact hs he
    | error e' =>
      by_cases hkept : e'.isOwn || e'.reach = .fatal
      · simp only [hkept, if_true] at he
        exact hs he
      · simp only [hkept] at he
        exact hs he

structure SearchEvents (Q : Event → Prop) : Prop where
  resolving : ∀ specifier n, Q (.log (.resolving specifier n))
  resolvedModule : ∀ specifier roots, Q (.resolvedModule specifier roots)
  lookedUp : ∀ specifier, Q (.lookedUp specifier)
  loadedModule : ∀ location, Q (.loadedModule location)
  noExport : ∀ specifier wanted, Q (.log (.noExport specifier wanted))

theorem resolveModule_within (hQ : SearchEvents Q) {fs : FileSystem σ}
    (hresolve : ∀ s specifier roots e, fs.resolveModule s specifier roots = .error e → P e)
    (specifier : String) (roots : List String) :
    (resolveModule fs specifier roots).Within P Q :=
  .bind (.emit (hQ.resolving _ _)) fun _ => .bind (.emit (hQ.resolvedModule _ _)) fun _ =>
    .bind .get fun s => .lift ⟨fun e he => hresolve s specifier roots e he, fun _ => nofun⟩

theorem resolve_within (rules : SearchRules) (hQ : SearchEvents Q) {fs : FileSystem σ}
    (hresolve : ∀ s specifier roots e, fs.resolveModule s specifier roots = .error e → P e)
    (specifier directory : String) : (resolve rules fs specifier directory).Within P Q := by
  have hmodule := resolveModule_within hQ hresolve
  unfold resolve
  split
  · exact .pure _
  · refine .bind .get fun s => ?_
    split
    · exact .pure _
    · split
      · exact hmodule _ _
      · split
        · exact .bind (.emit (hQ.lookedUp _)) fun _ => hmodule _ _
        · exact hmodule _ _

/-- A search ends in an unresolved place, or as the file system does. -/
theorem locate_within (rules : SearchRules) (hQ : SearchEvents Q) {fs : FileSystem σ}
    (h : ∀ subject reason, P (.unresolved subject reason))
    (hresolve : ∀ s specifier roots e, fs.resolveModule s specifier roots = .error e → P e)
    (hload : ∀ location, (fs.loadModule location).Within P Q)
    (specifier directory : String) (wanted : Option String) :
    (locate rules fs specifier directory wanted).Within P Q :=
  .bind (resolve_within rules hQ hresolve specifier directory) fun location =>
    .bind (.emit (hQ.loadedModule _)) fun _ =>
      .bind (loading_within h (hload location)) fun exports =>
        .lift (selectExport_within hQ.noExport exports specifier wanted rules.suffix)

theorem Memory.locate_within (rules : SearchRules) (hQ : SearchEvents Q)
    (h : ∀ subject reason, P (.unresolved subject reason)) (specifier directory : String)
    (wanted : Option String) :
    (locate rules fileSystem specifier directory wanted).Within P Q := by
  refine Modules.locate_within rules hQ h ?_ (fun location => ⟨?_, ?_⟩) specifier directory wanted
  · intro m specifier roots e he
    simp only [fileSystem, resolveModule] at he
    split at he
    · cases he
    · cases he
      exact h _ _
  · intro m e he
    have he' : m.loadModule location = .error e := he
    unfold loadModule at he'
    split at he'
    · cases he'
    · cases he'
      exact h _ _
  · intro m e he
    exact absurd he List.not_mem_nil

theorem Memory.locate_failsOnly (rules : SearchRules)
    (h : ∀ subject reason, P (.unresolved subject reason)) (specifier directory : String)
    (wanted : Option String) :
    (locate rules fileSystem specifier directory wanted).FailsOnly P :=
  (locate_within (Q := fun _ => True) rules ⟨fun _ _ => trivial, fun _ _ => trivial,
    fun _ => trivial, fun _ => trivial, fun _ _ => trivial⟩ h specifier directory wanted).failsOnly

theorem Memory.locate_emitsOnly (rules : SearchRules) (hQ : SearchEvents Q)
    (specifier directory : String) (wanted : Option String) :
    (locate rules fileSystem specifier directory wanted).EmitsOnly Q :=
  (locate_within (P := fun _ => True) rules hQ (fun _ _ => trivial) specifier directory
    wanted).emitsOnly

theorem Registry.locator_emitsOnly
    (hnoExport : ∀ specifier wanted, Q (.log (.noExport specifier wanted)))
    (specifier directory : String) (wanted : Option String) :
    (Registry.locator specifier directory wanted).EmitsOnly Q := by
  intro r
  have hlocate : (r.locate specifier wanted).Within (fun _ => True) Q := by
    unfold Registry.locate
    split
    · exact .fail trivial
    · exact .pure _
    · exact selectExport_within hnoExport _ _ _ _
  exact hlocate.emitsOnly

theorem Memory.locate_ne_circular (rules : SearchRules) (specifier directory : String)
    (wanted : Option String) :
    (locate rules fileSystem specifier directory wanted).FailsOnly
      fun e => ∀ chain, e ≠ .circular chain :=
  locate_failsOnly rules (fun _ _ => nofun) specifier directory wanted

theorem Memory.locate_closes_nothing (rules : SearchRules) (specifier directory : String)
    (wanted : Option String) :
    (locate rules fileSystem specifier directory wanted).EmitsOnly
      fun e => e.isClosing = false :=
  locate_emitsOnly rules ⟨fun _ _ => rfl, fun _ _ => rfl, fun _ => rfl, fun _ => rfl,
    fun _ _ => rfl⟩ specifier directory wanted

end Modules
end Wiring
