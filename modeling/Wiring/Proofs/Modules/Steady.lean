import Wiring.Modules.Memory
import Wiring.Modules.Registry
import Wiring.Proofs.Act

/-! Locators that do not change their mind: whatever they have found, they answer as before. Over a
file system this comes down to what loading a module leaves behind. -/
namespace Wiring
variable {σ : Type}

/-- The file system has the same answers in both states. -/
structure FileSystem.Alike (fs : FileSystem σ) (s t : σ) : Prop where
  present : fs.present t = fs.present s
  processRoots : fs.processRoots t = fs.processRoots s
  resolveModule : fs.resolveModule t = fs.resolveModule s
  loadModule : ∀ location, (fs.loadModule location).result t = (fs.loadModule location).result s

def FileSystem.Steady (fs : FileSystem σ) : Prop :=
  ∀ location s exports, (fs.loadModule location).result s = .ok exports →
    fs.Alike s ((fs.loadModule location).after s)

theorem FileSystem.Alike.refl (fs : FileSystem σ) (s : σ) : fs.Alike s s :=
  ⟨rfl, rfl, rfl, fun _ => rfl⟩

namespace Modules

namespace Locator

def Alike (locator : Locator σ) (s t : σ) : Prop :=
  ∀ specifier directory wanted,
    (locator specifier directory wanted).result t = (locator specifier directory wanted).result s

/-- Finding something changes none of the answers. -/
def Steady (locator : Locator σ) : Prop :=
  ∀ specifier directory wanted s v, (locator specifier directory wanted).result s = .ok v →
    locator.Alike s ((locator specifier directory wanted).after s)

variable {locator : Locator σ} {s t u : σ}

theorem Alike.refl (locator : Locator σ) (s : σ) : locator.Alike s s := fun _ _ _ => rfl

theorem Alike.symm (h : locator.Alike s t) : locator.Alike t s :=
  fun specifier directory wanted => (h specifier directory wanted).symm

theorem Alike.trans (h : locator.Alike s t) (h' : locator.Alike t u) : locator.Alike s u :=
  fun specifier directory wanted =>
    (h' specifier directory wanted).trans (h specifier directory wanted)

theorem Steady.simulatedBy (h : locator.Steady) (base : σ) (specifier directory : String)
    (wanted : Option String) :
    (locator specifier directory wanted).SimulatedBy
      (fun s t => locator.Alike base s ∧ locator.Alike base t)
      (locator specifier directory wanted) := by
  intro s t ⟨hs, ht⟩ v hv
  have hv' : (locator specifier directory wanted).result t = .ok v := by
    rw [ht specifier directory wanted, ← hs specifier directory wanted, hv]
  exact ⟨hv', hs.trans (h _ _ _ s v hv), ht.trans (h _ _ _ t v hv')⟩

end Locator

variable {fs : FileSystem σ} {s t : σ}

theorem after_resolve (rules : SearchRules) (fs : FileSystem σ) (specifier directory : String)
    (s : σ) : (resolve rules fs specifier directory).after s = s := by
  unfold resolve
  split
  · rfl
  · rw [Act.after_bind_ok (Act.result_get s), Act.after_get]
    split
    · rfl
    · split
      · rfl
      · split
        · rfl
        · rfl

theorem result_loading (location : String) (load : Act σ Exports) (s : σ) :
    (loading location load).result s = (load.result s).mapError fun e =>
      if e.isOwn || e.reach = .fatal then e
      else .unresolved location (some (.loadFailed e.text)) := by
  rcases hrun : load s with ⟨⟨r, es⟩, s'⟩
  simp only [Act.result, loading, hrun]
  cases r with
  | ok exports => rfl
  | error e =>
    change _ = Except.error (if e.isOwn || e.reach = .fatal then e else _)
    dsimp only
    split
    · rfl
    · rfl

theorem loading_eq_ok_iff {location : String} {load : Act σ Exports} {s : σ} {exports : Exports} :
    (loading location load).result s = .ok exports ↔ load.result s = .ok exports := by
  rw [result_loading]
  cases load.result s with
  | ok found => exact Iff.rfl
  | error e =>
    constructor
    · intro h
      cases h
    · intro h
      cases h

end Modules
end Wiring
