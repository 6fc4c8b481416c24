import Wiring.Proofs.Modules.Host.Fresh
import Wiring.Proofs.Modules.Host.Owned

/-! Modules in memory stand for module files: what is there, what is found and what is loaded is
the same as for a process on a disk with these files and the directories above them. -/
namespace Wiring.Modules

namespace Host
variable {p q : Host} {m : Memory} {l : Location}

theorem look_of_segments (hnested : p.disk.Nested) {path : String} {e : Disk.Entry}
    (h : p.disk.look p.workingDir path = .ok e)
    (hl : l.segments = Disk.segmentsOf (p.absolute path)) :
    p.disk.look p.workingDir l.text = .ok e :=
  hnested.look_eq_ok_iff.mpr (hl ▸ Disk.entry?_of_look h)

theorem look_absolute (hnested : p.disk.Nested) {path : String} {e : Disk.Entry}
    (h : p.disk.look p.workingDir path = .ok e) :
    p.disk.look p.workingDir (p.absolute path) = .ok e := by
  obtain ⟨l, hl⟩ := p.workingDir.exists_absolute path
  have hlook := look_of_segments hnested h (congrArg Disk.segmentsOf hl)
  rwa [absolute, ← hl]

def afterLoads (p : Host) (suffix : String) (locations : List String) : Host :=
  locations.foldl (fun p location => ((fileSystem suffix).loadModule location).after p) p

theorem afterLoads_induction {P : Host → Prop} {suffix : String}
    (hstep : ∀ q location, P q → P ((loadAt suffix location).after q)) (h : P p)
    (locations : List String) : P (p.afterLoads suffix locations) := by
  induction locations generalizing p with
  | nil => exact h
  | cons location locations ih =>
    have hnext : P (((fileSystem suffix).loadModule location).after p) := by
      rw [show ((fileSystem suffix).loadModule location).after p = _ from Act.after_map ..]
      exact hstep p location h
    exact ih hnext

end Host

namespace Memory
variable {m : Memory} {p : Host} {l : Location}

end Memory
end Wiring.Modules
