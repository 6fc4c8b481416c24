import Wiring.Proofs.Load.Level
import Wiring.Proofs.Load.Precedence

/-! Importing a document is loading it. The chain by which a document was reached is asked for
nothing but cycles, so a load that meets none runs as the loads of its imports one by one. -/
namespace Wiring

def Failure.IsCircular (e : Failure) : Prop := ∃ chain, e = .circular chain

theorem Reader.Refused.of_subset {r : Reader} {chain chain' : List Location}
    {location : Location} {es : List Event} {e : Failure} (h : r.Refused chain location es e)
    (hsub : chain' ⊆ chain) :
    e.IsCircular ∨ r.Refused chain' location es e := by
  cases h with
  | circular => exact .inl ⟨_, rfl⟩
  | unreadable hnot hread => exact .inr (.unreadable (fun hmem => hnot (hsub hmem)) hread)
  | invalid hnot hread hcheck =>
    exact .inr (.invalid (fun hmem => hnot (hsub hmem)) hread hcheck)

namespace Loader
variable {σ : Type} {l : Loader σ}

theorem loadEach_agreesBut {P : Failure → Prop} {next next' : Location → Act (Filling σ) Unit}
    (h : ∀ imported, (next imported).AgreesBut P (next' imported)) (locations : List Location) :
    (loadEach next locations).AgreesBut P (loadEach next' locations) := by
  induction locations with
  | nil => exact .refl _
  | cons imported locations ih =>
    exact .bind (.refl _) fun _ => .bind (h imported) fun _ => ih

theorem fill_agreesBut {P : Failure → Prop} {next next' : Location → Act (Filling σ) Unit}
    (h : ∀ imported, (next imported).AgreesBut P (next' imported)) (location : Location)
    (d : Document) : (l.fill next location d).AgreesBut P (l.fill next' location d) :=
  .bind (.refl _) fun _ => .bind (loadEach_agreesBut h _) fun _ => .refl _

/-- A load on a chain runs as on a part of that chain, unless it ends in a cycle. -/
theorem loadDocument_agreesBut (l : Loader σ) {chain chain' : List Location} (location : Location)
    (hsub : chain' ⊆ chain) :
    (l.loadDocument chain location).AgreesBut Failure.IsCircular
      (l.loadDocument chain' location) := by
  rw [l.loadDocument_eq_level ⟨chain, location⟩, l.loadDocument_eq_level ⟨chain', location⟩]
  induction chain, location using Reader.plan_induction (r := l.reader) generalizing chain' with
  | @refused chain location es e hrefused =>
    rw [level_of_refused hrefused]
    intro s
    obtain hcircular | hrefused' := hrefused.of_subset hsub
    · exact .inl ⟨e, hcircular, rfl⟩
    · rw [level_of_refused hrefused']
      exact .inr rfl
  | @entered chain location d hnot hd ih =>
    rw [level_of_holds hnot hd, level_of_holds (fun hmem => hnot (hsub hmem)) hd]
    refine .bind (.refl _) fun _ => fill_agreesBut (fun imported => ?_) _ _
    have hgrown : chain' ++ [location] ⊆ chain ++ [location] :=
      List.append_subset.mpr
        ⟨List.Subset.trans hsub (List.subset_append_left ..), List.subset_append_right ..⟩
    have hnext := ih imported hgrown
    rwa [← loadDocument_eq_level, ← loadDocument_eq_level] at hnext

theorem load_text (l : Loader σ) (location : Location) :
    l.load location.text = l.loadDocument [] location := by
  rw [load, Location.join_text]

/-- A document that is loaded without meeting a cycle is read and filled in with each import loaded
on its own, and both are one run: the outcome, the state and every event agree. Whatever the chain
by which a location was reached, its load runs as one from the start, unless it ends in a cycle. -/
theorem load_imports_apart (l : Loader σ) {location : Location} {d : Document}
    (hd : l.reader.Holds location d) (s : Filling σ)
    (h : ∀ chain, (l.load location.text).result s ≠ .error (.circular chain)) :
    l.load location.text s =
        (do
          Act.emit (.read location.text)
          l.fill (fun imported => l.load imported.text) location d) s ∧
      ∀ chain imported (t : Filling σ),
        (∀ way, (l.loadDocument chain imported).result t ≠ .error (.circular way)) →
          l.loadDocument chain imported t = l.load imported.text t := by
  have hapart : ∀ chain imported,
      (l.loadDocument chain imported).AgreesBut Failure.IsCircular (l.load imported.text) := by
    intro chain imported
    rw [load_text]
    exact l.loadDocument_agreesBut imported (List.nil_subset chain)
  constructor
  · have hlevel : l.load location.text = (do
        Act.emit (.read location.text)
        l.fill (l.loadDocument [location]) location d) := by
      rw [load_text, l.loadDocument_eq_level ⟨[], location⟩, level_of_holds (by simp) hd]
      rfl
    rw [hlevel] at h ⊢
    have hfill : (l.fill (l.loadDocument [location]) location d).AgreesBut Failure.IsCircular
        (l.fill (fun imported => l.load imported.text) location d) :=
      fill_agreesBut (hapart [location]) location d
    obtain ⟨_, ⟨chain, rfl⟩, hcircular⟩ | hrun :=
      Act.AgreesBut.bind (.refl (Act.emit (.read location.text))) (fun _ => hfill) s
    · exact absurd hcircular (h chain)
    · exact hrun
  · intro chain imported t hnot
    obtain ⟨_, ⟨way, rfl⟩, hcircular⟩ | hrun := hapart chain imported t
    · exact absurd hcircular (hnot way)
    · exact hrun

theorem twice_apart :
    twice.reader.Holds mainPlace mainDocument ∧
      (∀ chain, (twice.load mainPlace.text).result twiceStart ≠ .error (.circular chain)) ∧
      twice.load mainPlace.text twiceStart =
        (do
          Act.emit (.read mainPlace.text)
          twice.fill (fun imported => twice.load imported.text) mainPlace mainDocument)
          twiceStart := by
  have hholds : twice.reader.Holds mainPlace mainDocument := ⟨_, rfl, rfl⟩
  have hplace : mainPlace.text = "/app/main.yml" := by decide +kernel
  have hnot : ∀ chain, (twice.load mainPlace.text).result twiceStart ≠ .error (.circular chain) := by
    intro chain h
    rw [hplace, twice_load] at h
    cases h
  exact ⟨hholds, hnot, (load_imports_apart twice hholds twiceStart hnot).1⟩

end Loader
end Wiring
