import Wiring.Modules.Registry
import Wiring.Proofs.Argument.Spelling
import Wiring.Proofs.Container.Following

/-! What an alias text names, beside the reference that the same text is as an argument. Both cut
the sign off its start, but only the argument knows the sign of an optional reference. -/
namespace Wiring
open Relation

/-- The id that follows the first sign of a text for the reference. -/
def Reference.unsigned (r : Reference) : String := if r.optional then "?" ++ r.target else r.target

theorem Reference.unsigned_eq_target_iff {r : Reference} :
    r.unsigned = r.target ↔ r.optional = false := by
  obtain ⟨target, optional⟩ := r
  cases optional with
  | false => exact iff_of_true rfl rfl
  | true =>
    refine iff_of_false (fun h => ?_) nofun
    have hlength := congrArg String.length h
    simp [unsigned] at hlength

theorem TextMeaning.exists_of_at (target : String) :
    ∃ r : Reference, r.unsigned = target ∧ of ("@" ++ target) = .reference r := by
  by_cases h : ∃ rest, target = "?" ++ rest
  · obtain ⟨rest, rfl⟩ := h
    exact ⟨⟨rest, true⟩, rfl, of_optional rest⟩
  · exact ⟨⟨target, false⟩, rfl, of_reference fun rest heq => h ⟨rest, heq⟩⟩

theorem TextMeaning.of_eq_reference_iff {s : String} :
    (∃ r, of s = .reference r) ↔ Text.startsWith s "@" = true := by
  rw [Text.startsWith_iff]
  constructor
  · rintro ⟨⟨target, optional⟩, h⟩
    have hspelled := spells_of s
    rw [h] at hspelled
    cases optional with
    | true => exact ⟨'?' :: target.toList, by rw [show s = _ from hspelled]; simp⟩
    | false => exact ⟨target.toList, by rw [hspelled.1]; simp⟩
  · rintro ⟨target, h⟩
    rw [eq_append_of_toList "@" h.symm]
    obtain ⟨r, -, hr⟩ := exists_of_at (String.ofList target)
    exact ⟨r, hr⟩

namespace Surroundings
variable {σ : Type} (c : Surroundings σ)

theorem compile_alias (id target baseDir : String) :
    c.compile id (.alias ("@" ++ target)) baseDir = pure (.alias target) := by
  have hchars : ("@" ++ target).toList = '@' :: target.toList := by simp
  rw [compile, hchars]
  simp only [String.ofList_toList]

theorem exists_target_of_compile {id text baseDir : String} {s : σ} {compiled : Compiled}
    (h : (c.compile id (.alias text) baseDir).result s = .ok compiled) :
    ∃ target, text = "@" ++ target ∧ compiled = .alias target := by
  rw [compile] at h
  split at h
  · next target hchars =>
    cases h
    exact ⟨_, eq_append_of_toList "@" hchars, rfl⟩
  · cases h

/-- A text that compiles to an alias is read as a reference. The alias names what follows the first
sign, and so the target of the reference unless that is optional; an optional one has lost a sign
more. Whatever container the alias is in, it leads where the id leads that it names, to the same
definition or to none. -/
theorem alias_beside_reference (id text baseDir : String) (s : σ) (compiled : Compiled)
    (h : (c.compile id (.alias text) baseDir).result s = .ok compiled) :
    ∃ r : Reference, compiled = .alias r.unsigned ∧
      c.scope.read (.text text) = pure (.reference r) ∧
      (r.unsigned = r.target ↔ r.optional = false) ∧
      (r.optional = true ↔ ∃ rest, text = "@?" ++ rest) ∧
      ∀ (dir : Option String) (xs : List Change),
        let k := Change.applyAll { defaultDir := dir } xs
        k.aliases.get? id = some r.unsigned →
          (∀ d, k.definition id = .ok d ↔ k.definition r.unsigned = .ok d) ∧
          (¬ TransGen k.Points id id → k.definition id = k.definition r.unsigned) := by
  obtain ⟨target, rfl, rfl⟩ := c.exists_target_of_compile h
  obtain ⟨r, rfl, hmeaning⟩ := TextMeaning.exists_of_at target
  have hread : c.scope.read (.text ("@" ++ r.unsigned)) = pure (.reference r) := by
    rw [Scope.read, Scope.readText, hmeaning]
  refine ⟨r, rfl, hread, Reference.unsigned_eq_target_iff, ?_, ?_⟩
  · constructor
    · intro hoptional
      exact ⟨r.target, by rw [Reference.unsigned, if_pos hoptional, ← String.append_assoc]; rfl⟩
    · rintro ⟨rest, hrest⟩
      rw [hrest, TextMeaning.of_optional] at hmeaning
      cases hmeaning
      rfl
  · intro dir xs k hpoints
    have hdefinition : ∀ d, k.definition id = .ok d ↔ k.definition r.unsigned = .ok d :=
      Container.definition_eq_ok_iff_of_points
        (fun _ _ => Change.aliases_eq_none_of_definition) hpoints
    refine ⟨hdefinition, fun hnot => ?_⟩
    rw [Container.definition, Container.definition, Container.finalId_of_points hpoints hnot]

def plainSurroundings : Surroundings Modules.Registry where
  scope := ⟨fun _ => none, fun _ => none⟩
  defaultDir := none
  locator := Modules.Registry.locator

def putInMailer : Definition where
  implementation := none
  synthetic := true

theorem mailAlias_beside_reference :
    let k := Change.applyAll {} [.setDefinition "mailer" putInMailer, .setAlias "mail" "mailer"]
    (plainSurroundings.compile "mail" (.alias "@mailer") "/app").result ∅ = .ok (.alias "mailer") ∧
      plainSurroundings.scope.read (.text "@mailer") = pure (.reference ⟨"mailer", false⟩) ∧
      k.aliases.get? "mail" = some "mailer" ∧
      ∀ d, k.definition "mail" = .ok d ↔ k.definition "mailer" = .ok d := by
  intro k
  have hcompiled : (plainSurroundings.compile "mail" (.alias "@mailer") "/app").result ∅ =
      .ok (.alias "mailer") :=
    congrArg (Act.result · ∅) (plainSurroundings.compile_alias "mail" "mailer" "/app")
  have hpoints : k.aliases.get? "mail" = some "mailer" := rfl
  obtain ⟨⟨target, optional⟩, halias, hread, -, hoptional, hfollow⟩ :=
    alias_beside_reference plainSurroundings "mail" "@mailer" "/app" ∅ _ hcompiled
  cases optional with
  | true =>
    obtain ⟨rest, hrest⟩ := hoptional.mp rfl
    exact absurd (congrArg String.toList hrest) (by simp)
  | false =>
    cases halias
    exact ⟨hcompiled, hread, hpoints, (hfollow none _ hpoints).1⟩

/-- The alias that a text with the sign of optional references compiles to leads past the service
that the reference finds. -/
theorem optionalMailer_lost :
    let k := Change.applyAll {} [.setDefinition "mailer" putInMailer, .setAlias "mail" "?mailer"]
    (plainSurroundings.compile "mail" (.alias "@?mailer") "/app").result ∅ =
        .ok (.alias "?mailer") ∧
      plainSurroundings.scope.read (.text "@?mailer") = pure (.reference ⟨"mailer", true⟩) ∧
      k.definition "mailer" = .ok putInMailer ∧
      k.definition "mail" = .error (.undefined "?mailer") := by
  intro k
  have hmailer : k.finalId "mailer" = "mailer" :=
    Container.finalId_of_reaches .refl rfl
  have hmail : k.finalId "mail" = "?mailer" :=
    Container.finalId_of_reaches (.single rfl) rfl
  refine ⟨congrArg (Act.result · ∅) (plainSurroundings.compile_alias "mail" "?mailer" "/app"),
    rfl, ?_, ?_⟩
  · rw [Container.definition_eq_ok_iff, hmailer]
    rfl
  · rw [Container.definition_eq_error_iff, hmail]
    exact ⟨rfl, rfl⟩

end Surroundings
end Wiring
