import Wiring.Document.Schema
import Wiring.Proofs.Table

/-! What was written where a document passed its check. The tags of a service are those that stand
under its id, with their attributes as they were written. -/
namespace Wiring

namespace Schema
variable {α β : Type}

namespace Checked

theorem map_eq_valid_iff {f : α → β} {x : Checked α} {b : β} :
    f <$> x = .valid b ↔ ∃ a, x = .valid a ∧ f a = b := by
  change map f x = .valid b ↔ _
  cases x <;> simp [map]

theorem seq_eq_valid_iff {f : Checked (α → β)} {x : Checked α} {b : β} :
    f <*> x = .valid b ↔ ∃ g a, f = .valid g ∧ x = .valid a ∧ g a = b := by
  change seq f (fun _ => x) = .valid b ↔ _
  cases f <;> cases x <;> simp [seq]

theorem under_eq_valid_iff {step : Step} {x : Checked α} {a : α} :
    x.under step = .valid a ↔ x = .valid a := by
  cases x <;> simp [under]

theorem forall₂_of_all {xs : List (Checked α)} {as : List α} (h : all xs = .valid as) :
    List.Forall₂ (fun x a => x = .valid a) xs as := by
  induction xs generalizing as with
  | nil =>
    cases h
    exact .nil
  | cons x xs ih =>
    obtain ⟨_, rest, hcons, hrest, rfl⟩ := seq_eq_valid_iff.mp h
    obtain ⟨a, ha, rfl⟩ := map_eq_valid_iff.mp hcons
    exact .cons ha (ih hrest)

end Checked

theorem forall₂_of_indexed {check : Value → Checked α} {n : Nat} {vs : List Value} {as : List α}
    (h : Checked.all (indexed check n vs) = .valid as) :
    List.Forall₂ (fun v a => check v = .valid a) vs as := by
  induction vs generalizing n as with
  | nil =>
    cases h
    exact .nil
  | cons v vs ih =>
    obtain ⟨_, rest, hcons, hrest, rfl⟩ := Checked.seq_eq_valid_iff.mp h
    obtain ⟨a, ha, rfl⟩ := Checked.map_eq_valid_iff.mp hcons
    exact .cons (Checked.under_eq_valid_iff.mp ha) (ih hrest)

theorem exists_of_asListOf {check : Value → Checked α} {v : Value} {as : List α}
    (h : asListOf check v = .valid as) :
    ∃ vs, items? v = some vs ∧ List.Forall₂ (fun v a => check v = .valid a) vs as := by
  unfold asListOf at h
  split at h
  · next vs hvs => exact ⟨vs, hvs, forall₂_of_indexed h⟩
  · cases h

theorem exists_of_asMappingOf {check : Value → Checked α} {v : Value} {table : Table α}
    (h : asMappingOf check v = .valid table) :
    ∃ es fs, v = .map es ∧ table = Table.ofList fs ∧
      List.Forall₂ (fun e f => asText (.scalar e.1) = .valid f.1 ∧ check e.2 = .valid f.2)
        es fs := by
  unfold asMappingOf at h
  split at h
  · next es =>
    obtain ⟨fs, hfs, rfl⟩ := Checked.map_eq_valid_iff.mp h
    refine ⟨es, fs, rfl, rfl, ?_⟩
    refine (List.forall₂_map_left_iff.mp (Checked.forall₂_of_all hfs)).imp fun e f he => ?_
    obtain ⟨_, a, hpair, ha, rfl⟩ := Checked.seq_eq_valid_iff.mp he
    obtain ⟨name, hname, rfl⟩ := Checked.map_eq_valid_iff.mp hpair
    exact ⟨Checked.under_eq_valid_iff.mp (Checked.under_eq_valid_iff.mp hname),
      Checked.under_eq_valid_iff.mp ha⟩
  · cases h

theorem orNull_eq_valid {check : Value → Checked α} {v : Value} {a : Option α}
    (h : orNull check v = .valid a) :
    v = .null ∧ a = none ∨ ∃ b, check v = .valid b ∧ a = some b := by
  unfold orNull at h
  split at h
  · cases h
    exact .inl ⟨rfl, rfl⟩
  · obtain ⟨b, hb, rfl⟩ := Checked.map_eq_valid_iff.mp h
    exact .inr ⟨b, hb, rfl⟩

theorem field_eq_valid {es : Entries} {key : String} {check : Value → Checked α}
    {absent : Checked α} {a : α} (h : field es key check absent = .valid a) :
    Value.entry? key es = none ∧ absent = .valid a ∨
      ∃ v, Value.entry? key es = some v ∧ check v = .valid a := by
  unfold field at h
  split at h
  · next v hv => exact .inr ⟨v, hv, Checked.under_eq_valid_iff.mp h⟩
  · next hnone => exact .inl ⟨hnone, h⟩

theorem blankable_eq_valid {es : Entries} {key : String} {check : Value → Checked α}
    {default a : α} (h : blankable es key check default = .valid a) :
    (Value.entry? key es = none ∨ Value.entry? key es = some .null) ∧ a = default ∨
      ∃ v, Value.entry? key es = some v ∧ check v = .valid a := by
  obtain ⟨hnone, hdefault⟩ | ⟨v, hv, hcheck⟩ := field_eq_valid h
  · cases hdefault
    exact .inl ⟨.inl hnone, rfl⟩
  · split at hcheck
    · cases hcheck
      exact .inl ⟨.inr hv, rfl⟩
    · exact .inr ⟨v, hv, hcheck⟩

end Schema
open Schema

def Value.under? (key : String) : Value → Option Value
  | .map es => entry? key es
  | _ => none

def Value.BlankUnder (v : Value) (key : String) : Prop :=
  v.under? key = none ∨ v.under? key = some .null

/-- The tag is the one that is written. Its attributes are the written ones, as they are. -/
structure TagRecord.Written (v : Value) (t : TagRecord) : Prop where
  name : ∃ name, v.under? "name" = some name ∧ asText name = .valid t.name
  attributes : v.BlankUnder "attributes" ∧ t.attributes = none ∨
    ∃ es fs, v.under? "attributes" = some (.map es) ∧ t.attributes = some (Table.ofList fs) ∧
      List.Forall₂ (fun e f => asText (.scalar e.1) = .valid f.1 ∧ f.2 = e.2) es fs

/-- The value has a list of these tags, and it may be left out where there are none. -/
def Value.HasTags (v : Value) (tags : List TagRecord) : Prop :=
  v.BlankUnder "tags" ∧ tags = [] ∨
    ∃ list vs, v.under? "tags" = some list ∧ items? list = some vs ∧
      List.Forall₂ TagRecord.Written vs tags

/-- Of what the document declares under an id, the last has these tags. -/
def Value.DeclaresTags (v : Value) (id : String) (tags : List TagRecord) : Prop :=
  ∃ before key service after,
    v.under? "services" = some (.map (before ++ (key, service) :: after)) ∧
    asText (.scalar key) = .valid id ∧ (∀ e ∈ after, asText (.scalar e.1) ≠ .valid id) ∧
    service.HasTags tags

theorem TagRecord.written_of_check {v : Value} {t : TagRecord} (h : check v = .valid t) :
    t.Written v := by
  unfold check asRecord at h
  split at h
  · next es =>
    obtain ⟨_, attributes, hmk, hattributes, rfl⟩ := Checked.seq_eq_valid_iff.mp h
    obtain ⟨name, hname, rfl⟩ := Checked.map_eq_valid_iff.mp hmk
    constructor
    case name =>
      obtain ⟨-, hmissing⟩ | ⟨w, hw, htext⟩ := field_eq_valid hname
      · cases hmissing
      · exact ⟨w, hw, htext⟩
    case attributes =>
      obtain ⟨hnone, hdefault⟩ | ⟨w, hw, hcheck⟩ := field_eq_valid hattributes
      · cases hdefault
        exact .inl ⟨.inl hnone, rfl⟩
      · obtain ⟨rfl, rfl⟩ | ⟨table, htable, rfl⟩ := orNull_eq_valid hcheck
        · exact .inl ⟨.inr hw, rfl⟩
        · obtain ⟨es', fs, rfl, rfl, hentries⟩ := exists_of_asMappingOf htable
          exact .inr ⟨es', fs, hw, rfl, hentries.imp fun e f hef =>
            ⟨hef.1, (Checked.valid.inj hef.2).symm⟩⟩
  · cases h

/-- Every field of the record is what its own check makes of the entries. -/
structure ServiceRecord.Fields (es : Entries) (r : ServiceRecord) : Prop where
  className : either es "class" "class_" (orNull asText) (.valid none) = .valid r.className
  main : withDefault es "main" (orNull asText) none = .valid r.main
  factory : withDefault es "factory" (orNull FactoryRecord.check) none = .valid r.factory
  arguments : blankable es "arguments" (asListOf anything) [] = .valid r.arguments
  properties : blankable es "properties" (asMappingOf anything) ∅ = .valid r.properties
  calls : blankable es "calls" (asListOf CallRecord.check) [] = .valid r.calls
  tags : blankable es "tags" (asListOf TagRecord.check) [] = .valid r.tags
  shared : withDefault es "shared" (orNull asFlag) none = .valid r.shared
  lazy : withDefault es "lazy" (orNull asFlag) none = .valid r.lazy
  isPublic : withDefault es "public" (orNull asFlag) none = .valid r.isPublic
  abstract : withDefault es "abstract" (orNull asFlag) none = .valid r.abstract
  parent : withDefault es "parent" (orNull asText) none = .valid r.parent
  decorates : withDefault es "decorates" (orNull asText) none = .valid r.decorates
  decorationPriority :
    withDefault es "decoration_priority" (orNull asInteger) none = .valid r.decorationPriority
  deprecated : withDefault es "deprecated" (orNull Deprecation.check) none = .valid r.deprecated
  synthetic : withDefault es "synthetic" (orNull asFlag) none = .valid r.synthetic

theorem ServiceRecord.fields_of_check {v : Value} {r : ServiceRecord} (h : check v = .valid r) :
    ∃ es, v = .map es ∧ r.Fields es := by
  unfold check asRecord at h
  split at h
  · next es =>
    repeat
      obtain ⟨_, _, hrest, _, rfl⟩ := Checked.seq_eq_valid_iff.mp h
      clear h
      rename' hrest => h
    obtain ⟨_, _, rfl⟩ := Checked.map_eq_valid_iff.mp h
    exact ⟨es, rfl, by constructor <;> assumption⟩
  · cases h

theorem ServiceRecord.hasTags_of_check {v : Value} {r : ServiceRecord} (h : check v = .valid r) :
    v.HasTags r.tags := by
  obtain ⟨es, rfl, hfields⟩ := fields_of_check h
  obtain ⟨hblank, htags⟩ | ⟨list, hlist, hcheck⟩ := blankable_eq_valid hfields.tags
  · exact .inl ⟨hblank, htags⟩
  · obtain ⟨vs, hvs, hwritten⟩ := exists_of_asListOf hcheck
    exact .inr ⟨list, vs, hlist, hvs, hwritten.imp fun v t => TagRecord.written_of_check⟩

theorem ServiceRecord.check_of_entry {v : Value} {r : ServiceRecord}
    (h : ServiceEntry.check v = .valid (.record r)) : ServiceRecord.check v = .valid r := by
  unfold ServiceEntry.check Checked.orElse at h
  split at h
  · next s htext =>
    cases h
    obtain ⟨text, -, halias⟩ := Checked.map_eq_valid_iff.mp htext
    cases halias
  · next hrecord =>
    cases h
    obtain ⟨r, hr, heq⟩ := Checked.map_eq_valid_iff.mp hrecord
    cases heq
    exact hr
  · cases h

/-- A record that a valid document has under an id is the last that is declared there. -/
theorem Document.declaresTags_of_check {v : Value} {d : Document} (h : check v = .valid d)
    {id : String} {r : ServiceRecord} (hr : d.services.get? id = some (.record r)) :
    v.DeclaresTags id r.tags := by
  unfold check asRecord at h
  split at h
  · next es =>
    obtain ⟨_, services, hrest, hservices, rfl⟩ := Checked.seq_eq_valid_iff.mp h
    obtain ⟨_, imports, hmk, -, rfl⟩ := Checked.seq_eq_valid_iff.mp hrest
    obtain ⟨parameters, -, rfl⟩ := Checked.map_eq_valid_iff.mp hmk
    obtain ⟨-, rfl⟩ | ⟨w, hw, hcheck⟩ := blankable_eq_valid hservices
    · cases hr
    · obtain ⟨written, entries, rfl, rfl, hentries⟩ := exists_of_asMappingOf hcheck
      rw [Table.get?_ofList_eq_lastSome?] at hr
      obtain ⟨front, ⟨name, entry⟩, back, rfl, hentry, hback⟩ := exists_split_of_lastSome? hr
      obtain ⟨rfl, rfl⟩ : name = id ∧ entry = .record r := by simpa using hentry
      obtain ⟨before, rest, rfl, -, hrest⟩ := exists_append_of_forall₂ hentries.flip
      obtain ⟨⟨key, service⟩, after, ⟨hkey, hservice⟩, hafter, rfl⟩ :=
        List.forall₂_cons_left_iff.mp hrest
      refine ⟨before, key, service, after, hw, hkey, fun e he heq => ?_,
        ServiceRecord.hasTags_of_check (ServiceRecord.check_of_entry hservice)⟩
      obtain ⟨f, hf, hname, -⟩ := exists_mem_of_forall₂ hafter.flip he
      rw [heq] at hname
      have hother : (if f.1 = name then some f.2 else none) = none := hback f hf
      rw [if_pos (Checked.valid.inj hname).symm] at hother
      cases hother
  · cases h

end Wiring
