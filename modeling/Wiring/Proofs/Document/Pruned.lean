import Wiring.Proofs.Document.Written

/-! A document and what is left of it without its unknown keys and its nulls pass the same check,
with the same result or the same faults. -/
namespace Wiring
open Schema

namespace Value

def keeps (required optional : List String) (es : Entries) : Scalar → Bool
  | .text key =>
    required.contains key || optional.contains key &&
      match entry? key es with
      | some .null => false
      | _ => true
  | _ => false

def prunedEntries (required optional : List String) (within : Scalar → Value → Value)
    (es : Entries) : Entries :=
  (es.filter fun e => keeps required optional es e.1).map fun e => (e.1, within e.1 e.2)

def prunedTo (required optional : List String) (within : Scalar → Value → Value) : Value → Value
  | .map es => .map (prunedEntries required optional within es)
  | v => v

def mapItems (f : Value → Value) : Value → Value
  | .list vs => .list (vs.map f)
  | v => v

def mapEntries (f : Value → Value) : Value → Value
  | .map es => .map (es.map fun e => (e.1, f e.2))
  | v => v

end Value

def ImportRecord.pruned : Value → Value :=
  Value.prunedTo ["resource"] [] fun _ v => v

def FactoryRecord.pruned : Value → Value :=
  Value.prunedTo ["class", "class_", "method"] [] fun _ v => v

def CallRecord.pruned : Value → Value :=
  Value.prunedTo ["method"] ["arguments"] fun _ v => v

def TagRecord.pruned : Value → Value :=
  Value.prunedTo ["name"] ["attributes"] fun _ v => v

def ServiceRecord.within : Scalar → Value → Value
  | .text "factory" => FactoryRecord.pruned
  | .text "calls" => Value.mapItems CallRecord.pruned
  | .text "tags" => Value.mapItems TagRecord.pruned
  | _ => id

def ServiceRecord.keys : List String :=
  ["class", "class_", "main", "factory", "arguments", "properties", "calls", "tags", "shared",
    "lazy", "public", "abstract", "parent", "decorates", "decoration_priority", "deprecated",
    "synthetic"]

def ServiceRecord.pruned : Value → Value :=
  Value.prunedTo [] keys within

def Document.within : Scalar → Value → Value
  | .text "imports" => Value.mapItems ImportRecord.pruned
  | .text "services" => Value.mapEntries ServiceRecord.pruned
  | _ => id

/-- The document without unknown keys, and without nulls where a field may be left out. The same
is done to the records in it. -/
def Document.pruned : Value → Value :=
  Value.prunedTo [] ["parameters", "imports", "services"] within

/-- A class may stand under either of two keys, and the service has it under one of them at most. -/
def Value.HasOneClass (v : Value) : Prop :=
  v.under? "class" = none ∨ v.under? "class_" = none

def Value.HasOneClassEach (v : Value) : Prop :=
  ∀ services, v.under? "services" = some (.map services) → ∀ e ∈ services, e.2.HasOneClass

namespace Value

theorem entry?_map_filter (kept : Scalar → Bool) (f : Scalar → Value → Value) (key : String)
    (es : Entries) :
    entry? key ((es.filter fun e => kept e.1).map fun e => (e.1, f e.1 e.2)) =
      if kept (.text key) then (Value.entry? key es).map (f (.text key)) else none := by
  induction es with
  | nil => simp [Value.entry?]
  | cons e es ih =>
    unfold entry? at ih ⊢
    by_cases hkey : e.1 = .text key <;> by_cases hkept : kept e.1 <;> simp_all

variable {required optional : List String} {within : Scalar → Value → Value} {es : Entries}
  {key : String}

theorem entry?_prunedEntries_of_required (h : key ∈ required) :
    entry? key (prunedEntries required optional within es) =
      (Value.entry? key es).map (within (.text key)) := by
  rw [prunedEntries, entry?_map_filter, if_pos]
  simp [keeps, h]

theorem entry?_prunedEntries_of_optional (h : key ∈ optional) :
    entry? key (prunedEntries required optional within es) =
      (Value.entry? key es).map (within (.text key)) ∨
    entry? key es = some .null ∧ entry? key (prunedEntries required optional within es) = none := by
  rw [prunedEntries, entry?_map_filter]
  split
  · exact .inl rfl
  · next hdrops =>
    refine .inr ⟨?_, rfl⟩
    simp only [keeps] at hdrops
    split at hdrops
    · next hnull => exact hnull
    · exact absurd (by simp [h]) hdrops

theorem entry?_prunedEntries_eq_none (h : Value.entry? key es = none) :
    entry? key (prunedEntries required optional within es) = none := by
  rw [prunedEntries, entry?_map_filter, h]
  exact ite_self none

end Value

namespace Schema
variable {α : Type} {required optional : List String} {within : Scalar → Value → Value}
  {es : Entries} {key other : String} {check : Value → Checked α} {absent : Checked α} {default : α}

theorem field_pruned_of_required (h : key ∈ required)
    (hwithin : ∀ v, check (within (.text key) v) = check v) :
    field (Value.prunedEntries required optional within es) key check absent =
      field es key check absent := by
  unfold field
  rw [Value.entry?_prunedEntries_of_required h]
  cases Value.entry? key es with
  | none => rfl
  | some v => exact congrArg (Checked.under _) (hwithin v)

theorem field_pruned_of_optional (h : key ∈ optional) (hnull : check .null = .valid default)
    (hwithin : ∀ v, Value.entry? key es = some v → check (within (.text key) v) = check v) :
    field (Value.prunedEntries required optional within es) key check (.valid default) =
      field es key check (.valid default) := by
  unfold field
  obtain hkept | ⟨hes, hdropped⟩ :=
    @Value.entry?_prunedEntries_of_optional required optional within es key h
  · rw [hkept]
    cases hes : Value.entry? key es with
    | none => rfl
    | some v => exact congrArg (Checked.under _) (hwithin v hes)
  · rw [hes, hdropped]
    exact (congrArg (Checked.under _) hnull).symm

theorem either_of_first_none (h : Value.entry? key es = none) :
    either es key other check absent = field es other check absent := by
  rw [either, h]

theorem either_of_second_none (h : Value.entry? other es = none) :
    either es key other check absent = field es key check absent := by
  unfold either field
  rw [h]

/-- A null under the first key may not be dropped where the second key is there as well: it would
let the second one count. -/
theorem either_pruned_of_optional (hkey : key ∈ optional) (hother : other ∈ optional)
    (hnull : check .null = .valid default)
    (hwithin : within (.text key) = id) (hwithin' : within (.text other) = id)
    (hone : Value.entry? key es = none ∨ Value.entry? other es = none) :
    either (Value.prunedEntries required optional within es) key other check (.valid default) =
      either es key other check (.valid default) := by
  obtain hnone | hnone := hone
  · rw [either_of_first_none hnone, either_of_first_none (Value.entry?_prunedEntries_eq_none hnone)]
    exact field_pruned_of_optional hother hnull fun v _ => congrArg check (congrFun hwithin' v)
  · rw [either_of_second_none hnone,
      either_of_second_none (Value.entry?_prunedEntries_eq_none hnone)]
    exact field_pruned_of_optional hkey hnull fun v _ => congrArg check (congrFun hwithin v)

theorem either_pruned_of_required (hkey : key ∈ required) (hother : other ∈ required)
    (hwithin : within (.text key) = id) (hwithin' : within (.text other) = id) :
    either (Value.prunedEntries required optional within es) key other check absent =
      either es key other check absent := by
  unfold either
  rw [Value.entry?_prunedEntries_of_required hkey, hwithin, Option.map_id_fun, id,
    field_pruned_of_required hother fun v => congrArg check (congrFun hwithin' v)]

variable {f : Value → Value}

theorem indexed_map (hf : ∀ v, check (f v) = check v) (n : Nat) (vs : List Value) :
    indexed check n (vs.map f) = indexed check n vs := by
  induction vs generalizing n with
  | nil => rfl
  | cons v vs ih => rw [List.map_cons, indexed, indexed, hf, ih]

theorem blankable_pruned_of_items (h : key ∈ optional)
    (hwithin : within (.text key) = Value.mapItems f) (hf : ∀ v, check (f v) = check v)
    (default : List α) :
    blankable (Value.prunedEntries required optional within es) key (asListOf check) default =
      blankable es key (asListOf check) default := by
  refine field_pruned_of_optional h rfl fun v _ => ?_
  rw [hwithin]
  cases v with
  | list vs => exact congrArg Checked.all (indexed_map hf 0 vs)
  | scalar s => rfl
  | map es => rfl
  | set ms => rfl

theorem blankable_pruned_of_entries (h : key ∈ optional)
    (hwithin : within (.text key) = Value.mapEntries f)
    (hf : ∀ fs, Value.entry? key es = some (.map fs) → ∀ e ∈ fs, check (f e.2) = check e.2)
    (default : Table α) :
    blankable (Value.prunedEntries required optional within es) key (asMappingOf check) default =
      blankable es key (asMappingOf check) default := by
  refine field_pruned_of_optional h rfl fun v hv => ?_
  rw [hwithin]
  cases v with
  | map fs =>
    have hentries : (fs.map fun e => (e.1, f e.2)).map (entry check) = fs.map (entry check) := by
      rw [List.map_map]
      refine List.map_congr_left fun e he => ?_
      simp only [Function.comp_apply, entry, hf fs hv e he]
    exact congrArg (fun xs => Table.ofList <$> Checked.all xs) hentries
  | scalar s => rfl
  | list vs => rfl
  | set ms => rfl

theorem withDefault_pruned (key : String) (check : Value → Checked α) (h : key ∈ optional)
    (hwithin : within (.text key) = id) :
    withDefault (Value.prunedEntries required optional within es) key (orNull check) none =
      withDefault es key (orNull check) none :=
  field_pruned_of_optional h rfl fun v _ => congrArg (orNull check) (congrFun hwithin v)

theorem blankable_pruned (key : String) (check : Value → Checked α) (default : α)
    (h : key ∈ optional) (hwithin : within (.text key) = id) :
    blankable (Value.prunedEntries required optional within es) key check default =
      blankable es key check default :=
  field_pruned_of_optional h rfl fun v _ => by rw [hwithin, id]

end Schema

theorem ImportRecord.check_pruned (v : Value) : check (pruned v) = check v := by
  cases v with
  | map es =>
    exact congrArg (ImportRecord.mk <$> ·)
      (field_pruned_of_required (by decide) fun _ => rfl)
  | _ => rfl

theorem FactoryRecord.check_pruned (v : Value) : check (pruned v) = check v := by
  cases v with
  | map es =>
    exact congrArg₂ (FactoryRecord.mk <$> · <*> ·)
      (either_pruned_of_required (by decide) (by decide) rfl rfl)
      (field_pruned_of_required (by decide) fun _ => rfl)
  | _ => rfl

theorem FactoryRecord.orNull_check_pruned (v : Value) :
    orNull check (pruned v) = orNull check v := by
  cases v with
  | map es => exact congrArg (some <$> ·) (check_pruned (.map es))
  | _ => rfl

theorem CallRecord.check_pruned (v : Value) : check (pruned v) = check v := by
  cases v with
  | map es =>
    exact congrArg₂ (CallRecord.mk <$> · <*> ·)
      (field_pruned_of_required (by decide) fun _ => rfl)
      (field_pruned_of_optional (by decide) rfl fun _ _ => rfl)
  | _ => rfl

theorem TagRecord.check_pruned (v : Value) : check (pruned v) = check v := by
  cases v with
  | map es =>
    exact congrArg₂ (TagRecord.mk <$> · <*> ·)
      (field_pruned_of_required (by decide) fun _ => rfl)
      (field_pruned_of_optional (by decide) rfl fun _ _ => rfl)
  | _ => rfl

theorem ServiceRecord.check_pruned {v : Value} (h : v.HasOneClass) :
    check (pruned v) = check v := by
  cases v with
  | map es =>
    let kept := Value.prunedEntries [] keys within es
    have hclass : either kept "class" "class_" (orNull asText) (.valid none) =
        either es "class" "class_" (orNull asText) (.valid none) :=
      either_pruned_of_optional (by decide) (by decide) rfl rfl rfl h
    have hfactory : withDefault kept "factory" (orNull FactoryRecord.check) none =
        withDefault es "factory" (orNull FactoryRecord.check) none :=
      field_pruned_of_optional (by decide) rfl fun v _ => FactoryRecord.orNull_check_pruned v
    have hcalls : blankable kept "calls" (asListOf CallRecord.check) [] =
        blankable es "calls" (asListOf CallRecord.check) [] :=
      blankable_pruned_of_items (by decide) rfl CallRecord.check_pruned []
    have htags : blankable kept "tags" (asListOf TagRecord.check) [] =
        blankable es "tags" (asListOf TagRecord.check) [] :=
      blankable_pruned_of_items (by decide) rfl TagRecord.check_pruned []
    show asRecord "RawService" _ (.map kept) = _
    simp only [check, asRecord]
    rw [hclass, hfactory, hcalls, htags,
      withDefault_pruned "main" asText (by decide) rfl,
      blankable_pruned "arguments" (asListOf anything) [] (by decide) rfl,
      blankable_pruned "properties" (asMappingOf anything) ∅ (by decide) rfl,
      withDefault_pruned "shared" asFlag (by decide) rfl,
      withDefault_pruned "lazy" asFlag (by decide) rfl,
      withDefault_pruned "public" asFlag (by decide) rfl,
      withDefault_pruned "abstract" asFlag (by decide) rfl,
      withDefault_pruned "parent" asText (by decide) rfl,
      withDefault_pruned "decorates" asText (by decide) rfl,
      withDefault_pruned "decoration_priority" asInteger (by decide) rfl,
      withDefault_pruned "deprecated" Deprecation.check (by decide) rfl,
      withDefault_pruned "synthetic" asFlag (by decide) rfl]
  | _ => rfl

theorem ServiceEntry.check_pruned {v : Value} (h : v.HasOneClass) :
    check (ServiceRecord.pruned v) = check v := by
  cases v with
  | map es =>
    have hrecord := ServiceRecord.check_pruned h
    exact congrArg (fun record => (Checked.fault .notText).orElse "str" "RawService"
      (ServiceEntry.record <$> record)) hrecord
  | _ => rfl

/-- Unknown keys count for nothing, and null where a field may be left out counts as nothing. -/
theorem Document.pruned_checks_alike (v : Value) (h : v.HasOneClassEach) :
    check (pruned v) = check v := by
  cases v with
  | map es =>
    let kept := Value.prunedEntries [] ["parameters", "imports", "services"] within es
    have hparameters : blankable kept "parameters" (asMappingOf anything) ∅ =
        blankable es "parameters" (asMappingOf anything) ∅ :=
      blankable_pruned _ _ _ (by decide) rfl
    have himports : blankable kept "imports" (asListOf ImportRecord.check) [] =
        blankable es "imports" (asListOf ImportRecord.check) [] :=
      blankable_pruned_of_items (by decide) rfl ImportRecord.check_pruned []
    have hservices : blankable kept "services" (asMappingOf ServiceEntry.check) ∅ =
        blankable es "services" (asMappingOf ServiceEntry.check) ∅ :=
      blankable_pruned_of_entries (by decide) rfl
        (fun services hservices e he => ServiceEntry.check_pruned (h services hservices e he)) ∅
    show asRecord "RawDocument" _ (.map kept) = _
    simp only [check, asRecord]
    rw [hparameters, himports, hservices]
  | _ => rfl

def Document.mailing : Value :=
  .map [(.text "author", .text "post"), (.text "parameters", .null), (.text "services", .map
    [(.text "mailer", .map [(.text "class_", .text "mail#Mailer"), (.text "tags", .null),
      (.text "factory", .map [(.text "class", .null), (.text "owner", .null)])])])]

/-- The class of the factory is required: it stays although it is null, and its fault with it. -/
theorem Document.mailing_pruned_checks_alike :
    mailing.HasOneClassEach ∧
      pruned mailing = .map [(.text "services", .map [(.text "mailer", .map
        [(.text "class_", .text "mail#Mailer"), (.text "factory", .map [(.text "class", .null)])])])] ∧
      check (pruned mailing) = check mailing := by
  have hone : mailing.HasOneClassEach := by
    intro services hservices e he
    cases hservices
    obtain rfl := List.mem_singleton.mp he
    exact .inl rfl
  exact ⟨hone, rfl, pruned_checks_alike mailing hone⟩

end Wiring
