import Wiring.Proofs.Document.Written

/-! Documents written out under their keys: the check takes them back as they were. -/
namespace Wiring
open Schema

namespace Value
variable {α : Type}

def ofFields (fields : List (String × Value)) : Value :=
  .map (fields.map fun f => (.text f.1, f.2))

def ofTable (write : α → Value) (t : Table α) : Value :=
  .map (t.entries.map fun e => (.text e.1, write e.2))

def ofList (write : α → Value) (as : List α) : Value :=
  .list (as.map write)

def ofOption (write : α → Value) : Option α → Value
  | none => .null
  | some a => write a

theorem text_ne_null (s : String) : text s ≠ null := by intro h; cases h
theorem bool_ne_null (b : Bool) : bool b ≠ null := by intro h; cases h
theorem int_ne_null (n : Int) : int n ≠ null := by intro h; cases h

theorem ofFields_ne_null (fields : List (String × Value)) : ofFields fields ≠ null := by
  intro h
  cases h

theorem ofTable_ne_null (write : α → Value) (t : Table α) : ofTable write t ≠ null := by
  intro h
  cases h

theorem ofList_ne_null (write : α → Value) (as : List α) : ofList write as ≠ null := by
  intro h
  cases h

end Value

def Deprecation.written : Deprecation → Value
  | .note s => .text s
  | .flag b => .bool b

def ImportRecord.written (r : ImportRecord) : Value :=
  .ofFields [("resource", .text r.resource)]

def FactoryRecord.written (r : FactoryRecord) : Value :=
  .ofFields [("class", .text r.className), ("method", .text r.method)]

def CallRecord.written (r : CallRecord) : Value :=
  .ofFields [("method", .text r.method), ("arguments", .ofList id r.arguments)]

def TagRecord.written (r : TagRecord) : Value :=
  .ofFields [("name", .text r.name), ("attributes", .ofOption (.ofTable id) r.attributes)]

def ServiceRecord.written (r : ServiceRecord) : Value :=
  .ofFields
    [("class", .ofOption .text r.className),
     ("main", .ofOption .text r.main),
     ("factory", .ofOption FactoryRecord.written r.factory),
     ("arguments", .ofList id r.arguments),
     ("properties", .ofTable id r.properties),
     ("calls", .ofList CallRecord.written r.calls),
     ("tags", .ofList TagRecord.written r.tags),
     ("shared", .ofOption .bool r.shared),
     ("lazy", .ofOption .bool r.lazy),
     ("public", .ofOption .bool r.isPublic),
     ("abstract", .ofOption .bool r.abstract),
     ("parent", .ofOption .text r.parent),
     ("decorates", .ofOption .text r.decorates),
     ("decoration_priority", .ofOption .int r.decorationPriority),
     ("deprecated", .ofOption Deprecation.written r.deprecated),
     ("synthetic", .ofOption .bool r.synthetic)]

def ServiceEntry.written : ServiceEntry → Value
  | .alias text => .text text
  | .record r => r.written

/-- The document with all its fields, a null where there is nothing. -/
def Document.written (d : Document) : Value :=
  .ofFields
    [("parameters", .ofTable id d.parameters),
     ("imports", .ofList ImportRecord.written d.imports),
     ("services", .ofTable ServiceEntry.written d.services)]

namespace Schema
variable {α : Type}

def ReadsBack (check : Value → Checked α) (write : α → Value) : Prop :=
  ∀ a, check (write a) = .valid a

theorem readsBack_text : ReadsBack asText .text := fun _ => rfl
theorem readsBack_flag : ReadsBack asFlag .bool := fun _ => rfl
theorem readsBack_integer : ReadsBack asInteger .int := fun _ => rfl
theorem readsBack_anything : ReadsBack anything id := fun _ => rfl

namespace ReadsBack
variable {check : Value → Checked α} {write : α → Value} {es : Entries} {key other : String}
  {absent : Checked α} {default : α}

theorem ofOption (h : ReadsBack check write) (hnull : ∀ a, write a ≠ .null) :
    ReadsBack (orNull check) (.ofOption write)
  | none => rfl
  | some a => by
    show orNull check (write a) = _
    unfold orNull
    split
    · next heq => exact absurd heq (hnull a)
    · rw [h a]
      rfl

theorem indexed_map (h : ReadsBack check write) (n : Nat) (as : List α) :
    Checked.all (indexed check n (as.map write)) = .valid as := by
  induction as generalizing n with
  | nil => rfl
  | cons a as ih =>
    rw [List.map_cons, indexed, h a, Checked.all, ih]
    rfl

theorem ofList (h : ReadsBack check write) : ReadsBack (asListOf check) (.ofList write) :=
  h.indexed_map 0

theorem entry_map (h : ReadsBack check write) (es : List (String × α)) :
    Checked.all ((es.map fun e => (Scalar.text e.1, write e.2)).map (entry check)) = .valid es := by
  induction es with
  | nil => rfl
  | cons e es ih =>
    rw [List.map_cons, List.map_cons, entry, h e.2, Checked.all, ih]
    rfl

theorem ofTable (h : ReadsBack check write) : ReadsBack (asMappingOf check) (.ofTable write) := by
  intro t
  show Table.ofList <$> Checked.all _ = _
  rw [h.entry_map]
  exact congrArg Checked.valid (Table.ofList_entries t)

theorem field (h : ReadsBack check write) (key : String) (a : α)
    (hes : Value.entry? key es = some (write a)) : field es key check absent = .valid a := by
  rw [Schema.field, hes]
  exact congrArg (Checked.under _) (h a)

theorem required (h : ReadsBack check write) (key : String) (a : α)
    (hes : Value.entry? key es = some (write a)) : required es key check = .valid a :=
  h.field key a hes

theorem withDefault (h : ReadsBack check write) (key : String) (a : α)
    (hes : Value.entry? key es = some (write a)) : withDefault es key check default = .valid a :=
  h.field key a hes

theorem blankable (h : ReadsBack check write) (hnull : ∀ a, write a ≠ .null) (key : String) (a : α)
    (hes : Value.entry? key es = some (write a)) : blankable es key check default = .valid a := by
  refine field (fun a => ?_) key a hes
  split
  · next heq => exact absurd heq (hnull a)
  · exact h a

theorem either (h : ReadsBack check write) (key : String) (a : α)
    (hes : Value.entry? key es = some (write a)) : either es key other check absent = .valid a := by
  rw [Schema.either, hes]
  exact congrArg (Checked.under _) (h a)

end ReadsBack
end Schema

theorem Deprecation.written_ne_null (d : Deprecation) : d.written ≠ .null := by
  cases d with
  | note s => exact Value.text_ne_null s
  | flag b => exact Value.bool_ne_null b

theorem Deprecation.readsBack : ReadsBack check written := by
  intro d
  cases d <;> rfl

theorem ImportRecord.readsBack : ReadsBack check written := fun _ => rfl

theorem FactoryRecord.readsBack : ReadsBack check written := fun _ => rfl

theorem CallRecord.readsBack : ReadsBack check written := by
  intro r
  have harguments := readsBack_anything.ofList
  show CallRecord.mk <$> _ <*> _ = _
  rw [readsBack_text.required "method" r.method,
    harguments.blankable (Value.ofList_ne_null _) "arguments" r.arguments]
  all_goals rfl

theorem TagRecord.readsBack : ReadsBack check written := by
  intro r
  have hattributes := readsBack_anything.ofTable.ofOption (Value.ofTable_ne_null _)
  show TagRecord.mk <$> _ <*> _ = _
  rw [readsBack_text.required "name" r.name, hattributes.withDefault "attributes" r.attributes]
  all_goals rfl

theorem ServiceRecord.readsBack : ReadsBack check written := by
  intro r
  have htext := readsBack_text.ofOption Value.text_ne_null
  have hflag := readsBack_flag.ofOption Value.bool_ne_null
  have hpriority := readsBack_integer.ofOption Value.int_ne_null
  have hdeprecated := Deprecation.readsBack.ofOption Deprecation.written_ne_null
  have hfactory := FactoryRecord.readsBack.ofOption fun _ => Value.ofFields_ne_null _
  have harguments := readsBack_anything.ofList
  have hproperties := readsBack_anything.ofTable
  have hcalls := CallRecord.readsBack.ofList
  have htags := TagRecord.readsBack.ofList
  show ServiceRecord.mk <$> _ <*> _ <*> _ <*> _ <*> _ <*> _ <*> _ <*> _ <*> _ <*> _ <*> _ <*> _
    <*> _ <*> _ <*> _ <*> _ = _
  rw [htext.either "class" r.className, htext.withDefault "main" r.main,
    hfactory.withDefault "factory" r.factory,
    harguments.blankable (Value.ofList_ne_null _) "arguments" r.arguments,
    hproperties.blankable (Value.ofTable_ne_null _) "properties" r.properties,
    hcalls.blankable (Value.ofList_ne_null _) "calls" r.calls,
    htags.blankable (Value.ofList_ne_null _) "tags" r.tags,
    hflag.withDefault "shared" r.shared, hflag.withDefault "lazy" r.lazy,
    hflag.withDefault "public" r.isPublic, hflag.withDefault "abstract" r.abstract,
    htext.withDefault "parent" r.parent, htext.withDefault "decorates" r.decorates,
    hpriority.withDefault "decoration_priority" r.decorationPriority,
    hdeprecated.withDefault "deprecated" r.deprecated,
    hflag.withDefault "synthetic" r.synthetic]
  all_goals rfl

theorem ServiceEntry.readsBack : ReadsBack check written := by
  intro entry
  obtain text | r := entry
  · rfl
  · show (Checked.fault .notText).orElse "str" "RawService"
      (record <$> ServiceRecord.check r.written) = _
    rw [ServiceRecord.readsBack r]
    rfl

theorem Document.readsBack : ReadsBack check written := by
  intro d
  have hparameters := readsBack_anything.ofTable
  have himports := ImportRecord.readsBack.ofList
  have hservices := ServiceEntry.readsBack.ofTable
  show Document.mk <$> _ <*> _ <*> _ = _
  rw [hparameters.blankable (Value.ofTable_ne_null _) "parameters" d.parameters,
    himports.blankable (Value.ofList_ne_null _) "imports" d.imports,
    hservices.blankable (Value.ofTable_ne_null _) "services" d.services]
  all_goals rfl

/-- The check changes nothing in a document that is written out, and nothing more in one that it
has read. -/
theorem Document.check_written :
    (∀ d : Document, check d.written = .valid d) ∧
      ∀ (v : Value) (d : Document), check v = .valid d → check d.written = check v :=
  ⟨readsBack, fun _ d hd => (readsBack d).trans hd.symm⟩

theorem Document.check_written_flag :
    let ranked : Value := .map [(.text "services", .map [(.text "mailer", .map
      [(.text "class", .text "mail#Mailer"), (.text "decoration_priority", .bool true)])])]
    let mailer : ServiceRecord := { className := some "mail#Mailer", decorationPriority := some 1 }
    let d : Document := { services := .ofList [("mailer", .record mailer)] }
    check ranked = .valid d ∧ check d.written = check ranked :=
  ⟨rfl, check_written.2 _ _ rfl⟩

end Wiring
