import Mathlib.Data.Set.Card
import Wiring.Proofs.Load.Closing
import Wiring.Proofs.Load.Cycle
import Wiring.Proofs.Load.Precedence

/-! The order in which a load goes through its tree. Documents are read in pre-order and compiled in
post-order, and a document is read once for every way of import entries that leads to it. -/
namespace Wiring
open Relation

namespace Event

def isRead : Event → Bool
  | .read _ => true
  | _ => false

def isRegistered : Event → Bool
  | .log (.registered _) => true
  | _ => false

def isCompiled : Event → Bool
  | .log (.compiled ..) => true
  | _ => false

/-- The event tells of a document on its way: it is read or imported, its service is registered,
or it is compiled. -/
def isMilestone : Event → Bool
  | .read _ | .log (.importing _) | .log (.registered _) | .log (.compiled ..) => true
  | _ => false

theorem isMilestone_of_told {e : Event}
    (h : (e.isRead || e.isRegistered || e.isCompiled) = true) : e.isMilestone = true := by
  cases e with
  | read => rfl
  | log r =>
    cases r with
    | importing | registered | compiled => rfl
    | _ => cases h
  | _ => cases h

end Event

namespace Reader

/-- A way of import entries, each told by its place among the imports of its document. -/
def Leads (r : Reader) (a : Location) : List Nat → Location → Prop
  | [], b => a = b
  | n :: way, b => ∃ d next, r.Holds a d ∧ (d.imported a)[n]? = some next ∧ r.Leads next way b

variable {r : Reader} {a b : Location}

theorem edge_of_getElem? {d : Document} {n : Nat} (hd : r.Holds a d)
    (hn : (d.imported a)[n]? = some b) : r.Edge a b :=
  ⟨d, hd, List.mem_of_getElem? hn⟩

theorem Leads.reflTransGen {way : List Nat} (h : r.Leads a way b) : ReflTransGen r.Edge a b := by
  induction way generalizing a with
  | nil =>
    obtain rfl : a = b := h
    exact .refl
  | cons n way ih =>
    obtain ⟨d, next, hd, hn, hway⟩ := h
    exact .head (edge_of_getElem? hd hn) (ih hway)

theorem Leads.eq_nil_of_acc {way : List Nat} (h : r.Leads a way a)
    (ha : Acc (Function.swap r.Edge) a) : way = [] := by
  cases way with
  | nil => rfl
  | cons n way =>
    obtain ⟨d, next, hd, hn, hway⟩ := h
    exact absurd (.head' (edge_of_getElem? hd hn) hway.reflTransGen) (not_cycle_of_acc ha)

end Reader

def Document.ending (d : Document) (location : Location) : List Event :=
  d.services.names.map (fun id => .log (.registered id)) ++
    [.log (.compiled location.text d.parameters.size d.imports.length d.services.size)]

namespace Visit

/-- What a visit tells: it is read, then come its imports, each of them whole, and then its end. -/
def records : Visit → List Event
  | ⟨location, d, imports, _⟩ =>
    .read location.text ::
      imports.flatMap (fun t => .log (.importing t.location.text) :: records t) ++
        d.ending location

theorem flatMap_tells_parameters (d : Document) :
    (d.parameters.entries.map fun e => Deed.parameter e.1 e.2).flatMap Deed.tells = [] := by
  simp [List.flatMap_map, Deed.tells]

theorem flatMap_tells_serviceDeeds (t : Visit) :
    t.serviceDeeds.flatMap Deed.tells = t.services.names.map fun id => .log (.registered id) := by
  rw [serviceDeeds, List.flatMap_map, Table.names, List.map_map, List.map_eq_flatMap]
  rfl

theorem Prescribed.names_services {r : Reader} {location : Location} {t : Visit}
    (h : t.Prescribed r location) : t.services.names = t.document.services.names := by
  rw [← h.map_fst_services, Table.names_map]

theorem Prescribed.flatMap_tells_deeds {r : Reader} {location : Location} {t : Visit}
    (h : t.Prescribed r location) : t.deeds.flatMap Deed.tells = t.records := by
  induction t using induction generalizing location with
  | node place d imports services ih =>
    have himports : (imports.flatMap fun t => .importing t.location :: t.deeds).flatMap Deed.tells =
        imports.flatMap fun t => .log (.importing t.location.text) :: t.records := by
      rw [List.flatMap_assoc]
      refine List.flatMap_congr fun t ht => ?_
      rw [List.flatMap_cons, ih t ht (h.of_mem_imports ht)]
      rfl
    rw [deeds_eq, opening, records, Document.ending, ← h.names_services]
    simp only [List.flatMap_append, List.flatMap_cons, List.flatMap_nil, List.append_nil,
      List.append_assoc, flatMap_tells_parameters, flatMap_tells_serviceDeeds, himports]
    rfl

theorem filter_isRead_records (t : Visit) :
    t.records.filter Event.isRead = t.preorder.map fun v => .read v.location.text := by
  induction t using induction with
  | node location d imports services ih =>
    have himports : (imports.flatMap fun t => .log (.importing t.location.text) :: t.records).filter
        Event.isRead = (imports.flatMap preorder).map fun v => .read v.location.text := by
      rw [List.filter_flatMap, List.map_flatMap]
      exact List.flatMap_congr ih
    have hending : (d.ending location).filter Event.isRead = [] := by
      simp [Document.ending, Event.isRead]
    rw [records, preorder, List.filter_append, hending, List.append_nil, List.map_cons, ← himports]
    rfl

theorem filter_records {p : Event → Bool} (hread : ∀ text, p (.read text) = false)
    (himporting : ∀ text, p (.log (.importing text)) = false) (t : Visit) :
    t.records.filter p =
      t.postorder.flatMap fun v => (v.document.ending v.location).filter p := by
  induction t using induction with
  | node location d imports services ih =>
    have himports : (imports.flatMap fun t => .log (.importing t.location.text) :: t.records).filter
        p = (imports.flatMap postorder).flatMap
          fun v => (v.document.ending v.location).filter p := by
      rw [List.filter_flatMap, List.flatMap_assoc]
      refine List.flatMap_congr fun t ht => ?_
      rw [List.filter_cons_of_neg (by simp [himporting]), ih t ht]
    rw [records, postorder, List.filter_append, List.filter_cons_of_neg (by simp [hread]), himports,
      List.flatMap_append, List.flatMap_singleton]

theorem filter_isRegistered_ending (d : Document) (location : Location) :
    (d.ending location).filter Event.isRegistered =
      d.services.names.map fun id => .log (.registered id) := by
  simp [Document.ending, Event.isRegistered]

theorem filter_isCompiled_ending (d : Document) (location : Location) :
    (d.ending location).filter Event.isCompiled =
      [.log (.compiled location.text d.parameters.size d.imports.length d.services.size)] := by
  have hservices : (d.services.names.map fun id => Event.log (.registered id)).filter
      Event.isCompiled = [] := by
    refine List.filter_eq_nil_iff.mpr fun e he => ?_
    obtain ⟨id, -, rfl⟩ := List.mem_map.mp he
    exact Bool.false_ne_true
  rw [Document.ending, List.filter_append, hservices]
  rfl

mutual
/-- The ways from a visit to the visits of a location, each told by places among imports. -/
def waysTo (b : Location) : Visit → List (List Nat)
  | ⟨location, _, imports, _⟩ => (if location = b then [[]] else []) ++ waysAmong b 0 imports
def waysAmong (b : Location) : Nat → List Visit → List (List Nat)
  | _, [] => []
  | n, t :: ts => (waysTo b t).map (n :: ·) ++ waysAmong b (n + 1) ts
end

mutual
theorem length_waysTo (b : Location) : ∀ t : Visit,
    (t.waysTo b).length = t.preorder.countP (·.location = b)
  | ⟨location, d, imports, services⟩ => by
    rw [waysTo, preorder, List.length_append, length_waysAmong b 0 imports, List.countP_cons,
      Nat.add_comm]
    split <;> simp_all
theorem length_waysAmong (b : Location) : ∀ (n : Nat) (ts : List Visit),
    (waysAmong b n ts).length = (ts.flatMap preorder).countP (·.location = b)
  | _, [] => rfl
  | n, t :: ts => by
    rw [waysAmong, List.length_append, List.length_map, length_waysTo b t,
      length_waysAmong b (n + 1) ts, List.flatMap_cons, List.countP_append]
end

theorem mem_waysAmong_iff {b : Location} {ts : List Visit} {n : Nat} {way : List Nat} :
    way ∈ waysAmong b n ts ↔
      ∃ k t rest, ts[k]? = some t ∧ way = (n + k) :: rest ∧ rest ∈ t.waysTo b := by
  induction ts generalizing n with
  | nil => simp [waysAmong]
  | cons t ts ih =>
    rw [waysAmong, List.mem_append, List.mem_map, ih]
    constructor
    · rintro (⟨rest, hrest, rfl⟩ | ⟨k, t', rest, hk, rfl, hrest⟩)
      · exact ⟨0, t, rest, rfl, rfl, hrest⟩
      · exact ⟨k + 1, t', rest, hk, by rw [Nat.add_assoc, Nat.add_comm 1], hrest⟩
    · rintro ⟨k, t', rest, hk, rfl, hrest⟩
      cases k with
      | zero =>
        cases hk
        exact .inl ⟨rest, hrest, rfl⟩
      | succ k => exact .inr ⟨k, t', rest, hk, by rw [Nat.add_assoc, Nat.add_comm 1], hrest⟩

mutual
theorem nodup_waysTo (b : Location) : ∀ t : Visit, (t.waysTo b).Nodup
  | ⟨location, d, imports, services⟩ => by
    rw [waysTo, List.nodup_append]
    refine ⟨by split <;> simp, nodup_waysAmong b 0 imports, fun way hway way' hway' => ?_⟩
    obtain ⟨k, t, rest, -, rfl, -⟩ := mem_waysAmong_iff.mp hway'
    split at hway
    · rw [List.mem_singleton.mp hway]
      exact nofun
    · cases hway
theorem nodup_waysAmong (b : Location) : ∀ (n : Nat) (ts : List Visit), (waysAmong b n ts).Nodup
  | _, [] => .nil
  | n, t :: ts => by
    rw [waysAmong, List.nodup_append]
    refine ⟨(nodup_waysTo b t).map fun _ _ h => (List.cons.inj h).2, nodup_waysAmong b (n + 1) ts,
      fun way hway way' hway' heq => ?_⟩
    obtain ⟨rest, -, rfl⟩ := List.mem_map.mp hway
    obtain ⟨k, t', rest', -, rfl, -⟩ := mem_waysAmong_iff.mp hway'
    have hhead := (List.cons.inj heq).1
    omega
end

theorem Prescribed.mem_waysTo_iff {r : Reader} {location b : Location} {t : Visit}
    (h : t.Prescribed r location) {way : List Nat} : way ∈ t.waysTo b ↔ r.Leads location way b := by
  induction t using induction generalizing location way with
  | node place d imports services ih =>
    obtain rfl := h.location_eq
    have hhere : way ∈ (if place = b then [[]] else [] : List (List Nat)) ↔
        way = [] ∧ place = b := by
      split <;> simp_all
    rw [waysTo, List.mem_append, hhere, mem_waysAmong_iff]
    cases h with
    | node hd hservices himports =>
      cases way with
      | nil => simp [Reader.Leads]
      | cons n way =>
        constructor
        · rintro (⟨hnil, -⟩ | ⟨k, t, rest, hk, hway, hrest⟩)
          · cases hnil
          · obtain ⟨rfl, rfl⟩ := List.cons.inj hway
            obtain ⟨next, hnext, hprescribed⟩ := exists_getElem?_of_forall₂ himports.flip hk
            rw [Nat.zero_add]
            exact ⟨d, next, hd, hnext, (ih t (List.mem_of_getElem? hk) hprescribed).mp hrest⟩
        · rintro ⟨d', next, hd', hnext, hleads⟩
          rw [hd'.unique hd] at hnext
          obtain ⟨t, ht, hprescribed⟩ := exists_getElem?_of_forall₂ himports hnext
          exact .inr ⟨n, t, way, ht, by rw [Nat.zero_add],
            (ih t (List.mem_of_getElem? ht) hprescribed).mpr hleads⟩

/-- A location is visited once for every way that leads to it. -/
theorem Prescribed.encard_leads {r : Reader} {location : Location} {t : Visit}
    (h : t.Prescribed r location) (b : Location) :
    {way | r.Leads location way b}.encard = t.preorder.countP (·.location = b) := by
  have hways : {way | r.Leads location way b} = ((t.waysTo b).toFinset : Set (List Nat)) := by
    ext way
    rw [Set.mem_ofPred_eq, Finset.mem_coe, List.mem_toFinset, h.mem_waysTo_iff]
  rw [hways, Set.encard_coe_eq_coe_finsetCard, List.toFinset_card_of_nodup (nodup_waysTo b t),
    length_waysTo]

theorem isMilestone_of_mem_tells {x : Deed} {e : Event} (h : e ∈ x.tells) :
    e.isMilestone = true := by
  cases x with
  | parameter name v => cases h
  | _ =>
    obtain rfl := List.mem_singleton.mp h
    rfl

theorem filter_isMilestone_tells (ds : List Deed) :
    (ds.flatMap Deed.tells).filter Event.isMilestone = ds.flatMap Deed.tells := by
  refine List.filter_eq_self.mpr fun e he => ?_
  obtain ⟨x, -, hx⟩ := List.mem_flatMap.mp he
  exact isMilestone_of_mem_tells hx

end Visit

namespace Loader
variable {σ : Type}

/-- Where locators are silent about documents, what a successful load tells of them is what the
tree of its visits tells. -/
theorem exists_records_of_load {l : Loader σ}
    (hquiet : ∀ specifier directory wanted,
      (l.locator specifier directory wanted).EmitsOnly fun e => e.isMilestone = false)
    {path : String} {s : Filling σ} (h : (l.load path).result s = .ok ()) :
    ∃ t : Visit, t.Prescribed l.reader (l.workingDir.join path) ∧
      ((l.load path).events s).filter Event.isMilestone = t.records := by
  obtain ⟨ds, hplan, hdoes⟩ := l.exists_does_of_load h
  obtain ⟨t, ht, rfl⟩ := Visit.exists_of_plan hplan
  refine ⟨t, ht, ?_⟩
  rw [load_eq_perform, ← hplan, hdoes.filter_events hquiet (fun _ => rfl) (fun _ _ _ => rfl),
    Visit.filter_isMilestone_tells, ht.flatMap_tells_deeds]

theorem filter_of_milestones {p : Event → Bool} (hp : ∀ {e}, p e = true → e.isMilestone = true)
    (es : List Event) : (es.filter Event.isMilestone).filter p = es.filter p := by
  rw [List.filter_filter]
  refine List.filter_congr fun e _ => ?_
  cases he : p e with
  | false => rfl
  | true => exact hp he

theorem count_read {es : List Event} {t : Visit}
    (h : es.filter Event.isRead = t.preorder.map fun v => .read v.location.text) (b : Location) :
    es.count (.read b.text) = t.preorder.countP (·.location = b) := by
  have hread : Event.isRead (.read b.text) = true := rfl
  rw [← List.count_filter hread, h, List.count, List.countP_map]
  refine List.countP_congr fun v _ => ?_
  simp [Location.text_injective.eq_iff]

/-- A successful load goes through a tree of visits: it reads them in pre-order and reports them as
compiled in post-order, with the counts of each document, and it registers the services of each
document in their order after all that is told of its imports. A document is read as often as
there are ways of import entries that lead to it, and so the one that is loaded is read once. -/
theorem load_traversal (l : Loader σ)
    (hquiet : ∀ specifier directory wanted,
      (l.locator specifier directory wanted).EmitsOnly fun e => e.isMilestone = false)
    (path : String) (s : Filling σ) (h : (l.load path).result s = .ok ()) :
    let start := l.workingDir.join path
    let events := (l.load path).events s
    ∃ t : Visit, t.Prescribed l.reader start ∧
      events.filter Event.isMilestone = t.records ∧
      events.filter Event.isRead = t.preorder.map (fun v => .read v.location.text) ∧
      events.filter Event.isCompiled = t.postorder.map (fun v =>
        .log (.compiled v.location.text v.document.parameters.size v.document.imports.length
          v.document.services.size)) ∧
      events.filter Event.isRegistered = t.postorder.flatMap (fun v =>
        v.document.services.names.map fun id => .log (.registered id)) ∧
      (∀ b, {way | l.reader.Leads start way b}.encard = events.count (.read b.text)) ∧
      events.count (.read start.text) = 1 := by
  intro start events
  obtain ⟨t, ht, hrecords⟩ := exists_records_of_load hquiet h
  have hfilter {p : Event → Bool} (hp : ∀ {e}, p e = true → e.isMilestone = true) :
      events.filter p = t.records.filter p := by
    rw [← filter_of_milestones hp, hrecords]
  have hreads : events.filter Event.isRead = t.preorder.map fun v => .read v.location.text := by
    rw [hfilter fun h => Event.isMilestone_of_told (by simp [h]), Visit.filter_isRead_records]
  have hways : ∀ b, {way | l.reader.Leads start way b}.encard = events.count (.read b.text) := by
    intro b
    rw [ht.encard_leads, count_read hreads]
  refine ⟨t, ht, hrecords, hreads, ?_, ?_, hways, ?_⟩
  · rw [hfilter fun h => Event.isMilestone_of_told (by simp [h]),
      Visit.filter_records (fun _ => rfl) fun _ => rfl]
    simp only [Visit.filter_isCompiled_ending]
    rw [List.map_eq_flatMap]
  · rw [hfilter fun h => Event.isMilestone_of_told (by simp [h]),
      Visit.filter_records (fun _ => rfl) fun _ => rfl]
    simp only [Visit.filter_isRegistered_ending]
  · -- a way back to the start would be endless, and the tree of a load has an end
    have hacc := Reader.acc_of_prescribed ht
    have hone : {way | l.reader.Leads start way start} = {[]} := by
      ext way
      rw [Set.mem_ofPred_eq, Set.mem_singleton_iff]
      exact ⟨fun hway => hway.eq_nil_of_acc hacc, fun hway => hway ▸ rfl⟩
    have hcount := hways start
    rw [hone, Set.encard_singleton] at hcount
    exact_mod_cast hcount.symm

theorem twice_traversal :
    (∀ specifier directory wanted,
      (twice.locator specifier directory wanted).EmitsOnly fun e => e.isMilestone = false) ∧
    (twice.load "/app/main.yml").result twiceStart = .ok () ∧
    ((twice.load "/app/main.yml").events twiceStart).count (.read partsPlace.text) = 2 ∧
    {way | twice.reader.Leads mainPlace way partsPlace}.encard = 2 ∧
    {way | twice.reader.Leads mainPlace way mainPlace}.encard = 1 := by
  have hplace : twice.workingDir.join "/app/main.yml" = mainPlace := by decide +kernel
  have hquiet : ∀ specifier directory wanted,
      (twice.locator specifier directory wanted).EmitsOnly fun e => e.isMilestone = false :=
    Modules.Registry.locator_emitsOnly fun _ _ => rfl
  have hparts :
      ((twice.load "/app/main.yml").events twiceStart).count (.read partsPlace.text) = 2 := by
    rw [load_eq_perform, hplace, twice_plan]
    decide +kernel
  obtain ⟨t, -, -, -, -, -, hways, hone⟩ :=
    load_traversal twice hquiet "/app/main.yml" twiceStart twice_load
  rw [hplace] at hways hone
  refine ⟨hquiet, twice_load, hparts, ?_, ?_⟩
  · rw [hways, hparts]
    rfl
  · rw [hways, hone]
    rfl

end Loader
end Wiring
