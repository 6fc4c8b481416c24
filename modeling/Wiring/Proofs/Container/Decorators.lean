import Wiring.Proofs.Container.History

/-! The decorators of a service. They stand by priority, the highest first, and those of one
priority stand in the order of their definitions, whatever was registered before. -/
namespace Wiring

theorem filter_mergeSort {α : Type} {le : α → α → Bool} {p : α → Bool} {xs : List α}
    (trans : ∀ a b c, le a b = true → le b c = true → le a c = true)
    (total : ∀ a b, (le a b || le b a) = true) (h : (xs.filter p).Pairwise (le · ·)) :
    (xs.mergeSort le).filter p = xs.filter p := by
  have hkept : (xs.filter p).Sublist (xs.mergeSort le) :=
    List.sublist_mergeSort trans total h List.filter_sublist
  have hpart : (xs.filter p).Sublist ((xs.mergeSort le).filter p) := by
    simpa using hkept.filter p
  have hlength := ((List.mergeSort_perm xs le).filter p).length_eq
  exact (hpart.eq_of_length hlength.symm).symm

namespace Container
variable {c : Container} {id : String}

def priorityOf (c : Container) (x : String) : Int :=
  ((c.definitions.get? x).map priority).getD 0

theorem priorityOf_of_definition {x : String} {d : Definition}
    (h : c.definitions.get? x = some d) : c.priorityOf x = d.decorationPriority.getD 0 := by
  rw [priorityOf, h]
  rfl

def outranks (e f : String × Definition) : Bool := priority f.2 ≤ priority e.2

theorem outranks_iff {e f : String × Definition} :
    outranks e f = true ↔ priority f.2 ≤ priority e.2 :=
  decide_eq_true_iff

theorem outranks_trans (e f g : String × Definition) (h : outranks e f = true)
    (h' : outranks f g = true) : outranks e g = true :=
  outranks_iff.mpr (Int.le_trans (outranks_iff.mp h') (outranks_iff.mp h))

theorem outranks_total (e f : String × Definition) : (outranks e f || outranks f e) = true := by
  rw [Bool.or_eq_true, outranks_iff, outranks_iff]
  exact Int.le_total ..

def decorating (c : Container) (id : String) : List (String × Definition) :=
  c.definitions.entries.filter fun e => e.2.decoratedService = some id

theorem mem_decorating_iff {e : String × Definition} : e ∈ c.decorating id ↔
    c.definitions.get? e.1 = some e.2 ∧ e.2.decoratedService = some id := by
  rw [decorating, List.mem_filter, decide_eq_true_iff, ← Table.mem_entries_iff]

theorem decorators_perm (c : Container) (id : String) :
    (c.decorators id).Perm ((c.decorating id).map Prod.fst) :=
  (List.mergeSort_perm (c.decorating id) outranks).map Prod.fst

theorem nodup_decorators (c : Container) (id : String) : (c.decorators id).Nodup := by
  refine (c.decorators_perm id).nodup_iff.mpr ?_
  exact c.definitions.nodup.sublist (List.filter_sublist.map _)

theorem mem_decorators_iff {x : String} : x ∈ c.decorators id ↔
    ∃ d, c.definitions.get? x = some d ∧ d.decoratedService = some id := by
  rw [(c.decorators_perm id).mem_iff, List.mem_map]
  constructor
  · rintro ⟨e, he, rfl⟩
    exact ⟨e.2, mem_decorating_iff.mp he⟩
  · rintro ⟨d, hd⟩
    exact ⟨(x, d), mem_decorating_iff.mpr hd, rfl⟩

theorem priorityOf_of_mem {e : String × Definition}
    (h : e ∈ (c.decorating id).mergeSort outranks) : c.priorityOf e.1 = priority e.2 :=
  priorityOf_of_definition (mem_decorating_iff.mp (List.mem_mergeSort.mp h)).1

theorem pairwise_decorators (c : Container) (id : String) :
    (c.decorators id).Pairwise fun x y => c.priorityOf y ≤ c.priorityOf x := by
  have hsorted := List.pairwise_mergeSort outranks_trans outranks_total (c.decorating id)
  refine List.pairwise_map.mpr (hsorted.imp_of_mem fun he hf hranks => ?_)
  rw [priorityOf_of_mem he, priorityOf_of_mem hf]
  exact outranks_iff.mp hranks

/-- The decorators of one priority stand as they do among all definitions. -/
theorem filter_decorators_sublist (c : Container) (id : String) (n : Int) :
    ((c.decorators id).filter (c.priorityOf · = n)).Sublist c.definitions.names := by
  have htied : ((c.decorating id).filter fun e => priority e.2 = n).Pairwise (outranks · ·) := by
    refine List.pairwise_of_forall_mem_list fun e he f hf => outranks_iff.mpr ?_
    have he : priority e.2 = n := of_decide_eq_true (List.mem_filter.mp he).2
    have hf : priority f.2 = n := of_decide_eq_true (List.mem_filter.mp hf).2
    exact Int.le_of_eq (hf.trans he.symm)
  have hpriority : ((c.decorating id).mergeSort outranks).filter (fun e => c.priorityOf e.1 = n) =
      ((c.decorating id).mergeSort outranks).filter fun e => priority e.2 = n :=
    List.filter_congr fun e he => by rw [priorityOf_of_mem he]
  have hdecorators : (c.decorators id).filter (c.priorityOf · = n) =
      ((c.decorating id).filter fun e => priority e.2 = n).map Prod.fst := by
    rw [← filter_mergeSort outranks_trans outranks_total htied, ← hpriority]
    exact List.filter_map ..
  rw [hdecorators]
  exact (List.filter_sublist.trans List.filter_sublist).map Prod.fst

/-- After any changes of a new container, the decorators of a service are the ids whose last
registration is a definition that decorates it, each once. Their priorities never rise along the
list, and no priority counts as zero. Those of one priority stand in the order of the definitions,
which is that in which the spells began in which they are definitions now. -/
theorem decorators_ranked (dir : Option String) (xs : List Change) (id : String) :
    let c := Change.applyAll { defaultDir := dir } xs
    let registered (x : String) := lastSome? (Change.registered? x) (Change.sinceCleared xs)
    (c.decorators id).Nodup ∧
    (∀ x, x ∈ c.decorators id ↔
      ∃ d, registered x = some (.definition d) ∧ d.decoratedService = some id) ∧
    (∀ x d, registered x = some (.definition d) →
      c.priorityOf x = d.decorationPriority.getD 0) ∧
    (c.decorators id).Pairwise (fun x y => c.priorityOf y ≤ c.priorityOf x) ∧
    ∀ n : Int,
      ((c.decorators id).filter (c.priorityOf · = n)).Sublist c.definitions.names ∧
      ((c.decorators id).filter (c.priorityOf · = n)).Pairwise fun x y =>
        ∀ i j, Turn.BeginsSpell (xs.map Change.onDefinitions) x i →
          Turn.BeginsSpell (xs.map Change.onDefinitions) y j → i < j := by
  intro c registered
  have hdefinition := fun x => (Change.registered_applyAll dir xs x).2
  have hspells : Turn.Enumerates (xs.map Change.onDefinitions) c.definitions.names :=
    Change.enumerates_applyAll (fun c => c.definitions.names) Change.onDefinitions
      Change.names_definitions_apply rfl xs
  refine ⟨c.nodup_decorators id, fun x => ?_, fun x d hd => ?_, c.pairwise_decorators id,
    fun n => ⟨c.filter_decorators_sublist id n, ?_⟩⟩
  · rw [mem_decorators_iff]
    exact exists_congr fun d => and_congr_left' (hdefinition x d)
  · exact priorityOf_of_definition ((hdefinition x d).mpr hd)
  · exact hspells.sorted.sublist (c.filter_decorators_sublist id n)

/-- A decorator without a priority stands between those above zero and those below. A tie goes by
registration, and an alias in between ends that. -/
example :
    let decorator (n : Option Int) : Definition :=
      { implementation := none, decoratedService := some "mail", decorationPriority := n }
    (Change.applyAll {} [.setDefinition "late" (decorator (some (-1))),
      .setDefinition "plain" (decorator none), .setDefinition "tied" (decorator (some 0)),
      .setAlias "plain" "mail", .setDefinition "first" (decorator (some 2)),
      .setDefinition "plain" (decorator none)]).decorators "mail" =
      ["first", "tied", "plain", "late"] := by
  cbv

end Container
end Wiring
