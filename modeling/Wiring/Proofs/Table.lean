import Wiring.Proofs.Lists
import Wiring.Table

/-! Looking names up in tables that were made from other tables or from lists of entries. -/
namespace Wiring
namespace Table
variable {β γ : Type}

@[simp] theorem get?_empty (name : String) : (∅ : Table β).get? name = none := rfl

theorem forall_get?_set {P : String → β → Prop} {t : Table β} {name : String} {b : β}
    (h : ∀ other c, t.get? other = some c → P other c) (hb : P name b) :
    ∀ other c, (t.set name b).get? other = some c → P other c := by
  intro other c hc
  rw [get?_set] at hc
  split at hc
  · next hother =>
    obtain rfl := Option.some.inj hc
    rwa [hother]
  · exact h other c hc

theorem find_eq_none {name : String} {es : List (String × β)} (h : name ∉ es.map Prod.fst) :
    find name es = none := by
  cases hf : find name es with
  | none => rfl
  | some b => exact absurd (mem_names_of_find hf) h

theorem mem_of_find {name : String} {b : β} {es : List (String × β)} (h : find name es = some b) :
    (name, b) ∈ es := by
  induction es with
  | nil => simp [find] at h
  | cons e es ih =>
    unfold find at h
    split at h
    · next he =>
      cases h
      exact he ▸ List.mem_cons_self ..
    · exact List.mem_cons_of_mem _ (ih h)

theorem find_of_mem {name : String} {b : β} {es : List (String × β)} (hn : (es.map Prod.fst).Nodup)
    (h : (name, b) ∈ es) : find name es = some b := by
  induction es with
  | nil => simp at h
  | cons e es ih =>
    obtain ⟨hnot, hn⟩ := List.nodup_cons.mp hn
    obtain rfl | h := List.mem_cons.mp h
    · simp [find]
    · have hne : e.1 ≠ name := fun heq => hnot (heq ▸ List.mem_map_of_mem h)
      rw [find, if_neg hne, ih hn h]

theorem mem_entries_iff {t : Table β} {name : String} {b : β} :
    (name, b) ∈ t.entries ↔ t.get? name = some b :=
  ⟨find_of_mem t.nodup, mem_of_find⟩

theorem mem_names_iff {t : Table β} {name : String} :
    name ∈ t.names ↔ ∃ b, t.get? name = some b := by
  refine ⟨fun h => ?_, fun ⟨b, hb⟩ => mem_names_of_get? hb⟩
  obtain ⟨⟨_, b⟩, he, rfl⟩ := List.mem_map.mp h
  exact ⟨b, mem_entries_iff.mp he⟩

theorem contains_iff {t : Table β} {name : String} :
    t.contains name = true ↔ ∃ b, t.get? name = some b :=
  Option.isSome_iff_exists

theorem contains_iff_mem_names {t : Table β} {name : String} :
    t.contains name = true ↔ name ∈ t.names :=
  contains_iff.trans mem_names_iff.symm

theorem lastSome?_entries (t : Table β) (name : String) :
    lastSome? (fun e => if e.1 = name then some e.2 else none) t.entries = t.get? name := by
  obtain ⟨es, hn⟩ := t
  show lastSome? _ es = find name es
  induction es with
  | nil => rfl
  | cons e es ih =>
    have hnot := (List.nodup_cons.mp hn).1
    rw [lastSome?_cons, ih (List.nodup_cons.mp hn).2]
    by_cases he : e.1 = name
    · subst he
      simp [find, find_eq_none hnot]
    · simp [find, he]

theorem get?_map (f : β → γ) (t : Table β) (name : String) :
    (t.map f).get? name = (t.get? name).map f := by
  obtain ⟨es, hn⟩ := t
  show find name (es.map fun e => (e.1, f e.2)) = (find name es).map f
  induction es with
  | nil => rfl
  | cons e es ih =>
    have htail := ih (List.nodup_cons.mp hn).2
    by_cases he : e.1 = name
    · simp [find, he]
    · simp [find, he, htail]

theorem names_map (f : β → γ) (t : Table β) : (t.map f).names = t.names := by
  simp [names, map, Function.comp_def]

theorem exists_of_map_entries {t : Table β} {es : List (String × β × γ)}
    (h : es.map (fun e => (e.1, e.2.1)) = t.entries) :
    ∃ u : Table (β × γ), u.entries = es ∧ u.map Prod.fst = t := by
  obtain ⟨ts, hn⟩ := t
  obtain rfl : es.map (fun e => (e.1, e.2.1)) = ts := h
  exact ⟨⟨es, by simpa [Function.comp_def] using hn⟩, rfl, rfl⟩

theorem get?_foldl_set (es : List (String × β)) (t : Table β) (name : String) :
    (es.foldl (fun t e => t.set e.1 e.2) t).get? name =
      (lastSome? (fun e => if e.1 = name then some e.2 else none) es).or (t.get? name) := by
  induction es generalizing t with
  | nil => rfl
  | cons e es ih =>
    rw [List.foldl_cons, ih, get?_set, lastSome?_cons, Option.or_assoc]
    congr 1
    by_cases he : e.1 = name
    · simp [he]
    · simp [he, Ne.symm he]

theorem get?_ofList_eq_lastSome? (es : List (String × β)) (name : String) :
    (ofList es).get? name = lastSome? (fun e => if e.1 = name then some e.2 else none) es := by
  show (es.foldl (fun t e => t.set e.1 e.2) empty).get? name = _
  rw [get?_foldl_set]
  exact Option.or_none ..

theorem get?_ofList {es : List (String × β)} (hn : (es.map Prod.fst).Nodup) (name : String) :
    (ofList es).get? name = find name es := by
  rw [get?_ofList_eq_lastSome?]
  exact lastSome?_entries ⟨es, hn⟩ name

theorem putEntry_of_not_mem {name : String} {es : List (String × β)}
    (h : name ∉ es.map Prod.fst) (b : β) : putEntry name b es = es ++ [(name, b)] := by
  induction es with
  | nil => rfl
  | cons e es ih =>
    rw [List.map_cons, List.mem_cons, not_or] at h
    rw [putEntry, if_neg (Ne.symm h.1), ih h.2, List.cons_append]

theorem entries_ofList {es : List (String × β)} (hn : (es.map Prod.fst).Nodup) :
    (ofList es).entries = es := by
  have hfold : ∀ t : Table β, ((t.entries ++ es).map Prod.fst).Nodup →
      (es.foldl (fun t e => t.set e.1 e.2) t).entries = t.entries ++ es := by
    clear hn
    induction es with
    | nil => simp
    | cons e es ih =>
      intro t hn
      have hnew : e.1 ∉ t.entries.map Prod.fst := by
        intro he
        rw [List.map_append, List.nodup_append] at hn
        exact hn.2.2 e.1 he e.1 (by simp) rfl
      have hset : (t.set e.1 e.2).entries = t.entries ++ [e] := putEntry_of_not_mem hnew e.2
      rw [List.foldl_cons, ih (t.set e.1 e.2) (by rw [hset]; simpa using hn), hset]
      simp
  exact hfold empty hn

theorem ofList_entries (t : Table β) : ofList t.entries = t := by
  have hentries := entries_ofList t.nodup
  cases h : ofList t.entries
  cases t
  congr
  rwa [h] at hentries

variable {R : β → γ → Prop} {es : List (String × β)} {fs : List (String × γ)}

theorem map_fst_of_forall₂ (h : List.Forall₂ (fun e f => f.1 = e.1 ∧ R e.2 f.2) es fs) :
    fs.map Prod.fst = es.map Prod.fst := by
  induction h with
  | nil => rfl
  | cons hr _ ih => rw [List.map_cons, List.map_cons, hr.1, ih]

theorem exists_find_of_forall₂ (h : List.Forall₂ (fun e f => f.1 = e.1 ∧ R e.2 f.2) es fs)
    {name : String} {b : β} (hb : find name es = some b) : ∃ c, find name fs = some c ∧ R b c := by
  induction h with
  | nil => simp [find] at hb
  | @cons e f es fs hr _ ih =>
    obtain ⟨hname, hrel⟩ := hr
    by_cases he : e.1 = name
    · obtain rfl : e.2 = b := by simpa [find, he] using hb
      exact ⟨f.2, by simp [find, hname, he], hrel⟩
    · obtain ⟨c, hc, hbc⟩ := ih (by simpa [find, he] using hb)
      exact ⟨c, by simpa [find, hname, he] using hc, hbc⟩

theorem exists_get?_of_forall₂ {t : Table β}
    (h : List.Forall₂ (fun e f => f.1 = e.1 ∧ R e.2 f.2) t.entries fs) {name : String} {b : β}
    (hb : t.get? name = some b) : ∃ c, (ofList fs).get? name = some c ∧ R b c := by
  have hnames : (fs.map Prod.fst).Nodup := by
    rw [map_fst_of_forall₂ h]
    exact t.nodup
  rw [get?_ofList hnames]
  exact exists_find_of_forall₂ h hb

end Table
end Wiring
