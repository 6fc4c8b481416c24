/-! Cutting text at a separator, and the inverse: joining the pieces again. -/
namespace Wiring.Text

/-- The pieces between separators, in order. There is always at least one. -/
def split (sep : Char) : List Char → List (List Char)
  | [] => [[]]
  | c :: cs =>
    if c = sep then [] :: split sep cs
    else match split sep cs with
      | [] => [[c]]
      | piece :: pieces => (c :: piece) :: pieces

def join (sep : Char) : List (List Char) → List Char
  | [] => []
  | [piece] => piece
  | piece :: pieces => piece ++ sep :: join sep pieces

theorem split_ne_nil (sep : Char) (cs : List Char) : split sep cs ≠ [] := by
  induction cs with
  | nil => simp [split]
  | cons c cs ih =>
    unfold split
    split
    · simp
    · split <;> simp

theorem join_cons_of_ne_nil (sep : Char) (piece : List Char) {pieces : List (List Char)}
    (h : pieces ≠ []) : join sep (piece :: pieces) = piece ++ sep :: join sep pieces := by
  cases pieces with
  | nil => exact absurd rfl h
  | cons => rfl

theorem join_split (sep : Char) (cs : List Char) : join sep (split sep cs) = cs := by
  induction cs with
  | nil => rfl
  | cons c cs ih =>
    unfold split
    split
    · next h => rw [join_cons_of_ne_nil _ _ (split_ne_nil sep cs), ih, h]; rfl
    · next h =>
      split
      · next e => exact absurd e (split_ne_nil sep cs)
      · next piece pieces e =>
        rw [e] at ih
        cases pieces with
        | nil => simp_all [join]
        | cons => simp_all [join]

theorem join_append (sep : Char) {pieces others : List (List Char)} (h : pieces ≠ [])
    (h' : others ≠ []) : join sep (pieces ++ others) = join sep pieces ++ sep :: join sep others := by
  induction pieces with
  | nil => exact absurd rfl h
  | cons piece pieces ih =>
    rw [List.cons_append, join_cons_of_ne_nil sep piece (by simp [h'])]
    cases pieces with
    | nil => rfl
    | cons next pieces =>
      rw [ih (by simp), join_cons_of_ne_nil sep piece (by simp), List.append_assoc, List.cons_append]

theorem toList_intercalate {sep : String} {c : Char} (h : sep.toList = [c]) (pieces : List String) :
    (sep.intercalate pieces).toList = join c (pieces.map String.toList) := by
  induction pieces with
  | nil => rfl
  | cons piece pieces ih =>
    cases pieces with
    | nil => simp [join]
    | cons next pieces =>
      rw [String.intercalate_cons_cons, String.toList_append, String.toList_append, ih, h]
      simp [join]

theorem intercalate_split {sep : String} {c : Char} (h : sep.toList = [c]) (s : String) :
    sep.intercalate ((split c s.toList).map String.ofList) = s := by
  have htexts : ((split c s.toList).map String.ofList).map String.toList = split c s.toList := by simp
  rw [← String.toList_inj, toList_intercalate h, htexts, join_split]

theorem split_append (sep : Char) (front back : List Char) :
    split sep (front ++ sep :: back) = split sep front ++ split sep back := by
  induction front with
  | nil => simp [split]
  | cons c front ih =>
    by_cases hc : c = sep
    · simp [split, hc, ih]
    · obtain ⟨piece, pieces, hsplit⟩ := List.exists_cons_of_ne_nil (split_ne_nil sep front)
      simp [split, hc, ih, hsplit]

theorem split_of_not_mem {sep : Char} {cs : List Char} (h : sep ∉ cs) : split sep cs = [cs] := by
  induction cs with
  | nil => rfl
  | cons c cs ih =>
    obtain ⟨hc, hcs⟩ := not_or.mp (mt List.mem_cons.mpr h)
    simp [split, Ne.symm hc, ih hcs]

theorem sep_not_mem_of_mem_split {sep : Char} {cs piece : List Char}
    (h : piece ∈ split sep cs) : sep ∉ piece := by
  induction cs generalizing piece with
  | nil => simp_all [split]
  | cons c cs ih =>
    unfold split at h
    split at h
    · rcases List.mem_cons.1 h with rfl | h
      · simp
      · exact ih h
    · next hc =>
      split at h
      · next e => exact absurd e (split_ne_nil sep cs)
      · next p ps e =>
        rcases List.mem_cons.1 h with rfl | h
        · have : sep ∉ p := ih (by simp [e])
          simp [Ne.symm hc, this]
        · exact ih (by simp [e, h])

theorem split_map_sep {sep other : Char} {cs : List Char} (h : other ∉ cs) :
    split other (cs.map fun c => if c = sep then other else c) = split sep cs := by
  induction cs with
  | nil => rfl
  | cons c cs ih =>
    obtain ⟨hc, hcs⟩ := not_or.mp (mt List.mem_cons.mpr h)
    rw [List.map_cons, split, split, ih hcs]
    by_cases hsep : c = sep
    · rw [if_pos hsep, if_pos rfl, if_pos hsep]
    · rw [if_neg hsep, if_neg (Ne.symm hc), if_neg hsep]

/-- What follows the last separator, or everything when there is none. -/
def afterLast (sep : Char) (cs : List Char) : List Char :=
  (split sep cs).getLast (split_ne_nil sep cs)

section AfterLast
variable {sep : Char} {cs last tail : List Char}

theorem split_eq_concat (sep : Char) (cs : List Char) :
    split sep cs = (split sep cs).dropLast ++ [afterLast sep cs] :=
  (List.dropLast_concat_getLast (split_ne_nil sep cs)).symm

theorem getLast?_split (sep : Char) (cs : List Char) :
    (split sep cs).getLast? = some (afterLast sep cs) :=
  List.getLast?_eq_some_getLast (split_ne_nil sep cs)

def FollowsLast (sep : Char) (cs last : List Char) : Prop :=
  sep ∉ last ∧ (cs = last ∨ ∃ front, cs = front ++ sep :: last)

theorem FollowsLast.split_append (h : FollowsLast sep cs last) (htail : sep ∉ tail) :
    split sep (cs ++ tail) = (split sep cs).dropLast ++ [last ++ tail] := by
  obtain ⟨hlast, rfl | ⟨front, rfl⟩⟩ := h
  · have hwhole : sep ∉ cs ++ tail := by simp [hlast, htail]
    rw [split_of_not_mem hwhole, split_of_not_mem hlast]
    rfl
  · have hpiece : sep ∉ last ++ tail := by simp [hlast, htail]
    rw [List.append_assoc, List.cons_append, Text.split_append, Text.split_append,
      split_of_not_mem hpiece, split_of_not_mem hlast, List.dropLast_concat]

theorem FollowsLast.eq_afterLast (h : FollowsLast sep cs last) : last = afterLast sep cs := by
  have hsplit := congrArg List.getLast? (h.split_append List.not_mem_nil)
  rw [List.append_nil, List.append_nil, getLast?_split, List.getLast?_concat] at hsplit
  exact (Option.some.inj hsplit).symm

theorem followsLast_afterLast (sep : Char) (cs : List Char) :
    FollowsLast sep cs (afterLast sep cs) := by
  have hlast : sep ∉ afterLast sep cs :=
    sep_not_mem_of_mem_split (List.getLast_mem (split_ne_nil sep cs))
  have hjoin : join sep ((split sep cs).dropLast ++ [afterLast sep cs]) = cs := by
    rw [← split_eq_concat, join_split]
  refine ⟨hlast, ?_⟩
  by_cases hfront : (split sep cs).dropLast = []
  · rw [hfront] at hjoin
    exact .inl hjoin.symm
  · rw [join_append sep hfront (by simp)] at hjoin
    exact .inr ⟨_, hjoin.symm⟩

theorem split_append_of_not_mem (htail : sep ∉ tail) :
    split sep (cs ++ tail) = (split sep cs).dropLast ++ [afterLast sep cs ++ tail] :=
  (followsLast_afterLast sep cs).split_append htail

end AfterLast

def startsWith (s start : String) : Bool := start.toList.isPrefixOf s.toList
def endsWith (s tail : String) : Bool := tail.toList.isSuffixOf s.toList

theorem startsWith_iff {s start : String} :
    startsWith s start = true ↔ start.toList <+: s.toList :=
  List.isPrefixOf_iff_prefix

theorem startsWith_iff_exists {s start : String} :
    startsWith s start = true ↔ ∃ tail, s = start ++ tail := by
  rw [startsWith_iff]
  constructor
  · rintro ⟨tail, htail⟩
    exact ⟨String.ofList tail, by rw [← String.toList_inj, ← htail]; simp⟩
  · rintro ⟨tail, rfl⟩
    rw [String.toList_append]
    exact List.prefix_append ..

theorem endsWith_iff {s tail : String} : endsWith s tail = true ↔ tail.toList <:+ s.toList :=
  List.isSuffixOf_iff_suffix

theorem startsWith_append {s start : String} (h : startsWith s start = true) (tail : String) :
    startsWith (s ++ tail) start = true := by
  obtain ⟨rest, rfl⟩ := startsWith_iff_exists.mp h
  exact startsWith_iff_exists.mpr ⟨rest ++ tail, String.append_assoc⟩

theorem endsWith_append (s tail : String) : endsWith (s ++ tail) tail = true := by
  rw [endsWith_iff, String.toList_append]
  exact List.suffix_append ..

end Wiring.Text
