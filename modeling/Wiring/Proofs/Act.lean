import Wiring.Act

/-! The parts of a run: its result, its events and the state after it. Sequencing is seen through
them, so that what follows never opens `bind`. -/
namespace Wiring

/-- A service was registered or a document compiled. -/
def Event.isClosing : Event → Bool
  | .log (.registered _) | .log (.compiled ..) => true
  | _ => false

namespace Traced
variable {α β : Type}

@[simp] theorem result_pure (a : α) : (pure a : Traced α).result = .ok a := rfl

@[simp] theorem result_fail (e : Failure) : (fail e : Traced α).result = .error e := rfl

@[simp] theorem result_emit (e : Event) : (emit e).result = .ok () := rfl

theorem result_bind (x : Traced α) (f : α → Traced β) :
    (x >>= f).result = x.result.bind fun a => (f a).result := by
  show (bind x f).result = _
  unfold bind
  cases x.result <;> rfl

theorem bind_eq_ok_iff {x : Traced α} {f : α → Traced β} {b : β} :
    (x >>= f).result = .ok b ↔ ∃ a, x.result = .ok a ∧ (f a).result = .ok b := by
  rw [result_bind]
  cases x.result <;> simp [Except.bind]

theorem bind_eq_error_iff {x : Traced α} {f : α → Traced β} {e : Failure} :
    (x >>= f).result = .error e ↔
      x.result = .error e ∨ ∃ a, x.result = .ok a ∧ (f a).result = .error e := by
  rw [result_bind]
  cases x.result <;> simp [Except.bind]

theorem map_eq_ok_iff {f : α → β} {x : Traced α} {b : β} :
    (f <$> x).result = .ok b ↔ ∃ a, x.result = .ok a ∧ f a = b := by
  rw [← bind_pure_comp, bind_eq_ok_iff]
  simp

def FailsOnly (P : Failure → Prop) (x : Traced α) : Prop := ∀ e, x.result = .error e → P e

variable {P : Failure → Prop}

structure Within (P : Failure → Prop) (Q : Event → Prop) (x : Traced α) : Prop where
  failsOnly : x.FailsOnly P
  emitsOnly : ∀ e ∈ x.events, Q e

variable {Q : Event → Prop}

theorem mem_events_bind {x : Traced α} {f : α → Traced β} {e : Event}
    (h : e ∈ (x >>= f).events) : e ∈ x.events ∨ ∃ a, e ∈ (f a).events := by
  change e ∈ (bind x f).events at h
  unfold bind at h
  split at h
  · exact .inl h
  · next a _ => exact (List.mem_append.mp h).imp_right fun h => ⟨a, h⟩

theorem Within.pure (a : α) : Within P Q (Pure.pure a : Traced α) where
  failsOnly _ := nofun
  emitsOnly _ := nofun

theorem Within.fail {e : Failure} (he : P e) : Within P Q (Traced.fail e : Traced α) where
  failsOnly e' h := by
    cases h
    exact he
  emitsOnly _ := nofun

theorem Within.emit {e : Event} (he : Q e) : Within P Q (Traced.emit e) where
  failsOnly _ := nofun
  emitsOnly e' h := by
    obtain rfl := List.mem_singleton.mp h
    exact he

theorem Within.bind {x : Traced α} {f : α → Traced β} (hx : x.Within P Q)
    (hf : ∀ a, (f a).Within P Q) : (x >>= f).Within P Q where
  failsOnly e h := by
    obtain h | ⟨a, -, h⟩ := bind_eq_error_iff.mp h
    · exact hx.failsOnly e h
    · exact (hf a).failsOnly e h
  emitsOnly e h := by
    obtain h | ⟨a, h⟩ := mem_events_bind h
    · exact hx.emitsOnly e h
    · exact (hf a).emitsOnly e h

theorem Within.map {x : Traced α} (f : α → β) (hx : x.Within P Q) : (f <$> x).Within P Q := by
  rw [← bind_pure_comp]
  exact hx.bind fun a => .pure (f a)

def SimulatedBy (x y : Traced α) : Prop := ∀ a, x.result = .ok a → y.result = .ok a

theorem SimulatedBy.refl (x : Traced α) : x.SimulatedBy x := fun _ h => h

theorem SimulatedBy.bind {x y : Traced α} {f g : α → Traced β} (hxy : x.SimulatedBy y)
    (hfg : ∀ a, (f a).SimulatedBy (g a)) : (x >>= f).SimulatedBy (y >>= g) := by
  intro b h
  obtain ⟨a, ha, hb⟩ := bind_eq_ok_iff.mp h
  exact bind_eq_ok_iff.mpr ⟨a, hxy a ha, hfg a b hb⟩

theorem SimulatedBy.map {x y : Traced α} (f : α → β) (hxy : x.SimulatedBy y) :
    (f <$> x).SimulatedBy (f <$> y) := by
  intro b h
  obtain ⟨a, ha, rfl⟩ := map_eq_ok_iff.mp h
  exact map_eq_ok_iff.mpr ⟨a, hxy a ha, rfl⟩

end Traced

namespace Act
variable {σ α β : Type}

def result (x : Act σ α) (s : σ) : Except Failure α := (x s).1.result

def after (x : Act σ α) (s : σ) : σ := (x s).2

def events (x : Act σ α) (s : σ) : List Event := (x s).1.events

@[simp] theorem result_pure (a : α) (s : σ) : (pure a : Act σ α).result s = .ok a := rfl

@[simp] theorem after_pure (a : α) (s : σ) : (pure a : Act σ α).after s = s := rfl

@[simp] theorem result_fail (e : Failure) (s : σ) : (fail e : Act σ α).result s = .error e := rfl

@[simp] theorem after_fail (e : Failure) (s : σ) : (fail e : Act σ α).after s = s := rfl

@[simp] theorem result_emit (e : Event) (s : σ) : (emit e).result s = .ok () := rfl

@[simp] theorem after_emit (e : Event) (s : σ) : (emit e).after s = s := rfl

@[simp] theorem result_log (r : LogRecord) (s : σ) : (log r).result s = .ok () := rfl

@[simp] theorem after_log (r : LogRecord) (s : σ) : (log r).after s = s := rfl

@[simp] theorem result_get (s : σ) : get.result s = .ok s := rfl

@[simp] theorem after_get (s : σ) : get.after s = s := rfl

@[simp] theorem result_update (f : σ → σ) (s : σ) : (update f).result s = .ok () := rfl

@[simp] theorem after_update (f : σ → σ) (s : σ) : (update f).after s = f s := rfl

@[simp] theorem result_lift (x : Traced α) (s : σ) : (liftM x : Act σ α).result s = x.result := rfl

@[simp] theorem after_lift (x : Traced α) (s : σ) : (liftM x : Act σ α).after s = s := rfl

theorem result_bind (x : Act σ α) (f : α → Act σ β) (s : σ) :
    (x >>= f).result s = (x.result s).bind fun a => (f a).result (x.after s) := by
  show ((bind x f) s).1.result = ((x s).1.result).bind fun a => ((f a) (x s).2).1.result
  unfold bind
  obtain ⟨⟨r, es⟩, s'⟩ := x s
  cases r <;> rfl

theorem after_bind_ok {x : Act σ α} {f : α → Act σ β} {s : σ} {a : α} (h : x.result s = .ok a) :
    (x >>= f).after s = (f a).after (x.after s) := by
  show ((bind x f) s).2 = ((f a) (x s).2).2
  have h' : (x s).1.result = .ok a := h
  unfold bind
  rcases hx : x s with ⟨⟨r, es⟩, s'⟩
  rw [hx] at h'
  cases h'
  rfl

theorem after_bind_error {x : Act σ α} {f : α → Act σ β} {s : σ} {e : Failure}
    (h : x.result s = .error e) : (x >>= f).after s = x.after s := by
  show ((bind x f) s).2 = (x s).2
  have h' : (x s).1.result = .error e := h
  unfold bind
  rcases hx : x s with ⟨⟨r, es⟩, s'⟩
  rw [hx] at h'
  cases h'
  rfl

theorem events_bind_ok {x : Act σ α} {f : α → Act σ β} {s : σ} {a : α} (h : x.result s = .ok a) :
    (x >>= f).events s = x.events s ++ (f a).events (x.after s) := by
  show ((bind x f) s).1.events = (x s).1.events ++ ((f a) (x s).2).1.events
  have h' : (x s).1.result = .ok a := h
  unfold bind
  rcases hx : x s with ⟨⟨r, es⟩, s'⟩
  rw [hx] at h'
  cases h'
  rfl

theorem events_bind_error {x : Act σ α} {f : α → Act σ β} {s : σ} {e : Failure}
    (h : x.result s = .error e) : (x >>= f).events s = x.events s := by
  show ((bind x f) s).1.events = (x s).1.events
  have h' : (x s).1.result = .error e := h
  unfold bind
  rcases hx : x s with ⟨⟨r, es⟩, s'⟩
  rw [hx] at h'
  cases h'
  rfl

theorem bind_eq_ok_iff {x : Act σ α} {f : α → Act σ β} {s : σ} {b : β} :
    (x >>= f).result s = .ok b ↔ ∃ a, x.result s = .ok a ∧ (f a).result (x.after s) = .ok b := by
  rw [result_bind]
  cases x.result s <;> simp [Except.bind]

theorem bind_eq_error_iff {x : Act σ α} {f : α → Act σ β} {s : σ} {e : Failure} :
    (x >>= f).result s = .error e ↔
      x.result s = .error e ∨ ∃ a, x.result s = .ok a ∧ (f a).result (x.after s) = .error e := by
  rw [result_bind]
  cases x.result s <;> simp [Except.bind]

theorem map_eq_ok_iff {f : α → β} {x : Act σ α} {s : σ} {b : β} :
    (f <$> x).result s = .ok b ↔ ∃ a, x.result s = .ok a ∧ f a = b := by
  rw [← bind_pure_comp, bind_eq_ok_iff]
  simp

theorem map_eq_error_iff {f : α → β} {x : Act σ α} {s : σ} {e : Failure} :
    (f <$> x).result s = .error e ↔ x.result s = .error e := by
  rw [← bind_pure_comp, bind_eq_error_iff]
  simp

theorem get_bind_apply (f : σ → Act σ β) (s : σ) : (get >>= f) s = f s s := rfl

theorem ok_bind_apply (a : α) (f : α → Act σ β) (s : σ) :
    ((liftM (Traced.ofExcept (.ok a)) : Act σ α) >>= f) s = f a s := rfl

theorem result_map (f : α → β) (x : Act σ α) (s : σ) :
    (f <$> x).result s = (x.result s).map f := by
  rw [← bind_pure_comp, result_bind]
  cases x.result s <;> rfl

theorem after_map (f : α → β) (x : Act σ α) (s : σ) : (f <$> x).after s = x.after s := by
  rw [← bind_pure_comp]
  cases h : x.result s with
  | error e => rw [after_bind_error h]
  | ok a => rw [after_bind_ok h, after_pure]

theorem map_apply (f : α → β) (x : Act σ α) (s : σ) :
    (f <$> x) s = (⟨(x.result s).map f, x.events s⟩, x.after s) := by
  show bind x (fun a => pure (f a)) s = _
  unfold bind result events after
  rcases x s with ⟨⟨r, es⟩, s'⟩
  cases r with
  | error e => rfl
  | ok a =>
    show (⟨.ok (f a), es ++ []⟩, s') = ((⟨.ok (f a), es⟩, s') : Traced β × σ)
    rw [List.append_nil]

theorem discard_eq_error_iff {x : Act σ α} {s s' : σ} {e : Failure} {es : List Event} :
    ((fun _ => ()) <$> x) s = (⟨.error e, es⟩, s') ↔ x s = (⟨.error e, es⟩, s') := by
  rw [map_apply]
  unfold result events after
  rcases x s with ⟨⟨r, es'⟩, t⟩
  cases r <;> simp [Except.map]

theorem discard_eq_ok_iff {x : Act σ α} {s s' : σ} {es : List Event} :
    ((fun _ => ()) <$> x) s = (⟨.ok (), es⟩, s') ↔ ∃ a, x s = (⟨.ok a, es⟩, s') := by
  rw [map_apply]
  unfold result events after
  rcases x s with ⟨⟨r, es'⟩, t⟩
  cases r <;> simp [Except.map]

theorem bind_apply_ok {x : Act σ α} {f : α → Act σ β} {s s' : σ} {a : α} {es : List Event}
    (h : x s = (⟨.ok a, es⟩, s')) :
    (x >>= f) s = (⟨(f a).result s', es ++ (f a).events s'⟩, (f a).after s') := by
  show bind x f s = _
  rw [bind, h]
  rfl

theorem bind_apply_error {x : Act σ α} {f : α → Act σ β} {s s' : σ} {e : Failure}
    {es : List Event} (h : x s = (⟨.error e, es⟩, s')) : (x >>= f) s = (⟨.error e, es⟩, s') := by
  show bind x f s = _
  rw [bind, h]

theorem lift_bind (x : Traced α) (f : α → Traced β) :
    (liftM (x >>= f) : Act σ β) = liftM x >>= fun a => liftM (f a) := by
  funext s
  show (Traced.bind x f, s) = bind (fun s => (x, s)) (fun a s => (f a, s)) s
  unfold Traced.bind bind
  obtain ⟨r, es⟩ := x
  cases r <;> rfl

theorem lift_map (f : α → β) (x : Traced α) : (liftM (f <$> x) : Act σ β) = f <$> liftM x := by
  rw [← bind_pure_comp, lift_bind, ← bind_pure_comp]
  rfl

def FailsOnly (P : Failure → Prop) (x : Act σ α) : Prop := ∀ s e, x.result s = .error e → P e

variable {P : Failure → Prop}

def EmitsOnly (Q : Event → Prop) (x : Act σ α) : Prop := ∀ s, ∀ e ∈ x.events s, Q e

/-- Every failure of the computation has the one property, and every event the other. -/
structure Within (P : Failure → Prop) (Q : Event → Prop) (x : Act σ α) : Prop where
  failsOnly : x.FailsOnly P
  emitsOnly : x.EmitsOnly Q

variable {Q : Event → Prop}

theorem FailsOnly.within {x : Act σ α} (h : x.FailsOnly P) : x.Within P fun _ => True :=
  ⟨h, fun _ _ _ => trivial⟩

theorem EmitsOnly.within {x : Act σ α} (h : x.EmitsOnly Q) : x.Within (fun _ => True) Q :=
  ⟨fun _ _ _ => trivial, h⟩

theorem Within.pure (a : α) : Within P Q (Pure.pure a : Act σ α) where
  failsOnly _ _ := nofun
  emitsOnly _ _ := nofun

theorem Within.fail {e : Failure} (he : P e) : Within P Q (Act.fail e : Act σ α) where
  failsOnly s e' h := by
    cases h
    exact he
  emitsOnly _ _ := nofun

theorem Within.emit {e : Event} (he : Q e) : Within P Q (Act.emit e : Act σ Unit) where
  failsOnly _ _ := nofun
  emitsOnly s e' h := by
    obtain rfl := List.mem_singleton.mp h
    exact he

theorem Within.get : Within P Q (Act.get : Act σ σ) where
  failsOnly _ _ := nofun
  emitsOnly _ _ := nofun

theorem Within.lift {x : Traced α} (hx : x.Within P Q) : Within P Q (liftM x : Act σ α) :=
  ⟨fun _ e h => hx.failsOnly e h, fun _ e h => hx.emitsOnly e h⟩

theorem Within.bind {x : Act σ α} {f : α → Act σ β} (hx : x.Within P Q)
    (hf : ∀ a, (f a).Within P Q) : (x >>= f).Within P Q where
  failsOnly s e h := by
    obtain h | ⟨a, -, h⟩ := bind_eq_error_iff.mp h
    · exact hx.failsOnly s e h
    · exact (hf a).failsOnly _ e h
  emitsOnly s e h := by
    cases hs : x.result s with
    | error _ =>
      rw [events_bind_error hs] at h
      exact hx.emitsOnly s e h
    | ok a =>
      rw [events_bind_ok hs] at h
      obtain h | h := List.mem_append.mp h
      · exact hx.emitsOnly s e h
      · exact (hf a).emitsOnly _ e h

theorem Within.map {x : Act σ α} (f : α → β) (hx : x.Within P Q) : (f <$> x).Within P Q := by
  rw [← bind_pure_comp]
  exact hx.bind fun a => .pure (f a)

theorem bind_apply_congr {x y : Act σ α} {f g : α → Act σ β} {s : σ} (hxy : x s = y s)
    (hfg : ∀ a, x.result s = .ok a → f a (x.after s) = g a (x.after s)) :
    (x >>= f) s = (y >>= g) s := by
  show bind x f s = bind y g s
  unfold bind
  rw [← hxy]
  rcases hx : x s with ⟨⟨r, es⟩, s'⟩
  cases r with
  | error e => rfl
  | ok a =>
    have hnext := hfg a (by rw [result, hx])
    rw [after, hx] at hnext
    simp only [hnext]

/-- Two computations run alike, unless the first ends in a failure with a property. -/
def AgreesBut (P : Failure → Prop) (x y : Act σ α) : Prop :=
  ∀ s, (∃ e, P e ∧ x.result s = .error e) ∨ x s = y s

theorem AgreesBut.refl (x : Act σ α) : AgreesBut P x x := fun _ => .inr rfl

theorem AgreesBut.bind {x y : Act σ α} {f g : α → Act σ β} (hxy : AgreesBut P x y)
    (hfg : ∀ a, AgreesBut P (f a) (g a)) : AgreesBut P (x >>= f) (y >>= g) := by
  intro s
  obtain ⟨e, he, hx⟩ | hxy := hxy s
  · exact .inl ⟨e, he, bind_eq_error_iff.mpr (.inl hx)⟩
  · cases hx : x.result s with
    | error e => exact .inr (bind_apply_congr hxy fun a ha => by rw [hx] at ha; cases ha)
    | ok a =>
      obtain ⟨e, he, hf⟩ | hfg := hfg a (x.after s)
      · exact .inl ⟨e, he, bind_eq_error_iff.mpr (.inr ⟨a, hx, hf⟩)⟩
      · refine .inr (bind_apply_congr hxy fun b hb => ?_)
        rw [hx] at hb
        cases hb
        exact hfg

/-- Where the first computation succeeds, the second does so from every related state, with the
same result, and leaves related states. -/
def SimulatedBy (R : σ → σ → Prop) (x y : Act σ α) : Prop :=
  ∀ s t, R s t → ∀ a, x.result s = .ok a → y.result t = .ok a ∧ R (x.after s) (y.after t)

variable {R : σ → σ → Prop}

theorem SimulatedBy.pure (a : α) : SimulatedBy R (Pure.pure a) (Pure.pure a) :=
  fun _ _ hR _ h => ⟨h, hR⟩

theorem SimulatedBy.fail (e : Failure) : SimulatedBy R (Act.fail e : Act σ α) (Act.fail e) := by
  intro s t hR a h
  cases h

theorem SimulatedBy.emit (e : Event) : SimulatedBy R (Act.emit e) (Act.emit e) :=
  fun _ _ hR _ h => ⟨h, hR⟩

theorem SimulatedBy.lift {x y : Traced α} (hxy : x.SimulatedBy y) :
    SimulatedBy R (liftM x) (liftM y) :=
  fun _ _ hR a h => ⟨hxy a h, hR⟩

theorem SimulatedBy.bind {x y : Act σ α} {f g : α → Act σ β} (hxy : SimulatedBy R x y)
    (hfg : ∀ a, SimulatedBy R (f a) (g a)) : SimulatedBy R (x >>= f) (y >>= g) := by
  intro s t hR b h
  obtain ⟨a, ha, hb⟩ := bind_eq_ok_iff.mp h
  obtain ⟨ha', hR'⟩ := hxy s t hR a ha
  obtain ⟨hb', hR''⟩ := hfg a _ _ hR' b hb
  rw [after_bind_ok ha, after_bind_ok ha']
  exact ⟨bind_eq_ok_iff.mpr ⟨a, ha', hb'⟩, hR''⟩

theorem SimulatedBy.map {x y : Act σ α} (f : α → β) (hxy : SimulatedBy R x y) :
    SimulatedBy R (f <$> x) (f <$> y) := by
  rw [← bind_pure_comp, ← bind_pure_comp]
  exact .bind hxy fun a => .pure (f a)

end Act
end Wiring
