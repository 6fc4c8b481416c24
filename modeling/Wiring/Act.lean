import Wiring.Event
import Wiring.Failure

/-! Computations that may fail and that leave a trace of events, without and with a state. What
was done before a failure stays done: the trace and the state up to there are kept. -/
namespace Wiring

structure Traced (α : Type) where
  result : Except Failure α
  events : List Event := []

namespace Traced
variable {α β γ : Type}

def bind (x : Traced α) (f : α → Traced β) : Traced β :=
  match x.result with
  | .error e => ⟨.error e, x.events⟩
  | .ok a => ⟨(f a).result, x.events ++ (f a).events⟩

instance : Monad Traced where
  pure a := ⟨.ok a, []⟩
  bind := bind

instance : LawfulMonad Traced := LawfulMonad.mk' _
  (fun x => by
    obtain ⟨r, es⟩ := x
    cases r <;> simp [Functor.map, bind])
  (fun a f => by simp [Bind.bind, bind, Pure.pure])
  (fun x f g => by
    obtain ⟨r, es⟩ := x
    cases r with
    | error => rfl
    | ok a =>
      simp only [Bind.bind, bind]
      cases (f a).result <;> simp)

def fail (e : Failure) : Traced α := ⟨.error e, []⟩
def emit (e : Event) : Traced Unit := ⟨.ok (), [e]⟩
def ofExcept (x : Except Failure α) : Traced α := ⟨x, []⟩

end Traced

def Act (σ α : Type) := σ → Traced α × σ

namespace Act
variable {σ α β : Type}

def bind (x : Act σ α) (f : α → Act σ β) : Act σ β := fun s =>
  match x s with
  | (⟨.error e, es⟩, s) => (⟨.error e, es⟩, s)
  | (⟨.ok a, es⟩, s) =>
    let (t, s) := f a s
    (⟨t.result, es ++ t.events⟩, s)

instance : Monad (Act σ) where
  pure a := fun s => (⟨.ok a, []⟩, s)
  bind := bind

instance : LawfulMonad (Act σ) := LawfulMonad.mk' _
  (fun x => by
    funext s
    simp only [Functor.map, bind]
    rcases x s with ⟨⟨r, es⟩, s⟩
    cases r with
    | error => rfl
    | ok a =>
      show (⟨.ok a, es ++ []⟩, s) = ((⟨.ok a, es⟩, s) : Traced _ × σ)
      rw [List.append_nil])
  (fun a f => by funext s; simp [Bind.bind, bind, Pure.pure])
  (fun x f g => by
    funext s
    simp only [Bind.bind, bind]
    rcases x s with ⟨⟨r, es⟩, s⟩
    cases r with
    | error => rfl
    | ok a =>
      simp only
      rcases f a s with ⟨⟨r, es⟩, s⟩
      cases r <;> simp)

instance : MonadLift Traced (Act σ) where
  monadLift x := fun s => (x, s)

def fail (e : Failure) : Act σ α := fun s => (⟨.error e, []⟩, s)
def emit (e : Event) : Act σ Unit := fun s => (⟨.ok (), [e]⟩, s)
def log (r : LogRecord) : Act σ Unit := emit (.log r)
def get : Act σ σ := fun s => (⟨.ok s, []⟩, s)
def update (f : σ → σ) : Act σ Unit := fun s => (⟨.ok (), []⟩, f s)

end Act
end Wiring
