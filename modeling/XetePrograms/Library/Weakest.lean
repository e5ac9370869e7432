import Mathlib.Logic.Basic
import Mathlib.Data.List.Basic
import Mathlib.Tactic.Common

/-!
# Preconditions of programs that fail and keep their state

`wp x Q F m` says that `x`, started in `m`, either returns a value and a state
in `Q` or fails in a state in `F`. Choosing `F` gives the three judgements used
of one program: partial correctness (`F` holds everywhere), success (`F` holds
nowhere), and a property of every state reached, also by failing runs.
-/

set_option autoImplicit false

namespace Xete.Weakest

universe u
variable {ε σ α β : Type u}

def wp (x : EStateM ε σ α) (Q : α → σ → Prop) (F : σ → Prop) (m : σ) : Prop :=
  match x m with
  | .ok a m' => Q a m'
  | .error _ m' => F m'

/-- The early return of a failed check. -/
def failIf {ε σ : Type} (c : Prop) [Decidable c] (e : ε) : EStateM ε σ Unit :=
  if c then throw e else pure ()

variable {Q : β → σ → Prop} {F : σ → Prop} {m : σ}

@[simp] theorem wp_pure (b : β) : wp (pure b : EStateM ε σ β) Q F m ↔ Q b m := Iff.rfl

@[simp] theorem wp_throw (e : ε) : wp (throw e : EStateM ε σ β) Q F m ↔ F m := Iff.rfl

@[simp] theorem wp_bind (x : EStateM ε σ α) (f : α → EStateM ε σ β) :
    wp (x >>= f) Q F m ↔ wp x (fun a => wp (f a) Q F) F m := by
  simp only [wp, bind, EStateM.bind]
  cases x m <;> rfl

theorem wp_seq {x : EStateM ε σ α} {f : α → EStateM ε σ β}
    (h : wp x (fun a => wp (f a) Q F) F m) : wp (x >>= f) Q F m := (wp_bind x f).mpr h

@[simp] theorem wp_map (x : EStateM ε σ α) (f : α → β) :
    wp (f <$> x) Q F m ↔ wp x (fun a => Q (f a)) F m := by
  simp only [wp, Functor.map, EStateM.map]
  cases x m <;> rfl

@[simp] theorem wp_get {Q : σ → σ → Prop} : wp (get : EStateM ε σ σ) Q F m ↔ Q m m := Iff.rfl

@[simp] theorem wp_failIf {ε σ : Type} {F : σ → Prop} {m : σ} (c : Prop) [Decidable c] (e : ε)
    {Q : Unit → σ → Prop} :
    wp (failIf c e : EStateM ε σ Unit) Q F m ↔ (¬c → Q () m) ∧ (c → F m) := by
  unfold failIf
  split <;> rename_i h <;> simp [h]

/-- A check of a computation that must succeed. -/
theorem total_failIf {ε σ : Type} {m : σ} (c : Prop) [Decidable c] (e : ε) {Q : Unit → σ → Prop} :
    wp (failIf c e : EStateM ε σ Unit) Q (fun _ => False) m ↔ ¬c ∧ Q () m := by
  rw [wp_failIf]
  tauto

theorem wp_ite (c : Prop) [Decidable c] (x y : EStateM ε σ β) :
    wp (if c then x else y) Q F m ↔ (c → wp x Q F m) ∧ (¬c → wp y Q F m) := by
  split <;> rename_i h <;> simp [h]

theorem wp_mono {Q' : β → σ → Prop} {F' : σ → Prop} {x : EStateM ε σ β} (h : wp x Q F m)
    (hQ : ∀ b s, Q b s → Q' b s) (hF : ∀ s, F s → F' s) : wp x Q' F' m := by
  unfold wp at *
  cases hx : x m <;> rw [hx] at h <;> first | exact hQ _ _ h | exact hF _ h

theorem wp_of_forall {x : EStateM ε σ β} (hQ : ∀ b s, Q b s) (hF : ∀ s, F s) : wp x Q F m := by
  unfold wp
  cases x m <;> first | exact hQ _ _ | exact hF _

/-- Partial correctness, read at a run that returned. -/
theorem wp_ok {x : EStateM ε σ β} (h : wp x Q (fun _ => True) m) {b : β} {m' : σ}
    (hx : x m = .ok b m') : Q b m' := by
  unfold wp at h
  rwa [hx] at h

theorem ok_iff (x : EStateM ε σ β) (b : β) (m' : σ) :
    x m = .ok b m' ↔ wp x (fun b' s => b' = b ∧ s = m') (fun _ => False) m := by
  unfold wp
  cases x m <;> simp

/-- A failure postcondition that is never met leaves success. -/
theorem wp_total {x : EStateM ε σ β} (h : wp x Q (fun _ => False) m) :
    ∃ b m', x m = .ok b m' ∧ Q b m' := by
  unfold wp at h
  cases hx : x m with
  | ok b m' => exact ⟨b,m',rfl,by rwa [hx] at h⟩
  | error => rw [hx] at h; exact h.elim

/-- A loop body run at each element in order, failing at the first failure. -/
def forEach {ε σ α : Type u} : List α → (α → EStateM ε σ PUnit) → EStateM ε σ PUnit
  | [], _ => pure ⟨⟩
  | a :: as, f => do
    f a
    forEach as f

@[simp] theorem wp_forEach_nil {Q : PUnit → σ → Prop} (f : α → EStateM ε σ PUnit) :
    wp (forEach [] f) Q F m ↔ Q ⟨⟩ m := Iff.rfl

@[simp] theorem wp_forEach_cons {Q : PUnit → σ → Prop} (a : α) (as : List α)
    (f : α → EStateM ε σ PUnit) :
    wp (forEach (a :: as) f) Q F m ↔ wp (f a) (fun _ => wp (forEach as f) Q F) F m := by
  rw [forEach, wp_bind]

@[simp] theorem wp_forEach_append {Q : PUnit → σ → Prop} (as bs : List α)
    (f : α → EStateM ε σ PUnit) :
    wp (forEach (as ++ bs) f) Q F m ↔ wp (forEach as f) (fun _ => wp (forEach bs f) Q F) F m := by
  induction as generalizing m with
  | nil => rfl
  | cons a as ih =>
    rw [List.cons_append, wp_forEach_cons, wp_forEach_cons]
    have h : wp (forEach (as ++ bs) f) Q F = wp (forEach as f) (fun _ => wp (forEach bs f) Q F) F :=
      funext fun _ => propext ih
    rw [h]

/-- The loop rule: an invariant indexed by what is left to do. -/
theorem wp_forEach (I : List α → σ → Prop) (f : α → EStateM ε σ PUnit)
    (hstep : ∀ a as s, I (a :: as) s → wp (f a) (fun _ => I as) F s) (as : List α)
    (m : σ) (h : I as m) : wp (forEach as f) (fun _ => I []) F m := by
  induction as generalizing m with
  | nil => exact h
  | cons a as ih =>
    rw [wp_forEach_cons]
    exact wp_mono (hstep a as m h) (fun _ s hs => ih s hs) (fun _ hs => hs)

end Xete.Weakest
