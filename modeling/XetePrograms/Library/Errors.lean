import XetePrograms.Library.Weakest

/-!
# The errors of failing programs

`wpe x Q X m` is the judgement `wp` with the error seen as well: `x`, started in
`m`, returns a value and a state in `Q`, or fails with an error and a state in
`X`. With it a program is shown to fail early, or only in certain ways.
-/

set_option autoImplicit false

namespace Xete.Weakest

universe u
variable {ε σ α β : Type u}

def wpe (x : EStateM ε σ α) (Q : α → σ → Prop) (X : ε → σ → Prop) (m : σ) : Prop :=
  match x m with
  | .ok a m' => Q a m'
  | .error e m' => X e m'

variable {Q : β → σ → Prop} {X : ε → σ → Prop} {m : σ}

@[simp] theorem wpe_pure (b : β) : wpe (pure b : EStateM ε σ β) Q X m ↔ Q b m := Iff.rfl

@[simp] theorem wpe_throw (e : ε) : wpe (throw e : EStateM ε σ β) Q X m ↔ X e m := Iff.rfl

@[simp] theorem wpe_bind (x : EStateM ε σ α) (f : α → EStateM ε σ β) :
    wpe (x >>= f) Q X m ↔ wpe x (fun a => wpe (f a) Q X) X m := by
  simp only [wpe, bind, EStateM.bind]
  cases x m <;> rfl

@[simp] theorem wpe_failIf {ε σ : Type} {X : ε → σ → Prop} {m : σ} (c : Prop) [Decidable c] (e : ε)
    {Q : Unit → σ → Prop} :
    wpe (failIf c e : EStateM ε σ Unit) Q X m ↔ (¬c → Q () m) ∧ (c → X e m) := by
  unfold failIf
  split <;> rename_i h <;> simp [h]

theorem wpe_ite (c : Prop) [Decidable c] (x y : EStateM ε σ β) :
    wpe (if c then x else y) Q X m ↔ (c → wpe x Q X m) ∧ (¬c → wpe y Q X m) := by
  split <;> rename_i h <;> simp [h]

theorem wpe_mono {Q' : β → σ → Prop} {X' : ε → σ → Prop} {x : EStateM ε σ β} (h : wpe x Q X m)
    (hQ : ∀ b s, Q b s → Q' b s) (hX : ∀ e s, X e s → X' e s) : wpe x Q' X' m := by
  unfold wpe at *
  cases hx : x m with
  | ok b s => rw [hx] at h; exact hQ _ _ h
  | error e s => rw [hx] at h; exact hX _ _ h

theorem wpe_ok {x : EStateM ε σ β} (h : wpe x Q X m) {b : β} {m' : σ} (hx : x m = .ok b m') :
    Q b m' := by
  unfold wpe at h
  rwa [hx] at h

theorem wpe_error {x : EStateM ε σ β} (h : wpe x Q X m) {e : ε} {m' : σ}
    (hx : x m = .error e m') : X e m' := by
  unfold wpe at h
  rwa [hx] at h

/-- The loop rule, with the errors of the body. -/
theorem wpe_forEach (I : List α → σ → Prop) (f : α → EStateM ε σ PUnit)
    (hstep : ∀ a as s, I (a :: as) s → wpe (f a) (fun _ => I as) X s) (as : List α)
    (m : σ) (h : I as m) : wpe (forEach as f) (fun _ => I []) X m := by
  induction as generalizing m with
  | nil => exact h
  | cons a as ih =>
    rw [forEach, wpe_bind]
    exact wpe_mono (hstep a as m h) (fun _ s hs => ih s hs) (fun _ _ hs => hs)

/-! ## Programs with more checks -/

/-- `x` does what `y` does, except where it fails with `p`. -/
def Refines (p : ε) (x y : EStateM ε σ α) : Prop := ∀ m, x m = y m ∨ ∃ m', x m = .error p m'

theorem refines_refl (p : ε) (x : EStateM ε σ α) : Refines p x x := fun _ => .inl rfl

theorem refines_bind {p : ε} {x y : EStateM ε σ α} {f g : α → EStateM ε σ β} (h : Refines p x y)
    (hf : ∀ a, Refines p (f a) (g a)) : Refines p (x >>= f) (y >>= g) := by
  intro m
  simp only [bind, EStateM.bind]
  cases h m with
  | inl he =>
    rw [he]
    cases y m with
    | ok a m₁ => exact hf a m₁
    | error e m₁ => exact .inl rfl
  | inr hp =>
    obtain ⟨m',hm⟩ := hp
    rw [hm]
    exact .inr ⟨m',rfl⟩

/-- A first step that is the same. -/
theorem refines_step {p : ε} {x : EStateM ε σ α} {f g : α → EStateM ε σ β}
    (hf : ∀ a, Refines p (f a) (g a)) : Refines p (x >>= f) (x >>= g) :=
  refines_bind (refines_refl p x) hf

theorem refines_forEach {p : ε} (as : List α) {f g : α → EStateM ε σ PUnit}
    (h : ∀ a, Refines p (f a) (g a)) : Refines p (forEach as f) (forEach as g) := by
  induction as with
  | nil => exact refines_refl p _
  | cons a as ih => exact refines_bind (h a) fun _ => ih

/-- Checks one after the other are one check of them all. -/
theorem forEach_failIf {ε σ α : Type} (as : List α) (c : α → Prop) [DecidablePred c] (e : ε) :
    (forEach as (fun a => failIf (c a) e) : EStateM ε σ PUnit) = failIf (∃ a ∈ as, c a) e := by
  induction as with
  | nil => exact (if_neg (by simp)).symm
  | cons a as ih =>
    rw [forEach, ih]
    by_cases hc : c a
    · have hall : (failIf (∃ b ∈ a :: as, c b) e : EStateM ε σ Unit) = throw e :=
        if_pos ⟨a,by simp,hc⟩
      have hone : (failIf (c a) e : EStateM ε σ Unit) = throw e := if_pos hc
      rw [hall, hone]
      rfl
    · have hone : (failIf (c a) e : EStateM ε σ Unit) = pure () := if_neg hc
      rw [hone, pure_bind]
      unfold failIf
      exact if_congr (by simp [hc]) rfl rfl

end Xete.Weakest
