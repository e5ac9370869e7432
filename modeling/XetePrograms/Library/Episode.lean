import Mathlib.Logic.Relation

/-!
# Episodes of a run

What holds at the end of a run and did not hold at its start began with some
step and has held ever since. The run splits at the last such step.
-/

set_option autoImplicit false

namespace Xete.Runs
open Relation (ReflTransGen)

universe u
variable {σ : Type u}

/-- The steps of `r` at whose ends `P` holds. -/
def While (r : σ → σ → Prop) (P : σ → Prop) (a b : σ) : Prop := r a b ∧ P a ∧ P b

/-- The run from `x` to `y` enters `P` in the step from `a` to `b` and stays in it. -/
structure Episode (r : σ → σ → Prop) (P : σ → Prop) (x a b y : σ) : Prop where
  before : ReflTransGen r x a
  entry : r a b
  outside : ¬P a
  inside : P b
  since : ReflTransGen (While r P) b y

variable {r : σ → σ → Prop} {P Q : σ → Prop} {x a b y z : σ}

theorem Episode.step (h : Episode r P x a b y) (hstep : r y z) (hy : P y) (hz : P z) :
    Episode r P x a b z :=
  { h with since := h.since.tail ⟨hstep,hy,hz⟩ }

/-- A run that ends in `P` and did not start there has a last entry. -/
theorem exists_episode (h : ReflTransGen r x y) (hx : ¬P x) (hy : P y) :
    ∃ a b, Episode r P x a b y := by
  induction h with
  | refl => exact (hx hy).elim
  | tail hxy hstep ih =>
    rename_i u v
    by_cases hu : P u
    · obtain ⟨a,b,he⟩ := ih hu
      exact ⟨a,b,he.step hstep hu hy⟩
    · exact ⟨u,v,hxy,hstep,hu,hy,.refl⟩

/-- What the entry establishes and the steps inside keep holds at the end. -/
theorem Episode.invariant (h : Episode r P x a b y) (hb : Q b)
    (hstep : ∀ u v, While r P u v → Q u → Q v) : Q y := by
  have hrun := h.since
  induction hrun with
  | refl => exact hb
  | tail hbu huv ih => exact hstep _ _ huv (ih ⟨h.before,h.entry,h.outside,h.inside,hbu⟩)

end Xete.Runs
