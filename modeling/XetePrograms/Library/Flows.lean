import Mathlib.Algebra.BigOperators.Group.List.Basic

/-!
# Flows between accounts

A list of flows accounts for the change of a table of balances when every
account has at the end what it had and what came in, less what went out.
-/

set_option autoImplicit false

namespace Xete.Flows

universe u
variable {α : Type u} [DecidableEq α]

structure Flow (α : Type u) where
  source : α
  dest : α
  amount : ℕ

def outOf : List (Flow α) → α → ℕ
  | [], _ => 0
  | f :: fs, a => (if f.source = a then f.amount else 0)+outOf fs a

def inTo : List (Flow α) → α → ℕ
  | [], _ => 0
  | f :: fs, a => (if f.dest = a then f.amount else 0)+inTo fs a

/-- Both ends of every flow. -/
def ends (fs : List (Flow α)) : List α := fs.flatMap fun f => [f.source,f.dest]

/-- The flows account for the change from `b` to `b'`. -/
def Booked (fs : List (Flow α)) (b b' : α → ℕ) : Prop := ∀ a, b' a+outOf fs a = b a+inTo fs a

variable {fs gs : List (Flow α)} {b b' b'' : α → ℕ} {a source dest : α} {n : ℕ}

theorem outOf_append (fs gs : List (Flow α)) (a : α) :
    outOf (fs ++ gs) a = outOf fs a+outOf gs a := by
  induction fs with
  | nil => simp [outOf]
  | cons f fs ih => simp [outOf, ih, add_assoc]

theorem inTo_append (fs gs : List (Flow α)) (a : α) :
    inTo (fs ++ gs) a = inTo fs a+inTo gs a := by
  induction fs with
  | nil => simp [inTo]
  | cons f fs ih => simp [inTo, ih, add_assoc]

theorem outOf_zero (h : ∀ f ∈ fs, f.source ≠ a) : outOf fs a = 0 := by
  induction fs with
  | nil => rfl
  | cons f fs ih =>
    rw [outOf, if_neg (h f (by simp)), ih fun g hg => h g (by simp [hg])]

theorem inTo_zero (h : ∀ f ∈ fs, f.dest ≠ a) : inTo fs a = 0 := by
  induction fs with
  | nil => rfl
  | cons f fs ih =>
    rw [inTo, if_neg (h f (by simp)), ih fun g hg => h g (by simp [hg])]

theorem booked_nil (h : b' = b) : Booked [] b b' := by
  intro a
  rw [h]
  rfl

theorem Booked.append (h : Booked fs b b') (h' : Booked gs b' b'') : Booked (fs ++ gs) b b'' := by
  intro a
  have h₁ := h a
  have h₂ := h' a
  rw [outOf_append, inTo_append]
  omega

/-- One flow between two accounts, or from an account to itself. -/
theorem booked_single (hs : source ≠ dest → b' source+n = b source ∧ b' dest = b dest+n)
    (he : source = dest → b' source = b source) (ho : ∀ a, a ≠ source → a ≠ dest → b' a = b a) :
    Booked [⟨source,dest,n⟩] b b' := by
  intro a
  simp only [outOf, inTo, add_zero]
  by_cases hsd : source = dest
  · subst hsd
    by_cases ha : source = a
    · subst ha
      rw [if_pos rfl, he rfl]
    · rw [if_neg ha, ho a (Ne.symm ha) (Ne.symm ha)]
  · obtain ⟨h₁,h₂⟩ := hs hsd
    by_cases ha : source = a
    · subst ha
      rw [if_pos rfl, if_neg (Ne.symm hsd), h₁, add_zero]
    · rw [if_neg ha, add_zero]
      by_cases hd : dest = a
      · subst hd
        rw [if_pos rfl, h₂]
      · rw [if_neg hd, add_zero, ho a (Ne.symm ha) (Ne.symm hd)]

/-- What leaves an account that nothing comes into was there. -/
theorem Booked.covered (h : Booked fs b b') (hn : ∀ f ∈ fs, f.dest ≠ a) : outOf fs a ≤ b a := by
  have ha := h a
  rw [inTo_zero hn] at ha
  omega

end Xete.Flows
