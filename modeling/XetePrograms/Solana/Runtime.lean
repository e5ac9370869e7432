import Mathlib.Logic.Function.Basic
import XetePrograms.Library.Weakest
import XetePrograms.Solana.Token

/-!
# Running an instruction

An instruction reads the ledger and performs acts on it one after the other.
Each act is logged with the ledger it met before it is tried, so the trace of
a failing run ends in the act that was refused.
-/

set_option autoImplicit false

namespace Xete.Runtime
open Xete.Octets Xete.Weakest Xete.Chain Xete.Token

inductive ProgramError where
  | invalidInstructionData
  | notEnoughAccountKeys
  | missingRequiredSignature
  | invalidArgument
  | invalidSeeds
  | illegalOwner
  | incorrectProgramId
  | invalidAccountData
  | arithmeticOverflow
  | insufficientFunds
  | accountAlreadyInitialized
  /-- A cross-program call or an account write that the runtime refused. -/
  | refused
  | panicked
  /-- The panic of an index outside its slice, where a program is written with
  its indexes checked. -/
  | outOfBounds
  deriving DecidableEq

inductive Act where
  | invoke (c : Cpi) (seeds : Option (List Bytes))
  | write (account : Pubkey) (data : Bytes)
  | close (account dest : Pubkey)
  | log (data : Bytes)
  deriving DecidableEq

structure Event where
  act : Act
  before : Ledger

structure Machine where
  ledger : Ledger
  trace : List Event

abbrev Exec := EStateM ProgramError Machine

def setData (s : Ledger) (k : Pubkey) (d : Bytes) : Ledger :=
  Function.update s k { s k with data := d }

/-- All lamports of `k` go to `dest` and the data of `k` is wiped. -/
def drain (s : Ledger) (k dest : Pubkey) : Ledger :=
  Function.update
    (Function.update s dest { s dest with lamports := (s dest).lamports+(s k).lamports })
    k { s k with lamports := 0, data := zeros (s k).data.length }

@[simp] theorem setData_owner (s : Ledger) (k : Pubkey) (d : Bytes) (a : Pubkey) :
    (setData s k d a).owner = (s a).owner := by
  by_cases ha : a = k <;> simp [setData, ha]

@[simp] theorem setData_lamports (s : Ledger) (k : Pubkey) (d : Bytes) (a : Pubkey) :
    (setData s k d a).lamports = (s a).lamports := by
  by_cases ha : a = k <;> simp [setData, ha]

@[simp] theorem setData_same (s : Ledger) (k : Pubkey) (d : Bytes) :
    (setData s k d k).data = d := by
  simp [setData]

theorem setData_other (s : Ledger) (k : Pubkey) (d : Bytes) (a : Pubkey) (h : a ≠ k) :
    setData s k d a = s a := by
  simp [setData, h]

@[simp] theorem drain_owner (s : Ledger) (k dest a : Pubkey) :
    (drain s k dest a).owner = (s a).owner := by
  by_cases ha : a = k
  · simp [drain, ha]
  · by_cases hd : a = dest
    · subst hd
      simp [drain, ha]
    · simp [drain, ha, hd]

theorem drain_other (s : Ledger) (k dest a : Pubkey) (h : a ≠ k) :
    (drain s k dest a).data = (s a).data ∧ (s a).lamports ≤ (drain s k dest a).lamports := by
  by_cases hd : a = dest
  · subst hd
    simp [drain, h]
  · simp [drain, h, hd]

/-- What an act does, and when the runtime refuses it: only the owner of an
account writes to it or takes its lamports, and only if it was passed writable. -/
def Act.effect (E : Env) : Act → Ledger → Option Ledger
  | .invoke c seeds, s => if E.permits c seeds then E.host.process c s else none
  | .write k d, s =>
      if (s k).owner = E.programId ∧ E.writable k ∧ d.length = (s k).data.length then
        some (setData s k d)
      else none
  | .close k dest, s =>
      if (s k).owner = E.programId ∧ E.writable k ∧ E.writable dest ∧
          (k = dest → (s k).lamports = 0) ∧ (s dest).lamports+(s k).lamports ≤ u64Max then
        some (drain s k dest)
      else none
  | .log _, s => some s

theorem close_effect {E : Env} {s : Ledger} {k dest : Pubkey} (ho : (s k).owner = E.programId)
    (hk : E.writable k) (hd : E.writable dest) (hne : k ≠ dest)
    (hr : (s dest).lamports+(s k).lamports ≤ u64Max) :
    (Act.close k dest).effect E s = some (drain s k dest) := by
  rw [Act.effect, if_pos ⟨ho,hk,hd,fun h => (hne h).elim,hr⟩]

theorem close_needs {E : Env} {s s' : Ledger} {k dest : Pubkey}
    (h : (Act.close k dest).effect E s = some s') : E.writable k ∧ E.writable dest := by
  simp only [Act.effect] at h
  split at h
  · rename_i hc
    exact ⟨hc.2.1,hc.2.2.1⟩
  · cases h

/-- The machine after an attempted act that left the ledger `s`. -/
def Machine.next (m : Machine) (a : Act) (s : Ledger) : Machine := ⟨s,m.trace ++ [⟨a,m.ledger⟩]⟩

@[simp] theorem next_ledger (m : Machine) (a : Act) (s : Ledger) : (m.next a s).ledger = s := rfl

@[simp] theorem next_trace (m : Machine) (a : Act) (s : Ledger) :
    (m.next a s).trace = m.trace ++ [⟨a,m.ledger⟩] := rfl

def perform (E : Env) (a : Act) : Exec Unit := fun m =>
  match a.effect E m.ledger with
  | some s => .ok () (m.next a s)
  | none => .error .refused (m.next a m.ledger)

def ownerOf (a : AccountInfo) : Exec Pubkey := do
  return ((← get).ledger a.key).owner

def dataOf (a : AccountInfo) : Exec Bytes := do
  return ((← get).ledger a.key).data

def lamportsOf (a : AccountInfo) : Exec ℕ := do
  return ((← get).ledger a.key).lamports

/-- The value of an operation that panics where it has none. -/
def unwrap {α : Type} (o : Option α) (e : ProgramError) : Exec α :=
  match o with
  | some a => pure a
  | none => throw e

def orThrow {α : Type} (x : Except ProgramError α) : Exec α :=
  match x with
  | .ok a => pure a
  | .error e => throw e

/-- Subtraction of unsigned integers with overflow checks on. -/
def checkedSub (a b : ℕ) (e : ProgramError) : Exec ℕ := do
  failIf (a < b) e
  return a-b

variable {α : Type} {E : Env} {m : Machine} {F : Machine → Prop}

@[simp] theorem wp_perform (a : Act) {Q : Unit → Machine → Prop} :
    wp (perform E a) Q F m ↔ (∀ s, a.effect E m.ledger = some s → Q () (m.next a s)) ∧
      (a.effect E m.ledger = none → F (m.next a m.ledger)) := by
  unfold wp perform
  cases h : a.effect E m.ledger <;> simp

@[simp] theorem wp_ownerOf (a : AccountInfo) {Q : Pubkey → Machine → Prop} :
    wp (ownerOf a) Q F m ↔ Q (m.ledger a.key).owner m := Iff.rfl

@[simp] theorem wp_dataOf (a : AccountInfo) {Q : Bytes → Machine → Prop} :
    wp (dataOf a) Q F m ↔ Q (m.ledger a.key).data m := Iff.rfl

@[simp] theorem wp_lamportsOf (a : AccountInfo) {Q : ℕ → Machine → Prop} :
    wp (lamportsOf a) Q F m ↔ Q (m.ledger a.key).lamports m := Iff.rfl

@[simp] theorem wp_unwrap (o : Option α) (e : ProgramError) {Q : α → Machine → Prop} :
    wp (unwrap o e) Q F m ↔ (∀ a, o = some a → Q a m) ∧ (o = none → F m) := by
  cases o <;> simp [unwrap]

@[simp] theorem wp_orThrow (x : Except ProgramError α) {Q : α → Machine → Prop} :
    wp (orThrow x) Q F m ↔ (∀ a, x = .ok a → Q a m) ∧ (∀ e, x = .error e → F m) := by
  cases x <;> simp [orThrow]

@[simp] theorem wp_checkedSub (a b : ℕ) (e : ProgramError) {Q : ℕ → Machine → Prop} :
    wp (checkedSub a b e) Q F m ↔ (b ≤ a → Q (a-b) m) ∧ (a < b → F m) := by
  simp [checkedSub]

theorem total_unwrap (o : Option α) (e : ProgramError) {Q : α → Machine → Prop} :
    wp (unwrap o e) Q (fun _ => False) m ↔ ∃ a, o = some a ∧ Q a m := by
  rw [wp_unwrap]
  cases o <;> simp

theorem total_perform (a : Act) {Q : Unit → Machine → Prop} :
    wp (perform E a) Q (fun _ => False) m ↔ ∃ s, a.effect E m.ledger = some s ∧
      Q () (m.next a s) := by
  rw [wp_perform]
  cases a.effect E m.ledger <;> simp

/-- `m'` is `m` after the acts, each of which the runtime let through. -/
def Did (E : Env) : List Act → Machine → Machine → Prop
  | [], m, m' => m' = m
  | a :: as, m, m' => ∃ s, a.effect E m.ledger = some s ∧ Did E as (m.next a s) m'

@[simp] theorem did_nil (m m' : Machine) : Did E [] m m' ↔ m' = m := Iff.rfl

@[simp] theorem did_cons (a : Act) (as : List Act) (m m' : Machine) :
    Did E (a :: as) m m' ↔ ∃ s, a.effect E m.ledger = some s ∧ Did E as (m.next a s) m' :=
  Iff.rfl

theorem did_append (as bs : List Act) (m m' : Machine) :
    Did E (as ++ bs) m m' ↔ ∃ m₁, Did E as m m₁ ∧ Did E bs m₁ m' := by
  induction as generalizing m with
  | nil => simp
  | cons a as ih =>
    simp only [List.cons_append, did_cons, ih]
    constructor
    · rintro ⟨s,hs,m₁,h₁,h₂⟩
      exact ⟨m₁,⟨s,hs,h₁⟩,h₂⟩
    · rintro ⟨m₁,⟨s,hs,h₁⟩,h₂⟩
      exact ⟨s,hs,m₁,h₁,h₂⟩

/-- `s'` is `s` after the acts. -/
def Ran (E : Env) : List Act → Ledger → Ledger → Prop
  | [], s, s' => s' = s
  | a :: as, s, s' => ∃ s₁, a.effect E s = some s₁ ∧ Ran E as s₁ s'

@[simp] theorem ran_nil (s s' : Ledger) : Ran E [] s s' ↔ s' = s := Iff.rfl

@[simp] theorem ran_cons (a : Act) (as : List Act) (s s' : Ledger) :
    Ran E (a :: as) s s' ↔ ∃ s₁, a.effect E s = some s₁ ∧ Ran E as s₁ s' := Iff.rfl

theorem Did.ran {as : List Act} {m m' : Machine} (h : Did E as m m') :
    Ran E as m.ledger m'.ledger := by
  induction as generalizing m with
  | nil => rw [did_nil] at h; rw [h]; rfl
  | cons a as ih =>
    obtain ⟨s,hs,h⟩ := h
    exact ⟨s,hs,ih h⟩

theorem did_trace (as : List Act) (m m' : Machine) (h : Did E as m m') :
    m'.trace.map Event.act = m.trace.map Event.act ++ as := by
  induction as generalizing m with
  | nil => rw [did_nil] at h; simp [h]
  | cons a as ih =>
    obtain ⟨s,-,h⟩ := h
    simp [ih _ h]

/-- `n` rounds lead from `m` to `m'`: the `i`-th starts in a machine in `R i`
and performs `acts i`. -/
def Rounds (E : Env) (n : ℕ) (R : ℕ → Machine → Prop) (acts : ℕ → List Act) (m m' : Machine) :
    Prop :=
  ∃ st : ℕ → Machine, st 0 = m ∧ st n = m' ∧
    ∀ i < n, R i (st i) ∧ Did E (acts i) (st i) (st (i+1))

theorem Rounds.did {n : ℕ} {R : ℕ → Machine → Prop} {acts : ℕ → List Act} {m m' : Machine}
    (h : Rounds E n R acts m m') : Did E ((List.range n).flatMap acts) m m' := by
  obtain ⟨st,rfl,rfl,h⟩ := h
  induction n with
  | zero => rfl
  | succ n ih =>
    rw [List.range_succ, List.flatMap_append, did_append, List.flatMap_singleton]
    exact ⟨st n,ih fun i hi => h i (by omega),(h n (by omega)).2⟩

/-- The rounds of a loop, each described by a value of its own. The invariant may
depend on how many rounds are done. -/
theorem wp_rounds {α : Type} [Inhabited α] (f : ℕ → Exec PUnit) (I : ℕ → Machine → Prop)
    (R : ℕ → Machine → α → Prop) (acts : ℕ → α → List Act) (n : ℕ)
    (hf : ∀ i < n, ∀ m, I i m → wp (f i)
      (fun _ m' => I (i+1) m' ∧ ∃ a, R i m a ∧ Did E (acts i a) m m') (fun _ => True) m)
    (hI : I 0 m) :
    wp (forEach (List.range n) f) (fun _ m' => I n m' ∧ ∃ g : ℕ → α,
      Rounds E n (fun i m => R i m (g i)) (fun i => acts i (g i)) m m') (fun _ => True) m := by
  induction n with
  | zero => exact ⟨hI,fun _ => default,fun _ => m,rfl,rfl,by simp⟩
  | succ n ih =>
    rw [List.range_succ, wp_forEach_append]
    refine wp_mono (ih fun i hi => hf i (by omega)) ?_ (fun _ _ => trivial)
    rintro _ m₁ ⟨hI₁,g,st,h0,hn,hst⟩
    rw [wp_forEach_cons]
    refine wp_mono (hf n (by omega) m₁ hI₁) ?_ (fun _ _ => trivial)
    rintro _ m' ⟨hI',a,hR,hd⟩
    refine ⟨hI',Function.update g n a,Function.update st (n+1) m',by simpa using h0,by simp,?_⟩
    intro i hi
    show R i (Function.update st (n+1) m' i) (Function.update g n a i) ∧
      Did E (acts i (Function.update g n a i)) (Function.update st (n+1) m' i)
        (Function.update st (n+1) m' (i+1))
    rw [Function.update_of_ne (show i ≠ n+1 by omega)]
    by_cases hin : i = n
    · subst hin
      rw [Function.update_self, Function.update_self, hn]
      exact ⟨hR,hd⟩
    · rw [Function.update_of_ne hin, Function.update_of_ne (show i+1 ≠ n+1 by omega)]
      exact hst i (by omega)

/-- The acts of a loop: those of its body at each index, in order. -/
theorem did_forEach (f : ℕ → Exec PUnit) (I : ℕ → Machine → Prop) (R : ℕ → List Act → Prop) (n : ℕ)
    (hf : ∀ i < n, ∀ m, I i m → wp (f i) (fun _ m' => I (i+1) m' ∧ ∃ as, Did E as m m' ∧ R i as)
      (fun _ => True) m) (hI : I 0 m) :
    wp (forEach (List.range n) f)
      (fun _ m' => I n m' ∧ ∃ g : ℕ → List Act, (∀ i < n, R i (g i)) ∧
        Did E ((List.range n).flatMap g) m m') (fun _ => True) m := by
  refine wp_mono (wp_rounds (E := E) f I (fun i _ as => R i as) (fun _ as => as) n ?_ hI) ?_
    (fun _ _ => trivial)
  · intro i hi m hI
    refine wp_mono (hf i hi m hI) ?_ (fun _ _ => trivial)
    rintro _ m' ⟨hI',as,hd,hr⟩
    exact ⟨hI',as,hr,hd⟩
  · rintro _ m' ⟨hI',g,h⟩
    refine ⟨hI',g,?_,h.did⟩
    obtain ⟨st,-,-,hst⟩ := h
    exact fun i hi => (hst i hi).1

end Xete.Runtime
