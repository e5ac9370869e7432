import XetePrograms.Library.Errors
import XetePrograms.Solana.Runtime

/-!
# Indexing and arithmetic that panic

A range index panics where it leaves the bytes, and an addition where it leaves
the machine word. A parser written with these is compared with the plain one,
which then never reaches such a place. Inside a run an index that leaves its
slice has an error of its own, which nothing else throws.
-/

set_option autoImplicit false

namespace Xete.Checked
open Xete.Octets Xete.Weakest Xete.Chain Xete.Runtime

/-- The bytes behind a slice reference; a slice never has more bytes than a
signed word counts. -/
structure Slice where
  bytes : Bytes
  fits : bytes.length < 2^63

/-- `d[off..off+len]`. -/
def range (d : Bytes) (off len : ℕ) : Except ProgramError Bytes :=
  if off+len ≤ d.length then .ok (slice d off len) else .error .panicked

/-- `d[i]`. -/
def byte (d : Bytes) (i : ℕ) : Except ProgramError UInt8 :=
  if i < d.length then .ok (byteAt d i) else .error .panicked

/-- `a+b` on 64-bit words. -/
def add (a b : ℕ) : Except ProgramError ℕ :=
  if a+b ≤ u64Max then .ok (a+b) else .error .panicked

/-- `a.checked_add(b).ok_or(e)` on 64-bit words. -/
def addOr (e : ProgramError) (a b : ℕ) : Except ProgramError ℕ :=
  if a+b ≤ u64Max then .ok (a+b) else .error e

/-- `a.checked_mul(b).ok_or(e)` on 64-bit words. -/
def mulOr (e : ProgramError) (a b : ℕ) : Except ProgramError ℕ :=
  if a*b ≤ u64Max then .ok (a*b) else .error e

/-- `x.ok_or(e)`. -/
def okOr {α : Type} (e : ProgramError) : Option α → Except ProgramError α
  | some a => .ok a
  | none => .error e

section
variable {β : Type} {d : Bytes} {off len i a b : ℕ}

theorem range_bind (h : off+len ≤ d.length) (f : Bytes → Except ProgramError β) :
    (range d off len >>= f) = f (slice d off len) := by
  rw [range, if_pos h]
  rfl

theorem byte_bind (h : i < d.length) (f : UInt8 → Except ProgramError β) :
    (byte d i >>= f) = f (byteAt d i) := by
  rw [byte, if_pos h]
  rfl

theorem add_bind (h : a+b ≤ u64Max) (f : ℕ → Except ProgramError β) :
    (add a b >>= f) = f (a+b) := by
  rw [add, if_pos h]
  rfl

theorem addOr_bind {e : ProgramError} (h : a+b ≤ u64Max) (f : ℕ → Except ProgramError β) :
    (addOr e a b >>= f) = f (a+b) := by
  rw [addOr, if_pos h]
  rfl

theorem mulOr_bind {e : ProgramError} (h : a*b ≤ u64Max) (f : ℕ → Except ProgramError β) :
    (mulOr e a b >>= f) = f (a*b) := by
  rw [mulOr, if_pos h]
  rfl

end

/-! ## The errors of a run -/

section
variable {α : Type} {E : Env} {m : Machine} {X : ProgramError → Machine → Prop}

@[simp] theorem wpe_perform (a : Act) {Q : Unit → Machine → Prop} :
    wpe (perform E a) Q X m ↔ (∀ s, a.effect E m.ledger = some s → Q () (m.next a s)) ∧
      (a.effect E m.ledger = none → X .refused (m.next a m.ledger)) := by
  unfold wpe perform
  cases h : a.effect E m.ledger <;> simp

@[simp] theorem wpe_ownerOf (a : AccountInfo) {Q : Pubkey → Machine → Prop} :
    wpe (ownerOf a) Q X m ↔ Q (m.ledger a.key).owner m := Iff.rfl

@[simp] theorem wpe_dataOf (a : AccountInfo) {Q : Bytes → Machine → Prop} :
    wpe (dataOf a) Q X m ↔ Q (m.ledger a.key).data m := Iff.rfl

@[simp] theorem wpe_lamportsOf (a : AccountInfo) {Q : ℕ → Machine → Prop} :
    wpe (lamportsOf a) Q X m ↔ Q (m.ledger a.key).lamports m := Iff.rfl

@[simp] theorem wpe_unwrap (o : Option α) (e : ProgramError) {Q : α → Machine → Prop} :
    wpe (unwrap o e) Q X m ↔ (∀ a, o = some a → Q a m) ∧ (o = none → X e m) := by
  cases o <;> simp [unwrap]

@[simp] theorem wpe_checkedSub (a b : ℕ) (e : ProgramError) {Q : ℕ → Machine → Prop} :
    wpe (checkedSub a b e) Q X m ↔ (b ≤ a → Q (a-b) m) ∧ (a < b → X e m) := by
  simp only [checkedSub, wpe_bind, wpe_failIf, wpe_pure, not_lt]

end

/-! ## Reading and copying inside a run -/

/-- `d[off..off+len]` in a run. -/
def rangeOf (d : Bytes) (off len : ℕ) : Exec Bytes := do
  failIf (d.length < off+len) .outOfBounds
  return slice d off len

/-- `d[i]` in a run. -/
def byteOf (d : Bytes) (i : ℕ) : Exec UInt8 := do
  failIf (d.length ≤ i) .outOfBounds
  return byteAt d i

/-- `s[off..off+b.len()].copy_from_slice(b)` for each of the fields. -/
def copyInto (s : Bytes) (fields : List (ℕ × Bytes)) : Exec Bytes := do
  failIf (∃ f ∈ fields, s.length < f.1+f.2.length) .outOfBounds
  return patches s fields

section
variable {α β : Type} {d s : Bytes} {off len i : ℕ} {fields : List (ℕ × Bytes)} {c : Prop}
  [Decidable c]

/-- A check of an index before a read. -/
theorem indexed_eq (h : ¬c) (x : α) :
    (do failIf c .outOfBounds; return x : Exec α) = pure x := by
  have hin : (failIf c .outOfBounds : Exec Unit) = pure () := if_neg h
  rw [hin, pure_bind]

theorem refines_indexed {x : α} {f : α → Exec β} {y : Exec β} (h : Refines .outOfBounds (f x) y) :
    Refines .outOfBounds ((do failIf c .outOfBounds; return x : Exec α) >>= f) y := by
  by_cases hin : c
  · have hout : (failIf c .outOfBounds : Exec Unit) = throw .outOfBounds := if_pos hin
    rw [hout]
    exact fun m => .inr ⟨m,rfl⟩
  · rw [indexed_eq hin, pure_bind]
    exact h

theorem rangeOf_eq (h : off+len ≤ d.length) : rangeOf d off len = pure (slice d off len) :=
  indexed_eq (not_lt.mpr h) _

theorem byteOf_eq (h : i < d.length) : byteOf d i = pure (byteAt d i) :=
  indexed_eq (not_le.mpr h) _

theorem copyInto_eq (h : ∀ f ∈ fields, f.1+f.2.length ≤ s.length) :
    copyInto s fields = pure (patches s fields) :=
  indexed_eq (fun ⟨f,hf,hlt⟩ => absurd (h f hf) (by omega)) _

theorem refines_rangeOf {f : Bytes → Exec β} {y : Exec β}
    (h : Refines .outOfBounds (f (slice d off len)) y) :
    Refines .outOfBounds (rangeOf d off len >>= f) y := refines_indexed h

theorem refines_byteOf {f : UInt8 → Exec β} {y : Exec β}
    (h : Refines .outOfBounds (f (byteAt d i)) y) :
    Refines .outOfBounds (byteOf d i >>= f) y := refines_indexed h

theorem refines_copyInto {f : Bytes → Exec β} {y : Exec β}
    (h : Refines .outOfBounds (f (patches s fields)) y) :
    Refines .outOfBounds (copyInto s fields >>= f) y := refines_indexed h

end

end Xete.Checked
