import Mathlib.Data.List.TakeDrop
import Mathlib.Tactic.Ring
import Mathlib.Tactic.Linarith

/-!
# Byte strings with a fixed layout

Slices are read and overwritten at constant offsets, and integers are stored
little-endian. A write leaves every slice that does not meet it unchanged, so
a record written field by field is read back field by field.
-/

set_option autoImplicit false

namespace Xete.Octets

abbrev Bytes := List UInt8

def slice (d : Bytes) (off len : ℕ) : Bytes := (d.drop off).take len

def byteAt (d : Bytes) (i : ℕ) : UInt8 := d.getD i 0

/-- Overwrite the bytes of `d` from `off` on with `b`. -/
def patch (d : Bytes) (off : ℕ) (b : Bytes) : Bytes :=
  d.take off ++ b ++ d.drop (off+b.length)

def zeros (n : ℕ) : Bytes := List.replicate n 0

@[simp] theorem zeros_length (n : ℕ) : (zeros n).length = n := by
  simp [zeros]

theorem slice_length (d : Bytes) (off len : ℕ) (h : off+len ≤ d.length) :
    (slice d off len).length = len := by
  simp [slice]; omega

theorem slice_length_le (d : Bytes) (off len : ℕ) : (slice d off len).length ≤ len := by
  simp [slice]

theorem slice_getElem? (d : Bytes) (off len i : ℕ) (h : i < len) :
    (slice d off len)[i]? = d[off+i]? := by
  simp [slice, h]

theorem slice_all (d : Bytes) (n : ℕ) (h : d.length = n) : slice d 0 n = d := by
  simp [slice, ← h]

theorem slice_slice (d : Bytes) (a n b k : ℕ) (h : b+k ≤ n) :
    slice (slice d a n) b k = slice d (a+b) k := by
  apply List.ext_getElem?
  intro i
  by_cases hi : i < k
  · rw [slice_getElem? _ _ _ _ hi, slice_getElem? _ _ _ _ (by omega),
      slice_getElem? _ _ _ _ hi, Nat.add_assoc]
  · have hl := slice_length_le (slice d a n) b k
    have hr := slice_length_le d (a+b) k
    rw [List.getElem?_eq_none (by omega), List.getElem?_eq_none (by omega)]

theorem slice_append_left (a b : Bytes) (off len : ℕ) (h : off+len ≤ a.length) :
    slice (a++b) off len = slice a off len := by
  simp only [slice, List.drop_append, List.take_append]
  have : len-(a.drop off).length = 0 := by simp; omega
  rw [this]
  simp

theorem slice_append_right (a b : Bytes) (off len : ℕ) (h : a.length ≤ off) :
    slice (a++b) off len = slice b (off-a.length) len := by
  simp [slice, List.drop_append, List.drop_eq_nil_of_le h]

/-- Slices that meet are one slice. -/
theorem slice_append_slice (d : Bytes) (a n m : ℕ) :
    slice d a n ++ slice d (a+n) m = slice d a (n+m) := by
  simp only [slice, ← List.drop_drop]
  exact List.take_add.symm

@[simp] theorem patch_length (d b : Bytes) (off : ℕ) (h : off+b.length ≤ d.length) :
    (patch d off b).length = d.length := by
  simp [patch]; omega

theorem slice_patch_same (d b : Bytes) (off len : ℕ) (hb : b.length = len)
    (h : off+len ≤ d.length) : slice (patch d off b) off len = b := by
  have ht : (d.take off).length = off := by simp; omega
  rw [patch, List.append_assoc, slice_append_right _ _ _ _ (by omega), ht, Nat.sub_self,
    slice_append_left _ _ _ _ (by omega), slice_all _ _ hb]

theorem slice_patch_before (d b : Bytes) (off len o : ℕ) (h : off+len ≤ o)
    (hd : o ≤ d.length) : slice (patch d o b) off len = slice d off len := by
  have ht : (d.take o).length = o := by simp; omega
  rw [patch, List.append_assoc, slice_append_left _ _ _ _ (by omega)]
  simp [slice, List.drop_take, List.take_take]
  omega

theorem slice_patch_after (d b : Bytes) (off len o : ℕ) (h : o+b.length ≤ off)
    (hd : o+b.length ≤ d.length) : slice (patch d o b) off len = slice d off len := by
  have ht : (d.take o ++ b).length = o+b.length := by simp; omega
  rw [patch, slice_append_right _ _ _ _ (by omega), ht]
  simp only [slice, List.drop_drop]
  congr 2
  omega

theorem slice_patch_disjoint (d b : Bytes) (off len o : ℕ)
    (h : off+len ≤ o ∨ o+b.length ≤ off) (hd : o+b.length ≤ d.length) :
    slice (patch d o b) off len = slice d off len := by
  rcases h with h | h
  · exact slice_patch_before d b off len o h (by omega)
  · exact slice_patch_after d b off len o h hd

theorem byteAt_eq_slice (d : Bytes) (i : ℕ) : byteAt d i = (slice d i 1).getD 0 0 := by
  simp [byteAt, List.getD, slice_getElem?]

theorem byteAt_patch_disjoint (d b : Bytes) (i o : ℕ) (h : i < o ∨ o+b.length ≤ i)
    (hd : o+b.length ≤ d.length) : byteAt (patch d o b) i = byteAt d i := by
  rw [byteAt_eq_slice, slice_patch_disjoint d b i 1 o (by omega) hd, ← byteAt_eq_slice]

theorem slice_zeros (n off len : ℕ) (h : off+len ≤ n) : slice (zeros n) off len = zeros len := by
  simp [slice, zeros]; omega

theorem byteAt_zeros (n i : ℕ) : byteAt (zeros n) i = 0 := by
  by_cases h : i < n <;> simp [byteAt, zeros, List.getD, h]

/-- Fields written one after the other at their offsets. -/
def patches (d : Bytes) (fields : List (ℕ × Bytes)) : Bytes :=
  fields.foldl (fun d f => patch d f.1 f.2) d

@[simp] theorem patches_nil (d : Bytes) : patches d [] = d := rfl

theorem patches_append (d : Bytes) (fields more : List (ℕ × Bytes)) :
    patches d (fields ++ more) = patches (patches d fields) more := List.foldl_append

/-- Fields that lie in `n` bytes and do not meet. -/
def WellPlaced (n : ℕ) (fields : List (ℕ × Bytes)) : Prop :=
  (∀ f ∈ fields, f.1+f.2.length ≤ n) ∧
    fields.Pairwise fun f g => f.1+f.2.length ≤ g.1 ∨ g.1+g.2.length ≤ f.1

theorem patches_length (d : Bytes) (fields : List (ℕ × Bytes))
    (h : ∀ f ∈ fields, f.1+f.2.length ≤ d.length) : (patches d fields).length = d.length := by
  induction fields generalizing d with
  | nil => rfl
  | cons f fs ih =>
    have hf := patch_length d f.2 f.1 (h f (by simp))
    rw [patches, List.foldl_cons]
    exact (ih (patch d f.1 f.2) fun g hg => by rw [hf]; exact h g (by simp [hg])).trans hf

theorem slice_patches_disjoint (d : Bytes) (fields : List (ℕ × Bytes)) (off len : ℕ)
    (h : ∀ f ∈ fields, f.1+f.2.length ≤ d.length)
    (hd : ∀ f ∈ fields, off+len ≤ f.1 ∨ f.1+f.2.length ≤ off) :
    slice (patches d fields) off len = slice d off len := by
  induction fields generalizing d with
  | nil => rfl
  | cons f fs ih =>
    have hf := patch_length d f.2 f.1 (h f (by simp))
    rw [patches, List.foldl_cons]
    refine (ih (patch d f.1 f.2) (fun g hg => by rw [hf]; exact h g (by simp [hg]))
      fun g hg => hd g (by simp [hg])).trans ?_
    exact slice_patch_disjoint d f.2 off len f.1 (hd f (by simp)) (h f (by simp))

/-- A field written among fields that do not meet it is read back. -/
theorem slice_patches (d : Bytes) (fields : List (ℕ × Bytes)) (h : WellPlaced d.length fields)
    (f : ℕ × Bytes) (hf : f ∈ fields) : slice (patches d fields) f.1 f.2.length = f.2 := by
  obtain ⟨hb,hp⟩ := h
  induction fields generalizing d with
  | nil => cases hf
  | cons g gs ih =>
    have hg := patch_length d g.2 g.1 (hb g (by simp))
    have hbs : ∀ f ∈ gs, f.1+f.2.length ≤ (patch d g.1 g.2).length :=
      fun f hf => by rw [hg]; exact hb f (by simp [hf])
    obtain ⟨hpg,hps⟩ := List.pairwise_cons.mp hp
    rw [patches, List.foldl_cons]
    rcases List.mem_cons.mp hf with rfl | hf
    · exact (slice_patches_disjoint _ gs _ _ hbs hpg).trans
        (slice_patch_same d f.2 f.1 _ rfl (hb f (by simp)))
    · exact ih (patch d g.1 g.2) hf hbs hps

/-- Fields placed one after the other from `off` on. -/
def abut : ℕ → List Bytes → List (ℕ × Bytes)
  | _, [] => []
  | off, b :: bs => (off,b) :: abut (off+b.length) bs

/-- Fields without gaps overwrite the bytes between their ends. -/
theorem patches_abut (d : Bytes) (off : ℕ) (bs : List Bytes)
    (h : off+bs.flatten.length ≤ d.length) : patches d (abut off bs) = patch d off bs.flatten := by
  induction bs generalizing d off with
  | nil => simp [abut, patch]
  | cons b bs ih =>
    have hl : off+b.length+bs.flatten.length ≤ d.length := by
      rw [List.flatten_cons, List.length_append] at h
      omega
    have hb : (patch d off b).length = d.length := patch_length d b off (by omega)
    have ht : (d.take off ++ b).length = off+b.length := by simp; omega
    have hfront : (patch d off b).take (off+b.length) = d.take off ++ b := by
      rw [patch, ← ht, List.take_left]
    have hback : ∀ n, (patch d off b).drop (off+b.length+n) = d.drop (off+b.length+n) := by
      intro n
      rw [← List.drop_drop, patch, ← ht, List.drop_left, ht, List.drop_drop]
    rw [abut, patches, List.foldl_cons]
    apply (ih (patch d off b) (off+b.length) (by rw [hb]; exact hl)).trans
    rw [patch, hfront, hback, patch, List.flatten_cons, List.length_append, List.append_assoc _ b,
      Nat.add_assoc]

/-- The `w` little-endian bytes of `n`; higher bytes are dropped. -/
def le : ℕ → ℕ → Bytes
  | 0, _ => []
  | w+1, n => UInt8.ofNat n :: le w (n/256)

def natLe : Bytes → ℕ
  | [] => 0
  | b :: bs => b.toNat+256*natLe bs

@[simp] theorem le_length (w n : ℕ) : (le w n).length = w := by
  induction w generalizing n with
  | zero => rfl
  | succ w ih => simp [le, ih]

theorem natLe_lt (bs : Bytes) : natLe bs < 256^bs.length := by
  induction bs with
  | nil => simp [natLe]
  | cons b bs ih =>
    have hb := b.toNat_lt
    rw [natLe, List.length_cons, pow_succ]
    omega

theorem natLe_le (w n : ℕ) (h : n < 256^w) : natLe (le w n) = n := by
  induction w generalizing n with
  | zero => simp at h; simp [le, natLe, h]
  | succ w ih =>
    have hd : n/256 < 256^w := by
      rw [pow_succ] at h
      exact Nat.div_lt_of_lt_mul (by omega)
    rw [le, natLe, ih _ hd, UInt8.toNat_ofNat']
    omega

theorem le_natLe (bs : Bytes) : le bs.length (natLe bs) = bs := by
  induction bs with
  | nil => rfl
  | cons b bs ih =>
    have hb := b.toNat_lt
    have hm : (b.toNat+256*natLe bs)/256 = natLe bs := by omega
    have ho : UInt8.ofNat (b.toNat+256*natLe bs) = b := by
      apply UInt8.toNat_inj.mp
      rw [UInt8.toNat_ofNat']
      omega
    rw [List.length_cons, natLe, le, hm, ih, ho]

theorem le_injective (w m n : ℕ) (hm : m < 256^w) (hn : n < 256^w) (h : le w m = le w n) :
    m = n := by
  rw [← natLe_le w m hm, ← natLe_le w n hn, h]

theorem natLe_zeros (n : ℕ) : natLe (zeros n) = 0 := by
  induction n with
  | zero => rfl
  | succ n ih => simpa [zeros, List.replicate_succ, natLe] using ih

/-- The two's-complement value of a little-endian byte string. -/
def intLe (bs : Bytes) : ℤ :=
  if 2*natLe bs < 256^bs.length then (natLe bs : ℤ) else (natLe bs : ℤ)-256^bs.length

/-- The `w` little-endian bytes of a two's-complement integer. -/
def leInt (w : ℕ) (z : ℤ) : Bytes := le w (z % 256^w).toNat

@[simp] theorem leInt_length (w : ℕ) (z : ℤ) : (leInt w z).length = w := le_length _ _

theorem intLe_leInt (w : ℕ) (z : ℤ) (hlo : -(256^w : ℤ) ≤ 2*z) (hhi : 2*z < 256^w) :
    intLe (leInt w z) = z := by
  have hp : (0:ℤ) < 256^w := by positivity
  have hm := Int.emod_nonneg z hp.ne'
  have hlt := Int.emod_lt_of_pos z hp
  have hn : natLe (leInt w z) = (z % 256^w).toNat := natLe_le _ _ (by zify; omega)
  rw [intLe, hn, leInt_length]
  have hc : ((z % 256^w).toNat : ℤ) = z % 256^w := Int.toNat_of_nonneg hm
  split <;> rename_i h
  · rw [hc]
    have h' : 2*(z % 256^w) < 256^w := by zify at h; rwa [hc] at h
    by_cases hz : 0 ≤ z
    · exact Int.emod_eq_of_lt hz (by omega)
    · rw [← Int.add_emod_right, Int.emod_eq_of_lt (by omega) (by omega)] at h'
      omega
  · rw [hc]
    have h' : ¬ 2*(z % 256^w) < 256^w := by zify at h; rwa [hc] at h
    by_cases hz : 0 ≤ z
    · rw [Int.emod_eq_of_lt hz (by omega)] at h'
      omega
    · rw [← Int.add_emod_right, Int.emod_eq_of_lt (by omega) (by omega)]
      omega

theorem intLe_bounds (bs : Bytes) :
    -(256^bs.length : ℤ) ≤ 2*intLe bs ∧ 2*intLe bs < 256^bs.length := by
  have hl : (natLe bs : ℤ) < 256^bs.length := by exact_mod_cast natLe_lt bs
  unfold intLe
  split <;> rename_i h
  · have h' : 2*(natLe bs : ℤ) < 256^bs.length := by exact_mod_cast h
    constructor <;> omega
  · have h' : ¬2*(natLe bs : ℤ) < 256^bs.length := by exact_mod_cast h
    constructor <;> omega

theorem leInt_injective (w : ℕ) (y z : ℤ) (hy : -(256^w : ℤ) ≤ 2*y ∧ 2*y < 256^w)
    (hz : -(256^w : ℤ) ≤ 2*z ∧ 2*z < 256^w) (h : leInt w y = leInt w z) : y = z := by
  rw [← intLe_leInt w y hy.1 hy.2, ← intLe_leInt w z hz.1 hz.2, h]

theorem leInt_intLe (bs : Bytes) : leInt bs.length (intLe bs) = bs := by
  have hp : (0:ℤ) < 256^bs.length := by positivity
  have hl : (natLe bs : ℤ) < 256^bs.length := by exact_mod_cast natLe_lt bs
  have hr : (natLe bs : ℤ) % 256^bs.length = natLe bs :=
    Int.emod_eq_of_lt (Int.natCast_nonneg _) hl
  have he : intLe bs % 256^bs.length = natLe bs := by
    unfold intLe
    split
    · exact hr
    · rw [Int.sub_emod_right, hr]
  rw [leInt, he, Int.toNat_natCast, le_natLe]

end Xete.Octets
