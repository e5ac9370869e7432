import XetePrograms.Swap.BasketOpen
import XetePrograms.Swap.Codec

/-!
# The record of a basket

The header, the want entries and the give entries of a basket lie apart from
each other, so each is read back from the record as it was written.
-/

set_option autoImplicit false

namespace Xete.Swap
open Xete.Octets Xete.Weakest Xete.Chain Xete.Token Xete.Runtime Xete.Rules

variable {E : Env} {m m' : Machine} {d : Bytes} {maker swap tokenProg : Pubkey} {bump : UInt8}
  {w g : ℕ → List Act}

structure BasketSized (d : Bytes) : Prop where
  length : d.length = tailOff d+73
  gives : giveCount d ≤ maxLeg
  wants : wantCount d ≤ maxLeg

theorem OpenedBasket.sized (h : OpenedBasket E d m m' maker swap tokenProg bump w g) :
    BasketSized d := ⟨h.length,h.counts.2.1,h.counts.2.2⟩

def basketFields (E : Env) (maker : Pubkey) (d : Bytes) (bump : UInt8) (n : ℕ) :
    List (ℕ × Bytes) :=
  headerFields maker d bump ++ wantFields d (wantCount d) ++ giveFields E d n

section
variable (h : BasketSized d)
include h

theorem headerFields_lengths : (slice d (tailOff d+8) 32).length = 32 ∧
    (slice d (tailOff d+41) 32).length = 32 ∧ (slice d 0 32).length = 32 := by
  have hl := h.length
  unfold tailOff wantOff at hl ⊢
  exact ⟨slice_length _ _ _ (by omega),slice_length _ _ _ (by omega),slice_length _ _ _ (by omega)⟩

/-- The header lies around the room for the entries. -/
theorem headerFields_apart (f : ℕ × Bytes) (hf : f ∈ headerFields maker d bump) :
    f.1+f.2.length ≤ bGive ∨ bTaker ≤ f.1 ∧ f.1+f.2.length ≤ basketLen := by
  obtain ⟨h₁,h₂,h₃⟩ := headerFields_lengths h
  simp only [headerFields, basketHeader, List.mem_cons, List.not_mem_nil, or_false] at hf
  rcases hf with rfl | rfl | rfl | rfl | rfl | rfl | rfl | rfl | rfl | rfl <;>
    simp [h₁, h₂, h₃, bMaker, bGiveCount, bWantCount, bGive, bTaker, bAuthMode, bClaimAuth, bExpiry,
      bStatus, bBump, bNonce, basketLen]

theorem wantFields_within (f : ℕ × Bytes) (hf : f ∈ wantFields d (wantCount d)) :
    ∃ j < wantCount d, f.1 = bWant+j*entryLen ∧ f.2.length = entryLen := by
  obtain ⟨j,hj,rfl⟩ := List.mem_map.mp hf
  rw [List.mem_range] at hj
  refine ⟨j,hj,rfl,slice_length _ _ _ ?_⟩
  have hl := h.length
  unfold tailOff at hl
  simp only [entryLen] at hl ⊢
  omega

omit h in
theorem giveFields_within {n : ℕ} (f : ℕ × Bytes) (hf : f ∈ giveFields E d n) :
    ∃ i < n, bGive+i*entryLen ≤ f.1 ∧ f.1+f.2.length ≤ bGive+i*entryLen+entryLen := by
  obtain ⟨i,hi,hf⟩ := List.mem_flatMap.mp hf
  rw [List.mem_range] at hi
  simp only [List.mem_cons, List.not_mem_nil, or_false] at hf
  rcases hf with rfl | rfl <;> exact ⟨i,hi,by simp,by simp [entryLen]⟩

theorem headerFields_pairwise : (headerFields maker d bump).Pairwise fun f g =>
    f.1+f.2.length ≤ g.1 ∨ g.1+g.2.length ≤ f.1 := by
  obtain ⟨h₁,h₂,h₃⟩ := headerFields_lengths h
  simp [headerFields, basketHeader, h₁, h₂, h₃, bMaker, bGiveCount, bWantCount, bTaker, bAuthMode,
    bClaimAuth, bExpiry, bStatus, bBump, bNonce]

omit h in
theorem wantFields_pairwise : (wantFields d (wantCount d)).Pairwise fun f g =>
    f.1+f.2.length ≤ g.1 ∨ g.1+g.2.length ≤ f.1 := by
  rw [wantFields, List.pairwise_map]
  refine List.pairwise_lt_range.imp fun {i j} hij => ?_
  have hl := slice_length_le d (wantOff d+i*entryLen) entryLen
  left
  simp only [entryLen] at hl ⊢
  omega

omit h in
theorem giveFields_pairwise (n : ℕ) : (giveFields E d n).Pairwise fun f g =>
    f.1+f.2.length ≤ g.1 ∨ g.1+g.2.length ≤ f.1 := by
  rw [giveFields, List.pairwise_flatMap]
  constructor
  · intro i _
    simp
  · refine List.pairwise_lt_range.imp fun {i j} hij => ?_
    intro x hx y hy
    simp only [List.mem_cons, List.not_mem_nil, or_false] at hx hy
    left
    rcases hx with rfl | rfl <;> rcases hy with rfl | rfl <;> simp [entryLen] <;> omega

/-- No two fields of a basket overlap. -/
theorem basketFields_placed {n : ℕ} (hn : n ≤ giveCount d) :
    WellPlaced basketLen (basketFields E maker d bump n) := by
  have hg := h.gives
  have hw := h.wants
  constructor
  · intro f hf
    rcases List.mem_append.mp hf with hf | hf
    · rcases List.mem_append.mp hf with hf | hf
      · rcases headerFields_apart h f hf with hf | hf
        · exact hf.trans (by decide)
        · exact hf.2
      · obtain ⟨j,hj,h₁,h₂⟩ := wantFields_within h f hf
        simp only [bWant, entryLen, maxLeg, basketLen] at *
        omega
    · obtain ⟨i,hi,h₁,h₂⟩ := giveFields_within f hf
      simp only [bGive, entryLen, maxLeg, basketLen] at *
      omega
  · rw [basketFields, List.pairwise_append, List.pairwise_append]
    refine ⟨⟨headerFields_pairwise h,wantFields_pairwise,?_⟩,giveFields_pairwise n,?_⟩
    · intro f hf e he
      obtain ⟨j,hj,h₁,h₂⟩ := wantFields_within h e he
      have hf := headerFields_apart h f hf
      simp only [bWant, bGive, bTaker, entryLen, maxLeg] at *
      omega
    · intro f hf e he
      obtain ⟨i,hi,h₁,h₂⟩ := giveFields_within e he
      rcases List.mem_append.mp hf with hf | hf
      · have hf := headerFields_apart h f hf
        simp only [bGive, bTaker, entryLen, maxLeg] at *
        omega
      · obtain ⟨j,hj,h₃,h₄⟩ := wantFields_within h f hf
        simp only [bWant, bGive, entryLen, maxLeg] at *
        omega

theorem basketRecord_length {n : ℕ} (hn : n ≤ giveCount d) :
    (basketRecord E maker d bump n).length = basketLen := placed_length (basketFields_placed h hn)

structure HeaderReads (maker : Pubkey) (d b : Bytes) (bump : UInt8) : Prop where
  maker : keyAt b bMaker = maker
  giveCount : (byteAt b bGiveCount).toNat = giveCount d
  wantCount : (byteAt b bWantCount).toNat = wantCount d
  taker : slice b bTaker 32 = slice d (tailOff d+8) 32
  authMode : byteAt b bAuthMode = byteAt d (tailOff d+40)
  claimAuth : slice b bClaimAuth 32 = slice d (tailOff d+41) 32
  expiry : i64At b bExpiry = i64At d (tailOff d)
  status : byteAt b bStatus = statusOpen
  bump : byteAt b bBump = bump
  nonce : slice b bNonce 32 = slice d 0 32

theorem basketRecord_header {n : ℕ} (hn : n ≤ Xete.Swap.giveCount d) :
    HeaderReads maker d (basketRecord E maker d bump n) bump := by
  have hp : WellPlaced basketLen (basketFields E maker d bump n) := basketFields_placed h hn
  obtain ⟨h₁,h₂,h₃⟩ := headerFields_lengths h
  have hmem : ∀ f ∈ headerFields maker d bump, f ∈ basketFields E maker d bump n := fun f hf =>
    List.mem_append_left _ (List.mem_append_left _ hf)
  have hb := i64At_bounds d (tailOff d)
  exact
    { maker := placed_key hp bMaker maker (hmem _ (by simp [headerFields, basketHeader]))
      giveCount := by
        have hc : byteAt (basketRecord E maker d bump n) bGiveCount =
          UInt8.ofNat (Xete.Swap.giveCount d) :=
          placed_byte hp bGiveCount _ (hmem _ (by simp [headerFields, basketHeader]))
        rw [hc]
        simp [Xete.Swap.giveCount]
      wantCount := by
        have hc : byteAt (basketRecord E maker d bump n) bWantCount =
          UInt8.ofNat (Xete.Swap.wantCount d) :=
          placed_byte hp bWantCount _ (hmem _ (by simp [headerFields, basketHeader]))
        rw [hc]
        simp [Xete.Swap.wantCount]
      taker := placed_slice hp bTaker 32 _ h₁ (hmem _ (by simp [headerFields, basketHeader]))
      authMode := placed_byte hp bAuthMode _ (hmem _ (by simp [headerFields, basketHeader]))
      claimAuth := placed_slice hp bClaimAuth 32 _ h₂
        (hmem _ (by simp [headerFields, basketHeader]))
      expiry := placed_i64 hp bExpiry _ hb.1 hb.2 (hmem _ (by simp [headerFields, basketHeader]))
      status := placed_byte hp bStatus _ (hmem _ (by simp [headerFields, basketHeader]))
      bump := placed_byte hp bBump _ (hmem _ (by simp [headerFields, basketHeader]))
      nonce := placed_slice hp bNonce 32 _ h₃ (hmem _ (by simp [headerFields, basketHeader])) }

theorem basketRecord_give {n i : ℕ} (hn : n ≤ giveCount d) (hi : i < n) :
    entryMint (basketRecord E maker d bump n) bGive i = giveMintAt E i ∧
      entryAmount (basketRecord E maker d bump n) bGive i = giveAmountAt d i := by
  have hp : WellPlaced basketLen (basketFields E maker d bump n) := basketFields_placed h hn
  have hmem : ∀ f ∈ [(bGive+i*entryLen,(giveMintAt E i).bytes),
      (bGive+i*entryLen+32,le 8 (giveAmountAt d i))],
      f ∈ basketFields E maker d bump n := fun f hf =>
    List.mem_append_right _ (List.mem_flatMap.mpr ⟨i,List.mem_range.mpr hi,hf⟩)
  exact ⟨placed_key hp _ _ (hmem _ (by simp)),
    placed_u64 hp _ _ (u64At_le _ _) (hmem _ (by simp))⟩

theorem basketRecord_want {n j : ℕ} (hn : n ≤ giveCount d) (hj : j < wantCount d) :
    slice (basketRecord E maker d bump n) (bWant+j*entryLen) entryLen =
      slice d (wantOff d+j*entryLen) entryLen := by
  have hp : WellPlaced basketLen (basketFields E maker d bump n) := basketFields_placed h hn
  have hl := h.length
  unfold tailOff at hl
  refine placed_slice hp _ _ _ (slice_length _ _ _ ?_) ?_
  · simp only [entryLen] at hl ⊢
    omega
  · exact List.mem_append_left _ (List.mem_append_right _
      (List.mem_map.mpr ⟨j,List.mem_range.mpr hj,rfl⟩))

end

end Xete.Swap
