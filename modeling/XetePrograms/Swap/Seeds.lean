import XetePrograms.Swap.Process

/-!
# The addresses of the program

Every address of the program is derived from one of eleven seed formats. No
two formats, and no two choices of their fields, share a seed string.
-/

set_option autoImplicit false

namespace Xete.Swap
open Xete.Octets Xete.Chain

inductive Place where
  | swap (maker : Pubkey) (nonce : Bytes)
  | vault (maker : Pubkey) (nonce : Bytes)
  | offer (offerer : Pubkey) (nonce : Bytes)
  | ovault (offerer : Pubkey) (nonce : Bytes)
  | basket (maker : Pubkey) (nonce : Bytes)
  | bvault (maker : Pubkey) (nonce : Bytes) (idx : UInt8)
  | listing (maker : Pubkey) (nonce : Bytes)
  | order (maker : Pubkey)
  | orderDone (maker : Pubkey) (nonce : Bytes)
  | config
  | feeVault (wantMint : Pubkey) (idx : UInt8)
  deriving DecidableEq

namespace Place

def seeds : Place → List Bytes
  | swap m n => swapSeeds m n
  | vault m n => vaultSeeds m n
  | offer o n => offerSeeds o n
  | ovault o n => ovaultSeeds o n
  | basket m n => basketSeeds m n
  | bvault m n i => bvaultSeeds m n i
  | listing m n => listingSeeds m n
  | order m => orderSeeds m
  | orderDone m n => orderDoneSeeds m n
  | config => configSeeds
  | feeVault w i => feeVaultSeeds w i

def Sized : Place → Prop
  | swap _ n => n.length = 32
  | vault _ n => n.length = 32
  | offer _ n => n.length = 32
  | ovault _ n => n.length = 32
  | basket _ n => n.length = 32
  | bvault _ n _ => n.length = 32
  | listing _ n => n.length = 32
  | order _ => True
  | orderDone _ n => n.length = 32
  | config => True
  | feeVault _ _ => True

theorem seeds_injective (p q : Place) (hp : p.Sized) (hq : q.Sized)
    (h : p.seeds.flatten = q.seeds.flatten) : p = q := by
  have hl := congrArg List.length h
  -- formats of one length differ in their first bytes
  cases p <;> cases q <;>
    simp [seeds, Sized, swapSeeds, vaultSeeds, offerSeeds, ovaultSeeds, basketSeeds, bvaultSeeds,
      listingSeeds, orderSeeds, orderDoneSeeds, configSeeds, feeVaultSeeds] at h hl hp hq ⊢ <;>
    first | exact h | omega

def At (H : Host) (p : Place) (k : Pubkey) : Prop :=
  p.Sized ∧ ∃ b, H.createProgramAddress (bumped p.seeds b) H.programId = some k

variable {H : Host} {p q : Place} {k : Pubkey}

theorem At.isPda (h : p.At H k) : H.IsPda k := by
  obtain ⟨-,b,hb⟩ := h
  exact H.create_isPda _ _ hb

theorem At.of_find {b : UInt8} (hp : p.Sized)
    (h : H.findProgramAddress p.seeds H.programId = some (k,b)) : p.At H k :=
  ⟨hp,b,H.find_create _ _ _ _ h⟩

/-- The bump seed ends the seed string, so it is pinned as well. -/
theorem bumped_injective (p q : Place) (b b' : UInt8) (hp : p.Sized) (hq : q.Sized)
    (h : (bumped p.seeds b).flatten = (bumped q.seeds b').flatten) : p = q ∧ b = b' := by
  simp only [bumped, List.flatten_append, List.flatten_singleton] at h
  obtain ⟨hs,hb⟩ := List.append_inj' h rfl
  exact ⟨seeds_injective p q hp hq hs,List.singleton_inj.mp hb⟩

/-- No address stands for two things. -/
theorem At.inj (hf : H.CollisionFree) (h : p.At H k) (h' : q.At H k) : p = q := by
  obtain ⟨hp,b,hb⟩ := h
  obtain ⟨hq,b',hb'⟩ := h'
  exact (bumped_injective p q b b' hp hq (hf _ _ _ _ _ hb hb').1).1

theorem At.ne (hf : H.CollisionFree) {k' : Pubkey} (h : p.At H k) (h' : q.At H k') (hpq : p ≠ q) :
    k ≠ k' := by
  rintro rfl
  exact hpq (h.inj hf h')

end Place

end Xete.Swap
