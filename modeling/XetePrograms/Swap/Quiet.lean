import XetePrograms.Swap.Authentic

/-!
# The handlers that take no token program

They send no token instruction, so that every run of theirs is clean whatever
the other programs do.
-/

set_option autoImplicit false

namespace Xete.Swap
open Xete.Octets Xete.Weakest Xete.Chain Xete.Runtime

variable {P : Prop} {E : Env} {m : Machine}

theorem initConfig_quiet (d : Bytes) (hc : Clean P m) :
    wp (initConfig E d) (fun _ => Clean P) (Clean P) m := by
  simp [initConfig, hc]
  intros
  split
  · simp [hc, createPda]
  · exact hc

theorem updateConfig_quiet (d : Bytes) (hc : Clean P m) :
    wp (updateConfig E d) (fun _ => Clean P) (Clean P) m := by
  simp [updateConfig, hc]
  intros
  split
  · simp [hc]
  · exact hc

theorem rewrap_quiet (d : Bytes) (hc : Clean P m) :
    wp (rewrap E d) (fun _ => Clean P) (Clean P) m := by
  simp [rewrap, hc]
  intros
  split
  · simp [hc]
  · exact hc

theorem openPnft_quiet (d : Bytes) (hc : Clean P m) :
    wp (openPnft E d) (fun _ => Clean P) (Clean P) m := by
  simp [openPnft, hc]
  intros
  split
  · simp [hc, createPda, emitPostCreated, mplTransfer]
  · exact hc

theorem openCore_quiet (d : Bytes) (hc : Clean P m) :
    wp (openCore E d) (fun _ => Clean P) (Clean P) m := by
  simp [openCore, hc]
  intros
  split
  · simp [hc, createPda, emitPostCreated, mplCoreTransfer]
  · exact hc

theorem listPnft_quiet (d : Bytes) (hc : Clean P m) :
    wp (listPnft E d) (fun _ => Clean P) (Clean P) m := by
  simp [listPnft, hc]
  intros
  split
  · simp [hc, createPda, emitPostCreated, mplDelegateOrRevoke]
  · exact hc

theorem listCore_quiet (d : Bytes) (hc : Clean P m) :
    wp (listCore E d) (fun _ => Clean P) (Clean P) m := by
  simp [listCore, hc]
  intros
  split
  · simp [hc, createPda, emitPostCreated, mplCorePlugin]
  · exact hc

/-- The delist fee is a payment in lamports. -/
theorem payDelistFee_quiet {Q : Unit → Machine → Prop} (config maker feeWallet : AccountInfo)
    (hc : Clean P m) (hk : ∀ m', Clean P m' → Q () m') :
    wp (payDelistFee E config maker feeWallet) Q (Clean P) m := by
  simp only [payDelistFee, transferLamports, wp_bind, wp_readConfig, wp_ite, wp_failIf, hc,
    implies_true, and_true, wp_pure]
  refine fun _ => ⟨fun _ _ => ?_,fun _ => hk m hc⟩
  exact clean_perform _ hc (by simp) (fun _ _ h => hk _ h)

/-! Those that close a record may do so: no token program was passed. -/

variable (hclose : ∀ k dest s, Proper P ⟨.close k dest,s⟩)
include hclose

theorem cancelPnft_quiet (d : Bytes) (hc : Clean P m) :
    wp (cancelPnft E d) (fun _ => Clean P) (Clean P) m := by
  simp [cancelPnft, hc]
  intros
  split
  · simp [hc]
    intros
    apply payDelistFee_quiet _ _ _ hc
    intro m₁ h₁
    simp [h₁, hclose, releasePnft, mplTransfer]
  · exact hc

theorem expirePnft_quiet (d : Bytes) (hc : Clean P m) :
    wp (expirePnft E d) (fun _ => Clean P) (Clean P) m := by
  simp [expirePnft, hc]
  intros
  split
  · simp [hc, hclose, releasePnft, mplTransfer]
  · exact hc

theorem cancelCore_quiet (d : Bytes) (hc : Clean P m) :
    wp (cancelCore E d) (fun _ => Clean P) (Clean P) m := by
  simp [cancelCore, hc]
  intros
  split
  · simp [hc]
    intros
    apply payDelistFee_quiet _ _ _ hc
    intro m₁ h₁
    simp [h₁, hclose, releaseCore, mplCoreTransfer]
  · exact hc

theorem expireCore_quiet (d : Bytes) (hc : Clean P m) :
    wp (expireCore E d) (fun _ => Clean P) (Clean P) m := by
  simp [expireCore, hc]
  intros
  split
  · simp [hc, hclose, releaseCore, mplCoreTransfer]
  · exact hc

theorem cancelListingPnft_quiet (d : Bytes) (hc : Clean P m) :
    wp (cancelListingPnft E d) (fun _ => Clean P) (Clean P) m := by
  simp [cancelListingPnft, hc]
  intros
  split
  · simp [hc]
    intros
    apply payDelistFee_quiet _ _ _ hc
    intro m₁ h₁
    simp [h₁, hclose, mplDelegateOrRevoke]
  · exact hc

theorem cancelListingCore_quiet (d : Bytes) (hc : Clean P m) :
    wp (cancelListingCore E d) (fun _ => Clean P) (Clean P) m := by
  simp [cancelListingCore, hc]
  intros
  split
  · simp [hc]
    intros
    apply payDelistFee_quiet _ _ _ hc
    intro m₁ h₁
    simp [h₁, hclose, mplCorePlugin]
  · exact hc

theorem expireRestedListing_quiet (caller listing maker : AccountInfo) (asset : Option Pubkey)
    (nonce : Bytes) (hc : Clean P m) :
    wp (expireRestedListing E caller listing maker asset nonce) (fun _ => Clean P) (Clean P)
      m := by
  simp [expireRestedListing, hc, hclose]

theorem expireListing_quiet (d : Bytes) (hc : Clean P m) :
    wp (expireListing E d) (fun _ => Clean P) (Clean P) m := by
  simp [expireListing, hc]
  intros
  split
  · exact expireRestedListing_quiet hclose _ _ _ _ _ hc
  · exact hc

theorem expireListingPnft_quiet (d : Bytes) (hc : Clean P m) :
    wp (expireListingPnft E d) (fun _ => Clean P) (Clean P) m := by
  simp [expireListingPnft, hc]
  intros
  split
  · exact expireRestedListing_quiet hclose _ _ _ _ _ hc
  · exact hc

theorem expireListingCore_quiet (d : Bytes) (hc : Clean P m) :
    wp (expireListingCore E d) (fun _ => Clean P) (Clean P) m := by
  simp [expireListingCore, hc]
  intros
  split
  · exact expireRestedListing_quiet hclose _ _ _ _ _ hc
  · exact hc

end Xete.Swap
