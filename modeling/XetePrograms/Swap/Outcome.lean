import XetePrograms.Swap.BasketOpen
import XetePrograms.Swap.ConfigTrace
import XetePrograms.Swap.ListingTrace
import XetePrograms.Swap.OrderTrace

/-!
# What a successful instruction did

One case for each instruction: the checks it passed and the acts it performed.
Every invariant of the program is read off these cases.
-/

set_option autoImplicit false

namespace Xete.Swap
open Xete.Octets Xete.Weakest Xete.Chain Xete.Token Xete.Runtime Xete.Rules

inductive Outcome (E : Env) (d : Bytes) (m m' : Machine) : UInt8 → Prop
  | openedSwap (k : SwapKeys) (bump vbump dec : UInt8) (h : OpenedSwap E d m m' k bump vbump dec) :
      Outcome E d m m' 0
  | filledSwap (m₁ : Machine) (k : RecordKeys) (v : VaultKeys) (giveDec wantDec : UInt8)
      (h : FilledSwap E d m m₁ m' k v giveDec wantDec) : Outcome E d m m' 1
  | cancelledSwap (k : SwapRefundKeys) (feeWallet : Pubkey) (fee : ℕ) (dec : UInt8)
      (hl : d.length = 32) (hs : E.signed k.maker)
      (h : RefundedSwap E d m m' k 3 5 (delistActs k.maker feeWallet fee) dec) : Outcome E d m m' 2
  | expiredSwap (k : SwapRefundKeys) (dec : UInt8) (hl : d.length = 32)
      (hx : i64At (m.ledger k.swap).data sExpiry ≤ E.clock)
      (h : RefundedSwap E d m m' k 4 6 [] dec) :
      Outcome E d m m' 3
  | madeOffer (k : OfferKeys) (bump vbump dec : UInt8) (h : MadeOffer E d m m' k bump vbump dec) :
      Outcome E d m m' 4
  | acceptedOffer (k : AcceptKeys) (giveDec wantDec : UInt8)
      (h : AcceptedOffer E d m m' k giveDec wantDec) : Outcome E d m m' 5
  | withdrawnOffer (k : RefundKeys) (dec : UInt8) (hl : d.length = 32) (hs : E.signed k.offerer)
      (h : RefundedOffer E d m m' k 3 5 dec) : Outcome E d m m' 6
  | expiredOffer (k : RefundKeys) (dec : UInt8) (hl : d.length = 32)
      (hx : i64At (m.ledger k.offer).data oExpiry ≤ E.clock)
      (h : RefundedOffer E d m m' k 4 6 dec) :
      Outcome E d m m' 7
  | initedConfig (admin config : Pubkey) (bump : UInt8) (b : Bytes)
      (h : InitedConfig E d m m' admin config bump b) : Outcome E d m m' 8
  | updatedConfig (admin config : Pubkey) (b : Bytes) (h : UpdatedConfig E d m m' admin config b) :
      Outcome E d m m' 9
  | initedFeeVault (k : FeeVaultKeys) (bump : UInt8) (h : InitedFeeVault E d m m' k bump) :
      Outcome E d m m' 10
  | sweptFees (k : SweepKeys) (dec bump : UInt8) (h : SweptFees E d m m' k dec bump) :
      Outcome E d m m' 11
  | openedBasket (maker swap tokenProg : Pubkey) (bump : UInt8) (w g : ℕ → List Act)
      (h : OpenedBasket E d m m' maker swap tokenProg bump w g) : Outcome E d m m' 12
  | filledBasket (swap taker maker tokenProg : Pubkey) (w g : ℕ → List Act)
      (h : FilledBasket E d m m' swap taker maker tokenProg w g) : Outcome E d m m' 13
  | claimedBasket (swap maker tokenProg bearer : Pubkey) (g : ℕ → List Act)
      (h : ClaimedBasket E d m m' swap maker tokenProg bearer g) : Outcome E d m m' 14
  | rewrapped (swap bearer : Pubkey) (h : Rewrapped E d m m' swap bearer) : Outcome E d m m' 15
  | cancelledBasket (swap maker tokenProg feeWallet : Pubkey) (fee : ℕ) (g : ℕ → List Act)
      (h : CancelledBasket E d m m' swap maker tokenProg feeWallet fee g) : Outcome E d m m' 16
  | expiredBasket (swap maker tokenProg : Pubkey) (g : ℕ → List Act)
      (h : ExpiredBasket E d m m' swap maker tokenProg g) : Outcome E d m m' 17
  | openedPnft (k : NftKeys) (args : MplTransfer) (bump : UInt8)
      (h : OpenedPnft E d m m' k args bump) : Outcome E d m m' 18
  | filledPnft (m₁ : Machine) (k : RecordKeys) (p : Payment) (vault dest : Pubkey)
      (args : MplTransfer) (h : FilledPnft E d m m₁ m' k p vault dest args) : Outcome E d m m' 19
  | cancelledPnft (k : ReleaseKeys) (vault dest : Pubkey) (args : MplTransfer) (pre : List Act)
      (h : CancelledPnft E d m m' k vault dest args pre) : Outcome E d m m' 20
  | expiredPnft (k : ReleaseKeys) (vault dest : Pubkey) (args : MplTransfer)
      (h : ExpiredPnft E d m m' k vault dest args) : Outcome E d m m' 21
  | openedCore (k : NftKeys) (collection : Pubkey) (bump : UInt8)
      (h : OpenedCore E d m m' k collection bump) : Outcome E d m m' 22
  | filledCore (m₁ : Machine) (k : RecordKeys) (wantDec : UInt8) (collection : Pubkey)
      (h : FilledCore E d m m₁ m' k wantDec collection) : Outcome E d m m' 23
  | cancelledCore (k : ReleaseKeys) (collection payer : Pubkey) (pre : List Act)
      (h : CancelledCore E d m m' k collection payer pre) : Outcome E d m m' 24
  | expiredCore (k : ReleaseKeys) (collection payer : Pubkey)
      (h : ExpiredCore E d m m' k collection payer) : Outcome E d m m' 25
  | listedToken (maker listing giveMint wantMint : Pubkey) (bump : UInt8) (mid : List Act)
      (h : ListedToken E d m m' maker listing giveMint wantMint bump mid) : Outcome E d m m' 26
  | filledToken (m₁ : Machine) (k : RecordKeys) (p : Payment) (prog source dest : Pubkey)
      (dec : UInt8) (h : FilledToken E d m m₁ m' k p prog source dest dec) : Outcome E d m m' 27
  | cancelledListing (tag : UInt8) (ht : tag ∈ ([28,32,36] : List UInt8)) (maker listing : Pubkey)
      (pre : List Act) (h : CancelledListing E d m m' maker listing pre) : Outcome E d m m' tag
  | expiredListing (tag : UInt8) (ht : tag ∈ ([29,33,37] : List UInt8)) (maker listing : Pubkey)
      (h : ExpiredListing E d m m' maker listing) : Outcome E d m m' tag
  | listedPnft (maker listing giveMint wantMint : Pubkey) (bump : UInt8) (args : MplDelegate)
      (h : ListedPnft E d m m' maker listing giveMint wantMint bump args) : Outcome E d m m' 30
  | filledNft (m₁ : Machine) (k : RecordKeys) (p : Payment) (args : MplTransfer)
      (source dest : Pubkey) (h : FilledNft E d m m₁ m' k p args source dest) : Outcome E d m m' 31
  | listedCore (maker listing asset wantMint : Pubkey) (bump : UInt8) (mid : List Act)
      (h : ListedCore E d m m' maker listing asset wantMint bump mid) : Outcome E d m m' 34
  | filledListingCore (m₁ : Machine) (k : RecordKeys) (wantDec : UInt8) (collection : Pubkey)
      (h : FilledListing E d m m₁ m' k (plainPayment wantDec)
        (.coreTransfer mplCoreId k.giveMint collection k.taker k.record k.taker true)) :
      Outcome E d m m' 35
  | sold (tag : UInt8) (ht : tag ∈ ([38,39,40] : List UInt8)) (h : Sells E tag d m m') :
      Outcome E d m m' tag
  | bought (tag : UInt8) (ht : tag ∈ ([41,42,43] : List UInt8)) (h : Settles E tag d m m') :
      Outcome E d m m' tag

variable {E : Env} {m m' : Machine} {d : Bytes} {tag : UInt8}

/-- One tag does not belong to two disjoint groups. -/
theorem tags_apart {xs ys : List UInt8} (hx : tag ∈ xs) (hy : tag ∈ ys)
    (h : xs.all (fun t => !ys.contains t) = true) : False := by
  have ht := List.all_eq_true.mp h tag hx
  simp [hy] at ht

theorem handler_outcome (hs : SystemRules E.host) (hw : Wellformed E) (hf : Confined E.host) :
    wp (handler E tag d) (fun _ m' => Outcome E d m m' tag) (fun _ => True) m := by
  unfold handler
  split
  · exact wp_mono (openSwap_did hs hw hf) (fun _ _ ⟨_,_,_,_,h⟩ => .openedSwap _ _ _ _ h)
      (fun _ h => h)
  · exact wp_mono fill_did (fun _ _ ⟨_,_,_,_,_,h⟩ => .filledSwap _ _ _ _ _ h) (fun _ h => h)
  · exact wp_mono cancelSwap_did
      (fun _ _ ⟨hl,_,hs,_,_,_,h⟩ => .cancelledSwap _ _ _ _ hl hs h) (fun _ h => h)
  · exact wp_mono expire_did (fun _ _ ⟨hl,_,hx,_,h⟩ => .expiredSwap _ _ hl hx h) (fun _ h => h)
  · exact wp_mono (makeOffer_did hs hw hf) (fun _ _ ⟨_,_,_,_,h⟩ => .madeOffer _ _ _ _ h)
      (fun _ h => h)
  · exact wp_mono acceptOffer_did (fun _ _ ⟨_,_,_,h⟩ => .acceptedOffer _ _ _ h) (fun _ h => h)
  · exact wp_mono withdrawOffer_did (fun _ _ ⟨hl,_,_,h,hs⟩ => .withdrawnOffer _ _ hl hs h)
      (fun _ h => h)
  · exact wp_mono expireOffer_did (fun _ _ ⟨hl,_,_,h,hx⟩ => .expiredOffer _ _ hl hx h)
      (fun _ h => h)
  · exact wp_mono initConfig_did (fun _ _ ⟨_,_,_,_,h⟩ => .initedConfig _ _ _ _ h) (fun _ h => h)
  · exact wp_mono updateConfig_did (fun _ _ ⟨_,_,_,h⟩ => .updatedConfig _ _ _ h) (fun _ h => h)
  · exact wp_mono initFeeVault_did (fun _ _ ⟨_,_,h⟩ => .initedFeeVault _ _ h) (fun _ h => h)
  · exact wp_mono sweepFees_did (fun _ _ ⟨_,_,_,h⟩ => .sweptFees _ _ _ h) (fun _ h => h)
  · exact wp_mono (openBasket_did hs hw hf)
      (fun _ _ ⟨_,_,_,_,_,_,h⟩ => .openedBasket _ _ _ _ _ _ h) (fun _ h => h)
  · exact wp_mono (fillBasket_did hw hf) (fun _ _ ⟨_,_,_,_,_,_,h⟩ => .filledBasket _ _ _ _ _ _ h)
      (fun _ h => h)
  · exact wp_mono (claimBearer_did hw hf) (fun _ _ ⟨_,_,_,_,_,h⟩ => .claimedBasket _ _ _ _ _ h)
      (fun _ h => h)
  · exact wp_mono rewrap_did (fun _ _ ⟨_,_,h⟩ => .rewrapped _ _ h) (fun _ h => h)
  · exact wp_mono (cancelBasket_did hw hf)
      (fun _ _ ⟨_,_,_,_,_,_,h⟩ => .cancelledBasket _ _ _ _ _ _ h) (fun _ h => h)
  · exact wp_mono (expireBasket_did hw hf) (fun _ _ ⟨_,_,_,_,h⟩ => .expiredBasket _ _ _ _ h)
      (fun _ h => h)
  · exact wp_mono (openPnft_did hs hw hf) (fun _ _ ⟨_,_,_,h⟩ => .openedPnft _ _ _ h) (fun _ h => h)
  · exact wp_mono fillPnft_did (fun _ _ ⟨_,_,_,_,_,_,h⟩ => .filledPnft _ _ _ _ _ _ h) (fun _ h => h)
  · exact wp_mono cancelPnft_did (fun _ _ ⟨_,_,_,_,_,h⟩ => .cancelledPnft _ _ _ _ _ h)
      (fun _ h => h)
  · exact wp_mono expirePnft_did (fun _ _ ⟨_,_,_,_,h⟩ => .expiredPnft _ _ _ _ h) (fun _ h => h)
  · exact wp_mono (openCore_did hs hw hf) (fun _ _ ⟨_,_,_,h⟩ => .openedCore _ _ _ h) (fun _ h => h)
  · exact wp_mono fillCore_did (fun _ _ ⟨_,_,_,_,h⟩ => .filledCore _ _ _ _ h) (fun _ h => h)
  · exact wp_mono cancelCore_did (fun _ _ ⟨_,_,_,_,h⟩ => .cancelledCore _ _ _ _ h) (fun _ h => h)
  · exact wp_mono expireCore_did (fun _ _ ⟨_,_,_,h⟩ => .expiredCore _ _ _ h) (fun _ h => h)
  · exact wp_mono (list_did hs hw hf) (fun _ _ ⟨_,_,_,_,_,_,h⟩ => .listedToken _ _ _ _ _ _ h)
      (fun _ h => h)
  · exact wp_mono fillListing_did (fun _ _ ⟨_,_,_,_,_,_,_,h⟩ => .filledToken _ _ _ _ _ _ _ h)
      (fun _ h => h)
  · exact wp_mono cancelListing_did
      (fun _ _ ⟨_,_,_,h⟩ => .cancelledListing _ (by decide) _ _ _ h) (fun _ h => h)
  · exact wp_mono expireListing_did
      (fun _ _ ⟨_,_,h⟩ => .expiredListing _ (by decide) _ _ h) (fun _ h => h)
  · exact wp_mono (listPnft_did hs hw hf) (fun _ _ ⟨_,_,_,_,_,_,h⟩ => .listedPnft _ _ _ _ _ _ h)
      (fun _ h => h)
  · exact wp_mono fillListingPnft_did (fun _ _ ⟨_,_,_,_,_,_,h⟩ => .filledNft _ _ _ _ _ _ h)
      (fun _ h => h)
  · exact wp_mono cancelListingPnft_did
      (fun _ _ ⟨_,_,_,h⟩ => .cancelledListing _ (by decide) _ _ _ h) (fun _ h => h)
  · exact wp_mono expireListingPnft_did
      (fun _ _ ⟨_,_,h⟩ => .expiredListing _ (by decide) _ _ h) (fun _ h => h)
  · exact wp_mono (listCore_did hs hw hf) (fun _ _ ⟨_,_,_,_,_,_,h⟩ => .listedCore _ _ _ _ _ _ h)
      (fun _ h => h)
  · exact wp_mono fillListingCore_did (fun _ _ ⟨_,_,_,_,h⟩ => .filledListingCore _ _ _ _ h)
      (fun _ h => h)
  · exact wp_mono cancelListingCore_did
      (fun _ _ ⟨_,_,_,h⟩ => .cancelledListing _ (by decide) _ _ _ h) (fun _ h => h)
  · exact wp_mono expireListingCore_did
      (fun _ _ ⟨_,_,h⟩ => .expiredListing _ (by decide) _ _ h) (fun _ h => h)
  · exact wp_mono (settleSignedOrder_did hs) (fun _ _ h => .sold _ (by decide) h) (fun _ h => h)
  · exact wp_mono settleSignedOrderPnft_did (fun _ _ h => .sold _ (by decide) h) (fun _ h => h)
  · exact wp_mono settleSignedOrderCore_did (fun _ _ h => .sold _ (by decide) h) (fun _ h => h)
  · exact wp_mono (settleSignedBidSpl_did hs) (fun _ _ h => .bought _ (by decide) h) (fun _ h => h)
  · exact wp_mono (settleSignedBidPnft_did hs) (fun _ _ h => .bought _ (by decide) h) (fun _ h => h)
  · exact wp_mono (settleSignedBidCore_did hs) (fun _ _ h => .bought _ (by decide) h) (fun _ h => h)
  · trivial

end Xete.Swap
