import XetePrograms.Swap.Outcome

/-!
# Every instruction stays within its footprint

The acts of each instruction are known; here each is read as a footprint, and
`handler_within` collects them over all tags.
-/

set_option autoImplicit false

namespace Xete.Swap
open Xete.Octets Xete.Weakest Xete.Chain Xete.Token Xete.Runtime Xete.Rules

variable {E : Env} {tag : UInt8} {m m' : Machine} {d nonce : Bytes}

/-! ## The swap family -/

section
variable {maker swap dest : Pubkey} {s : Bytes} {b : UInt8} {c : Cpi}

theorem swap_signed (ht : tag ∈ swapTags) (hn : nonce.length = 32) :
    Footprint E tag [.invoke c (some (swapSigner maker s nonce))] :=
  footprint_signed (.swap maker nonce) (byteAt s sBump) c hn ht

theorem swap_close (ht : tag ∈ swapTags) (hn : nonce.length = 32)
    (h : E.host.createProgramAddress (swapSigner maker s nonce) E.programId = some swap) :
    Footprint E tag [.close swap dest] :=
  footprint_close (.swap maker nonce) swap dest ⟨hn,_,h⟩ ht

end

theorem FreshSlot.nonce_length {maker swap : Pubkey} {bump : UInt8}
    (h : FreshSlot E d m maker swap bump) : (slice d 0 32).length = 32 :=
  slice_length _ _ _ (by have := h.length; omega)

theorem FreshSlot.created {maker swap : Pubkey} {bump : UInt8} (h : FreshSlot E d m maker swap bump)
    (ht : tag ∈ swapTags) (c : Cpi) :
    Footprint E tag [.invoke c (some (bumped (swapSeeds maker (slice d 0 32)) bump))] :=
  footprint_signed (.swap maker (slice d 0 32)) bump c h.nonce_length ht

theorem FreshSlot.written {maker swap : Pubkey} {bump : UInt8} (h : FreshSlot E d m maker swap bump)
    (ht : tag ∈ swapTags) (b : Bytes) : Footprint E tag [.write swap b] :=
  footprint_write (.swap maker (slice d 0 32)) swap b (.of_find h.nonce_length h.address) ht

theorem OpenedSwap.footprint {k : SwapKeys} {bump vbump dec : UInt8}
    (h : OpenedSwap E d m m' k bump vbump dec) :
    Footprint E 0 (openSwapActs E k d bump vbump dec) := by
  refine (h.slot.created (by decide) _).cons ((footprint_log _ (by decide)).cons (Footprint.cons ?_
    ((footprint_unsigned _).cons ((footprint_unsigned _).cons (h.slot.written (by decide) _)))))
  exact footprint_signed (.vault k.maker (slice d 0 32)) vbump _ h.slot.nonce_length rfl

theorem OpenedPnft.footprint {k : NftKeys} {args : MplTransfer} {bump : UInt8}
    (h : OpenedPnft E d m m' k args bump) : Footprint E 18 (openPnftActs E k d args bump) :=
  (h.slot.created (by decide) _).cons
    ((footprint_log _ (by decide)).cons ((footprint_unsigned _).cons
    (h.slot.written (by decide) _)))

theorem OpenedCore.within {k : NftKeys} {collection : Pubkey} {bump : UInt8}
    (h : OpenedCore E d m m' k collection bump) : Within E 22 m m' :=
  .of_did h.did ((h.slot.created (by decide) _).cons ((footprint_log _ (by decide)).cons
    ((footprint_unsigned _).cons (h.slot.written (by decide) _))))

theorem FilledSwap.within {m₁ : Machine} {k : RecordKeys} {v : VaultKeys} {giveDec wantDec : UInt8}
    (h : FilledSwap E d m m₁ m' k v giveDec wantDec) : Within E 1 m m' := by
  have hpaid : Within E 1 m m₁ := .of_did h.paid.did h.idle.footprint
  exact hpaid.did h.did ((swap_signed (by decide) h.nonce).cons
    ((swap_signed (by decide) h.nonce).cons (swap_close (by decide) h.nonce h.address)))

theorem RefundedSwap.within {k : SwapRefundKeys} {mintIdx tokenIdx : ℕ} {pre : List Act}
    {dec : UInt8} (h : RefundedSwap E nonce m m' k mintIdx tokenIdx pre dec) (hi : Idle E pre)
    (ht : tag ∈ swapTags) (hn : nonce.length = 32) : Within E tag m m' :=
  .of_did h.did (hi.footprint.append ((swap_signed ht hn).cons ((swap_signed ht hn).cons
    (swap_close ht hn h.address))))

theorem ReleasedPnft.within {k : ReleaseKeys} {vault dest : Pubkey} {args : MplTransfer}
    {pre : List Act} (h : ReleasedPnft E nonce m m' k vault dest args pre) (hi : Idle E pre)
    (ht : tag ∈ swapTags) (hn : nonce.length = 32) : Within E tag m m' :=
  .of_did h.did (hi.footprint.append ((swap_signed ht hn).cons (swap_close ht hn h.address)))

theorem ReleasedCore.within {k : ReleaseKeys} {collection payer : Pubkey} {pre : List Act}
    (h : ReleasedCore E nonce m m' k collection payer pre) (hi : Idle E pre)
    (ht : tag ∈ swapTags) (hn : nonce.length = 32) : Within E tag m m' :=
  .of_did h.did (hi.footprint.append ((swap_signed ht hn).cons (swap_close ht hn h.address)))

theorem FilledPnft.within {m₁ : Machine} {k : RecordKeys} {p : Payment} {vault dest : Pubkey}
    {args : MplTransfer} (h : FilledPnft E d m m₁ m' k p vault dest args) : Within E 19 m m' := by
  have hpaid : Within E 19 m m₁ := .of_did h.paid.did h.idle.footprint
  exact hpaid.did h.did ((swap_signed (by decide) h.nonce).cons
    (swap_close (by decide) h.nonce h.address))

theorem FilledCore.within {m₁ : Machine} {k : RecordKeys} {wantDec : UInt8} {collection : Pubkey}
    (h : FilledCore E d m m₁ m' k wantDec collection) : Within E 23 m m' := by
  have hpaid : Within E 23 m m₁ := .of_did h.paid.did h.idle.footprint
  exact hpaid.did h.did ((swap_signed (by decide) h.nonce).cons
    (swap_close (by decide) h.nonce h.address))

theorem idle_nil : Idle E [] := ⟨by simp,by simp,by simp⟩

/-! ## Offers -/

theorem MadeOffer.within {k : OfferKeys} {bump vbump dec : UInt8}
    (h : MadeOffer E d m m' k bump vbump dec) : Within E 4 m m' := by
  have hn : (slice d 0 32).length = 32 := slice_length _ _ _ (by have := h.length; omega)
  refine .of_did h.did (Footprint.cons ?_ (Footprint.cons ?_ ((footprint_unsigned _).cons
    ((footprint_unsigned _).cons ?_))))
  · exact footprint_signed (.offer k.offerer (slice d 0 32)) bump _ hn (by simp [MaySign])
  · exact footprint_signed (.ovault k.offerer (slice d 0 32)) vbump _ hn rfl
  · exact footprint_write (.offer k.offerer (slice d 0 32)) _ _ (.of_find hn h.address)
      (by simp [MayChange])

theorem AcceptedOffer.within {k : AcceptKeys} {giveDec wantDec : UInt8}
    (h : AcceptedOffer E d m m' k giveDec wantDec) : Within E 5 m m' := by
  have hs : (slice d 0 32).length = 32 := slice_length _ _ _ (by have := h.length; omega)
  have ho : (slice d 32 32).length = 32 := slice_length _ _ _ (by have := h.length; omega)
  obtain ⟨bs,hswap⟩ := h.swapAddress
  obtain ⟨bo,hoffer⟩ := h.offerAddress
  have hsign : MaySign 5 (.offer k.offerer (slice d 32 32)) := by simp [MaySign]
  have hchange : MayChange 5 (.offer k.offerer (slice d 32 32)) := by simp [MayChange]
  refine .of_did h.did (.append ?_ ((swap_signed (by decide) hs).cons (Footprint.cons ?_
    ((swap_signed (by decide) hs).cons (Footprint.cons ?_ ?_)))))
  · exact footprint_priceActs (.offer k.offerer (slice d 32 32)) _ _ _ _ _ _ _ _ _ _ ho hsign
  · exact footprint_signed (.offer k.offerer (slice d 32 32)) _ _ ho hsign
  · exact footprint_close (.offer k.offerer (slice d 32 32)) _ _ (.of_find ho hoffer) hchange
  · exact footprint_close (.swap k.maker (slice d 0 32)) _ _ (.of_find hs hswap)
      (by decide : 5 ∈ swapTags)

theorem RefundedOffer.within {k : RefundKeys} {mintIdx tokenIdx : ℕ} {dec : UInt8}
    (h : RefundedOffer E nonce m m' k mintIdx tokenIdx dec) (ht : tag ∈ ([4,5,6,7] : List UInt8))
    (hn : nonce.length = 32) : Within E tag m m' := by
  obtain ⟨b,hk⟩ := h.address
  refine .of_did h.did (Footprint.cons ?_ (Footprint.cons ?_ ?_))
  · exact footprint_signed (.offer k.offerer nonce) _ _ hn ht
  · exact footprint_signed (.offer k.offerer nonce) _ _ hn ht
  · exact footprint_close (.offer k.offerer nonce) _ _ (.of_find hn hk) ht

/-! ## Baskets -/

theorem OpenedBasket.within {maker swap tokenProg : Pubkey} {bump : UInt8} {w g : ℕ → List Act}
    (h : OpenedBasket E d m m' maker swap tokenProg bump w g) : Within E 12 m m' := by
  have hn : (slice d 0 32).length = 32 := slice_length _ _ _ (by
    have := h.length
    unfold tailOff wantOff at this
    omega)
  have hwrite : ∀ b, Footprint E 12 [.write swap b] := fun b =>
    footprint_write (.basket maker (slice d 0 32)) _ _ (.of_find hn h.address) (by simp [MayChange])
  refine .of_did h.did ((Footprint.cons ?_ (hwrite _)).append ?_ |>.append ?_)
  · exact footprint_signed (.basket maker (slice d 0 32)) bump _ hn (by simp [MaySign])
  · apply footprint_flatMap _ _
    intro j hj
    obtain ⟨b,hb⟩ := h.wants j hj
    rw [hb]
    exact hwrite b
  · apply footprint_flatMap _ _
    intro i hi
    obtain ⟨vault,source,vbump,dec,-,-,-,hg⟩ := h.legs i hi
    rw [hg]
    refine Footprint.cons ?_ ((footprint_unsigned _).cons ((footprint_unsigned _).cons (hwrite _)))
    exact footprint_signed (.bvault maker (slice d 0 32) (UInt8.ofNat i)) vbump _ hn rfl

theorem GiveLegs.footprint {b : Bytes} {swap maker tokenProg : Pubkey} {giveBase : ℕ}
    {g : ℕ → List Act} (h : GiveLegs E b swap maker tokenProg nonce giveBase g)
    (ht : tag ∈ ([12,13,14,16,17] : List UInt8)) (hn : nonce.length = 32)
    (ha : E.host.createProgramAddress (basketSigner b nonce) E.programId = some swap)
    (hc : MayChange tag (.basket (keyAt b bMaker) nonce)) :
    Footprint E tag (closingActs b swap maker g) := by
  refine (footprint_flatMap _ _ fun i hi => ?_).append ?_
  · obtain ⟨vault,dest,dec,bump,-,-,hg⟩ := h i hi
    rw [hg]
    exact (footprint_signed (.basket (keyAt b bMaker) nonce) _ _ hn ht).cons
      (footprint_signed (.basket (keyAt b bMaker) nonce) _ _ hn ht)
  · exact footprint_close (.basket (keyAt b bMaker) nonce) _ _ ⟨hn,_,ha⟩ hc

theorem FilledBasket.within {swap taker maker tokenProg : Pubkey} {w g : ℕ → List Act}
    (h : FilledBasket E d m m' swap taker maker tokenProg w g) : Within E 13 m m' := by
  refine .of_did h.did ((footprint_flatMap _ _ fun j hj => ?_).append (h.giveLegs.footprint
    (by decide) h.length h.isBasket.address (by simp [MayChange])))
  obtain ⟨takerWant,makerWant,feeAta,fee,dec,-,-,hw⟩ := h.wantLegs j hj
  rw [hw]
  exact (isPayment_priceActs _ _ _ _ _ _ _ _ _).idle.footprint

theorem ReleasedBasket.within {swap maker tokenProg : Pubkey} {swapIdx tokenIdx giveBase : ℕ}
    {pre : List Act} {g : ℕ → List Act}
    (h : ReleasedBasket E nonce m m' swap maker tokenProg swapIdx tokenIdx giveBase pre g)
    (hi : Idle E pre) (ht : tag ∈ ([12,13,14,16,17] : List UInt8)) (hn : nonce.length = 32)
    (hc : MayChange tag (.basket (keyAt (m.ledger swap).data bMaker) nonce)) : Within E tag m m' :=
  .of_did h.did (hi.footprint.append (h.giveLegs.footprint ht hn h.isBasket.address hc))

theorem Rewrapped.within {swap bearer : Pubkey} (h : Rewrapped E d m m' swap bearer) :
    Within E 15 m m' := by
  have hn : (slice d 0 32).length = 32 := slice_length _ _ _ (by have := h.length; omega)
  obtain ⟨b,hk⟩ := h.address
  exact .of_did h.did (footprint_write (.basket _ (slice d 0 32)) _ _ (.of_find hn hk)
    (by simp [MayChange]))

/-! ## The config, the fee vaults and the sealed orders -/

theorem InitedConfig.within {admin config : Pubkey} {bump : UInt8} {b : Bytes}
    (h : InitedConfig E d m m' admin config bump b) : Within E 8 m m' :=
  .of_did h.did ((footprint_signed .config bump _ trivial (by simp [MaySign])).cons
    (footprint_write .config _ _ (.of_find trivial h.address) (by simp [MayChange])))

theorem UpdatedConfig.within {admin config : Pubkey} {b : Bytes}
    (h : UpdatedConfig E d m m' admin config b) : Within E 9 m m' := by
  obtain ⟨bump,hk⟩ := h.isConfig.2.1
  exact .of_did h.did (footprint_write .config _ _ (.of_find trivial hk) (by simp [MayChange]))

theorem InitedFeeVault.within {k : FeeVaultKeys} {bump : UInt8}
    (h : InitedFeeVault E d m m' k bump) : Within E 10 m m' :=
  .of_did h.did ((footprint_signed (.feeVault k.wantMint (byteAt d 0)) bump _ trivial rfl).cons
    (footprint_unsigned _))

theorem SweptFees.within {k : SweepKeys} {dec bump : UInt8} (h : SweptFees E d m m' k dec bump) :
    Within E 11 m m' := by
  refine .of_did h.did ?_
  unfold sweepActs
  split
  · exact footprint_nil
  · exact footprint_signed .config bump _ trivial (by simp [MaySign])

theorem Settles.within (h : Settles E tag d m m') (ht : tag ∈ settleTags) : Within E tag m m' := by
  obtain ⟨maker,o,payer,auth,marker,authBump,doneBump,as,h⟩ := h
  obtain ⟨ix,ho⟩ := h.order
  refine .of_did h.did (Footprint.cons ?_ ⟨fun k hk => ?_,
    fun k hk => (h.moves.touches k hk).elim,fun b hb => (h.moves.quiet b hb).elim⟩)
  · exact footprint_signed (.orderDone maker.key o.terms.nonce) doneBump _
      (sealedOrder_sized ho).nonce ht
  · exact ⟨.order maker.key,ht,trivial,authBump,h.moves.signs k hk⟩

/-! ## All tags -/

theorem cancel_listing_tag (h : tag ∈ ([28,32,36] : List UInt8)) : tag ∈ listingTags := by
  simp only [List.mem_cons, List.not_mem_nil, or_false] at h
  rcases h with rfl | rfl | rfl <;> decide

theorem expire_listing_tag (h : tag ∈ ([29,33,37] : List UInt8)) : tag ∈ listingTags := by
  simp only [List.mem_cons, List.not_mem_nil, or_false] at h
  rcases h with rfl | rfl | rfl <;> decide

theorem settle_tag (h : tag ∈ ([38,39,40] : List UInt8) ∨ tag ∈ ([41,42,43] : List UInt8)) :
    tag ∈ settleTags := by
  simp only [List.mem_cons, List.not_mem_nil, or_false] at h
  rcases h with (rfl | rfl | rfl) | rfl | rfl | rfl <;> decide

theorem Outcome.within (h : Outcome E d m m' tag) : Within E tag m m' := by
  cases h with
  | openedSwap _ _ _ _ h => exact .of_did h.did h.footprint
  | filledSwap _ _ _ _ _ h => exact h.within
  | cancelledSwap _ _ _ _ hl _ h => exact h.within (idle_delistActs _ _ _) (by decide) hl
  | expiredSwap _ _ hl _ h => exact h.within idle_nil (by decide) hl
  | madeOffer _ _ _ _ h => exact h.within
  | acceptedOffer _ _ _ h => exact h.within
  | withdrawnOffer _ _ hl _ h => exact h.within (by decide) hl
  | expiredOffer _ _ hl _ h => exact h.within (by decide) hl
  | initedConfig _ _ _ _ h => exact h.within
  | updatedConfig _ _ _ h => exact h.within
  | initedFeeVault _ _ h => exact h.within
  | sweptFees _ _ _ h => exact h.within
  | openedBasket _ _ _ _ _ _ h => exact h.within
  | filledBasket _ _ _ _ _ _ h => exact h.within
  | claimedBasket _ _ _ _ _ h =>
    exact h.toReleasedBasket.within idle_nil (by decide) h.length (by simp [MayChange])
  | rewrapped _ _ h => exact h.within
  | cancelledBasket _ _ _ _ _ _ h =>
    exact h.toReleasedBasket.within (idle_delistActs _ _ _) (by decide) h.length
      (by simp [MayChange])
  | expiredBasket _ _ _ _ h =>
    exact h.toReleasedBasket.within idle_nil (by decide) h.length (by simp [MayChange])
  | openedPnft _ _ _ h => exact .of_did h.did h.footprint
  | filledPnft _ _ _ _ _ _ h => exact h.within
  | cancelledPnft _ _ _ _ _ h => exact h.toReleasedPnft.within h.idle (by decide) h.length
  | expiredPnft _ _ _ _ h => exact h.toReleasedPnft.within idle_nil (by decide) h.length
  | openedCore _ _ _ h => exact h.within
  | filledCore _ _ _ _ h => exact h.within
  | cancelledCore _ _ _ _ h => exact h.toReleasedCore.within h.idle (by decide) h.length
  | expiredCore _ _ _ h => exact h.toReleasedCore.within idle_nil (by decide) h.length
  | listedToken _ _ _ _ _ _ h => exact h.within (by decide) (by decide)
  | filledToken _ _ _ _ _ _ _ h => exact h.within (by decide)
  | cancelledListing _ ht _ _ _ h => exact h.within (cancel_listing_tag ht)
  | expiredListing _ ht _ _ h => exact h.within (expire_listing_tag ht)
  | listedPnft _ _ _ _ _ _ h => exact h.within (by decide) (by decide)
  | filledNft _ _ _ _ _ _ h => exact h.within (by decide)
  | listedCore _ _ _ _ _ _ h => exact h.within (by decide) (by decide)
  | filledListingCore _ _ _ _ h => exact h.within (by decide)
  | sold _ ht h => exact h.settles.within (settle_tag (.inl ht))
  | bought _ ht h => exact h.within (settle_tag (.inr ht))

theorem handler_within (hs : SystemRules E.host) (hw : Wellformed E) (hf : Confined E.host) :
    wp (handler E tag d) (fun _ m' => Within E tag m m') (fun _ => True) m :=
  wp_mono (handler_outcome hs hw hf) (fun _ _ h => h.within) (fun _ h => h)

end Xete.Swap
