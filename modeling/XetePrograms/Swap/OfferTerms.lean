import XetePrograms.Swap.Market
import XetePrograms.Swap.OfferTrace
import XetePrograms.Swap.Seeds

/-!
# What an offer binds

`make_offer` copies the goods from the listing that it finds, and
`accept_offer` reads the price from the offer that it finds. Each keeps what
its signer saw exactly when the account found still says so.
-/

set_option autoImplicit false

namespace Xete.Swap
open Xete.Octets Xete.Weakest Xete.Chain Xete.Token Xete.Runtime Xete.Rules

section
variable {E : Env} {m m' : Machine} {d : Bytes}

/-! ## The recorded fields -/

theorem offerFields_placed (offerer swap wantMint giveMint : Pubkey) (wantAmount giveAmount : ℕ)
    (expiry : ℤ) (bump : UInt8) (nonce : Bytes) (hn : nonce.length = 32) :
    WellPlaced offerLen (offerFields offerer swap wantMint wantAmount giveMint giveAmount
      expiry bump nonce) := by
  simp [WellPlaced, offerFields, oOfferer, oSwap, oWantMint, oWantAmt, oGiveMint, oGiveAmt, oExpiry,
    oStatus, oBump, oNonce, offerLen, hn]

/-- Reading a field of a new offer record. -/
theorem offerRecord_slice (k : OfferKeys) (s d : Bytes) (bump : UInt8) (hd : d.length = 48)
    (off len : ℕ) (b : Bytes) (hb : b.length = len)
    (hf : (off,b) ∈ offerFields k.offerer k.swap k.wantMint (u64At d 32) (keyAt s sGiveMint)
      (u64At s sGiveAmt) (i64At d 40) bump (slice d 0 32)) :
    slice (offerRecord k s d bump) off len = b := by
  subst hb
  have hz : (zeros offerLen).length = offerLen := List.length_replicate
  exact slice_patches _ _ (by
    rw [hz]; exact offerFields_placed _ _ _ _ _ _ _ _ _ (slice_length _ _ _ (by omega))) (off,b) hf

theorem natLe_u64 (d : Bytes) (off : ℕ) : natLe (le 8 (u64At d off)) = u64At d off :=
  natLe_le 8 _ (by have := u64At_le d off; simp only [u64Max] at this; omega)

theorem offerRecord_goods (k : OfferKeys) (s d : Bytes) (bump : UInt8) (hd : d.length = 48) :
    keyAt (offerRecord k s d bump) oGiveMint = keyAt s sGiveMint ∧
    u64At (offerRecord k s d bump) oGiveAmt = u64At s sGiveAmt := by
  constructor
  · exact keyAt_eq _ _ _ (offerRecord_slice k s d bump hd _ _ _ (by simp) (by simp [offerFields]))
  · rw [u64At, offerRecord_slice k s d bump hd oGiveAmt 8 (le 8 (u64At s sGiveAmt)) (by simp)
      (by simp [offerFields]), natLe_u64]

/-- The record of an offer after it was made. -/
theorem MadeOffer.stores {k : OfferKeys} {bump vbump dec : UInt8}
    (h : MadeOffer E d m m' k bump vbump dec) :
    Stores E k.offer (offerRecord k (m.ledger k.swap).data d bump) m' := by
  obtain ⟨s₁,-,s₂,-,s₃,-,s₄,-,s₅,h₅,rfl⟩ := h.did
  simp only [Act.effect] at h₅
  split at h₅
  · rename_i hc
    cases h₅
    exact ⟨by simpa using hc.1,by simp⟩
  · cases h₅

/-! ## The goods of the bidder -/

def SameGoods (seen s : Bytes) : Prop :=
  keyAt s sGiveMint = keyAt seen sGiveMint ∧ u64At s sGiveAmt = u64At seen sGiveAmt

def BindsGoods (seen o : Bytes) : Prop :=
  keyAt o oGiveMint = keyAt seen sGiveMint ∧ u64At o oGiveAmt = u64At seen sGiveAmt

/-- Whatever happened to the slot between the offerer's signature and the
execution: the offer is for the goods seen if and only if the listing found is. -/
theorem makeOffer_bindsGoods_iff (hs : SystemRules E.host) (hw : Wellformed E)
    (hf : Confined E.host) (s₀ s₁ : Ledger) (offer swap : AccountInfo)
    (ho : E.accounts[1]? = some offer) (hsw : E.accounts[4]? = some swap)
    (h : process E (4 :: d) ⟨s₁,[]⟩ = .ok () m') :
    BindsGoods (s₀ swap.key).data (m'.ledger offer.key).data ↔
      SameGoods (s₀ swap.key).data (s₁ swap.key).data := by
  obtain ⟨k,bump,vbump,dec,hmade⟩ := wp_ok (makeOffer_did hs hw hf) h
  have hk : ∀ i < 7, ∀ a, E.accounts[i]? = some a →
      [k.offerer,k.offer,k.ovault,k.wantMint,k.swap,k.offererWant,k.tokenProg][i]? =
        some a.key := by
    intro i hi a ha
    rw [← hmade.slots, List.getElem?_take, if_pos hi, List.getElem?_map, ha]
    rfl
  have h₁ : k.offer = offer.key := Option.some_inj.mp (hk 1 (by decide) _ ho)
  have h₂ : k.swap = swap.key := Option.some_inj.mp (hk 4 (by decide) _ hsw)
  have hd := hmade.stores.2
  obtain ⟨hg,ha⟩ := offerRecord_goods k (s₁ k.swap).data d bump hmade.length
  rw [← h₁, ← h₂, BindsGoods, SameGoods, hd, hg, ha]

end

section
open Xete.Market

/-- The maker relists the slot with a hundredth of the goods, and the bid that
the offerer signed before is placed for those. -/
theorem makeOffer_rug : ∃ s₀ s₁ m', runCalls [openSwapCall 100 50] start = some s₀ ∧
    runCalls [cancelSwapCall,openSwapCall 1 50] s₀ = some s₁ ∧
    (makeOfferCall 40).result s₁ = some m' ∧
    ¬BindsGoods (s₀ swapKey).data (m'.ledger offerKey).data := by
  have h : ((runCalls [openSwapCall 100 50] start).any fun s₀ =>
      (runCalls [cancelSwapCall,openSwapCall 1 50] s₀).any fun s₁ =>
      ((makeOfferCall 40).result s₁).any fun m' =>
        u64At (m'.ledger offerKey).data oGiveAmt ≠ u64At (s₀ swapKey).data sGiveAmt) = true := by
    decide +kernel
  simp only [Option.any_eq_true, decide_eq_true_eq] at h
  obtain ⟨s₀,h₀,s₁,h₁,m',hm,hne⟩ := h
  exact ⟨s₀,s₁,m',h₀,h₁,hm,fun hb => hne hb.2⟩

theorem makeOffer_bindsGoods_unchanged : ∃ s₀ m',
    runCalls [openSwapCall 100 50] start = some s₀ ∧ (makeOfferCall 40).result s₀ = some m' ∧
    BindsGoods (s₀ swapKey).data (m'.ledger offerKey).data := by
  have h : ((runCalls [openSwapCall 100 50] start).any fun s₀ =>
      ((makeOfferCall 40).result s₀).isSome) = true := by
    decide +kernel
  simp only [Option.any_eq_true, Option.isSome_iff_exists] at h
  obtain ⟨s₀,h₀,m',hm⟩ := h
  refine ⟨s₀,m',h₀,hm,?_⟩
  exact (makeOffer_bindsGoods_iff market_systemRules (sees_wellformed _ _ _ (by decide))
    market_confined s₀ s₀ ⟨offerKey,false,true⟩ ⟨swapKey,false,true⟩ rfl rfl
    (Call.result_ok hm)).mpr ⟨rfl,rfl⟩

end

/-! ## The price of the maker -/

section
variable {E : Env} {m m' : Machine} {d : Bytes}

theorem sent_priceActs (tp src mt dst auth feeAcct : Pubkey) (n fee : ℕ) (dec : UInt8)
    (seeds : Option (List Bytes)) (h : fee ≤ n) :
    sent src (priceActs tp src mt feeAcct dst auth n fee dec seeds) = n := by
  unfold priceActs feeActs
  split <;> simp [sent, Act.sends, transferAct] <;> omega

theorem AcceptedOffer.pays {k : AcceptKeys} {giveDec wantDec : UInt8}
    (hf : E.host.CollisionFree) (h : AcceptedOffer E d m m' k giveDec wantDec)
    (hm : m.trace = []) :
    sent k.offerVault (m'.trace.map Event.act) = u64At (m.ledger k.offer).data oWantAmt := by
  obtain ⟨b,hb⟩ := h.swapVault
  obtain ⟨b',hb'⟩ := h.offerVault
  have hl := h.length
  have hne : k.swapVault ≠ k.offerVault :=
    (Place.At.of_find (p := .vault _ _) (slice_length _ _ _ (by omega)) hb).ne hf
      (Place.At.of_find (p := .ovault _ _) (slice_length _ _ _ (by omega)) hb') (by simp)
  rw [did_trace _ _ _ h.did, hm, List.map_nil, List.nil_append, acceptActs, sent_append,
    sent_priceActs _ _ _ _ _ _ _ _ _ _ h.feePaid.le]
  simp [sent, Act.sends, transferAct, closeAct, hne]

/-- Whatever happened to the offer between the maker's signature and the
execution: the offer vault pays at least the price seen if and only if the offer
found is for no less. -/
theorem acceptOffer_keepsPrice_iff (hf : E.host.CollisionFree) (s₀ s₁ : Ledger)
    (offer offerVault : AccountInfo) (ho : E.accounts[3]? = some offer)
    (hv : E.accounts[4]? = some offerVault) (h : process E (5 :: d) ⟨s₁,[]⟩ = .ok () m') :
    u64At (s₀ offer.key).data oWantAmt ≤ sent offerVault.key (m'.trace.map Event.act) ↔
      u64At (s₀ offer.key).data oWantAmt ≤ u64At (s₁ offer.key).data oWantAmt := by
  obtain ⟨k,giveDec,wantDec,hacc⟩ := wp_ok acceptOffer_did h
  have hk : ∀ (i : ℕ) (a : AccountInfo), E.accounts[i]? = some a →
    [k.maker,k.swap,k.swapVault,k.offer,k.offerVault, k.offerer,k.giveMint,k.wantMint,k.offererGive,
    k.makerWant,k.tokenProg,k.config, k.feeAta][i]? = some a.key := by
    intro i a ha
    rw [← hacc.slots, List.getElem?_map, ha]
    rfl
  have h₁ : k.offer = offer.key := Option.some_inj.mp (hk 3 _ ho)
  have h₂ : k.offerVault = offerVault.key := Option.some_inj.mp (hk 4 _ hv)
  rw [← h₁, ← h₂, hacc.pays hf rfl]

end

section
open Xete.Market

/-- The offerer replaces the bid by a fortieth of it, and the acceptance that
the maker signed before takes it. -/
theorem acceptOffer_rug : ∃ s₀ s₁ m',
    runCalls [openSwapCall 100 50,makeOfferCall 40] start = some s₀ ∧
    runCalls [withdrawOfferCall,makeOfferCall 1] s₀ = some s₁ ∧
    acceptOfferCall.result s₁ = some m' ∧
    ¬u64At (s₀ offerKey).data oWantAmt ≤ sent ovaultKey (m'.trace.map Event.act) := by
  have h : ((runCalls [openSwapCall 100 50,makeOfferCall 40] start).any fun s₀ =>
      (runCalls [withdrawOfferCall,makeOfferCall 1] s₀).any fun s₁ =>
      (acceptOfferCall.result s₁).any fun m' =>
        sent ovaultKey (m'.trace.map Event.act) < u64At (s₀ offerKey).data oWantAmt) = true := by
    decide +kernel
  simp only [Option.any_eq_true, decide_eq_true_eq] at h
  obtain ⟨s₀,h₀,s₁,h₁,m',hm,hlt⟩ := h
  exact ⟨s₀,s₁,m',h₀,h₁,hm,hlt.not_ge⟩

theorem acceptOffer_keepsPrice_unchanged : ∃ s₀ m',
    runCalls [openSwapCall 100 50,makeOfferCall 40] start = some s₀ ∧
    acceptOfferCall.result s₀ = some m' ∧
    u64At (s₀ offerKey).data oWantAmt ≤ sent ovaultKey (m'.trace.map Event.act) := by
  have h : ((runCalls [openSwapCall 100 50,makeOfferCall 40] start).any fun s₀ =>
      (acceptOfferCall.result s₀).isSome) = true := by
    decide +kernel
  simp only [Option.any_eq_true, Option.isSome_iff_exists] at h
  obtain ⟨s₀,h₀,m',hm⟩ := h
  refine ⟨s₀,m',h₀,hm,?_⟩
  exact (acceptOffer_keepsPrice_iff market_collisionFree s₀ s₀ ⟨offerKey,false,true⟩
    ⟨ovaultKey,false,true⟩ rfl rfl (Call.result_ok hm)).mpr (le_refl _)

end

end Xete.Swap
