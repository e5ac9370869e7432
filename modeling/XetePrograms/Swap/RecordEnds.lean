import XetePrograms.Swap.Records

/-!
# The records that each instruction opens, closes or re-keys
-/

set_option autoImplicit false

namespace Xete.Swap
open Xete.Octets Xete.Weakest Xete.Chain Xete.Token Xete.Runtime Xete.Rules

variable {E : Env} {m m₁ m' : Machine} {d : Bytes} {tag : UInt8} {p : Place}

/-! ## Swaps -/

theorem FreshSlot.at {maker swap : Pubkey} {bump : UInt8} (h : FreshSlot E d m maker swap bump) :
    (Place.swap maker (slice d 0 32)).At E.host swap := .of_find h.nonce_length h.address

theorem swapRecord_holds {maker giveMint wantMint : Pubkey} {n : ℕ} {bump : UInt8}
    (hd : 120 ≤ d.length) (hn : n ≤ u64Max) (hz : n ≠ 0) :
    (Place.swap maker (slice d 0 32)).Holds (swapRecord maker giveMint n wantMint d bump) := by
  have hv : swapView (swapRecord maker giveMint n wantMint d bump) = _ := swapRecord_view hd hn
  simp only [swapView, postedTerms, SwapView.mk.injEq] at hv
  obtain ⟨hmaker,-,hamount,-,-,-,-,-,hopen,-,hnonce,hmode,-⟩ := hv
  exact ⟨⟨swapRecord_length hd,hmaker,hopen,by rwa [hamount],hnonce⟩,hmode⟩

theorem OpenedSwap.ends {k : SwapKeys} {bump vbump dec : UInt8}
    (h : OpenedSwap E d m m' k bump vbump dec) : Ends E d m m' := by
  have hl : 120 ≤ d.length := by rw [h.slot.length]
  have hrec : RecordEnd E d (openSwapActs E k d bump vbump dec) m m' k.swap := by
    refine ends_opened [.log (openedEvent kindSwap k.maker k.swap k.giveMint (u64At d 32)
      k.wantMint d),createAct E k.maker k.vault tokenAcctLen k.tokenProg
        (bumped (vaultSeeds k.maker (slice d 0 32)) vbump),
        initAct k.tokenProg k.vault k.giveMint k.swap,
      transferAct k.tokenProg k.makerGive k.giveMint k.vault k.maker (u64At d 32) dec none] h.did ?_
      h.slot.at rfl h.slot.signed (swapRecord_holds hl (u64At_le _ _) h.positive) fun _ =>
        ⟨_,List.mem_cons_self⟩
    simp [createAct, initAct, transferAct]
  refine ends_one h.did ?_ ?_ hrec
  · intro j hj
    simp [openSwapActs, createAct, initAct, transferAct] at hj
    rcases hj with hj | hj
    · exact .inl (address_unique hj (E.host.find_create _ _ _ _ h.slot.address))
    · exact .inr ⟨.vault k.maker (slice d 0 32),rfl,h.slot.nonce_length,vbump,hj⟩
  · intro j hj
    simpa [openSwapActs, createAct, initAct, transferAct] using hj

theorem OpenedPnft.ends {k : NftKeys} {args : MplTransfer} {bump : UInt8}
    (h : OpenedPnft E d m m' k args bump) : Ends E d m m' := by
  have hl : 120 ≤ d.length := by rw [h.slot.length]
  have hrec : RecordEnd E d (openPnftActs E k d args bump) m m' k.swap :=
    ends_opened [.log (openedEvent kindSwapPnft k.maker k.swap k.mint (u64At d 32) k.wantMint d),
      .invoke (.mplTransfer args) none] h.did (by simp) h.slot.at rfl h.slot.signed
      (swapRecord_holds hl (by decide) (by decide)) fun _ => ⟨_,List.mem_cons_self⟩
  refine ends_one h.did ?_ ?_ hrec
  · intro j hj
    simp [openPnftActs, createAct] at hj
    exact .inl (address_unique hj (E.host.find_create _ _ _ _ h.slot.address))
  · intro j hj
    simpa [openPnftActs, createAct] using hj

theorem OpenedCore.ends {k : NftKeys} {collection : Pubkey} {bump : UInt8}
    (h : OpenedCore E d m m' k collection bump) : Ends E d m m' := by
  have hl : 120 ≤ d.length := by rw [h.slot.length]
  refine ends_one h.did ?_ ?_ (ends_opened [.log (openedEvent kindSwapCore k.maker k.swap k.mint
    (u64At d 32) k.wantMint d),
    .invoke (.coreTransfer mplCoreId k.mint collection k.maker mplCoreId k.swap
      false) none] h.did (by simp) h.slot.at rfl h.slot.signed
      (swapRecord_holds hl (by decide) (by decide)) fun _ => ⟨_,List.mem_cons_self⟩)
  · intro j hj
    simp [createAct] at hj
    exact .inl (address_unique hj (E.host.find_create _ _ _ _ h.slot.address))
  · intro j hj
    simpa [createAct] using hj

section
variable {k : RecordKeys} {pay : Payment}

/-- A paid fill of a record, whose address hands over the goods by `rest`. -/
theorem PaidRecord.ends (p : Place) {rest : List Act} {seeds : List Bytes} (hw : Wellformed E)
    (hf : Confined E.host) (h : PaidRecord E d m m₁ k pay)
    (hd : Did E (rest ++ [.close k.record k.maker]) m₁ m')
    (ha : E.host.createProgramAddress seeds E.programId = some k.record)
    (hs : ∀ j, SignsIn E rest j → E.host.createProgramAddress seeds E.programId = some j)
    (ht : ∀ j, ¬TouchedIn rest j) (hk : p.At E.host k.record) (hp : p.party = some k.maker) :
    Ends E d m m' := by
  have hall : Did E ((paidActs m k pay ++ rest) ++ [.close k.record k.maker]) m m' := by
    rw [List.append_assoc]
    exact (did_append _ _ m m').mpr ⟨m₁,h.paid.did,hd⟩
  refine ends_closer p hw hf hall ?_ ?_ hk h.owner (hp.trans (congrArg some h.maker.symm))
  · intro j hj
    rw [signsIn_append] at hj
    exact .inl (address_unique (hs j (hj.resolve_left (h.idle.1 j))) ha)
  · intro j hj
    rw [touchedIn_append] at hj
    exact hj.elim (h.idle.2 j) (ht j)

theorem FilledSwap.ends {v : VaultKeys} {giveDec wantDec : UInt8} (hw : Wellformed E)
    (hf : Confined E.host) (h : FilledSwap E d m m₁ m' k v giveDec wantDec) : Ends E d m m' := by
  have hd : Did E ([transferAct v.giveTokenProg v.vault k.giveMint v.takerGive
    k.record (u64At (m.ledger k.record).data sGiveAmt) giveDec
      (some (swapSigner k.maker (m.ledger k.record).data (slice d 0 32))),
    closeAct v.giveTokenProg v.vault k.maker k.record
      (swapSigner k.maker (m.ledger k.record).data (slice d 0 32))] ++
      [.close k.record k.maker]) m₁ m' := h.did
  refine h.toPaidRecord.ends (.swap k.maker (slice d 0 32)) hw hf hd h.address ?_ ?_
    ⟨h.nonce,_,h.address⟩ rfl
  · intro j hj
    simpa [transferAct, closeAct] using hj
  · intro j
    simp [transferAct, closeAct]

theorem FilledPnft.ends {vault dest : Pubkey} {args : MplTransfer} (hw : Wellformed E)
    (hf : Confined E.host) (h : FilledPnft E d m m₁ m' k pay vault dest args) : Ends E d m m' := by
  have hd : Did E ([.invoke (.mplTransfer args) (some (swapSigner k.maker (m.ledger k.record).data
    (slice d 0 32)))] ++ [.close k.record k.maker]) m₁ m' := h.did
  exact h.toPaidRecord.ends (.swap k.maker (slice d 0 32)) hw hf hd h.address
    (fun j hj => by simpa using hj) (fun j => by simp) ⟨h.nonce,_,h.address⟩ rfl

theorem FilledCore.ends {wantDec : UInt8} {collection : Pubkey} (hw : Wellformed E)
    (hf : Confined E.host) (h : FilledCore E d m m₁ m' k wantDec collection) : Ends E d m m' := by
  have hd : Did E ([.invoke (.coreTransfer mplCoreId k.giveMint collection k.taker k.record k.taker
    true) (some (swapSigner k.maker (m.ledger k.record).data (slice d 0 32)))] ++
      [.close k.record k.maker]) m₁ m' := h.did
  exact h.toPaidRecord.ends (.swap k.maker (slice d 0 32)) hw hf hd h.address
    (fun j hj => by simpa using hj) (fun j => by simp) ⟨h.nonce,_,h.address⟩ rfl

theorem FilledListing.ends {move : Cpi} (hw : Wellformed E) (hf : Confined E.host)
    (h : FilledListing E d m m₁ m' k pay move) : Ends E d m m' := by
  have hd : Did E ([.invoke move (some (listingSigner (m.ledger k.record).data k.maker
    (slice d 0 32)))] ++ [.close k.record k.maker]) m₁ m' := h.did
  exact h.toPaidRecord.ends (.listing k.maker (slice d 0 32)) hw hf hd h.address
    (fun j hj => by simpa using hj) (fun j => by simp) ⟨h.nonce,_,h.address⟩ rfl

end

section
variable {nonce : Bytes} {pre : List Act}

theorem RefundedSwap.ends {k : SwapRefundKeys} {mintIdx tokenIdx : ℕ} {dec : UInt8}
    (hw : Wellformed E) (hf : Confined E.host)
    (h : RefundedSwap E nonce m m' k mintIdx tokenIdx pre dec) (hi : Idle E pre)
    (hn : nonce.length = 32) : Ends E d m m' := by
  have hall : Did E ((pre ++ [transferAct k.tokenProg k.vault k.giveMint k.makerGive k.swap
      (u64At (m.ledger k.swap).data sGiveAmt) dec
      (some (swapSigner k.maker (m.ledger k.swap).data nonce)),
    closeAct k.tokenProg k.vault k.maker k.swap
      (swapSigner k.maker (m.ledger k.swap).data nonce)]) ++
      [.close k.swap k.maker]) m m' := by
    rw [List.append_assoc]
    exact h.did
  refine ends_closer (.swap k.maker nonce) hw hf hall ?_ ?_ ⟨hn,_,h.address⟩ h.isSwap.owner
    (congrArg some h.maker.symm)
  · intro j hj
    simp [transferAct, closeAct, hi.1 j] at hj
    exact .inl (address_unique hj h.address)
  · intro j
    simp [transferAct, closeAct, hi.2 j]

theorem ReleasedPnft.ends {k : ReleaseKeys} {vault dest : Pubkey} {args : MplTransfer}
    (hw : Wellformed E) (hf : Confined E.host) (h : ReleasedPnft E nonce m m' k vault dest args pre)
    (hi : Idle E pre) (hn : nonce.length = 32) :
    Ends E d m m' := by
  have hall : Did E ((pre ++ [.invoke (.mplTransfer args)
      (some (swapSigner k.maker (m.ledger k.swap).data nonce))]) ++ [.close k.swap k.maker]) m
        m' := by
    rw [List.append_assoc]
    exact h.did
  refine ends_closer (.swap k.maker nonce) hw hf hall ?_ ?_ ⟨hn,_,h.address⟩ h.isSwap.owner
    (congrArg some h.maker.symm)
  · intro j hj
    simp [hi.1 j] at hj
    exact .inl (address_unique hj h.address)
  · intro j
    simp [hi.2 j]

theorem ReleasedCore.ends {k : ReleaseKeys} {collection payer : Pubkey} (hw : Wellformed E)
    (hf : Confined E.host) (h : ReleasedCore E nonce m m' k collection payer pre) (hi : Idle E pre)
    (hn : nonce.length = 32) : Ends E d m m' := by
  have hall : Did E ((pre ++
    [.invoke (.coreTransfer mplCoreId k.mint collection payer k.swap k.newOwner
      true) (some (swapSigner k.maker (m.ledger k.swap).data nonce))]) ++ [.close k.swap k.maker])
      m m' := by
    rw [List.append_assoc]
    exact h.did
  refine ends_closer (.swap k.maker nonce) hw hf hall ?_ ?_ ⟨hn,_,h.address⟩ h.isSwap.owner
    (congrArg some h.maker.symm)
  · intro j hj
    simp [hi.1 j] at hj
    exact .inl (address_unique hj h.address)
  · intro j
    simp [hi.2 j]

/-! ## Listings -/

theorem ClosedListing.ends {maker listing : Pubkey} (hw : Wellformed E) (hf : Confined E.host)
    (h : ClosedListing E nonce m m' maker listing pre) : Ends E d m m' := by
  obtain ⟨b,hk⟩ := h.address
  have hi : Idle E pre := unsigned_idle h.unsigned
  exact ends_closer (.listing maker nonce) hw hf h.did (fun j hj => (hi.1 j hj).elim) hi.2
    (.of_find h.length hk) h.isOpen.owner (congrArg some h.recorded.symm)

end

theorem ListedSlot.at {maker listing : Pubkey} {bump : UInt8}
    (h : ListedSlot E d m maker listing bump) :
    (Place.listing maker (slice d 0 32)).At E.host listing :=
  .of_find (slice_length _ _ _ (by have := h.length; omega)) h.address

theorem OpenedListing.ends {maker listing giveMint wantMint : Pubkey} {kind bump : UInt8}
    {mid : List Act} {record : Bytes}
    (h : OpenedListing E d m m' maker listing giveMint wantMint kind bump mid record)
    (hb : RestedHolds maker (slice d 0 32) record) : Ends E d m m' := by
  have hi : Idle E mid := unsigned_idle h.unsigned
  have hd : Did E (createAct E maker listing swapLen E.programId
      (bumped (listingSeeds maker (slice d 0 32)) bump) ::
      ((.log (openedEvent kind maker listing giveMint
        (u64At d 32) wantMint d) :: mid) ++ [.write listing record])) m m' := h.did
  refine ends_one hd ?_ ?_ (ends_opened _ hd ?_ h.slot.at rfl h.slot.signed hb
    fun _ => ⟨_,List.mem_cons_self⟩)
  · intro j hj
    rcases (signsIn_cons _ _ _).mp hj with hj | hj
    · exact .inl (address_unique ((signsIn_invoke _ _ _).mp hj)
        (E.host.find_create _ _ _ _ h.slot.address))
    · rw [signsIn_append, signsIn_cons] at hj
      simp [hi.1 j] at hj
  · intro j hj
    rcases (touchedIn_cons _ _ _).mp hj with hj | hj
    · exact (touchedIn_invoke _ _ _ hj).elim
    · rw [touchedIn_append, touchedIn_cons] at hj
      simpa [hi.2 j] using hj
  · rw [touchedIn_cons]
    simp [hi.2]

theorem listingRecord_holds {maker giveMint wantMint : Pubkey} {bump : UInt8} (hd : 120 ≤ d.length)
    (hz : u64At d 32 ≠ 0) :
    RestedHolds maker (slice d 0 32) (listingRecord maker giveMint wantMint d bump) := by
  have hv : swapView (listingRecord maker giveMint wantMint d bump) = _ := listingRecord_view hd
  simp only [swapView, postedTerms, SwapView.mk.injEq] at hv
  obtain ⟨hmaker,-,hamount,-,-,-,-,-,hopen,-,hnonce,-⟩ := hv
  exact ⟨listingRecord_length hd,hmaker,hopen,by rwa [hamount],hnonce⟩

/-! ## Offers -/

theorem offerRecord_holds (k : OfferKeys) (s : Bytes) (bump : UInt8) (hd : d.length = 48) :
    (Place.offer k.offerer (slice d 0 32)).Holds (offerRecord k s d bump) := by
  have hv := offerRecord_view k s d bump hd
  simp only [offerView, offeredTerms, OfferView.mk.injEq] at hv
  obtain ⟨hofferer,-,-,-,-,-,-,hopen,-,hnonce⟩ := hv
  exact ⟨offerRecord_length k s d bump hd,hofferer,hopen,hnonce⟩

theorem MadeOffer.ends {k : OfferKeys} {bump vbump dec : UInt8}
    (h : MadeOffer E d m m' k bump vbump dec) : Ends E d m m' := by
  have hn : (slice d 0 32).length = 32 := slice_length _ _ _ (by have := h.length; omega)
  have hat : (Place.offer k.offerer (slice d 0 32)).At E.host k.offer := .of_find hn h.address
  have hrec : RecordEnd E d (makeOfferActs E k (m.ledger k.swap).data d bump vbump dec) m m'
    k.offer := by
    refine ends_opened [createAct E k.offerer k.ovault tokenAcctLen splTokenId
      (bumped (ovaultSeeds k.offerer (slice d 0 32)) vbump),
      initAct k.tokenProg k.ovault k.wantMint k.offer,
      transferAct k.tokenProg k.offererWant k.wantMint k.ovault k.offerer (u64At d 32) dec none]
      h.did ?_ hat rfl h.signed (offerRecord_holds k _ bump h.length) fun hp => hp.elim
    simp [createAct, initAct, transferAct]
  refine ends_one h.did ?_ ?_ hrec
  · intro j hj
    simp [makeOfferActs, createAct, initAct, transferAct] at hj
    rcases hj with hj | hj
    · exact .inl (address_unique hj (E.host.find_create _ _ _ _ h.address))
    · exact .inr ⟨.ovault k.offerer (slice d 0 32),rfl,hn,vbump,hj⟩
  · intro j hj
    simpa [makeOfferActs, createAct, initAct, transferAct] using hj

/-- The address that closes an account is the one of the seeds. -/
theorem closeAct_signer (tokenProg acct dest : Pubkey) {auth : Pubkey} {seeds : List Bytes}
    {as : List Act} (hw : Wellformed E) (hk : p.At E.host auth) (hd : Did E as m m')
    (ha : closeAct tokenProg acct dest auth seeds ∈ as) :
    E.host.createProgramAddress seeds E.programId = some auth := by
  obtain ⟨s,s',he⟩ := did_mem hd ha
  obtain ⟨ss,hss,h⟩ :=
    invoke_signer hw hk.isPda (by simp [Cpi.signers, Cpi.metas, signing, writing]) he
  cases hss
  exact h

theorem signsIn_priceActs {tokenProg source mint feeAta dest auth j : Pubkey} {price fee : ℕ}
    {dec : UInt8} {seeds : List Bytes}
    (h : SignsIn E (priceActs tokenProg source mint feeAta dest auth price fee dec (some seeds))
      j) :
    E.host.createProgramAddress seeds E.programId = some j := by
  unfold priceActs feeActs at h
  split at h <;> simpa [transferAct] using h

def escrowActs (k : AcceptKeys) (s o snonce ononce : Bytes) (fee : ℕ) (giveDec wantDec : UInt8) :
    List Act :=
  priceActs k.tokenProg k.offerVault k.wantMint k.feeAta k.makerWant k.offer (u64At o oWantAmt) fee
      wantDec (some (offerSigner k.offerer o ononce)) ++
    [transferAct k.tokenProg k.swapVault k.giveMint k.offererGive k.swap (u64At s sGiveAmt) giveDec
        (some (swapSigner k.maker s snonce)),
      closeAct k.tokenProg k.offerVault k.offerer k.offer (offerSigner k.offerer o ononce),
      closeAct k.tokenProg k.swapVault k.maker k.swap (swapSigner k.maker s snonce)]

theorem acceptActs_eq (k : AcceptKeys) (s o snonce ononce : Bytes) (fee : ℕ)
    (giveDec wantDec : UInt8) :
    acceptActs k s o snonce ononce fee giveDec wantDec =
      escrowActs k s o snonce ononce fee giveDec wantDec ++
        [.close k.offer k.offerer,.close k.swap k.maker] := by
  simp [acceptActs, escrowActs]

theorem touchedIn_escrowActs (k : AcceptKeys) (s o snonce ononce : Bytes) (fee : ℕ)
    (giveDec wantDec : UInt8) (j : Pubkey) :
    ¬TouchedIn (escrowActs k s o snonce ononce fee giveDec wantDec) j := by
  simp [escrowActs, touchedIn_priceActs, transferAct, closeAct]

/-- Both records sign by their own seeds. -/
theorem AcceptedOffer.signers {k : AcceptKeys} {giveDec wantDec : UInt8} (hw : Wellformed E)
    (h : AcceptedOffer E d m m' k giveDec wantDec) :
    E.host.createProgramAddress (swapSigner k.maker (m.ledger k.swap).data (slice d 0 32))
      E.programId = some k.swap ∧
    E.host.createProgramAddress (offerSigner k.offerer (m.ledger k.offer).data (slice d 32 32))
      E.programId = some k.offer := by
  have hsn : (slice d 0 32).length = 32 := slice_length _ _ _ (by have := h.length; omega)
  have hon : (slice d 32 32).length = 32 := slice_length _ _ _ (by have := h.length; omega)
  obtain ⟨bs,hswap⟩ := h.swapAddress
  obtain ⟨bo,hoffer⟩ := h.offerAddress
  have hsat : (Place.swap k.maker (slice d 0 32)).At E.host k.swap := .of_find hsn hswap
  have hoat : (Place.offer k.offerer (slice d 32 32)).At E.host k.offer := .of_find hon hoffer
  exact ⟨closeAct_signer k.tokenProg k.swapVault k.maker hw hsat h.did (by simp [acceptActs]),
    closeAct_signer k.tokenProg k.offerVault k.offerer hw hoat h.did (by simp [acceptActs])⟩

theorem AcceptedOffer.ends {k : AcceptKeys} {giveDec wantDec : UInt8} (hw : Wellformed E)
    (hf : Confined E.host) (hc : E.host.CollisionFree)
    (h : AcceptedOffer E d m m' k giveDec wantDec) :
    Ends E d m m' := by
  obtain ⟨hs,ho⟩ := h.signers hw
  have hsat : (Place.swap k.maker (slice d 0 32)).At E.host k.swap :=
    ⟨slice_length _ _ _ (by have := h.length; omega),_,hs⟩
  have hoat : (Place.offer k.offerer (slice d 32 32)).At E.host k.offer :=
    ⟨slice_length _ _ _ (by have := h.length; omega),_,ho⟩
  have hne : k.offer ≠ k.swap := hoat.ne hc hsat (by simp)
  have hd := h.did
  rw [acceptActs_eq] at hd
  refine ⟨_,fun j => j = k.offer ∨ j = k.swap,hd,⟨?_,?_⟩,?_⟩
  · intro j hj
    rw [escrowActs, signsIn_append, signsIn_append] at hj
    simp [transferAct, closeAct] at hj
    rcases hj with hj | hj | hj | hj
    · exact .inl (.inl (address_unique (signsIn_priceActs hj) ho))
    · exact .inl (.inr (address_unique hj hs))
    · exact .inl (.inl (address_unique hj ho))
    · exact .inl (.inr (address_unique hj hs))
  · intro j hj
    exact .inl (by simpa [touchedIn_escrowActs] using hj)
  · rintro j (rfl | rfl)
    · refine ends_closed hw hf hd (touchedIn_escrowActs _ _ _ _ _ _ _ _ _) ?_ hoat h.isOffer.owner
        (congrArg some h.offerer.symm)
      simpa using hne
    · rw [List.append_cons]
      refine ends_closed hw hf (by rwa [← List.append_cons]) ?_ (by simp) hsat h.isSwap.owner
        (congrArg some h.maker.symm)
      rw [touchedIn_append]
      simpa [touchedIn_escrowActs] using hne.symm

theorem RefundedOffer.signer {nonce : Bytes} {k : RefundKeys} {mintIdx tokenIdx : ℕ} {dec : UInt8}
    (hw : Wellformed E) (h : RefundedOffer E nonce m m' k mintIdx tokenIdx dec)
    (hn : nonce.length = 32) :
    E.host.createProgramAddress (offerSigner k.offerer (m.ledger k.offer).data nonce) E.programId =
      some k.offer := by
  obtain ⟨b,hk⟩ := h.address
  have hat : (Place.offer k.offerer nonce).At E.host k.offer := .of_find hn hk
  exact closeAct_signer k.tokenProg k.ovault k.offerer hw hat h.did (by simp [refundOfferActs])

theorem RefundedOffer.ends {nonce : Bytes} {k : RefundKeys} {mintIdx tokenIdx : ℕ} {dec : UInt8}
    (hw : Wellformed E) (hf : Confined E.host)
    (h : RefundedOffer E nonce m m' k mintIdx tokenIdx dec) (hn : nonce.length = 32) :
    Ends E d m m' := by
  have hsign := h.signer hw hn
  have hat : (Place.offer k.offerer nonce).At E.host k.offer := ⟨hn,_,hsign⟩
  have hall : Did E ([transferAct k.tokenProg k.ovault k.wantMint k.offererWant k.offer
      (u64At (m.ledger k.offer).data oWantAmt) dec
      (some (offerSigner k.offerer (m.ledger k.offer).data
        nonce)),
    closeAct k.tokenProg k.ovault k.offerer k.offer (offerSigner k.offerer (m.ledger k.offer).data
      nonce)] ++ [.close k.offer k.offerer]) m m' := h.did
  refine ends_closer (.offer k.offerer nonce) hw hf hall ?_ ?_ hat h.isOffer.owner
    (congrArg some h.offerer.symm)
  · intro j hj
    simp [transferAct, closeAct] at hj
    exact .inl (address_unique hj hsign)
  · intro j
    simp [transferAct, closeAct]

/-! ## Baskets -/

theorem closings_flatMap {k : Pubkey} {n : ℕ} {g : ℕ → List Act}
    (h : ∀ i < n, closings k (g i) = 0) :
    closings k ((List.range n).flatMap g) = 0 := by
  apply List.countP_eq_zero.mpr
  intro a ha
  obtain ⟨i,hi,ha⟩ := List.mem_flatMap.mp ha
  exact List.countP_eq_zero.mp (h i (List.mem_range.mp hi)) a ha

theorem signsIn_flatMap {j : Pubkey} {n : ℕ} {g : ℕ → List Act}
    (h : SignsIn E ((List.range n).flatMap g) j) : ∃ i < n, SignsIn E (g i) j := by
  obtain ⟨c,seeds,hm,hj⟩ := h
  obtain ⟨i,hi,hm⟩ := List.mem_flatMap.mp hm
  exact ⟨i,List.mem_range.mp hi,c,seeds,hm,hj⟩

theorem touchedIn_flatMap {j : Pubkey} {n : ℕ} {g : ℕ → List Act}
    (h : TouchedIn ((List.range n).flatMap g) j) : ∃ i < n, TouchedIn (g i) j := by
  rcases h with ⟨b,hm⟩ | ⟨dest,hm⟩
  · obtain ⟨i,hi,hm⟩ := List.mem_flatMap.mp hm
    exact ⟨i,List.mem_range.mp hi,.inl ⟨b,hm⟩⟩
  · obtain ⟨i,hi,hm⟩ := List.mem_flatMap.mp hm
    exact ⟨i,List.mem_range.mp hi,.inr ⟨dest,hm⟩⟩

theorem OpenedBasket.nonce {maker swap tokenProg : Pubkey} {bump : UInt8} {w g : ℕ → List Act}
    (h : OpenedBasket E d m m' maker swap tokenProg bump w g) : (slice d 0 32).length = 32 :=
  (headerFields_lengths h.sized).2.2

theorem OpenedBasket.holds {maker swap tokenProg : Pubkey} {bump : UInt8} {w g : ℕ → List Act}
    (h : OpenedBasket E d m m' maker swap tokenProg bump w g) :
    (Place.basket maker (slice d 0 32)).Holds (basketRecord E maker d bump (giveCount d)) := by
  have hr : HeaderReads maker d (basketRecord E maker d bump (giveCount d)) bump :=
    basketRecord_header h.sized (Nat.le_refl _)
  exact ⟨basketRecord_length h.sized (Nat.le_refl _),hr.maker,hr.giveCount.trans_le h.counts.2.1,
    hr.status,hr.nonce⟩

theorem OpenedBasket.names {maker swap tokenProg : Pubkey} {bump : UInt8} {w g : ℕ → List Act}
    (h : OpenedBasket E d m m' maker swap tokenProg bump w g) (hm : m.trace = []) :
    Names E (m'.trace.map Event.act) (· = swap) := by
  rw [did_trace _ _ _ h.did, hm, List.map_nil, List.nil_append]
  constructor
  · intro j hj
    rw [signsIn_append, signsIn_append] at hj
    rcases hj with (hj | hj) | hj
    · simp [createAct] at hj
      exact .inl (address_unique hj (E.host.find_create _ _ _ _ h.address))
    · obtain ⟨i,hi,hj⟩ := signsIn_flatMap hj
      obtain ⟨b,hb⟩ := h.wants i hi
      rw [hb] at hj
      exact (signsIn_write _ _ _ hj).elim
    · obtain ⟨i,hi,hj⟩ := signsIn_flatMap hj
      obtain ⟨vault,source,vbump,dec,-,-,-,hg⟩ := h.legs i hi
      rw [hg] at hj
      simp [createAct, initAct, transferAct] at hj
      exact .inr ⟨.bvault maker (slice d 0 32) (UInt8.ofNat i),rfl,h.nonce,vbump,hj⟩
  · intro j hj
    rw [touchedIn_append, touchedIn_append] at hj
    left
    rcases hj with (hj | hj) | hj
    · simpa [createAct] using hj
    · obtain ⟨i,hi,hj⟩ := touchedIn_flatMap hj
      obtain ⟨b,hb⟩ := h.wants i hi
      rw [hb] at hj
      exact (touchedIn_write _ _ _).mp hj
    · obtain ⟨i,hi,hj⟩ := touchedIn_flatMap hj
      obtain ⟨vault,source,vbump,dec,-,-,-,hg⟩ := h.legs i hi
      rw [hg] at hj
      simpa [createAct, initAct, transferAct] using hj

theorem OpenedBasket.ends {maker swap tokenProg : Pubkey} {bump : UInt8} {w g : ℕ → List Act}
    (h : OpenedBasket E d m m' maker swap tokenProg bump w g) (hm : m.trace = []) :
    Ends E d m m' := by
  have hat : (Place.basket maker (slice d 0 32)).At E.host swap := .of_find h.nonce h.address
  have hn := h.names hm
  rw [did_trace _ _ _ h.did, hm, List.map_nil, List.nil_append] at hn
  refine ⟨_,(· = swap),h.did,hn,?_⟩
  rintro k rfl
  refine .opened _ maker maker basketLen _ _ _ hat rfl h.signed rfl ?_ h.holds h.stores fun hp =>
    hp.elim
  have hw : closings k ((List.range (wantCount d)).flatMap w) = 0 := by
    apply closings_flatMap
    intro j hj
    obtain ⟨b,hb⟩ := h.wants j hj
    rw [hb]
    rfl
  have hg : closings k ((List.range (giveCount d)).flatMap g) = 0 := by
    apply closings_flatMap
    intro i hi
    obtain ⟨vault,source,vbump,dec,-,-,-,hg⟩ := h.legs i hi
    rw [hg]
    rfl
  rw [closings_append, closings_append, hw, hg]
  rfl

/-- The legs of a basket name its record alone. -/
theorem GiveLegs.names {nonce b : Bytes} {swap maker tokenProg : Pubkey} {giveBase : ℕ}
    {g : ℕ → List Act} (hl : GiveLegs E b swap maker tokenProg nonce giveBase g)
    (ha : E.host.createProgramAddress (basketSigner b nonce) E.programId = some swap) :
    (∀ j, SignsIn E ((List.range (byteAt b bGiveCount).toNat).flatMap g) j → j = swap) ∧
      ∀ j, ¬TouchedIn ((List.range (byteAt b bGiveCount).toNat).flatMap g) j := by
  constructor
  · intro j hj
    obtain ⟨i,hi,hj⟩ := signsIn_flatMap hj
    obtain ⟨vault,dest,dec,bump,-,-,hg⟩ := hl i hi
    rw [hg] at hj
    simp [transferAct, closeAct] at hj
    exact address_unique hj ha
  · intro j hj
    obtain ⟨i,hi,hj⟩ := touchedIn_flatMap hj
    obtain ⟨vault,dest,dec,bump,-,-,hg⟩ := hl i hi
    rw [hg] at hj
    simp [transferAct, closeAct] at hj

/-- The legs of a basket and then its close, after acts that name nothing. -/
theorem GiveLegs.ends {nonce b : Bytes} {swap maker tokenProg : Pubkey} {giveBase : ℕ}
    {g : ℕ → List Act} {pre : List Act} (hw : Wellformed E) (hf : Confined E.host)
    (hl : GiveLegs E b swap maker tokenProg nonce giveBase g)
    (hd : Did E (pre ++ closingActs b swap maker g) m m') (hi : Idle E pre)
    (hb : IsBasket E m.ledger swap nonce) (hbe : b = (m.ledger swap).data)
    (hn : nonce.length = 32) :
    Ends E d m m' := by
  rw [closingActs, ← List.append_assoc] at hd
  subst hbe
  obtain ⟨hsign,htouch⟩ := hl.names hb.address
  refine ends_closer (.basket (keyAt (m.ledger swap).data bMaker) nonce) hw hf hd ?_ ?_
    ⟨hn,_,hb.address⟩ hb.owner rfl
  · intro j hj
    rw [signsIn_append] at hj
    exact .inl (hsign j (hj.resolve_left (hi.1 j)))
  · intro j hj
    rw [touchedIn_append] at hj
    exact hj.elim (hi.2 j) (htouch j)

theorem FilledBasket.idle {swap taker maker tokenProg : Pubkey} {w g : ℕ → List Act}
    (h : FilledBasket E d m m' swap taker maker tokenProg w g) :
    Idle E ((List.range (byteAt (m.ledger swap).data bWantCount).toNat).flatMap w) := by
  have hidle : ∀ j < (byteAt (m.ledger swap).data bWantCount).toNat, Idle E (w j) := by
    intro j hj
    obtain ⟨takerWant,makerWant,feeAta,fee,dec,-,-,hw⟩ := h.wantLegs j hj
    rw [hw]
    exact (isPayment_priceActs _ _ _ _ _ _ _ _ _).idle
  constructor
  · intro k hk
    obtain ⟨j,hj,hk⟩ := signsIn_flatMap hk
    exact (hidle j hj).1 k hk
  · intro k hk
    obtain ⟨j,hj,hk⟩ := touchedIn_flatMap hk
    exact (hidle j hj).2 k hk
  · intro b hb
    obtain ⟨j,hj,hb⟩ := List.mem_flatMap.mp hb
    exact (hidle j (List.mem_range.mp hj)).quiet b hb

theorem FilledBasket.ends {swap taker maker tokenProg : Pubkey} {w g : ℕ → List Act}
    (hw : Wellformed E) (hf : Confined E.host)
    (h : FilledBasket E d m m' swap taker maker tokenProg w g) : Ends E d m m' :=
  h.giveLegs.ends hw hf h.did h.idle h.isBasket rfl h.length

theorem ReleasedBasket.ends {nonce : Bytes} {swap maker tokenProg : Pubkey}
    {swapIdx tokenIdx giveBase : ℕ} {pre : List Act} {g : ℕ → List Act} (hw : Wellformed E)
    (hf : Confined E.host)
    (h : ReleasedBasket E nonce m m' swap maker tokenProg swapIdx tokenIdx giveBase pre g)
    (hi : Idle E pre) (hn : nonce.length = 32) : Ends E d m m' :=
  h.giveLegs.ends hw hf h.did hi h.isBasket rfl hn

theorem Rewrapped.ends {swap bearer : Pubkey} (h : Rewrapped E d m m' swap bearer) :
    Ends E d m m' := by
  have hn : (slice d 0 32).length = 32 := slice_length _ _ _ (by have := h.length; omega)
  obtain ⟨b,hk⟩ := h.address
  exact ends_one h.did (fun j hj => by simp at hj) (fun j hj => by simpa using hj)
    (.rekeyed _ bearer (slice d 0 32) (.of_find hn hk) rfl rfl h)

/-! ## The config, the fee vaults and the sealed orders -/

theorem InitedConfig.ends {admin config : Pubkey} {bump : UInt8} {b : Bytes}
    (h : InitedConfig E d m m' admin config bump b) : Ends E d m m' := by
  have hat : Place.config.At E.host config := .of_find trivial h.address
  apply ends_none h.did
  · intro j hj
    simp [createAct] at hj
    exact ⟨.config,rfl,trivial,bump,hj⟩
  · intro j hj
    simp [createAct] at hj
    exact ⟨.config,rfl,hj ▸ hat⟩

theorem UpdatedConfig.ends {admin config : Pubkey} {b : Bytes}
    (h : UpdatedConfig E d m m' admin config b) : Ends E d m m' := by
  obtain ⟨bump,hk⟩ := h.isConfig.2.1
  have hat : Place.config.At E.host config := .of_find trivial hk
  apply ends_none h.did (fun j hj => by simp at hj)
  intro j hj
  simp at hj
  exact ⟨.config,rfl,hj ▸ hat⟩

theorem InitedFeeVault.ends {k : FeeVaultKeys} {bump : UInt8} (h : InitedFeeVault E d m m' k bump) :
    Ends E d m m' := by
  apply ends_none h.did
  · intro j hj
    simp [initFeeVaultActs, createAct, initAct] at hj
    exact ⟨.feeVault k.wantMint (byteAt d 0),rfl,trivial,bump,hj⟩
  · intro j hj
    simp [initFeeVaultActs, createAct, initAct] at hj

theorem SweptFees.ends {k : SweepKeys} {dec bump : UInt8} (h : SweptFees E d m m' k dec bump) :
    Ends E d m m' := by
  apply ends_none h.did
  · intro j hj
    unfold sweepActs at hj
    split at hj
    · simp at hj
    · simp [transferAct] at hj
      exact ⟨.config,rfl,trivial,bump,hj⟩
  · intro j hj
    unfold sweepActs at hj
    split at hj <;> simp [transferAct] at hj

theorem Settles.ends (h : Settles E tag d m m') : Ends E d m m' := by
  obtain ⟨maker,o,payer,auth,marker,authBump,doneBump,as,h⟩ := h
  obtain ⟨ix,ho⟩ := h.order
  apply ends_none h.did
  · intro j hj
    rcases (signsIn_cons _ _ _).mp hj with hj | hj
    · exact ⟨.orderDone maker.key o.terms.nonce,rfl,(sealedOrder_sized ho).nonce,doneBump,
        (signsIn_invoke _ _ _).mp hj⟩
    · exact ⟨.order maker.key,rfl,trivial,authBump,h.moves.signs j hj⟩
  · intro j hj
    rcases (touchedIn_cons _ _ _).mp hj with hj | hj
    · exact (touchedIn_invoke _ _ _ hj).elim
    · exact (h.moves.touches j hj).elim

/-! ## All tags -/

theorem Outcome.ends (hw : Wellformed E) (hf : Confined E.host) (hc : E.host.CollisionFree)
    (h : Outcome E d m m' tag) (hm : m.trace = []) : Ends E d m m' := by
  cases h with
  | openedSwap _ _ _ _ h => exact h.ends
  | filledSwap _ _ _ _ _ h => exact h.ends hw hf
  | cancelledSwap _ _ _ _ hl _ h => exact h.ends hw hf (idle_delistActs _ _ _) hl
  | expiredSwap _ _ hl _ h => exact h.ends hw hf idle_nil hl
  | madeOffer _ _ _ _ h => exact h.ends
  | acceptedOffer _ _ _ h => exact h.ends hw hf hc
  | withdrawnOffer _ _ hl _ h => exact h.ends hw hf hl
  | expiredOffer _ _ hl _ h => exact h.ends hw hf hl
  | initedConfig _ _ _ _ h => exact h.ends
  | updatedConfig _ _ _ h => exact h.ends
  | initedFeeVault _ _ h => exact h.ends
  | sweptFees _ _ _ h => exact h.ends
  | openedBasket _ _ _ _ _ _ h => exact h.ends hm
  | filledBasket _ _ _ _ _ _ h => exact h.ends hw hf
  | claimedBasket _ _ _ _ _ h => exact h.toReleasedBasket.ends hw hf idle_nil h.length
  | rewrapped _ _ h => exact h.ends
  | cancelledBasket _ _ _ _ _ _ h =>
    exact h.toReleasedBasket.ends hw hf (idle_delistActs _ _ _) h.length
  | expiredBasket _ _ _ _ h => exact h.toReleasedBasket.ends hw hf idle_nil h.length
  | openedPnft _ _ _ h => exact h.ends
  | filledPnft _ _ _ _ _ _ h => exact h.ends hw hf
  | cancelledPnft _ _ _ _ _ h => exact h.toReleasedPnft.ends hw hf h.idle h.length
  | expiredPnft _ _ _ _ h => exact h.toReleasedPnft.ends hw hf idle_nil h.length
  | openedCore _ _ _ h => exact h.ends
  | filledCore _ _ _ _ h => exact h.ends hw hf
  | cancelledCore _ _ _ _ h => exact h.toReleasedCore.ends hw hf h.idle h.length
  | expiredCore _ _ _ h => exact h.toReleasedCore.ends hw hf idle_nil h.length
  | listedToken _ _ _ _ _ _ h =>
    exact h.toOpenedListing.ends (listingRecord_holds h.slot.length h.slot.positive)
  | filledToken _ _ _ _ _ _ _ h => exact h.ends hw hf
  | cancelledListing _ _ _ _ _ h => exact h.ends hw hf
  | expiredListing _ _ _ _ h => exact h.ends hw hf
  | listedPnft _ _ _ _ _ _ h =>
    exact h.toOpenedListing.ends (listingRecord_holds h.slot.length h.slot.positive)
  | filledNft _ _ _ _ _ _ h => exact h.ends hw hf
  | listedCore _ _ _ _ _ _ h =>
    exact h.toOpenedListing.ends (swapRecord_holds h.slot.length (by decide) (by decide)).1
  | filledListingCore _ _ _ _ h => exact h.ends hw hf
  | sold _ _ h => exact h.settles.ends
  | bought _ _ h => exact h.ends

end Xete.Swap
