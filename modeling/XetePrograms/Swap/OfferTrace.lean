import XetePrograms.Swap.Trace

/-!
# The acts of the offer instructions
-/

set_option autoImplicit false

namespace Xete.Swap
open Xete.Octets Xete.Weakest Xete.Chain Xete.Token Xete.Runtime Xete.Rules

variable {E : Env} {m m' : Machine} {d : Bytes}

structure IsSwap (E : Env) (s : Ledger) (k : Pubkey) : Prop where
  owner : (s k).owner = E.programId
  length : (s k).data.length = swapLen
  isOpen : byteAt (s k).data sStatus = statusOpen

structure IsOffer (E : Env) (s : Ledger) (k : Pubkey) : Prop where
  owner : (s k).owner = E.programId
  length : (s k).data.length = offerLen
  isOpen : byteAt (s k).data oStatus = statusOpen

/-! ## Making an offer -/

structure OfferKeys where
  offerer : Pubkey
  offer : Pubkey
  ovault : Pubkey
  wantMint : Pubkey
  swap : Pubkey
  offererWant : Pubkey
  tokenProg : Pubkey

def offerRecord (k : OfferKeys) (s d : Bytes) (bump : UInt8) : Bytes :=
  patches (zeros offerLen) (offerFields k.offerer k.swap k.wantMint (u64At d 32)
    (keyAt s sGiveMint) (u64At s sGiveAmt) (i64At d 40) bump (slice d 0 32))

def makeOfferActs (E : Env) (k : OfferKeys) (s d : Bytes) (bump vbump dec : UInt8) : List Act :=
  [createAct E k.offerer k.offer offerLen E.programId
      (bumped (offerSeeds k.offerer (slice d 0 32)) bump),
    createAct E k.offerer k.ovault tokenAcctLen splTokenId
      (bumped (ovaultSeeds k.offerer (slice d 0 32)) vbump),
    initAct k.tokenProg k.ovault k.wantMint k.offer,
    transferAct k.tokenProg k.offererWant k.wantMint k.ovault k.offerer (u64At d 32) dec none,
    .write k.offer (offerRecord k s d bump)]

structure MadeOffer (E : Env) (d : Bytes) (m m' : Machine) (k : OfferKeys)
    (bump vbump dec : UInt8) : Prop where
  length : d.length = 48
  slots : (E.accounts.map AccountInfo.key).take 7 =
    [k.offerer,k.offer,k.ovault,k.wantMint,k.swap,k.offererWant,k.tokenProg]
  signed : E.signed k.offerer
  isSwap : IsSwap E m.ledger k.swap
  wantMint : keyAt (m.ledger k.swap).data sWantMint = k.wantMint
  positive : u64At d 32 ≠ 0
  address : E.host.findProgramAddress (offerSeeds k.offerer (slice d 0 32)) E.programId =
    some (k.offer,bump)
  vault : E.host.findProgramAddress (ovaultSeeds k.offerer (slice d 0 32)) E.programId =
    some (k.ovault,vbump)
  did : Did E (makeOfferActs E k (m.ledger k.swap).data d bump vbump dec) m m'

/-- A record created in `m`, and not touched since, still holds zeros. -/
theorem created_data {payer acct : Pubkey} {space : ℕ} {seeds : List Bytes} {as : List Act}
    (hs : SystemRules E.host) (hw : Wellformed E) (hf : Confined E.host)
    (h : Did E (createAct E payer acct space E.programId seeds :: as) m m')
    (ht : ¬TouchedIn as acct) : (m'.ledger acct).data = zeros space := by
  obtain ⟨s,hs₁,h'⟩ := h
  have hst := (created_stores hs ⟨s,hs₁,rfl⟩ : Stores E acct (zeros space) (m.next _ s) ∧ _).1
  exact (hst.did hw hf h' ht).2

theorem makeOffer_did (hs : SystemRules E.host) (hw : Wellformed E) (hf : Confined E.host) :
    wp (makeOffer E d) (fun _ m' => ∃ k bump vbump dec, MadeOffer E d m m' k bump vbump dec)
      (fun _ => True) m := by
  simp [makeOffer]
  intro hl
  split
  · rename_i offerer offer ovault wantMint swap offererWant tokenProg system config aliasAcct ha
    simp [createPda, tokenInit, tokenTransfer]
    intro hsign ho hpos _ hlen hst hwant offerPda bump hoffer he ovaultPda vbump hovault he'
    subst he he'
    intro s₁ h₁ s₂ h₂ s₃ h₃ dec _ s₄ h₄ s₅ h₅
    have hd : Did E [createAct E offerer.key offer.key offerLen E.programId
        (bumped (offerSeeds offerer.key (slice d 0 32)) bump),
      createAct E offerer.key ovault.key tokenAcctLen splTokenId
        (bumped (ovaultSeeds offerer.key (slice d 0 32)) vbump),
      initAct tokenProg.key ovault.key wantMint.key offer.key,
      transferAct tokenProg.key offererWant.key wantMint.key ovault.key offerer.key (u64At d 32) dec
        none] m _ := ⟨s₁,h₁,s₂,h₂,s₃,h₃,s₄,h₄,rfl⟩
    have hz : (s₄ offer.key).data = zeros offerLen :=
      created_data hs hw hf hd (by simp [createAct, initAct, transferAct])
    rw [hz] at h₅ ⊢
    refine ⟨⟨offerer.key,offer.key,ovault.key,wantMint.key,swap.key,offererWant.key,tokenProg.key⟩,
      bump,vbump,dec,?_⟩
    exact
      { length := hl
        slots := by simp [ha]
        signed := ⟨offerer,by simp [ha],rfl,hsign⟩
        isSwap := ⟨ho,hlen,hst⟩
        wantMint := hwant
        positive := hpos
        address := hoffer
        vault := hovault
        did := ⟨s₁,h₁,s₂,h₂,s₃,h₃,s₄,h₄,s₅,h₅,rfl⟩ }
  · trivial

/-! ## Accepting an offer -/

structure AcceptKeys where
  maker : Pubkey
  swap : Pubkey
  swapVault : Pubkey
  offer : Pubkey
  offerVault : Pubkey
  offerer : Pubkey
  giveMint : Pubkey
  wantMint : Pubkey
  offererGive : Pubkey
  makerWant : Pubkey
  tokenProg : Pubkey
  config : Pubkey
  feeAta : Pubkey

def offerSigner (offerer : Pubkey) (o ononce : Bytes) : List Bytes :=
  bumped (offerSeeds offerer ononce) (byteAt o oBump)

def swapSigner (maker : Pubkey) (s snonce : Bytes) : List Bytes :=
  bumped (swapSeeds maker snonce) (byteAt s sBump)

def acceptActs (k : AcceptKeys) (s o snonce ononce : Bytes) (fee : ℕ) (giveDec wantDec : UInt8) :
    List Act :=
  priceActs k.tokenProg k.offerVault k.wantMint k.feeAta k.makerWant k.offer (u64At o oWantAmt) fee
      wantDec (some (offerSigner k.offerer o ononce)) ++
    [transferAct k.tokenProg k.swapVault k.giveMint k.offererGive k.swap (u64At s sGiveAmt) giveDec
        (some (swapSigner k.maker s snonce)),
      closeAct k.tokenProg k.offerVault k.offerer k.offer (offerSigner k.offerer o ononce),
      closeAct k.tokenProg k.swapVault k.maker k.swap (swapSigner k.maker s snonce),
      .close k.offer k.offerer,.close k.swap k.maker]

structure AcceptedOffer (E : Env) (d : Bytes) (m m' : Machine) (k : AcceptKeys)
    (giveDec wantDec : UInt8) : Prop where
  length : d.length = 64
  slots : E.accounts.map AccountInfo.key = [k.maker,k.swap,k.swapVault,k.offer,k.offerVault,
    k.offerer,k.giveMint,k.wantMint,k.offererGive,k.makerWant,k.tokenProg,k.config,k.feeAta]
  signed : E.signed k.maker
  isSwap : IsSwap E m.ledger k.swap
  maker : keyAt (m.ledger k.swap).data sMaker = k.maker
  giveMint : keyAt (m.ledger k.swap).data sGiveMint = k.giveMint
  wantMint : keyAt (m.ledger k.swap).data sWantMint = k.wantMint
  swapLive : E.clock < i64At (m.ledger k.swap).data sExpiry
  isOffer : IsOffer E m.ledger k.offer
  target : keyAt (m.ledger k.offer).data oSwap = k.swap
  offerer : keyAt (m.ledger k.offer).data oOfferer = k.offerer
  offerWant : keyAt (m.ledger k.offer).data oWantMint = k.wantMint
  offerLive : E.clock < i64At (m.ledger k.offer).data oExpiry
  offerGive : keyAt (m.ledger k.offer).data oGiveMint = k.giveMint
  offerAmount : u64At (m.ledger k.offer).data oGiveAmt = u64At (m.ledger k.swap).data sGiveAmt
  swapAddress : ∃ b, E.host.findProgramAddress (swapSeeds k.maker (slice d 0 32)) E.programId =
    some (k.swap,b)
  swapVault : ∃ b, E.host.findProgramAddress (vaultSeeds k.maker (slice d 0 32)) E.programId =
    some (k.swapVault,b)
  offerAddress : ∃ b, E.host.findProgramAddress (offerSeeds k.offerer (slice d 32 32)) E.programId =
    some (k.offer,b)
  offerVault : ∃ b, E.host.findProgramAddress (ovaultSeeds k.offerer (slice d 32 32)) E.programId =
    some (k.offerVault,b)
  makerWant : BelongsTo m.ledger k.makerWant k.wantMint k.maker
  offererGive : BelongsTo m.ledger k.offererGive k.giveMint k.offerer
  feePaid : FeePaid E m.ledger k.config k.feeAta k.wantMint (u64At (m.ledger k.offer).data oWantAmt)
    (byteAt d 0)
  did : Did E (acceptActs k (m.ledger k.swap).data (m.ledger k.offer).data (slice d 0 32)
    (slice d 32 32) (feeAt m.ledger k.config (u64At (m.ledger k.offer).data oWantAmt)) giveDec
    wantDec) m m'

theorem byteAt_slice (d : Bytes) (n : ℕ) (h : 0 < n) : byteAt (slice d 0 n) 0 = byteAt d 0 := by
  rw [byteAt_eq_slice, slice_slice _ _ _ _ _ (by omega), ← byteAt_eq_slice]

theorem acceptOffer_did :
    wp (acceptOffer E d) (fun _ m' => ∃ k giveDec wantDec, AcceptedOffer E d m m' k giveDec wantDec)
      (fun _ => True) m := by
  simp [acceptOffer]
  intro hl
  split
  · rename_i maker swap swapVault offer offerVault offerer giveMint wantMint offererGive makerWant
      tokenProg config feeAta ha
    simp
    intro hsign hso hoo hsl hst hsm hsg hsw hse hol hot htgt hoff how hoe hogm hoga swapPda bs hswp
      vaultPda bv hvp offerPda bo hop ovaultPda bov hovp
    rintro rfl rfl rfl rfl hmw hog giveDec _ wantDec _ hcfg
    apply wp_price_seq _ _ wantDec _ _ _
    intro m₁ hd₁ hle hfee
    simp [tokenTransfer, tokenClose]
    intro s₁ h₁ s₂ h₂ s₃ h₃ s₄ h₄ s₅ h₅
    refine ⟨⟨maker.key,swap.key,swapVault.key,offer.key,offerVault.key,offerer.key,giveMint.key,
      wantMint.key,offererGive.key,makerWant.key,tokenProg.key,config.key,feeAta.key⟩,giveDec,
      wantDec, ?_⟩
    exact
      { length := hl
        slots := by simp [ha]
        signed := ⟨maker,by simp [ha],rfl,hsign⟩
        isSwap := ⟨hso,hsl,hst⟩
        maker := hsm
        giveMint := hsg
        wantMint := hsw
        swapLive := hse
        isOffer := ⟨hoo,hol,hot⟩
        target := htgt
        offerer := hoff
        offerWant := how
        offerLive := hoe
        offerGive := hogm
        offerAmount := hoga
        swapAddress := ⟨bs,hswp⟩
        swapVault := ⟨bv,hvp⟩
        offerAddress := ⟨bo,hop⟩
        offerVault := ⟨bov,hovp⟩
        makerWant := hmw
        offererGive := hog
        feePaid := ⟨hcfg,hle,by rw [← byteAt_slice d 32 (by decide)]; exact hfee⟩
        did := (did_append _ _ m _).mpr ⟨m₁,hd₁,s₁,h₁,s₂,h₂,s₃,h₃,s₄,h₄,s₅,h₅,rfl⟩ }
  · trivial

/-! ## Refunding an offer -/

structure RefundKeys where
  offerer : Pubkey
  offer : Pubkey
  ovault : Pubkey
  wantMint : Pubkey
  offererWant : Pubkey
  tokenProg : Pubkey

def refundOfferActs (k : RefundKeys) (o ononce : Bytes) (dec : UInt8) : List Act :=
  [transferAct k.tokenProg k.ovault k.wantMint k.offererWant k.offer (u64At o oWantAmt) dec
      (some (offerSigner k.offerer o ononce)),
    closeAct k.tokenProg k.ovault k.offerer k.offer (offerSigner k.offerer o ononce),
    .close k.offer k.offerer]

structure RefundedOffer (E : Env) (nonce : Bytes) (m m' : Machine) (k : RefundKeys)
    (mintIdx tokenIdx : ℕ) (dec : UInt8) : Prop where
  offerSlot : SlotIs E 1 k.offer
  mintSlot : SlotIs E mintIdx k.wantMint
  tokenSlot : SlotIs E tokenIdx k.tokenProg
  isOffer : IsOffer E m.ledger k.offer
  offerer : keyAt (m.ledger k.offer).data oOfferer = k.offerer
  wantMint : keyAt (m.ledger k.offer).data oWantMint = k.wantMint
  address : ∃ b, E.host.findProgramAddress (offerSeeds k.offerer nonce) E.programId =
    some (k.offer,b)
  vault : ∃ b, E.host.findProgramAddress (ovaultSeeds k.offerer nonce) E.programId =
    some (k.ovault,b)
  offererWant : BelongsTo m.ledger k.offererWant k.wantMint k.offerer
  did : Did E (refundOfferActs k (m.ledger k.offer).data nonce dec) m m'

theorem refundOffer_did {offerer offer ovault wantMint offererWant tokenProg : AccountInfo}
    (mintIdx tokenIdx : ℕ) (nonce : Bytes) (h₁ : E.accounts[1]? = some offer)
    (hm : E.accounts[mintIdx]? = some wantMint) (ht : E.accounts[tokenIdx]? = some tokenProg)
    (ho : IsOffer E m.ledger offer.key)
    (hoff : keyAt (m.ledger offer.key).data oOfferer = offerer.key)
    (hw : keyAt (m.ledger offer.key).data oWantMint = wantMint.key) :
    wp (refundOffer E offerer offer ovault wantMint offererWant tokenProg nonce
        (byteAt (m.ledger offer.key).data oBump) (u64At (m.ledger offer.key).data oWantAmt))
      (fun _ m' => ∃ dec, RefundedOffer E nonce m m'
        ⟨offerer.key,offer.key,ovault.key,wantMint.key,offererWant.key,tokenProg.key⟩ mintIdx
        tokenIdx dec) (fun _ => True) m := by
  simp [refundOffer, tokenTransfer, tokenClose]
  intro offerPda b hb ovaultPda b' hb'
  rintro rfl rfl hbel dec _ s₁ hs₁ s₂ hs₂ s₃ hs₃
  exact ⟨dec,
    { offerSlot := .of_getElem h₁
      mintSlot := .of_getElem hm
      tokenSlot := .of_getElem ht
      isOffer := ho
      offerer := hoff
      wantMint := hw
      address := ⟨b,hb⟩
      vault := ⟨b',hb'⟩
      offererWant := hbel
      did := ⟨s₁,hs₁,s₂,hs₂,s₃,hs₃,rfl⟩ }⟩

theorem withdrawOffer_did :
    wp (withdrawOffer E d) (fun _ m' => d.length = 32 ∧ ∃ k dec, RefundedOffer E d m m' k 3 5 dec ∧
      E.signed k.offerer) (fun _ => True) m := by
  simp [withdrawOffer]
  intro hl
  split
  · rename_i offerer offer ovault wantMint offererWant tokenProg ha
    simp
    intro hsign ho hlen hst hoff hwant
    rw [slice_all _ _ hl]
    refine wp_mono (refundOffer_did 3 5 d (by rw [ha]; rfl) (by rw [ha]; rfl) (by rw [ha]; rfl)
      ⟨ho,hlen,hst⟩ hoff hwant) ?_ (fun _ _ => trivial)
    rintro _ m' ⟨dec,h⟩
    exact ⟨hl,_,⟨dec,h⟩,offerer,by simp [ha],rfl,hsign⟩
  · trivial

theorem expireOffer_did :
    wp (expireOffer E d) (fun _ m' => d.length = 32 ∧ ∃ k dec, RefundedOffer E d m m' k 4 6 dec ∧
      i64At (m.ledger k.offer).data oExpiry ≤ E.clock) (fun _ => True) m := by
  simp [expireOffer]
  intro hl
  split
  · rename_i caller offer ovault offerer wantMint offererWant tokenProg ha
    simp
    intro ho hlen hst hoff hwant hexp
    rw [slice_all _ _ hl]
    refine wp_mono (refundOffer_did 4 6 d (by rw [ha]; rfl) (by rw [ha]; rfl) (by rw [ha]; rfl)
      ⟨ho,hlen,hst⟩ hoff hwant) ?_ (fun _ _ => trivial)
    rintro _ m' ⟨dec,h⟩
    exact ⟨hl,_,⟨dec,h⟩,hexp⟩
  · trivial

end Xete.Swap
