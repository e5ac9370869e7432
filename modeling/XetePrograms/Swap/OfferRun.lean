import XetePrograms.Swap.Authentic
import XetePrograms.Swap.OfferTerms
import XetePrograms.Swap.Reach

/-!
# An offer is honoured as it was recorded

The record of an offer is written once, by the call that makes it, and stands
until a call closes it. Whatever happens to the listing in between, the
acceptance that consumes the record moves what the record says.
-/

set_option autoImplicit false

namespace Xete.Swap
open Xete.Octets Xete.Weakest Xete.Chain Xete.Token Xete.Runtime Xete.Rules

section
variable {H : Host} {E : Env} {tag : UInt8} {m m' : Machine} {s s' : Ledger} {c : Call} {d : Bytes}
  {a : Action}

/-! ## The record between its calls -/

def KeepsOpen (k : Pubkey) (a : Action) (s _ : Ledger) : Prop :=
  ∀ c m, a = .call c → c.result s = some m → ∀ x ∈ m.trace.map Event.act, ¬Act.Closes k x

/-- Only the call that creates the record of an offer writes it. -/
theorem offer_written {offerer k : Pubkey} {nonce b : Bytes} {as : List Act}
    (hs : SystemRules E.host) (hw : Wellformed E) (hf : Confined E.host) (hc : E.host.CollisionFree)
    (hk : (Place.offer offerer nonce).At E.host k)
    (h : handler E tag d ⟨s,[]⟩ = .ok () m) (hd : Did E as ⟨s,[]⟩ m) (hfoot : Footprint E tag as)
    (hwrite : .write k b ∈ as) : Vacant s k := by
  have hacts : m.trace.map Event.act = as := did_trace _ _ _ hd
  obtain ⟨p,hp,hpk⟩ := hfoot.changes k (.inl ⟨b,hwrite⟩)
  rw [hpk.inj hc hk] at hp
  simp only [MayChange, List.mem_cons, List.not_mem_nil, or_false] at hp
  rw [← hacts] at hwrite
  rcases hp with rfl | rfl | rfl | rfl
  · obtain ⟨key,bump,vbump,dec,hmade⟩ := wp_ok (makeOffer_did hs hw hf) h
    rw [did_trace _ _ _ hmade.did] at hwrite
    obtain ⟨s₁,h₁,-⟩ := hmade.did
    simp [makeOfferActs, createAct, initAct, transferAct] at hwrite
    obtain ⟨rfl,-⟩ := hwrite
    exact create_vacant hs h₁
  · obtain ⟨key,giveDec,wantDec,hacc⟩ := wp_ok acceptOffer_did h
    rw [did_trace _ _ _ hacc.did] at hwrite
    simp [acceptActs, transferAct, closeAct] at hwrite
    exact absurd (.inl ⟨b,hwrite⟩) (touchedIn_priceActs _ _ _ _ _ _ _ _ _ _ k)
  · obtain ⟨-,key,dec,href,-⟩ := wp_ok withdrawOffer_did h
    rw [did_trace _ _ _ href.did] at hwrite
    simp [refundOfferActs, transferAct, closeAct] at hwrite
  · obtain ⟨-,key,dec,href,-⟩ := wp_ok expireOffer_did h
    rw [did_trace _ _ _ href.did] at hwrite
    simp [refundOfferActs, transferAct, closeAct] at hwrite

theorem offer_step {offerer k : Pubkey} {nonce b : Bytes} (hs : SystemRules H) (hf : Confined H)
    (hc : H.CollisionFree) (hk : (Place.offer offerer nonce).At H k) (hstep : Step H a s s')
    (hopen : KeepsOpen k a s s') (h : Recorded H k b s) : Recorded H k b s' := by
  cases hstep with
  | call c _ m ho hr =>
    obtain ⟨tag,d,-,hh⟩ := Call.handled hr
    obtain ⟨as,hd,hfoot⟩ := Call.within hs hf ho hh
    obtain ⟨rfl,hw⟩ := ho
    apply h.frame (ran_frame hw hf as hd.ran)
    rintro (⟨b',hwrite⟩ | ⟨dest,hclose⟩)
    · have hv := offer_written hs hw hf hc hk hh hd hfoot hwrite
      exact hw.notSystem (h.owner.symm.trans hv.1)
    · refine hopen c m rfl hr (.close k dest) ?_ rfl
      rwa [did_trace _ _ _ hd]
  | outside _ _ hfr => exact h.frame hfr id
  | reap => exact h.reap

theorem offer_run {offerer k : Pubkey} {nonce b : Bytes} (hs : SystemRules H) (hf : Confined H)
    (hc : H.CollisionFree) (hk : (Place.offer offerer nonce).At H k)
    (hrun : Run H (KeepsOpen k) s s') (h : Recorded H k b s) : Recorded H k b s' :=
  hrun.invariant (fun _ _ _ hstep hopen h => offer_step hs hf hc hk hstep hopen h) h

theorem MadeOffer.recorded {k : OfferKeys} {bump vbump dec : UInt8} (hs : SystemRules E.host)
    (hw : Wellformed E) (hf : Confined E.host) (h : MadeOffer E d m m' k bump vbump dec) :
    Recorded E.host k.offer (m'.ledger k.offer).data m'.ledger := by
  obtain ⟨s₁,h₁,s₂,h₂,s₃,h₃,s₄,h₄,s₅,h₅,rfl⟩ := h.did
  have hopen : Did E [createAct E k.offerer k.offer offerLen E.programId
      (bumped (offerSeeds k.offerer (slice d 0 32)) bump),
    createAct E k.offerer k.ovault tokenAcctLen splTokenId
      (bumped (ovaultSeeds k.offerer (slice d 0 32)) vbump),
    initAct k.tokenProg k.ovault k.wantMint k.offer,
    transferAct k.tokenProg k.offererWant k.wantMint k.ovault k.offerer (u64At d 32) dec none] m
      _ :=
    ⟨s₁,h₁,s₂,h₂,s₃,h₃,s₄,h₄,rfl⟩
  have hrec := (created_recorded hs hw hf hopen (by simp [createAct, initAct, transferAct])).write
    h₅
  exact ⟨hrec.owner,rfl,hrec.lamports⟩

/-! ## The ends of the vaults and records -/

theorem transferAct_transferred {p src mt dst auth : Pubkey} {n : ℕ} {dec : UInt8}
    {seeds : Option (List Bytes)} (ht : TokenRules E.host) (hp : IsTokenProgram p)
    (h : (transferAct p src mt dst auth n dec seeds).effect E s = some s') :
    Transferred p mt src s s' := transferred ht hp (effect_invoke _ _ _ _ h)

theorem closeAct_closes {p acct dest auth : Pubkey} {seeds : List Bytes} (ht : TokenRules E.host)
    (hp : IsTokenProgram p) {t : TokenAccount} (ha : tokenAt s acct = some t)
    (h : (closeAct p acct dest auth seeds).effect E s = some s') :
    s' acct = ⟨0,systemId,[]⟩ ∧ ∀ a, a ≠ acct → a ≠ dest → s' a = s a := by
  obtain ⟨-,-,-,hgone,-,-,-,hother⟩ :=
    ht.close _ _ _ _ _ _ _ hp ha (effect_invoke _ _ _ _ h)
  exact ⟨hgone,hother⟩

theorem close_closes {k dest : Pubkey} (h : (Act.close k dest).effect E s = some s') :
    (s' k).lamports = 0 ∧ ∀ a, a ≠ k → a ≠ dest → s' a = s a := by
  simp only [Act.effect] at h
  split at h
  · cases h
    exact ⟨by simp [drain],fun a h₁ h₂ => by simp [drain, h₁, h₂]⟩
  · cases h

section
variable {k : AcceptKeys} {giveDec wantDec : UInt8} (h : AcceptedOffer E d m m' k giveDec wantDec)
include h

theorem AcceptedOffer.swapPlaces : (Place.swap k.maker (slice d 0 32)).At E.host k.swap ∧
    (Place.vault k.maker (slice d 0 32)).At E.host k.swapVault := by
  have hn : (slice d 0 32).length = 32 := slice_length _ _ _ (by have := h.length; omega)
  obtain ⟨b,hb⟩ := h.swapAddress
  obtain ⟨b',hb'⟩ := h.swapVault
  exact ⟨.of_find hn hb,.of_find hn hb'⟩

theorem AcceptedOffer.offerPlaces : (Place.offer k.offerer (slice d 32 32)).At E.host k.offer ∧
    (Place.ovault k.offerer (slice d 32 32)).At E.host k.offerVault := by
  have hn : (slice d 32 32).length = 32 := slice_length _ _ _ (by have := h.length; omega)
  obtain ⟨b,hb⟩ := h.offerAddress
  obtain ⟨b',hb'⟩ := h.offerVault
  exact ⟨.of_find hn hb,.of_find hn hb'⟩

end

/-- An acceptance ends both vaults and both records. -/
theorem AcceptedOffer.closed {k : AcceptKeys} {giveDec wantDec : UInt8} (ht : TokenRules E.host)
    (hw : Wellformed E) (hc : E.host.CollisionFree)
    (h : AcceptedOffer E d m m' k giveDec wantDec) (hp : IsTokenProgram k.tokenProg)
    (hn : ¬E.host.IsPda k.offerer) :
    m'.ledger k.offerVault = ⟨0,systemId,[]⟩ ∧ m'.ledger k.swapVault = ⟨0,systemId,[]⟩ ∧
      (m'.ledger k.offer).lamports = 0 ∧ (m'.ledger k.swap).lamports = 0 := by
  obtain ⟨hswap,hvault⟩ := h.swapPlaces
  obtain ⟨hoffer,hovault⟩ := h.offerPlaces
  have hmaker : ¬E.host.IsPda k.maker := by
    obtain ⟨a,ha,hk,hs⟩ := h.signed
    exact hk ▸ hw.signers a ha hs
  have hne : ∀ {p : Place} {a : Pubkey}, p.At E.host a → a ≠ k.maker ∧ a ≠ k.offerer :=
    fun ha => ⟨fun he => hmaker (he ▸ ha.isPda),fun he => hn (he ▸ ha.isPda)⟩
  obtain ⟨m₁,hprice,s₁,h₁,s₂,h₂,s₃,h₃,s₄,h₄,s₅,h₅,rfl⟩ := (did_append _ _ _ _).mp h.did
  obtain ⟨m₀,-,s₀,h₀,rfl⟩ := (did_append _ _ _ _).mp hprice
  simp only [next_ledger] at h₁ h₂ h₃ h₄ h₅ ⊢
  -- both vaults are token accounts until they are closed
  obtain ⟨t₀,hpaid,-⟩ := (transferAct_transferred ht hp h₀).held
  obtain ⟨t₁,hpaid,-⟩ := (transferAct_transferred ht hp h₁).tokens _ _ hpaid
  obtain ⟨hgone₂,hkeep₂⟩ := closeAct_closes ht hp hpaid h₂
  obtain ⟨t₂,hgoods,-⟩ := (transferAct_transferred ht hp h₁).held
  have hvault₂ : s₂ k.swapVault = s₁ k.swapVault :=
    hkeep₂ _ (hvault.ne hc hovault (by simp)) (hne hvault).2
  rw [← tokenAt_congr _ _ _ (congrArg Account.owner hvault₂) (congrArg Account.data hvault₂)]
    at hgoods
  obtain ⟨hgone₃,hkeep₃⟩ := closeAct_closes ht hp hgoods h₃
  obtain ⟨hgone₄,hkeep₄⟩ := close_closes h₄
  obtain ⟨hgone₅,hkeep₅⟩ := close_closes h₅
  refine ⟨?_,?_,?_,hgone₅⟩
  · rw [hkeep₅ _ (hovault.ne hc hswap (by simp)) (hne hovault).1,
      hkeep₄ _ (hovault.ne hc hoffer (by simp)) (hne hovault).2,
      hkeep₃ _ (hovault.ne hc hvault (by simp)) (hne hovault).1, hgone₂]
  · rw [hkeep₅ _ (hvault.ne hc hswap (by simp)) (hne hvault).1,
      hkeep₄ _ (hvault.ne hc hoffer (by simp)) (hne hvault).2, hgone₃]
  · rw [hkeep₅ _ (hoffer.ne hc hswap (by simp)) (hne hoffer).1, hgone₄]

/-! ## From the offer to its acceptance -/

/-- The acceptance of an offer whose record was `o`: the goods of the recorded
swap go to an account of the offerer and the price, less the protocol fee, to an
account of the maker, both as recorded, and nothing is left of the vaults and
the records. The vaults are those of the two slots. -/
structure Honoured (E : Env) (o : Bytes) (m m' : Machine) (k : AcceptKeys)
    (giveDec wantDec shardSeed : UInt8) (oseeds sseeds : List Bytes) : Prop where
  offerer : k.offerer = keyAt o oOfferer
  swap : k.swap = keyAt o oSwap
  maker : k.maker = keyAt (m.ledger k.swap).data sMaker
  offerPlaces : ∃ nonce, (Place.offer k.offerer nonce).At E.host k.offer ∧
    (Place.ovault k.offerer nonce).At E.host k.offerVault
  swapPlaces : ∃ nonce, (Place.swap k.maker nonce).At E.host k.swap ∧
    (Place.vault k.maker nonce).At E.host k.swapVault
  toOfferer : BelongsTo m.ledger k.offererGive (keyAt o oGiveMint) k.offerer
  toMaker : BelongsTo m.ledger k.makerWant (keyAt o oWantMint) k.maker
  fee : FeePaid E m.ledger k.config k.feeAta (keyAt o oWantMint) (u64At o oWantAmt) shardSeed
  acts : m'.trace.map Event.act =
    feeActs k.tokenProg k.offerVault (keyAt o oWantMint) k.feeAta k.offer
        (feeAt m.ledger k.config (u64At o oWantAmt)) wantDec (some oseeds) ++
      [transferAct k.tokenProg k.offerVault (keyAt o oWantMint) k.makerWant k.offer
          (u64At o oWantAmt-feeAt m.ledger k.config (u64At o oWantAmt)) wantDec (some oseeds),
        transferAct k.tokenProg k.swapVault (keyAt o oGiveMint) k.offererGive k.swap
          (u64At o oGiveAmt) giveDec (some sseeds),
        closeAct k.tokenProg k.offerVault k.offerer k.offer oseeds,
        closeAct k.tokenProg k.swapVault k.maker k.swap sseeds,
        .close k.offer k.offerer,.close k.swap k.maker]
  vaults : m'.ledger k.offerVault = ⟨0,systemId,[]⟩ ∧ m'.ledger k.swapVault = ⟨0,systemId,[]⟩
  records : (m'.ledger k.offer).lamports = 0 ∧ (m'.ledger k.swap).lamports = 0

/-- A bid is rug-proof: whatever run lies between the call that made the offer
and the acceptance that consumes it, as long as nothing closed the offer, the
acceptance does what the record of the offer says. -/
theorem acceptOffer_honours_record (hs : SystemRules H) (ht : TokenRules H) (hf : Confined H)
    (hc : H.CollisionFree) {c₁ c₂ : Call} {d₁ d₂ : Bytes} {m₁ m₂ : Machine} {s₁ s₂ : Ledger}
    {offer tokenProg : Pubkey} (ho₁ : c₁.On H) (ho₂ : c₂.On H) (hd₁ : c₁.data = 4 :: d₁)
    (hd₂ : c₂.data = 5 :: d₂) (hoffer₁ : SlotIs c₁.env 1 offer) (hoffer₂ : SlotIs c₂.env 3 offer)
    (hprog : SlotIs c₂.env 10 tokenProg) (hp : IsTokenProgram tokenProg)
    (h₁ : c₁.result s₁ = some m₁) (hrun : Run H (KeepsOpen offer) m₁.ledger s₂)
    (h₂ : c₂.result s₂ = some m₂) :
    ∃ k giveDec wantDec shardSeed oseeds sseeds, k.offer = offer ∧ Honoured c₂.env
      (m₁.ledger offer).data ⟨s₂,[]⟩ m₂ k giveDec wantDec shardSeed oseeds sseeds := by
  obtain ⟨tag₁,e₁,he₁,hh₁⟩ := Call.handled h₁
  obtain ⟨tag₂,e₂,he₂,hh₂⟩ := Call.handled h₂
  rw [hd₁] at he₁
  rw [hd₂] at he₂
  cases he₁
  cases he₂
  obtain ⟨rfl,hw₁⟩ := ho₁
  obtain ⟨hhost,hw₂⟩ := ho₂
  obtain ⟨k₁,bump,vbump,dec,hmade⟩ := wp_ok (makeOffer_did hs hw₁ hf) hh₁
  obtain ⟨k,giveDec,wantDec,hacc⟩ := wp_ok acceptOffer_did hh₂
  have hslot : ∀ i x, SlotIs c₂.env i x → [k.maker,k.swap,k.swapVault,k.offer,k.offerVault,
      k.offerer,k.giveMint,k.wantMint,k.offererGive,k.makerWant,k.tokenProg,k.config,
      k.feeAta][i]? = some x := by
    intro i x hx
    rw [← hacc.slots, List.getElem?_map]
    exact hx
  have hk : k.offer = offer := Option.some_inj.mp (hslot 3 _ hoffer₂)
  have hkp : k.tokenProg = tokenProg := Option.some_inj.mp (hslot 10 _ hprog)
  have hk₁ : k₁.offer = offer := by
    have h := congrArg (fun l => l[1]?) hmade.slots
    simp only [List.getElem?_take, List.getElem?_map] at h
    exact Option.some_inj.mp (h.symm.trans hoffer₁)
  subst hk hkp
  have hn : (slice d₁ 0 32).length = 32 := slice_length _ _ _ (by have := hmade.length; omega)
  have hat : (Place.offer k₁.offerer (slice d₁ 0 32)).At c₁.env.host k.offer :=
    hk₁ ▸ .of_find hn hmade.address
  -- the record found is the record made
  have hrec := offer_run hs hf hc hat hrun (hk₁ ▸ hmade.recorded hs hw₁ hf)
  have hdata : (s₂ k.offer).data = (m₁.ledger k.offer).data := hrec.data
  have hofferer : k.offerer = k₁.offerer := by
    rw [← hacc.offerer, hdata, ← hk₁, hmade.stores.2]
    exact keyAt_eq _ _ _ (offerRecord_slice _ _ _ _ hmade.length _ _ _ (by simp)
      (by simp [offerFields]))
  have hplain : ¬c₂.env.host.IsPda k.offerer := by
    obtain ⟨a,ha,hka,hsign⟩ := hmade.signed
    rw [hofferer, ← hka, hhost]
    exact hw₁.signers a ha hsign
  rw [← hhost] at ht hc
  obtain ⟨hv₁,hv₂,hr₁,hr₂⟩ := hacc.closed ht hw₂ hc hp hplain
  exact ⟨k,giveDec,wantDec,_,_,_,rfl,
    { offerer := by rw [← hacc.offerer, hdata]
      swap := by rw [← hacc.target, hdata]
      maker := hacc.maker.symm
      offerPlaces := ⟨_,hacc.offerPlaces⟩
      swapPlaces := ⟨_,hacc.swapPlaces⟩
      toOfferer := by
        rw [← hdata]
        exact hacc.offerGive ▸ hacc.offererGive
      toMaker := by
        rw [← hdata]
        exact hacc.offerWant ▸ hacc.makerWant
      fee := by
        rw [← hdata, hacc.offerWant]
        exact hacc.feePaid
      acts := by
        rw [did_trace _ _ _ hacc.did, ← hdata]
        simp only [acceptActs, priceActs, hacc.offerWant, hacc.offerGive, hacc.offerAmount,
          List.map_nil, List.nil_append, List.append_assoc, List.cons_append]
        rfl
      vaults := ⟨hv₁,hv₂⟩
      records := ⟨hr₁,hr₂⟩ }⟩

end

section
open Xete.Market

/-- After the bid the maker relists the goods at another price, and accepts. -/
theorem acceptOffer_honours_record_relisted : ∃ s₁ m₁ m₂ m₃ m₄,
    runCalls [openSwapCall 100 50] start = some s₁ ∧ (makeOfferCall 40).result s₁ = some m₁ ∧
    cancelSwapCall.result m₁.ledger = some m₂ ∧
    (openSwapCall 100 60).result (reap m₂.ledger) = some m₃ ∧
    acceptOfferCall.result m₃.ledger = some m₄ ∧
    ∃ k giveDec wantDec shardSeed oseeds sseeds, k.offer = offerKey ∧
      Honoured acceptOfferCall.env (m₁.ledger offerKey).data ⟨m₃.ledger,[]⟩ m₄ k giveDec wantDec
        shardSeed oseeds sseeds := by
  have h : ((runCalls [openSwapCall 100 50] start).any fun s₁ =>
      ((makeOfferCall 40).result s₁).any fun m₁ => (cancelSwapCall.result m₁.ledger).any fun m₂ =>
      ((openSwapCall 100 60).result (reap m₂.ledger)).any fun m₃ =>
      (acceptOfferCall.result m₃.ledger).any fun _ =>
        (∀ x ∈ m₂.trace.map Event.act, ¬Act.Closes offerKey x) ∧
        ∀ x ∈ m₃.trace.map Event.act, ¬Act.Closes offerKey x) = true := by
    decide +kernel
  simp only [Option.any_eq_true, decide_eq_true_eq] at h
  obtain ⟨s₁,hs₁,m₁,h₁,m₂,h₂,m₃,h₃,m₄,h₄,hx₂,hx₃⟩ := h
  have hmake : (makeOfferCall 40).On market := sees_on _ _ _ _ (by decide)
  have haccept : acceptOfferCall.On market := sees_on _ _ _ _ (by decide)
  have hcancel : KeepsOpen offerKey (.call cancelSwapCall) m₁.ledger m₂.ledger := by
    rintro c m hcall hm
    cases hcall
    cases h₂.symm.trans hm
    exact hx₂
  have hopen : KeepsOpen offerKey (.call (openSwapCall 100 60)) (reap m₂.ledger) m₃.ledger := by
    rintro c m hcall hm
    cases hcall
    cases h₃.symm.trans hm
    exact hx₃
  have hrun : Run market (KeepsOpen offerKey) m₁.ledger m₃.ledger :=
    ((Relation.ReflTransGen.single ⟨_,.call _ _ _ (sees_on _ _ _ _ (by decide)) h₂,hcancel⟩).tail
      ⟨.reap,.reap _,nofun⟩).tail ⟨_,.call _ _ _ (sees_on _ _ _ _ (by decide)) h₃,hopen⟩
  exact ⟨s₁,m₁,m₂,m₃,m₄,hs₁,h₁,h₂,h₃,h₄,
    acceptOffer_honours_record market_systemRules market_tokenRules market_confined
      market_collisionFree hmake haccept rfl rfl rfl rfl rfl (.inl rfl) h₁ hrun h₄⟩

end

end Xete.Swap
