import XetePrograms.Swap.Take

/-!
# Acceptances that go through

The acceptance of a bid with the accounts that the client names is accepted
exactly while both vaults hold what their records say. Then the fee, the
proceeds and the goods are all the tokens that move, and both escrows are gone.
-/

set_option autoImplicit false

namespace Xete.Swap
open Xete.Octets Xete.Weakest Xete.Chain Xete.Token Xete.Runtime Xete.Rules Xete.Flows

variable {E : Env} {H : Host} {m m₁ m' : Machine} {s s' s₀ : Ledger} {k : AcceptKeys}
  {d snonce ononce : Bytes}

/-! ## One acceptance -/

def AcceptKeys.accounts (k : AcceptKeys) : List AccountInfo :=
  [⟨k.maker,true,true⟩,⟨k.swap,false,true⟩,⟨k.swapVault,false,true⟩,⟨k.offer,false,true⟩,
    ⟨k.offerVault,false,true⟩,⟨k.offerer,false,true⟩,⟨k.giveMint,false,false⟩,
    ⟨k.wantMint,false,false⟩,
    ⟨k.offererGive,false,true⟩,⟨k.makerWant,false,true⟩,⟨k.tokenProg,false,false⟩,
    ⟨k.config,false,false⟩,⟨k.feeAta,false,true⟩]

def goodsOf (s : Ledger) (k : AcceptKeys) : ℕ := u64At (s k.swap).data sGiveAmt

def bidOf (s : Ledger) (k : AcceptKeys) : ℕ := u64At (s k.offer).data oWantAmt

def bidFee (s : Ledger) (k : AcceptKeys) : ℕ := feeAt s k.config (bidOf s k)

structure Acceptable (E : Env) (s : Ledger) (k : AcceptKeys) (snonce ononce : Bytes) : Prop where
  isSwap : IsSwap E s k.swap
  maker : keyAt (s k.swap).data sMaker = k.maker
  giveMint : keyAt (s k.swap).data sGiveMint = k.giveMint
  wantMint : keyAt (s k.swap).data sWantMint = k.wantMint
  swapLive : E.clock < i64At (s k.swap).data sExpiry
  isOffer : IsOffer E s k.offer
  target : keyAt (s k.offer).data oSwap = k.swap
  offerer : keyAt (s k.offer).data oOfferer = k.offerer
  offerWant : keyAt (s k.offer).data oWantMint = k.wantMint
  offerLive : E.clock < i64At (s k.offer).data oExpiry
  offerGive : keyAt (s k.offer).data oGiveMint = k.giveMint
  offerAmount : u64At (s k.offer).data oGiveAmt = u64At (s k.swap).data sGiveAmt
  swapAddress : ∃ b, E.host.findProgramAddress (swapSeeds k.maker snonce) E.programId =
    some (k.swap,b)
  swapVault : ∃ b, E.host.findProgramAddress (vaultSeeds k.maker snonce) E.programId =
    some (k.swapVault,b)
  offerAddress : ∃ b, E.host.findProgramAddress (offerSeeds k.offerer ononce) E.programId =
    some (k.offer,b)
  offerVault : ∃ b, E.host.findProgramAddress (ovaultSeeds k.offerer ononce) E.programId =
    some (k.offerVault,b)
  makerWant : BelongsTo s k.makerWant k.wantMint k.maker
  offererGive : BelongsTo s k.offererGive k.giveMint k.offerer
  goodsMint : IsMint k.tokenProg s k.giveMint
  bidMint : IsMint k.tokenProg s k.wantMint
  isConfig : IsConfig E s k.config
  covers : bidFee s k ≤ bidOf s k
  feeDest : 0 < bidFee s k →
    IsFeeDest E s k.feeAta k.wantMint (feePolicy (s k.config).data).feeWallet
    (feePolicy (s k.config).data).feeShards (byteAt snonce 0)

theorem acceptOffer_total (ha : E.accounts = k.accounts) (hl : d.length = 64)
    (hs : slice d 0 32 = snonce) (ho : slice d 32 32 = ononce)
    (h : Acceptable E m.ledger k snonce ononce)
    (hd : Did E (acceptActs k (m.ledger k.swap).data (m.ledger k.offer).data snonce ononce
      (bidFee m.ledger k) (mintDecimalsAt m.ledger k.giveMint) (mintDecimalsAt m.ledger k.wantMint))
      m m') :
    wp (acceptOffer E d) (fun _ _ => True) (fun _ => False) m := by
  obtain ⟨b₁,hb₁⟩ := h.swapAddress
  obtain ⟨b₂,hb₂⟩ := h.swapVault
  obtain ⟨b₃,hb₃⟩ := h.offerAddress
  obtain ⟨b₄,hb₄⟩ := h.offerVault
  obtain ⟨m₁,hpay,s₁,h₁,s₂,h₂,s₃,h₃,s₄,h₄,s₅,h₅,rfl⟩ := (did_append _ _ m m').mp hd
  simp only [transferAct, closeAct, next_ledger, offerSigner, swapSigner] at h₁ h₂ h₃ h₄ h₅
  simp [acceptOffer, ha, AcceptKeys.accounts, hl, hs, ho, h.isSwap.owner, h.isOffer.owner]
  simp [h.isSwap.length, h.isSwap.isOpen, h.maker, h.giveMint, h.wantMint, h.swapLive,
    h.isOffer.length, h.isOffer.isOpen, h.target, h.offerer, h.offerWant, h.offerLive, h.offerGive,
    h.offerAmount, hb₁, hb₂, hb₃, hb₄, h.makerWant, h.offererGive, h.isConfig,
    isMint_decimals h.goodsMint, isMint_decimals h.bidMint]
  refine ⟨⟨price_total _ h.covers h.feeDest hpay ?_,isMint_length h.bidMint⟩,
    isMint_length h.goodsMint⟩
  simp [tokenTransfer, tokenClose, h₁, h₂, h₃, h₄, h₅, close_effect_le h₄, close_effect_le h₅]

def acceptFlows (s : Ledger) (k : AcceptKeys) : List (Flow Pubkey) :=
  priceFlows k.offerVault k.feeAta k.makerWant (bidOf s k) (bidFee s k) ++
    [⟨k.swapVault,k.offererGive,goodsOf s k⟩]

/-- The accounts that an acceptance writes are different accounts, and both
parties are wallets. -/
structure AcceptApart (s : Ledger) (k : AcceptKeys) : Prop where
  fee : k.offerVault ≠ k.feeAta ∧ k.swapVault ≠ k.feeAta ∧ k.offererGive ≠ k.feeAta
  makerWant : k.swapVault ≠ k.makerWant ∧ k.offererGive ≠ k.makerWant
  bid : k.offerVault ≠ k.offererGive
  escrows : [k.offerVault,k.swapVault,k.offer,k.swap,k.offerer,k.maker].Nodup
  wallets : tokenAt s k.offerer = none ∧ tokenAt s k.maker = none

structure AcceptReady (E : Env) (s : Ledger) (k : AcceptKeys) (snonce ononce : Bytes)
    (feeOwner : Pubkey) :
    Prop where
  acceptable : Acceptable E s k snonce ononce
  bid : Refundable E s k.tokenProg k.offerVault k.wantMint k.makerWant k.offer k.offerer (bidOf s k)
    (offerSigner k.offerer (s k.offer).data ononce)
  goods : Refundable E s k.tokenProg k.swapVault k.giveMint k.offererGive k.swap k.maker
    (goodsOf s k) (swapSigner k.maker (s k.swap).data snonce)
  bidClosable : Closable E s k.offerVault k.offer k.offerer
  goodsClosable : Closable E s k.swapVault k.swap k.maker
  taken : PriceTaken E s k.tokenProg k.wantMint k.feeAta feeOwner k.makerWant k.maker (bidOf s k)
    (bidFee s k)
  apart : AcceptApart s k

/-! ## Vaults that are not native -/

section
variable {p v mint dest r payee source feeAta auth : Pubkey} {n price fee : ℕ} {seeds : List Bytes}
  {signer : Option (List Bytes)} {dec : UInt8} {t : TokenAccount} {fs : List (Flow Pubkey)}

theorem transferAct_lamports (ht : TokenRules E.host) (hp : IsTokenProgram p)
    (hv : tokenAt s source = some t) (hn : t.native = false)
    (h : (transferAct p source mint dest auth n dec signer).effect E s = some s') (a : Pubkey) :
    (s' a).lamports = (s a).lamports := by
  obtain ⟨ts,td,hts,-,-,-,-,-,-,-,-,-,-,-,hlam,-⟩ :=
    ht.transfer _ _ _ _ _ _ _ _ _ hp (effect_invoke _ _ _ _ h)
  obtain rfl := Option.some_inj.mp (hv.symm.trans hts)
  exact hlam hn a

theorem price_lamports (ht : TokenRules E.host) (hp : IsTokenProgram p)
    (hv : tokenAt m.ledger source = some t) (hn : t.native = false)
    (hd : Did E (priceActs p source mint feeAta dest auth price fee dec signer) m m') (a : Pubkey) :
    (m'.ledger a).lamports = (m.ledger a).lamports := by
  obtain ⟨m₁,h₁,s₂,h₂,rfl⟩ := (did_append _ _ m m').mp hd
  unfold feeActs at h₁
  by_cases hf : 0 < fee
  · rw [if_pos hf] at h₁
    obtain ⟨s₁,hs₁,rfl⟩ := h₁
    obtain ⟨t₁,ht₁,hr⟩ := (transferAct_moved ht hp hs₁).tokens _ _ hv
    exact (transferAct_lamports ht hp ht₁ (hr.native.trans hn) h₂ a).trans
      (transferAct_lamports ht hp hv hn hs₁ a)
  · rw [if_neg hf, did_nil] at h₁
    subst h₁
    exact transferAct_lamports ht hp hv hn h₂ a

theorem Refundable.canMove (h : Refundable E s p v mint dest r payee n seeds) :
    CanMove E s p v mint r (some seeds) where
  program := h.program
  passed := h.passed
  seeds _ := by rw [pda_signs h.signer]; rfl
  signs := .inr (pda_signs h.signer)
  writable := h.writable.1
  isMint := h.isMint
  holds := by
    obtain ⟨t,ht,htp,htm,htr,-,-,-,hfz⟩ := h.vault
    have hroom := tokenAt_amount_le _ _ _ ht
    exact ⟨t,ht,htp,htm,htr,hfz,by omega⟩

def Vaulted (s : Ledger) (p v auth : Pubkey) : Prop :=
  ∃ t, tokenAt s v = some t ∧ t.program = p ∧ t.authority = auth ∧ Sealed t ∧ t.native = false

theorem Refundable.vaulted (h : Refundable E s p v mint dest r payee n seeds) :
    Vaulted s p v r := by
  obtain ⟨t,ht,htp,-,htr,-,hsl,hnat,-⟩ := h.vault
  exact ⟨t,ht,htp,htr,hsl,hnat⟩

theorem Vaulted.moved (h : Vaulted s p v auth) (hm : Moved fs s s') : Vaulted s' p v auth := by
  obtain ⟨t,ht,hp,ha,hsl,hn⟩ := h
  obtain ⟨t',ht',hr⟩ := hm.tokens v t ht
  exact ⟨t',ht',hr.program.trans hp,hr.authority.trans ha,hr.isSealed hsl,hr.native.trans hn⟩

theorem Vaulted.congr (h : Vaulted s p v auth) (he : s' v = s v) : Vaulted s' p v auth := by
  obtain ⟨t,ht,hrest⟩ := h
  refine ⟨t,?_,hrest⟩
  rw [tokenAt_congr s s' v (by rw [he]) (by rw [he]), ht]

theorem Vaulted.exact (h : Vaulted s p v auth) : Exact s v n ↔ balance s v = n := by
  obtain ⟨t,ht,-⟩ := h
  simp [Exact, balance_of ht, ht]

theorem Vaulted.drained (ht : TokenRules E.host) (hp : IsTokenProgram p) (h : Vaulted s p v auth)
    (he : (closeAct p v payee r seeds).effect E s = some s') :
    Drained s s' v payee ∧ s' v = ⟨0,systemId,[]⟩ ∧ balance s v = 0 := by
  obtain ⟨t,hat,-,-,-,hn⟩ := h
  rw [balance_of hat]
  exact vault_drained ht hp hat hn he

/-- The close of an empty vault by the signature of its authority. -/
theorem Vaulted.closes (hw : Wellformed E) (ha : TokenAccepts E.host) (h : Vaulted s' p v r)
    (hr : Refundable E s p v mint dest r payee n seeds) (hz : balance s' v = 0)
    (hroom : (s' payee).lamports+(s' v).lamports ≤ u64Max) :
    ∃ s₁, (closeAct p v payee r seeds).effect E s' = some s₁ := by
  obtain ⟨t,ht,htp,rfl,hsl,hnat⟩ := h
  rw [balance_of ht] at hz
  obtain ⟨s₁,h₁⟩ := ha.close p v payee s' t hr.program ht htp hnat hz hsl.2 hr.apart.2 hroom
  have hperm : E.permits (.closeAccount p v payee t.authority) (some seeds) := by
    refine ⟨permits_program hw hr.program,hr.passed,fun _ => by rw [pda_signs hr.signer]; rfl,?_⟩
    simp [Cpi.metas, writing, signing, hr.writable.1, hr.writable.2.2, pda_signs hr.signer]
  refine ⟨s₁,?_⟩
  rw [closeAct, Act.effect, if_pos hperm]
  exact h₁

end

/-! ## The transfers -/

section
variable {feeOwner : Pubkey} {giveDec wantDec : UInt8} {s₂ : Ledger}

structure AcceptPaid (s s₂ : Ledger) (k : AcceptKeys) : Prop where
  moved : Moved (acceptFlows s k) s s₂
  lamports : ∀ a, (s₂ a).lamports = (s a).lamports
  bid : balance s₂ k.offerVault+bidOf s k = balance s k.offerVault
  goods : balance s₂ k.swapVault+goodsOf s k = balance s k.swapVault

def goodsAct (s : Ledger) (k : AcceptKeys) (snonce : Bytes) (dec : UInt8) : Act :=
  transferAct k.tokenProg k.swapVault k.giveMint k.offererGive k.swap (goodsOf s k) dec
    (some (swapSigner k.maker (s k.swap).data snonce))

theorem AcceptReady.paid (ht : TokenRules E.host)
    (h : AcceptReady E m.ledger k snonce ononce feeOwner)
    (hpay : Did E (priceActs k.tokenProg k.offerVault k.wantMint k.feeAta k.makerWant k.offer
      (bidOf m.ledger k) (bidFee m.ledger k) wantDec
      (some (offerSigner k.offerer (m.ledger k.offer).data ononce))) m m₁)
    (hgoods : (goodsAct m.ledger k snonce giveDec).effect E m₁.ledger = some s₂) :
    AcceptPaid m.ledger s₂ k := by
  have hp := h.bid.program
  obtain ⟨t,hat,-,-,-,hn⟩ := h.bid.vaulted
  obtain ⟨t',hat',-,-,-,hn'⟩ := h.goods.vaulted
  have hm := price_moved ht hp hpay
  obtain ⟨t₁,hat₁,hr₁⟩ := hm.tokens _ _ hat'
  have hall : Moved (acceptFlows m.ledger k) m.ledger s₂ :=
    hm.append (transferAct_moved ht hp hgoods)
  have hcov := h.acceptable.covers
  have hne := h.apart.escrows
  simp only [List.nodup_cons, List.mem_cons, not_or] at hne
  have hb := hall.booked k.offerVault
  have hg := hall.booked k.swapVault
  simp [acceptFlows, priceFlows, outOf, inTo, h.apart.fee.1.symm, h.apart.fee.2.1.symm,
    h.bid.apart.1.symm, h.apart.makerWant.1.symm, h.apart.bid.symm, h.goods.apart.1.symm, hne.1.1,
    Ne.symm hne.1.1] at hb hg
  exact
    { moved := hall
      lamports := fun a => (transferAct_lamports ht hp hat₁ (hr₁.native.trans hn') hgoods a).trans
        (price_lamports ht hp hat hn hpay a)
      bid := by omega
      goods := by omega }

theorem AcceptReady.pays (hw : Wellformed E) (ht : TokenRules E.host) (ha : TokenAccepts E.host)
    (h : AcceptReady E m.ledger k snonce ononce feeOwner)
    (hb : bidOf m.ledger k ≤ balance m.ledger k.offerVault)
    (hg : goodsOf m.ledger k ≤ balance m.ledger k.swapVault) :
    ∃ m₁ s₂, Did E (priceActs k.tokenProg k.offerVault k.wantMint k.feeAta k.makerWant k.offer
      (bidOf m.ledger k) (bidFee m.ledger k) (mintDecimalsAt m.ledger k.wantMint)
      (some (offerSigner k.offerer (m.ledger k.offer).data ononce))) m m₁ ∧
      (goodsAct m.ledger k snonce (mintDecimalsAt m.ledger k.giveMint)).effect E m₁.ledger =
        some s₂ := by
  obtain ⟨m₁,hpay⟩ := price_runs hw ht ha h.bid.canMove h.taken h.acceptable.covers h.apart.fee.1
    h.bid.apart.1 hb
  have hm := price_moved ht h.bid.program hpay
  have hne := h.apart.escrows
  simp only [List.nodup_cons, List.mem_cons, not_or] at hne
  have hvault : inTo (priceFlows k.offerVault k.feeAta k.makerWant (bidOf m.ledger k)
    (bidFee m.ledger k))
      k.swapVault = 0 := inTo_zero
      (by simp [priceFlows, h.apart.fee.2.1.symm, h.apart.makerWant.1.symm])
  have hin : inTo (priceFlows k.offerVault k.feeAta k.makerWant (bidOf m.ledger k)
    (bidFee m.ledger k))
      k.offererGive = 0 :=
      inTo_zero (by simp [priceFlows, h.apart.fee.2.2.symm, h.apart.makerWant.2.symm])
  have hout : outOf (priceFlows k.offerVault k.feeAta k.makerWant (bidOf m.ledger k)
    (bidFee m.ledger k))
      k.swapVault = 0 := outOf_zero (by simp [priceFlows, hne.1.1])
  have hleft := hm.booked k.swapVault
  rw [hvault, hout] at hleft
  obtain ⟨td,htd,hdp,hdm,hdf,hroom⟩ := h.goods.target
  have htake : Receives m.ledger k.tokenProg k.offererGive k.giveMint td.authority
    (goodsOf m.ledger k) :=
    ⟨td,htd,hdp,hdm,rfl,hdf,hroom⟩
  obtain ⟨s₂,h₂⟩ := (h.goods.canMove.moved hm hvault).transfers hw ha (n := goodsOf m.ledger k)
    (htake.moved hm (by omega)) h.goods.writable.2.1 h.goods.apart.1 (by omega)
  rw [(hm.isMint h.goods.isMint).2] at h₂
  exact ⟨m₁,s₂,hpay,h₂⟩

/-! ## The closings -/

def acceptClosings (s : Ledger) (k : AcceptKeys) (snonce ononce : Bytes) : List Act :=
  [closeAct k.tokenProg k.offerVault k.offerer k.offer
    (offerSigner k.offerer (s k.offer).data ononce), closeAct k.tokenProg k.swapVault k.maker k.swap
    (swapSigner k.maker (s k.swap).data snonce), .close k.offer k.offerer,.close k.swap k.maker]

/-- The records and the parties, whom the transfers leave alone. -/
theorem AcceptPaid.plain (hw : Wellformed E) (h : AcceptReady E s k snonce ononce feeOwner)
    (hp : AcceptPaid s s₂ k) : s₂ k.offer = s k.offer ∧ s₂ k.swap = s k.swap ∧
      s₂ k.offerer = s k.offerer ∧ s₂ k.maker = s k.maker :=
  ⟨hp.moved.plain _ (record_plain hw h.bidClosable.owner),
    hp.moved.plain _ (record_plain hw h.goodsClosable.owner),hp.moved.plain _ h.apart.wallets.1,
    hp.moved.plain _ h.apart.wallets.2⟩

theorem acceptClosings_run (hw : Wellformed E) (ht : TokenRules E.host) (ha : TokenAccepts E.host)
    (h : AcceptReady E s k snonce ononce feeOwner) (hp : AcceptPaid s m.ledger k)
    (hb : balance m.ledger k.offerVault = 0) (hg : balance m.ledger k.swapVault = 0) :
    ∃ m', Did E (acceptClosings s k snonce ononce) m m' := by
  have hprog := h.bid.program
  have hne := h.apart.escrows
  simp only [List.nodup_cons, List.nodup_nil, List.mem_cons, not_or, List.not_mem_nil,
    not_false_eq_true, and_true] at hne
  obtain ⟨⟨h₁₂,h₁₃,h₁₄,h₁₅,h₁₆⟩,⟨h₂₃,h₂₄,h₂₅,h₂₆⟩,⟨h₃₄,h₃₅,h₃₆⟩,⟨h₄₅,h₄₆⟩,h₅₆⟩ := hne
  obtain ⟨hoffer,hswap,hofferer,hmaker⟩ := hp.plain hw h
  have hroom := h.bidClosable.room
  have hroom' := h.goodsClosable.room
  have hlam := hp.lamports
  obtain ⟨s₃,e₃⟩ := (h.bid.vaulted.moved hp.moved).closes hw ha h.bid hb (by rw [hlam, hlam]; omega)
  obtain ⟨d₃,-,-⟩ := (h.bid.vaulted.moved hp.moved).drained ht hprog e₃
  have hvault := d₃.others k.swapVault (Ne.symm h₁₂) h₂₅
  obtain ⟨s₄,e₄⟩ := ((h.goods.vaulted.moved hp.moved).congr hvault).closes hw ha h.goods
    (by rw [d₃.balances, hg])
    (by rw [d₃.others k.maker (Ne.symm h₁₆) (Ne.symm h₅₆), hvault, hlam, hlam]; omega)
  obtain ⟨d₄,-,-⟩ := ((h.goods.vaulted.moved hp.moved).congr hvault).drained ht hprog e₄
  have ho₄ : s₄ k.offer = s k.offer := by
    rw [d₄.others k.offer (Ne.symm h₂₃) h₃₆, d₃.others k.offer (Ne.symm h₁₃) h₃₅, hoffer]
  have hw₄ : s₄ k.swap = s k.swap := by
    rw [d₄.others k.swap (Ne.symm h₂₄) h₄₆, d₃.others k.swap (Ne.symm h₁₄) h₄₅, hswap]
  have e₅ : (Act.close k.offer k.offerer).effect E s₄ = some (drain s₄ k.offer k.offerer) := by
    refine close_effect (by rw [ho₄]; exact h.bidClosable.owner) h.bidClosable.writable.1
      h.bidClosable.writable.2 h₃₅ ?_
    rw [d₄.others k.offerer (Ne.symm h₂₅) h₅₆, d₃.given, ho₄, hlam, hlam]
    exact hroom
  obtain ⟨d₅,-⟩ := record_drained hw (by rw [ho₄]; exact h.bidClosable.owner) h₃₅ e₅
  have e₆ : (Act.close k.swap k.maker).effect E (drain s₄ k.offer k.offerer) =
      some (drain (drain s₄ k.offer k.offerer) k.swap k.maker) := by
    have hw₅ := d₅.others k.swap (Ne.symm h₃₄) h₄₅
    refine close_effect (by rw [hw₅, hw₄]; exact h.goodsClosable.owner) h.goodsClosable.writable.1
      h.goodsClosable.writable.2 h₄₆ ?_
    rw [hw₅, hw₄, d₅.others k.maker (Ne.symm h₃₆) (Ne.symm h₅₆), d₄.given,
      d₃.others k.maker (Ne.symm h₁₆) (Ne.symm h₅₆), hvault, hlam, hlam]
    exact hroom'
  exact ⟨_,s₃,e₃,s₄,e₄,_,e₅,_,e₆,rfl⟩

/-- What an acceptance did: the tokens went by `fs` and no others moved, both
escrows are cleared, and no other account changed. -/
structure Exchanged (s s' : Ledger) (fs : List (Flow Pubkey)) (k : AcceptKeys) : Prop where
  booked : Booked fs (balance s) (balance s')
  bid : Cleared s s' k.offerVault k.offer k.offerer
  goods : Cleared s s' k.swapVault k.swap k.maker
  others : ∀ a, a ∉ ends fs → a ∉ [k.offerVault,k.swapVault,k.offer,k.swap,k.offerer,k.maker] →
    s' a = s a

theorem acceptClosings_exchange (hw : Wellformed E) (ht : TokenRules E.host)
    (h : AcceptReady E s k snonce ononce feeOwner) (hp : AcceptPaid s m.ledger k)
    (hd : Did E (acceptClosings s k snonce ononce) m m') :
    (balance m.ledger k.offerVault = 0 ∧ balance m.ledger k.swapVault = 0) ∧
      Exchanged s m'.ledger (acceptFlows s k) k := by
  have hprog := h.bid.program
  have hne := h.apart.escrows
  simp only [List.nodup_cons, List.nodup_nil, List.mem_cons, not_or, List.not_mem_nil,
    not_false_eq_true, and_true] at hne
  obtain ⟨⟨h₁₂,h₁₃,h₁₄,h₁₅,h₁₆⟩,⟨h₂₃,h₂₄,h₂₅,h₂₆⟩,⟨h₃₄,h₃₅,h₃₆⟩,⟨h₄₅,h₄₆⟩,h₅₆⟩ := hne
  obtain ⟨hoffer,hswap,hofferer,hmaker⟩ := hp.plain hw h
  have hlam := hp.lamports
  obtain ⟨s₃,e₃,s₄,e₄,s₅,e₅,s₆,e₆,rfl⟩ := hd
  simp only [next_ledger] at *
  obtain ⟨d₃,hgone,hb⟩ := (h.bid.vaulted.moved hp.moved).drained ht hprog e₃
  have hvault := d₃.others k.swapVault (Ne.symm h₁₂) h₂₅
  obtain ⟨d₄,hgone',hg⟩ := ((h.goods.vaulted.moved hp.moved).congr hvault).drained ht hprog e₄
  rw [d₃.balances] at hg
  have ho₄ : s₄ k.offer = s k.offer := by
    rw [d₄.others k.offer (Ne.symm h₂₃) h₃₆, d₃.others k.offer (Ne.symm h₁₃) h₃₅, hoffer]
  have hw₄ : s₄ k.swap = s k.swap := by
    rw [d₄.others k.swap (Ne.symm h₂₄) h₄₆, d₃.others k.swap (Ne.symm h₁₄) h₄₅, hswap]
  obtain ⟨d₅,hdata⟩ := record_drained hw (by rw [ho₄]; exact h.bidClosable.owner) h₃₅ e₅
  have hw₅ : s₅ k.swap = s k.swap := by rw [d₅.others k.swap (Ne.symm h₃₄) h₄₅, hw₄]
  obtain ⟨d₆,hdata'⟩ := record_drained hw (by rw [hw₅]; exact h.goodsClosable.owner) h₄₆ e₆
  refine ⟨⟨hb,hg⟩,?_,⟨?_,?_,?_⟩,⟨?_,?_,?_⟩,?_⟩
  · rw [d₆.balances, d₅.balances, d₄.balances, d₃.balances]
    exact hp.moved.booked
  · rw [d₆.others _ h₁₄ h₁₆, d₅.others _ h₁₃ h₁₅, d₄.others _ h₁₂ h₁₆, hgone]
  · rw [d₆.others _ h₃₄ h₃₆, hdata, ho₄]
    exact ⟨d₅.empty,rfl⟩
  · rw [d₆.others _ (Ne.symm h₄₅) h₅₆, d₅.given, d₄.others _ (Ne.symm h₂₅) h₅₆, d₃.given, ho₄,
      hlam, hlam]
  · rw [d₆.others _ h₂₄ h₂₆, d₅.others _ h₂₃ h₂₅, hgone']
  · rw [hdata', hw₅]
    exact ⟨d₆.empty,rfl⟩
  · rw [d₆.given, hw₅, d₅.others _ (Ne.symm h₃₆) (Ne.symm h₅₆), d₄.given,
      d₃.others _ (Ne.symm h₁₆) (Ne.symm h₅₆), hvault, hlam, hlam]
  · intro a ha hn
    simp only [List.mem_cons, List.not_mem_nil, or_false, not_or] at hn
    rw [d₆.others a hn.2.2.2.1 hn.2.2.2.2.2, d₅.others a hn.2.2.1 hn.2.2.2.2.1,
      d₄.others a hn.2.1 hn.2.2.2.2.2, d₃.others a hn.1 hn.2.2.2.2.1, hp.moved.others a ha]

/-- A bid is accepted exactly while both vaults have what they owe and no more,
and then just the tokens move that should. -/
theorem accept_settles (hw : Wellformed E) (ht : TokenRules E.host) (hacc : TokenAccepts E.host)
    (ha : E.accounts = k.accounts) (hl : d.length = 64) (hs : slice d 0 32 = snonce)
    (ho : slice d 32 32 = ononce) (h : AcceptReady E m.ledger k snonce ononce feeOwner) :
    ((∃ m', acceptOffer E d m = .ok () m') ↔ Exact m.ledger k.offerVault (bidOf m.ledger k) ∧
      Exact m.ledger k.swapVault (goodsOf m.ledger k)) ∧
    ∀ m', acceptOffer E d m = .ok () m' →
      Exchanged m.ledger m'.ledger (acceptFlows m.ledger k) k := by
  have hparts : ∀ m', acceptOffer E d m = .ok () m' → ∃ m₂, AcceptPaid m.ledger m₂.ledger k ∧
      Did E (acceptClosings m.ledger k snonce ononce) m₂ m' := by
    intro m' hx
    obtain ⟨k',giveDec,wantDec,hk⟩ := wp_ok acceptOffer_did hx
    obtain rfl : k' = k := by
      have hslots := hk.slots
      rw [ha] at hslots
      cases k
      cases k'
      simpa [AcceptKeys.accounts, eq_comm] using hslots
    have hdid := hk.did
    rw [hs, ho] at hdid
    obtain ⟨m₁,hpay,s₂,h₂,hrest⟩ := (did_append _ _ m m').mp hdid
    have hp : AcceptPaid m.ledger s₂ k' := h.paid ht hpay h₂
    exact ⟨m₁.next _ s₂,hp,hrest⟩
  refine ⟨⟨?_,?_⟩,?_⟩
  · rintro ⟨m',hx⟩
    obtain ⟨m₂,hp,hd⟩ := hparts m' hx
    obtain ⟨⟨hb,hg⟩,-⟩ := acceptClosings_exchange hw ht h hp hd
    rw [h.bid.vaulted.exact, h.goods.vaulted.exact, ← hp.bid, ← hp.goods, hb, hg, Nat.zero_add,
      Nat.zero_add]
    exact ⟨rfl,rfl⟩
  · rintro ⟨hb,hg⟩
    rw [h.bid.vaulted.exact] at hb
    rw [h.goods.vaulted.exact] at hg
    obtain ⟨m₁,s₂,hpay,h₂⟩ := h.pays hw ht hacc hb.ge hg.ge
    have hp := h.paid ht hpay h₂
    have hbid := hp.bid
    have hgoods := hp.goods
    obtain ⟨m',hd⟩ := acceptClosings_run (m := m₁.next (goodsAct m.ledger k snonce
      (mintDecimalsAt m.ledger k.giveMint)) s₂) hw ht hacc h hp (by rw [next_ledger]; omega)
      (by rw [next_ledger]; omega)
    obtain ⟨_,m'',hm'',-⟩ := wp_total (acceptOffer_total ha hl hs ho h.acceptable
      ((did_append _ _ m m').mpr ⟨m₁,hpay,s₂,h₂,hd⟩))
    exact ⟨m'',hm''⟩
  · intro m' hx
    obtain ⟨m₂,hp,hd⟩ := hparts m' hx
    exact (acceptClosings_exchange hw ht h hp hd).2

end

/-! ## The acceptance of the client -/

section
variable {c c₀ : Call} {s₁ : Ledger} {ix : Sdk.Instruction}

structure AcceptKeys.At (H : Host) (s : Ledger) (k : AcceptKeys) (snonce ononce : Bytes) :
    Prop where
  swap : Sdk.swapPda H k.maker snonce = some k.swap
  swapVault : Sdk.vaultPda H k.maker snonce = some k.swapVault
  offer : Sdk.offerPda H k.offerer ononce = some k.offer
  offerVault : Sdk.ovaultPda H k.offerer ononce = some k.offerVault
  offererGive : Sdk.ata H k.offerer k.giveMint splTokenId = some k.offererGive
  makerWant : Sdk.ata H k.maker k.wantMint splTokenId = some k.makerWant
  tokenProg : k.tokenProg = splTokenId
  config : Sdk.configPda H = some k.config
  feeDest : Sdk.feeDest H k.wantMint snonce (feePolicy (s k.config).data).feeWallet
    (feePolicy (s k.config).data).feeShards = some k.feeAta

structure AcceptKeys.Strangers (s : Ledger) (k : AcceptKeys) : Prop where
  maker : k.offerer ≠ k.maker
  feeWallet : (feePolicy (s k.config).data).feeShards = 0 →
    k.offerer ≠ (feePolicy (s k.config).data).feeWallet

structure AcceptTerms (s : Ledger) (k : AcceptKeys) (clock : ℤ) : Prop where
  giveMint : keyAt (s k.swap).data sGiveMint = k.giveMint
  wantMint : keyAt (s k.swap).data sWantMint = k.wantMint
  swapLive : clock < i64At (s k.swap).data sExpiry
  target : keyAt (s k.offer).data oSwap = k.swap
  offerWant : keyAt (s k.offer).data oWantMint = k.wantMint
  offerLive : clock < i64At (s k.offer).data oExpiry
  offerGive : keyAt (s k.offer).data oGiveMint = k.giveMint
  offerAmount : u64At (s k.offer).data oGiveAmt = goodsOf s k

structure AcceptFunds (s : Ledger) (k : AcceptKeys) : Prop where
  ordinary : Ordinary s splTokenId k.swapVault ∧ Ordinary s splTokenId k.offerVault
  goods : Receives s splTokenId k.offererGive k.giveMint k.offerer (goodsOf s k)
  proceeds : Receives s splTokenId k.makerWant k.wantMint k.maker (bidOf s k)
  fee : 0 < exactFee (feePolicy (s k.config).data) (bidOf s k) →
    Receives s splTokenId k.feeAta k.wantMint ((feePolicy (s k.config).data).collector k.config)
      (bidOf s k)
  makerRoom : (s k.maker).lamports+(s k.swapVault).lamports+(s k.swap).lamports ≤ u64Max
  offererRoom : (s k.offerer).lamports+(s k.offerVault).lamports+(s k.offer).lamports ≤ u64Max
  wallets : tokenAt s k.offerer = none ∧ tokenAt s k.maker = none

theorem AcceptKeys.At.apart (hc : H.CollisionFree) (hata : H.programId ≠ ataProgramId)
    (hs : snonce.length = 32) (ho : ononce.length = 32) (h : k.At H s snonce ononce)
    (hk : k.Strangers s) (hmaker : ¬H.IsPda k.maker) (hofferer : ¬H.IsPda k.offerer)
    (hw : tokenAt s k.offerer = none ∧ tokenAt s k.maker = none) :
    AcceptApart s k := by
  obtain ⟨_,hb₁⟩ := client_found h.swap
  obtain ⟨_,hb₂⟩ := client_found h.swapVault
  obtain ⟨_,hb₃⟩ := client_found h.offer
  obtain ⟨_,hb₄⟩ := client_found h.offerVault
  have hswap : (Place.swap k.maker snonce).At H k.swap := .of_find hs hb₁
  have hvault : (Place.vault k.maker snonce).At H k.swapVault := .of_find hs hb₂
  have hoffer : (Place.offer k.offerer ononce).At H k.offer := .of_find ho hb₃
  have hovault : (Place.ovault k.offerer ononce).At H k.offerVault := .of_find ho hb₄
  have hplain : ∀ {v o w q a}, H.IsPda v → Sdk.ata H o w q = some a → v ≠ a := by
    rintro v o w q a hv ha rfl
    exact ata_not_pda hc hata ha hv
  have hparty : ∀ {v o}, H.IsPda v → ¬H.IsPda o → v ≠ o := by
    rintro v o hv hn rfl
    exact hn hv
  have hfee : k.offerVault ≠ k.feeAta ∧ k.swapVault ≠ k.feeAta ∧ k.offererGive ≠ k.feeAta := by
    rcases feeDest_cases h.feeDest with ⟨hz,hf⟩ | ⟨-,b,hf⟩
    · refine ⟨hplain hovault.isPda hf,hplain hvault.isPda hf,?_⟩
      intro he
      exact hk.feeWallet hz (ata_inj hc h.offererGive (he ▸ hf)).1
    · have hplace : (Place.feeVault k.wantMint _).At H k.feeAta := .of_find trivial hf
      exact ⟨hovault.ne hc hplace (by simp),hvault.ne hc hplace (by simp),
        (hplain hplace.isPda h.offererGive).symm⟩
  have hmakerWant : k.offererGive ≠ k.makerWant := by
    intro he
    exact hk.maker (ata_inj hc h.offererGive (he ▸ h.makerWant)).1
  exact
    { fee := hfee
      makerWant := ⟨hplain hvault.isPda h.makerWant,hmakerWant⟩
      bid := hplain hovault.isPda h.offererGive
      escrows := by
        simp only [List.nodup_cons, List.nodup_nil, List.mem_cons, not_or, List.not_mem_nil,
          not_false_eq_true, and_true]
        exact ⟨⟨hovault.ne hc hvault (by simp),hovault.ne hc hoffer (by simp),
          hovault.ne hc hswap (by simp),
            hparty hovault.isPda hofferer,hparty hovault.isPda hmaker⟩,
          ⟨hvault.ne hc hoffer (by simp),hvault.ne hc hswap (by simp),hparty hvault.isPda hofferer,
            hparty hvault.isPda hmaker⟩,
          ⟨hoffer.ne hc hswap (by simp),hparty hoffer.isPda hofferer,hparty hoffer.isPda hmaker⟩,
          ⟨hparty hswap.isPda hofferer,hparty hswap.isPda hmaker⟩,hk.maker⟩
      wallets := hw }

/-- A standing swap and a standing bid, and an acceptance that the client sends for them. -/
theorem OfferStands.acceptReady (hc : E.host.CollisionFree) (hata : E.host.programId ≠ ataProgramId)
    (hw : Wellformed E) (hswap : SwapStands E.host s k.maker snonce k.swap)
    (hoffer : OfferStands E.host s k.offerer ononce k.offer) (hcfg : SoundConfig E.host k.config s)
    (hk : k.At E.host s snonce ononce) (hstr : k.Strangers s) (hf : AcceptFunds s k)
    (hterms : AcceptTerms s k E.clock) (ha : E.accounts = k.accounts) :
    AcceptReady E s k snonce ononce ((feePolicy (s k.config).data).collector k.config) := by
  obtain ⟨hconfig,hbps⟩ := hcfg.isConfig hk.config
  have hfee : bidFee s k = exactFee (feePolicy (s k.config).data) (bidOf s k) :=
    feeAt_exact hbps (s k.offer).data oWantAmt
  have hspl : IsTokenProgram splTokenId := .inl rfl
  have hwr : ∀ x ∈ [k.swapVault,k.offererGive,k.swap,k.maker,k.offerVault,k.makerWant,k.offer,
    k.offerer,k.feeAta],
      E.writable x := by
    simp [Env.writable, ha, AcceptKeys.accounts]
  have hpass : ∃ i ∈ E.accounts, i.key = splTokenId := by
    simp [ha, AcceptKeys.accounts, hk.tokenProg]
  have hpay : Payable s splTokenId k.swapVault k.giveMint k.offererGive k.offerer k.swap k.maker
      (goodsOf s k) := ⟨hf.ordinary.1,hf.goods,hf.makerRoom⟩
  have hpay' : Payable s splTokenId k.offerVault k.wantMint k.makerWant k.maker k.offer k.offerer
      (bidOf s k) := ⟨hf.ordinary.2,hf.proceeds,hf.offererRoom⟩
  obtain ⟨hgoods,hclose⟩ := hswap.escrow.refundable hw
    (by rw [swapDue, hterms.giveMint]; rfl) hswap.nonce hswap.nonce hk.swapVault hswap.owner
    hswap.party hoffer.party hpay
    ⟨hspl,hpass,hwr _ (by simp),hwr _ (by simp),hwr _ (by simp),hwr _ (by simp)⟩
  obtain ⟨hbid,hclose'⟩ := hoffer.escrow.refundable hw
    (by rw [offerDue, hterms.offerWant]; rfl) hoffer.nonce hoffer.nonce hk.offerVault hoffer.owner
    hoffer.party hswap.party hpay'
    ⟨hspl,hpass,hwr _ (by simp),hwr _ (by simp),hwr _ (by simp),hwr _ (by simp)⟩
  obtain ⟨_,hb₁⟩ := client_found hk.swap
  obtain ⟨_,hb₂⟩ := client_found hk.swapVault
  obtain ⟨_,hb₃⟩ := client_found hk.offer
  obtain ⟨_,hb₄⟩ := client_found hk.offerVault
  have htaken : PriceTaken E s splTokenId k.wantMint k.feeAta
    ((feePolicy (s k.config).data).collector k.config)
      k.makerWant k.maker (bidOf s k) (bidFee s k) :=
    { fee := by
        rw [hfee]
        exact hf.fee
      rest := hf.proceeds
      writable := ⟨hwr _ (by simp),hwr _ (by simp)⟩ }
  have hchecks : Acceptable E s k snonce ononce :=
    { isSwap := ⟨hswap.owner,hswap.record.length,hswap.record.isOpen⟩
      maker := hswap.record.maker
      giveMint := hterms.giveMint
      wantMint := hterms.wantMint
      swapLive := hterms.swapLive
      isOffer := ⟨hoffer.owner,hoffer.record.length,hoffer.record.isOpen⟩
      target := hterms.target
      offerer := hoffer.record.offerer
      offerWant := hterms.offerWant
      offerLive := hterms.offerLive
      offerGive := hterms.offerGive
      offerAmount := hterms.offerAmount
      swapAddress := ⟨_,hb₁⟩
      swapVault := ⟨_,hb₂⟩
      offerAddress := ⟨_,hb₃⟩
      offerVault := ⟨_,hb₄⟩
      makerWant := hf.proceeds.belongs
      offererGive := hf.goods.belongs
      goodsMint := by
        rw [hk.tokenProg]
        exact hgoods.isMint
      bidMint := by
        rw [hk.tokenProg]
        exact hbid.isMint
      isConfig := hconfig
      covers := by
        rw [hfee]
        exact exactFee_le hbps _
      feeDest := by
        rw [hfee]
        exact fun hpos => client_feeDest hk.feeDest (hf.fee hpos) }
  rw [← hk.tokenProg] at hgoods hbid htaken
  exact ⟨hchecks,hbid,hgoods,hclose',hclose,htaken,
    hk.apart hc hata hswap.nonce hoffer.nonce hstr hswap.party hoffer.party hf.wallets⟩

/-- The instruction that the client builds. -/
theorem acceptOfferIx_sends (hk : k.At H s snonce ononce)
    (hl : (s k.config).data.length = configLen)
    (h : Sdk.acceptOffer H s k.maker snonce k.offerer ononce k.giveMint k.wantMint = some ix) :
    ix = ⟨k.accounts,5 :: (snonce ++ ononce)⟩ := by
  have hcfg : Sdk.getConfig H s = Sdk.configFrom (s k.config).data := by
    rw [Sdk.getConfig, hk.config]; rfl
  have hread : Sdk.configFrom (s k.config).data = some _ := if_pos hl
  have hfee : Sdk.feeDest H k.wantMint snonce (keyAt (s k.config).data 32)
    (byteAt (s k.config).data 106) =
      some k.feeAta := hk.feeDest
  simp only [Sdk.acceptOffer, hcfg, hread, Sdk.acceptOfferIx, hk.swap, hk.swapVault, hk.offer,
    hk.offerVault, hk.offererGive, hk.makerWant, hk.config, hfee, Option.bind_eq_bind,
    Option.bind_some, Option.pure_def, Option.some_inj] at h
  rw [← h, AcceptKeys.accounts, hk.tokenProg]

/-- In every reachable state the acceptance that the client builds for a live bid
on a live swap of `open_swap` goes through exactly while both vaults have what
they owe and no more. Then the fee, the proceeds and the goods are all the tokens
that move, and the rents are back with the offerer and with the maker. -/
theorem offer_accept (hs : SystemRules H) (ht : TokenRules H) (ha : TokenAccepts H)
    (hf : Confined H) (hno : NoSeizure H) (hc : H.CollisionFree) (hsys : H.programId ≠ systemId)
    (hata : H.programId ≠ ataProgramId) (hg : Genesis H s₀) (hrun : Run H (Assumed H) s₀ s)
    (hcfg : SoundConfig H k.config s) (hp : (Place.swap k.maker snonce).At H k.swap)
    (hl : Live H (s k.swap))
    (hopen : OpenedBy H (Assumed H) (.swap k.maker snonce) k.swap s₀ s c₀ s₁ m)
    (hd : c₀.data = 0 :: d) (hp' : (Place.offer k.offerer ononce).At H k.offer)
    (hl' : Live H (s k.offer)) (hk : k.At H s snonce ononce) (hstr : k.Strangers s)
    (hfunds : AcceptFunds s k) (hterms : AcceptTerms s k c.env.clock)
    (hix : Sdk.acceptOffer H s k.maker snonce k.offerer ononce k.giveMint k.wantMint = some ix)
    (hsent : c.Sends H ix) :
    ((∃ m, c.result s = some m) ↔
      Exact s k.offerVault (bidOf s k) ∧ Exact s k.swapVault (goodsOf s k)) ∧
    ∀ m, c.result s = some m → Exchanged s m.ledger
      [⟨k.offerVault,k.feeAta,exactFee (feePolicy (s k.config).data) (bidOf s k)⟩,
        ⟨k.offerVault,k.makerWant,bidOf s k-exactFee (feePolicy (s k.config).data) (bidOf s k)⟩,
        ⟨k.swapVault,k.offererGive,goodsOf s k⟩] k := by
  have hswap := swap_stands hs ht hf hno hc hsys hg hrun hp hl hopen hd
  have hoffer := offer_stands hs ht hf hno hc hsys hg hrun hp' hl'
  obtain ⟨⟨rfl,hw⟩,hacc,hdata⟩ := hsent
  obtain ⟨hconfig,hbps⟩ := hcfg.isConfig hk.config
  rw [acceptOfferIx_sends hk hconfig.2.2 hix] at hacc hdata
  have hready := hoffer.acceptReady hc hata hw hswap hcfg hk hstr hfunds hterms hacc
  have hlen : (snonce ++ ononce).length = 64 := by simp [hswap.nonce, hoffer.nonce]
  have hfirst : slice (snonce ++ ononce) 0 32 = snonce := by
    rw [slice_append_left _ _ _ _ (by simp [hswap.nonce]), slice_all _ _ hswap.nonce]
  have hsecond : slice (snonce ++ ononce) 32 32 = ononce := by
    rw [slice_append_right _ _ _ _ (by simp [hswap.nonce]), hswap.nonce, slice_all _ _ hoffer.nonce]
  have hdone := accept_settles (m := ⟨s,[]⟩) hw ht ha hacc hlen hfirst hsecond hready
  simp only [Call.result_iff hdata]
  have hfee : bidFee s k = exactFee (feePolicy (s k.config).data) (bidOf s k) :=
    feeAt_exact hbps (s k.offer).data oWantAmt
  rw [acceptFlows, hfee] at hdone
  exact hdone

end

section
open Xete.Market Xete.Reference

def arcadeBid : Call := arcadeCall 0 ⟨(makeOfferCall 400).env.accounts,(makeOfferCall 400).data⟩

def bidKeys : AcceptKeys where
  maker := Market.maker
  swap := swapKey
  swapVault := vaultKey
  offer := offerKey
  offerVault := ovaultKey
  offerer := Market.offerer
  giveMint := mintA
  wantMint := mintB
  offererGive := offererA
  makerWant := makerB
  tokenProg := splTokenId
  config := configKey
  feeAta := feeB

def arcadeAccept : Sdk.Instruction := ⟨bidKeys.accounts,5 :: (Market.nonce ++ Market.nonce)⟩

/-- A bid of 400 for the 100 of a swap, accepted for a fee of 4. -/
theorem offer_accept_bid : ∃ m₁ m₂ m₃ : Machine, arcadeOpen.result kioskStart = some m₁ ∧
    arcadeBid.result m₁.ledger = some m₂ ∧ (arcadeCall 1 arcadeAccept).result m₂.ledger = some m₃ ∧
    Exchanged m₂.ledger m₃.ledger [⟨ovaultKey,feeB,4⟩,⟨ovaultKey,makerB,396⟩,
      ⟨vaultKey,offererA,100⟩] bidKeys := by
  have h : ((arcadeOpen.result kioskStart).any fun m₁ => (arcadeBid.result m₁.ledger).any fun m₂ =>
      decide (GenuineTokens (m₁.trace.map Event.act)) &&
        (decide (GenuineTokens (m₂.trace.map Event.act)) &&
      (decide (Live arcade (m₁.ledger swapKey)) && (decide (Live arcade (m₂.ledger swapKey)) &&
      (decide (Live arcade (m₂.ledger offerKey)) &&
      (decide (keyAt (m₂.ledger swapKey).data sGiveMint = mintA) &&
      (decide (keyAt (m₂.ledger swapKey).data sWantMint = mintB) &&
      (decide (1 < i64At (m₂.ledger swapKey).data sExpiry) &&
      (decide (keyAt (m₂.ledger offerKey).data oSwap = swapKey) &&
      (decide (keyAt (m₂.ledger offerKey).data oWantMint = mintB) &&
      (decide (1 < i64At (m₂.ledger offerKey).data oExpiry) &&
      (decide (keyAt (m₂.ledger offerKey).data oGiveMint = mintA) &&
      (decide (u64At (m₂.ledger offerKey).data oGiveAmt = 100) &&
      (decide (goodsOf m₂.ledger bidKeys = 100) && (decide (bidOf m₂.ledger bidKeys = 400) &&
      (decide (m₂.ledger configKey = ⟨1,programKey,configData⟩) &&
      (decide (Ordinary m₂.ledger splTokenId vaultKey) &&
      (decide (Ordinary m₂.ledger splTokenId ovaultKey) &&
      (decide (Receives m₂.ledger splTokenId offererA mintA Market.offerer 100) &&
      (decide (Receives m₂.ledger splTokenId makerB mintB Market.maker 400) &&
      (decide (Receives m₂.ledger splTokenId feeB mintB Market.feeWallet 400) &&
      (decide ((m₂.ledger Market.maker).lamports+(m₂.ledger vaultKey).lamports+
        (m₂.ledger swapKey).lamports ≤ u64Max) &&
      (decide ((m₂.ledger Market.offerer).lamports+
        (m₂.ledger ovaultKey).lamports+(m₂.ledger offerKey).lamports ≤
        u64Max) &&
      (decide (tokenAt m₂.ledger Market.offerer = none) &&
      (decide (tokenAt m₂.ledger Market.maker = none) &&
        ((tokenAt m₂.ledger ovaultKey).any fun t =>
      decide (t.amount = 400)) &&
        (tokenAt m₂.ledger vaultKey).any fun t =>
      decide (t.amount = 100)))))))))))))))))))))))))) = true := by
    decide +kernel
  simp only [Option.any_eq_true, Bool.and_eq_true, decide_eq_true_eq] at h
  obtain ⟨m₁,h₁,m₂,h₂,hg₁,hg₂,hl₁,hl,hl',hgm,hwm,hsx,htgt,how,hox,hogm,hoga,hgoods,hbid,hcfg,hord,
    hord',hrecv,hproc,hfee,hroom,hroom',hwal,⟨hwal',hexact'⟩,hexact⟩ := h
  have hopen₁ := arcade_opened h₁ hg₁ hl₁
  have hbidOn : arcadeBid.On arcade := (arcadeCall_sends (by decide)).on
  have hok : Assumed arcade (.call arcadeBid) m₁.ledger m₂.ledger := assumed_call (by decide) h₂ hg₂
  have hstep : Step arcade (.call arcadeBid) m₁.ledger m₂.ledger := .call _ _ m₂ hbidOn h₂
  have hopen : OpenedBy arcade (Assumed arcade) (.swap Market.maker Market.nonce) swapKey kioskStart
    m₂.ledger arcadeOpen
      kioskStart m₁ := { hopen₁ with episode := hopen₁.episode.step ⟨_,hstep,hok⟩ hl₁ hl }
  have hrun : Run arcade (Assumed arcade) kioskStart m₂.ledger :=
    .tail (.single ⟨_,.call _ _ m₁ hopen₁.on h₁,hopen₁.meets⟩) ⟨_,hstep,hok⟩
  have hpolicy := arcade_policy hcfg
  have hat : bidKeys.At arcade m₂.ledger Market.nonce Market.nonce := by
    refine ⟨rfl,rfl,rfl,rfl,rfl,rfl,rfl,rfl,?_⟩
    show Sdk.feeDest arcade mintB Market.nonce (feePolicy (m₂.ledger configKey).data).feeWallet
      (feePolicy (m₂.ledger configKey).data).feeShards = some feeB
    rw [hpolicy]
    rfl
  have hstrangers : bidKeys.Strangers m₂.ledger := by
    refine ⟨by decide,fun _ => ?_⟩
    show Market.offerer ≠ (feePolicy (m₂.ledger configKey).data).feeWallet
    rw [hpolicy]
    decide
  have hfunds : AcceptFunds m₂.ledger bidKeys :=
    { ordinary := ⟨hord,hord'⟩
      goods := by
        rw [hgoods]
        exact hrecv
      proceeds := by
        rw [hbid]
        exact hproc
      fee := by
        intro _
        rw [hbid]
        show Receives m₂.ledger splTokenId feeB mintB
          ((feePolicy (m₂.ledger configKey).data).collector configKey) 400
        rw [hpolicy]
        exact hfee
      makerRoom := hroom
      offererRoom := hroom'
      wallets := ⟨hwal,hwal'⟩ }
  have hterms : AcceptTerms m₂.ledger bidKeys (arcadeCall 1 arcadeAccept).env.clock :=
    ⟨hgm,hwm,hsx,htgt,how,hox,hogm,hoga.trans hgoods.symm⟩
  have hix : Sdk.acceptOffer arcade m₂.ledger Market.maker Market.nonce Market.offerer Market.nonce
    mintA mintB =
      some arcadeAccept := by
    have hread : Sdk.getConfig arcade m₂.ledger = Sdk.configFrom configData := by
      rw [show configData = (m₂.ledger configKey).data by rw [hcfg]]
      rfl
    rw [Sdk.acceptOffer, hread]
    rfl
  obtain ⟨hiff,hdone⟩ := offer_accept (k := bidKeys) (host_systemRules _ _) (host_tokenRules _ _)
    (host_tokenAccepts _ _) arcade_confined arcade_noSeizure arcade_collisionFree
    market_apart.notSystem (by decide) arcade_genesis hrun (arcade_config hcfg)
    (⟨rfl,255,by decide⟩ : (Place.swap Market.maker Market.nonce).At arcade swapKey) hl hopen rfl
    (⟨rfl,255,by decide⟩ : (Place.offer Market.offerer Market.nonce).At arcade offerKey) hl' hat
    hstrangers hfunds (c := arcadeCall 1 arcadeAccept) hterms hix (arcadeCall_sends (by decide))
  have hfees : exactFee (feePolicy (m₂.ledger bidKeys.config).data) 400 = 4 := by
    show exactFee (feePolicy (m₂.ledger configKey).data) 400 = 4
    rw [hpolicy]
    rfl
  rw [hbid, hgoods, hfees] at hdone
  rw [hbid, hgoods] at hiff
  obtain ⟨m₃,h₃⟩ := hiff.mpr ⟨hexact',hexact⟩
  exact ⟨m₁,m₂,m₃,h₁,h₂,h₃,hdone m₃ h₃⟩

end

end Xete.Swap
