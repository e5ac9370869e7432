import XetePrograms.Solana.Balance
import XetePrograms.Swap.FeeLaw
import XetePrograms.Swap.Refund

/-!
# Fills that go through

A fill with the accounts that the client names is accepted exactly while the
vault holds what the record says and the taker can pay the price. Then the fee,
the proceeds and the goods are all the tokens that move, and the vault and the
record are gone.
-/

set_option autoImplicit false

namespace Xete.Swap
open Xete.Octets Xete.Weakest Xete.Chain Xete.Token Xete.Runtime Xete.Rules Xete.Flows

variable {E : Env} {H : Host} {m m₁ m' : Machine} {s s' s₀ : Ledger}
  {p v mint source dest feeAta auth owner feeOwner r payee : Pubkey} {n k price fee : ℕ}
  {seeds : List Bytes} {signer : Option (List Bytes)} {dec : UInt8} {d : Bytes}
  {fs : List (Flow Pubkey)}

/-! ## One transfer -/

theorem Receives.mono (h : Receives s p dest mint owner n) (hk : k ≤ n) :
    Receives s p dest mint owner k := by
  obtain ⟨t,ht,hp,hm,ha,hf,hr⟩ := h
  exact ⟨t,ht,hp,hm,ha,hf,by omega⟩

/-- An account can still take what it could, less what came in. -/
theorem Receives.moved (h : Receives s p dest mint owner n) (hm : Moved fs s s')
    (hk : inTo fs dest+k ≤ n) : Receives s' p dest mint owner k := by
  obtain ⟨t,ht,hp,hmint,ha,hf,hroom⟩ := h
  obtain ⟨t',ht',hr⟩ := hm.tokens dest t ht
  refine ⟨t',ht',hr.program.trans hp,hr.mint.trans hmint,hr.authority.trans ha,
    hr.frozen.trans hf,?_⟩
  have hb := hm.booked dest
  rw [balance_of ht, balance_of ht'] at hb
  omega

/-- Two accounts of different owners are two accounts. -/
theorem Receives.ne {p' mint' owner' : Pubkey} (h : Receives s p source mint owner n)
    (h' : Receives s p' dest mint' owner' k) (ho : owner ≠ owner') : source ≠ dest := by
  obtain ⟨t,ht,-,-,rfl,-⟩ := h
  obtain ⟨t',ht',-,-,rfl,-⟩ := h'
  rintro rfl
  exact ho (congrArg TokenAccount.authority (Option.some_inj.mp (ht.symm.trans ht')))

structure CanMove (E : Env) (s : Ledger) (p source mint auth : Pubkey)
    (signer : Option (List Bytes)) :
    Prop where
  program : IsTokenProgram p
  passed : ∃ a ∈ E.accounts, a.key = p
  seeds : signer.isSome = true → (E.pdaSigner signer).isSome = true
  signs : E.signed auth ∨ E.pdaSigner signer = some auth
  writable : E.writable source
  isMint : IsMint p s mint
  holds : Receives s p source mint auth 0

theorem CanMove.moved (h : CanMove E s p source mint auth signer) (hm : Moved fs s s')
    (hn : inTo fs source = 0) : CanMove E s' p source mint auth signer :=
  { h with
    isMint := (hm.isMint h.isMint).1
    holds := by
      obtain ⟨t,ht,-⟩ := h.holds
      have hroom := tokenAt_amount_le _ _ _ ht
      exact h.holds.moved hm (by omega) }

theorem CanMove.transfers (hw : Wellformed E) (ha : TokenAccepts E.host)
    (h : CanMove E s p source mint auth signer) (hd : Receives s p dest mint owner n)
    (hwd : E.writable dest) (hne : source ≠ dest) (hle : n ≤ balance s source) :
    ∃ s', (transferAct p source mint dest auth n (mintDecimalsAt s mint) signer).effect E s =
      some s' := by
  obtain ⟨t,ht,htp,htm,rfl,hfz,-⟩ := h.holds
  obtain ⟨td,htd,hdp,hdm,-,hdf,hroom⟩ := hd
  rw [balance_of ht] at hle
  obtain ⟨s',hs'⟩ := ha.transfer p source mint dest n s t td h.program h.isMint ht htd htp hdp
    htm hdm hfz hdf hne hle hroom
  have hperm : E.permits (.transferChecked p source mint dest t.authority n (mintDecimalsAt s mint))
      signer := by
    refine ⟨permits_program hw h.program,h.passed,h.seeds,?_⟩
    simp [Cpi.metas, writing, reading, signing, h.writable, hwd, h.signs]
  refine ⟨s',?_⟩
  rw [transferAct, Act.effect, if_pos hperm]
  exact hs'

theorem transferAct_moved (ht : TokenRules E.host) (hp : IsTokenProgram p)
    (h : (transferAct p source mint dest auth n dec signer).effect E s = some s') :
    Moved [⟨source,dest,n⟩] s s' := moved_transfer ht hp (effect_invoke _ _ _ _ h)

/-! ## A price -/

def priceFlows (source feeAta dest : Pubkey) (price fee : ℕ) : List (Flow Pubkey) :=
  [⟨source,feeAta,fee⟩,⟨source,dest,price-fee⟩]

structure PriceTaken (E : Env) (s : Ledger) (p mint feeAta feeOwner dest owner : Pubkey)
    (price fee : ℕ) :
    Prop where
  fee : 0 < fee → Receives s p feeAta mint feeOwner price
  rest : Receives s p dest mint owner price
  writable : E.writable feeAta ∧ E.writable dest

theorem price_moved (ht : TokenRules E.host) (hp : IsTokenProgram p)
    (hd : Did E (priceActs p source mint feeAta dest auth price fee dec signer) m m') :
    Moved (priceFlows source feeAta dest price fee) m.ledger m'.ledger := by
  obtain ⟨m₁,h₁,s₂,h₂,rfl⟩ := (did_append _ _ m m').mp hd
  refine (show Moved [⟨source,feeAta,fee⟩] m.ledger m₁.ledger from ?_).append
    (transferAct_moved ht hp h₂)
  unfold feeActs at h₁
  by_cases hf : 0 < fee
  · rw [if_pos hf] at h₁
    obtain ⟨s₁,hs₁,rfl⟩ := h₁
    exact transferAct_moved ht hp hs₁
  · rw [if_neg hf, did_nil] at h₁
    subst h₁
    obtain rfl : fee = 0 := by omega
    exact Moved.none _ _ _

/-- What a price takes from an account was in it. -/
theorem price_covered (hm : Moved (priceFlows source feeAta dest price fee) s s')
    (hle : fee ≤ price) (hf : source ≠ feeAta) (hd : source ≠ dest) : price ≤ balance s source := by
  have h := hm.booked.covered (a := source) (by simp [priceFlows, Ne.symm hf, Ne.symm hd])
  simp only [priceFlows, outOf, if_true, add_zero] at h
  omega

theorem price_runs (hw : Wellformed E) (ht : TokenRules E.host) (ha : TokenAccepts E.host)
    (h : CanMove E m.ledger p source mint auth signer)
    (hk : PriceTaken E m.ledger p mint feeAta feeOwner dest owner price fee) (hle : fee ≤ price)
    (hf : source ≠ feeAta) (hd : source ≠ dest) (hb : price ≤ balance m.ledger source) :
    ∃ m', Did E (priceActs p source mint feeAta dest auth price fee
      (mintDecimalsAt m.ledger mint) signer)
      m m' := by
  have hfirst : ∃ m₁, Did E
    (feeActs p source mint feeAta auth fee (mintDecimalsAt m.ledger mint) signer)
      m m₁ ∧ Moved [⟨source,feeAta,fee⟩] m.ledger m₁.ledger := by
    unfold feeActs
    by_cases hpos : 0 < fee
    · obtain ⟨s₁,hs₁⟩ := h.transfers hw ha ((hk.fee hpos).mono hle) hk.writable.1 hf (hle.trans hb)
      rw [if_pos hpos]
      exact ⟨_,⟨s₁,hs₁,rfl⟩,transferAct_moved ht h.program hs₁⟩
    · rw [if_neg hpos]
      obtain rfl : fee = 0 := by omega
      exact ⟨m,rfl,Moved.none _ _ _⟩
  obtain ⟨m₁,h₁,hm₁⟩ := hfirst
  have hin : inTo [⟨source,feeAta,fee⟩] source = 0 := inTo_zero (by simp [Ne.symm hf])
  have hto : inTo [⟨source,feeAta,fee⟩] dest ≤ fee := by
    simp only [inTo]
    split <;> omega
  have hleft := hm₁.booked source
  rw [hin] at hleft
  simp only [outOf, if_true, add_zero] at hleft
  obtain ⟨s₂,hs₂⟩ := (h.moved hm₁ hin).transfers hw ha
    (hk.rest.moved (k := price-fee) hm₁ (by omega)) hk.writable.2 hd (by omega)
  rw [(hm₁.isMint h.isMint).2] at hs₂
  exact ⟨_,(did_append _ _ m _).mpr ⟨m₁,h₁,s₂,hs₂,rfl⟩⟩

/-! ## The goods -/

/-- A payment that does not touch the vault leaves it as it was. -/
theorem Refundable.moved (h : Refundable E s p v mint dest r payee n seeds) (hm : Moved fs s s')
    (hv : v ∉ ends fs) (hpayee : tokenAt s payee = none) (hd : inTo fs dest = 0) :
    Refundable E s' p v mint dest r payee n seeds := by
  have hvault := hm.others v hv
  obtain ⟨t,ht,hrest⟩ := h.vault
  obtain ⟨td,htd,hdp,hdm,hdf,hroom⟩ := h.target
  exact
    { h with
      isMint := (hm.isMint h.isMint).1
      vault := ⟨t,by rw [tokenAt_congr s s' v (by rw [hvault]) (by rw [hvault]), ht],hrest⟩
      target := by
        have htake : Receives s p dest mint td.authority n := ⟨td,htd,hdp,hdm,rfl,hdf,hroom⟩
        obtain ⟨t',ht',hp',hm',-,hf',hr'⟩ := htake.moved hm (k := n) (by omega)
        exact ⟨t',ht',hp',hm',hf',hr'⟩
      room := by
        rw [hm.plain payee hpayee, hvault]
        exact h.room }

theorem Closable.moved (h : Closable E s v r payee) (hm : Moved fs s s') (hv : v ∉ ends fs)
    (hr : tokenAt s r = none) (hpayee : tokenAt s payee = none) : Closable E s' v r payee where
  owner := by
    rw [hm.plain r hr]
    exact h.owner
  writable := h.writable
  apart := h.apart
  room := by
    rw [hm.plain payee hpayee, hm.others v hv, hm.plain r hr]
    exact h.room

theorem Exact.moved (hm : Moved fs s s') (hv : v ∉ ends fs) : Exact s' v n ↔ Exact s v n := by
  have he := hm.others v hv
  simp only [Exact, tokenAt_congr s s' v (by rw [he]) (by rw [he])]

theorem record_plain (hw : Wellformed E) (ho : (s r).owner = E.programId) : tokenAt s r = none := by
  simp only [tokenAt]
  exact if_neg fun hc => hw.notToken (ho ▸ hc.1)

structure Drained (s s' : Ledger) (k payee : Pubkey) : Prop where
  balances : balance s' = balance s
  empty : (s' k).lamports = 0
  given : s' payee = ⟨(s payee).lamports+(s k).lamports,(s payee).owner,(s payee).data⟩
  others : ∀ a, a ≠ k → a ≠ payee → s' a = s a

theorem vault_drained (ht : TokenRules E.host) (hp : IsTokenProgram p) {t : TokenAccount}
    (hv : tokenAt s v = some t) (hn : t.native = false)
    (h : (closeAct p v payee auth seeds).effect E s = some s') :
    Drained s s' v payee ∧ s' v = ⟨0,systemId,[]⟩ ∧ t.amount = 0 := by
  obtain ⟨-,hempty,-,hgone,hpo,hpd,hpl,hrest⟩ :=
    ht.close _ _ _ _ _ _ _ hp hv (effect_invoke _ _ _ _ h)
  have hz : t.amount = 0 := hempty.resolve_left (by rw [hn]; exact Bool.false_ne_true)
  refine ⟨⟨?_,?_,?_,hrest⟩,hgone,hz⟩
  · funext a
    by_cases hav : a = v
    · subst hav
      rw [balance_of hv, hz, balance_none]
      simp only [tokenAt, hgone]
      exact if_neg fun hc => absurd hc.1 (by decide)
    · by_cases hap : a = payee
      · subst hap
        exact balance_congr hpo hpd
      · exact balance_congr (by rw [hrest a hav hap]) (by rw [hrest a hav hap])
  · rw [hgone]
  · rw [← hpo, ← hpd, ← hpl]

theorem record_drained (hw : Wellformed E) (hr : (s r).owner = E.programId) (hne : r ≠ payee)
    (h : (Act.close r payee).effect E s = some s') :
    Drained s s' r payee ∧ (s' r).data = zeros (s r).data.length := by
  simp only [Act.effect] at h
  split at h
  · cases h
    refine ⟨⟨?_,?_,?_,?_⟩,?_⟩
    · funext a
      by_cases har : a = r
      · subst har
        rw [balance_none (record_plain hw ((drain_owner _ _ _ _).trans hr)),
          balance_none (record_plain hw hr)]
      · exact balance_congr (drain_owner _ _ _ _) (drain_other _ _ _ _ har).1
    · simp [drain]
    · simp [drain, hne.symm]
    · intro a har hap
      simp [drain, har, hap]
    · simp [drain]
  · cases h

structure Cleared (s s' : Ledger) (v r payee : Pubkey) : Prop where
  gone : s' v = ⟨0,systemId,[]⟩
  wiped : (s' r).lamports = 0 ∧ (s' r).data = zeros (s r).data.length
  paid : (s' payee).lamports = (s payee).lamports+(s v).lamports+(s r).lamports

structure Traded (s s' : Ledger) (fs : List (Flow Pubkey)) (v r payee : Pubkey) : Prop where
  booked : Booked fs (balance s) (balance s')
  cleared : Cleared s s' v r payee
  others : ∀ a, a ∉ ends fs → a ≠ v → a ≠ r → a ≠ payee → s' a = s a

theorem goods_traded (hw : Wellformed E) (ht : TokenRules E.host) (hm : Moved fs s m.ledger)
    (hr : Refundable E m.ledger p v mint dest r payee n seeds) (hc : Closable E m.ledger v r payee)
    (hv : v ∉ ends fs) (hrec : tokenAt s r = none) (hpayee : tokenAt s payee = none)
    (hd : Did E (refundActs p v mint dest r payee n dec seeds) m m') :
    Traded s m'.ledger (fs ++ [⟨v,dest,n⟩]) v r payee := by
  have hdone := refund_delivers hw ht hr hc hd
  obtain ⟨t,hvt,-,-,-,-,-,hnat,-⟩ := hr.vault
  obtain ⟨s₁,h₁,s₂,h₂,s₃,h₃,rfl⟩ := hd
  simp only [next_ledger] at *
  have hgoods := transferAct_moved ht hr.program h₁
  obtain ⟨t₁,ht₁,hres⟩ := hgoods.tokens v t hvt
  obtain ⟨hvault,-⟩ := vault_drained ht hr.program ht₁ (hres.native.trans hnat) h₂
  have hrow : (s₂ r).owner = E.programId := by
    rw [hvault.others r hc.apart.2 hc.apart.1, hgoods.plain r (record_plain hw hc.owner)]
    exact hc.owner
  obtain ⟨hrecord,-⟩ := record_drained hw hrow hc.apart.1 h₃
  refine ⟨?_,⟨hdone.gone,?_,?_⟩,?_⟩
  · rw [hrecord.balances, hvault.balances]
    exact hm.booked.append hgoods.booked
  · rw [hdone.wiped.2, hm.plain r hrec]
    exact ⟨hdone.wiped.1,rfl⟩
  · rw [hdone.paid, hm.plain payee hpayee, hm.others v hv, hm.plain r hrec]
  · intro a ha hav har hap
    rw [hrecord.others a har hap, hvault.others a hav hap, (hm.append hgoods).others a ha]

/-! ## One fill -/

structure FillKeys where
  taker : Pubkey
  maker : Pubkey
  swap : Pubkey
  vault : Pubkey
  giveMint : Pubkey
  wantMint : Pubkey
  takerWant : Pubkey
  takerGive : Pubkey
  makerWant : Pubkey
  config : Pubkey
  feeDest : Pubkey
  giveTokenProg : Pubkey

def FillKeys.accounts (k : FillKeys) : List AccountInfo :=
  [⟨k.taker,true,true⟩,⟨k.swap,false,true⟩,⟨k.vault,false,true⟩,⟨k.maker,false,true⟩,
    ⟨k.giveMint,false,false⟩,⟨k.wantMint,false,false⟩,⟨k.takerWant,false,true⟩,
    ⟨k.takerGive,false,true⟩,
    ⟨k.makerWant,false,true⟩,⟨splTokenId,false,false⟩,⟨k.config,false,false⟩,⟨k.feeDest,false,true⟩,
    ⟨k.giveTokenProg,false,false⟩]

structure Fillable (E : Env) (s : Ledger) (k : FillKeys) (nonce : Bytes) : Prop where
  owner : (s k.swap).owner = E.programId
  fillable : MayFill E s k.swap k.giveMint k.wantMint k.taker
  maker : keyAt (s k.swap).data sMaker = k.maker
  address : E.host.createProgramAddress (swapSigner k.maker (s k.swap).data nonce) E.programId =
    some k.swap
  vault : ∃ b, E.host.findProgramAddress (vaultSeeds k.maker nonce) E.programId = some (k.vault,b)
  makerWant : BelongsTo s k.makerWant k.wantMint k.maker
  giveTokenProg : IsTokenProgram k.giveTokenProg
  giveMint : IsMint k.giveTokenProg s k.giveMint
  wantMint : IsMint splTokenId s k.wantMint
  isConfig : IsConfig E s k.config
  covers : feeAt s k.config (u64At (s k.swap).data sWantAmt) ≤ u64At (s k.swap).data sWantAmt
  feeDest : 0 < feeAt s k.config (u64At (s k.swap).data sWantAmt) →
    IsFeeDest E s k.feeDest k.wantMint (feePolicy (s k.config).data).feeWallet
      (feePolicy (s k.config).data).feeShards (byteAt nonce 0)

def fillPriceActs (s : Ledger) (k : FillKeys) (dec : UInt8) : List Act :=
  priceActs splTokenId k.takerWant k.wantMint k.feeDest k.makerWant k.taker
    (u64At (s k.swap).data sWantAmt) (feeAt s k.config (u64At (s k.swap).data sWantAmt)) dec none

def fillGoodsActs (s : Ledger) (k : FillKeys) (nonce : Bytes) (dec : UInt8) : List Act :=
  refundActs k.giveTokenProg k.vault k.giveMint k.takerGive k.swap k.maker
    (u64At (s k.swap).data sGiveAmt) dec (swapSigner k.maker (s k.swap).data nonce)

section
variable {config tokenProg payer want feeTo payTo authority : AccountInfo} {shardSeed : UInt8}

theorem price_total {β : Type} {Q : β → Machine → Prop} {f : Unit → Exec β} (cfg : FeePolicy)
    (hle : bpsOf price cfg.feeBps ≤ price)
    (hdest : 0 < bpsOf price cfg.feeBps →
      IsFeeDest E m.ledger feeTo.key want.key cfg.feeWallet cfg.feeShards shardSeed)
    (hd : Did E (priceActs tokenProg.key payer.key want.key feeTo.key payTo.key authority.key price
      (bpsOf price cfg.feeBps) dec signer) m m₁) (hf : wp (f ()) Q (fun _ => False) m₁) :
    wp (payFee E cfg tokenProg payer want feeTo authority (bpsOf price cfg.feeBps) dec
      shardSeed signer) (fun _ => wp (do
        let rest ← checkedSub price (bpsOf price cfg.feeBps) .panicked
        let u ← tokenTransfer E tokenProg payer want payTo authority rest dec signer
        f u) Q (fun _ => False)) (fun _ => False) m := by
  obtain ⟨m₂,h₂,s₃,h₃,rfl⟩ := (did_append _ _ m m₁).mp hd
  have hrest : wp (do
      let rest ← checkedSub price (bpsOf price cfg.feeBps) .panicked
      let u ← tokenTransfer E tokenProg payer want payTo authority rest dec signer
      f u) Q (fun _ => False) m₂ := by
    rw [wp_bind, wp_checkedSub]
    refine ⟨fun _ => ?_,fun hlt => ?_⟩
    · rw [wp_bind]
      exact (total_perform _).mpr ⟨s₃,h₃,hf⟩
    · omega
  unfold feeActs at h₂
  rw [payFee, wp_ite]
  constructor
  · intro hpos
    rw [if_pos hpos] at h₂
    obtain ⟨s₁,h₁,rfl⟩ := h₂
    rw [wp_bind, wp_verifyFeeDest]
    exact ⟨fun _ => (total_perform _).mpr ⟨s₁,h₁,hrest⟩,fun hn => hn (hdest hpos)⟩
  · intro hneg
    rw [if_neg hneg, did_nil] at h₂
    subst h₂
    exact hrest

theorem payWantLeg_total {Q : Unit → Machine → Prop} (hcfg : IsConfig E m.ledger config.key)
    (hle : feeAt m.ledger config.key price ≤ price)
    (hdest : 0 < feeAt m.ledger config.key price →
      IsFeeDest E m.ledger feeTo.key want.key (feePolicy (m.ledger config.key).data).feeWallet
        (feePolicy (m.ledger config.key).data).feeShards shardSeed)
    (hd : Did E (priceActs tokenProg.key payer.key want.key feeTo.key payTo.key authority.key price
      (feeAt m.ledger config.key price) dec none) m m₁) (hQ : Q () m₁) :
    wp (payWantLeg E config tokenProg payer want feeTo payTo authority price dec shardSeed) Q
      (fun _ => False) m := by
  rw [payWantLeg, wp_bind, wp_readConfig]
  refine ⟨fun _ => ?_,fun hn => hn hcfg⟩
  rw [wp_bind]
  have h := price_total (f := pure) (Q := Q) _ hle hdest hd hQ
  simpa only [bind_pure] using h

end

section
variable {k : FillKeys} {nonce : Bytes} {give maxWant : ℕ}

theorem fill_does (ha : E.accounts = k.accounts) (hn : slice d 0 32 = nonce)
    (hmk : keyAt (m.ledger k.swap).data sMaker = k.maker) :
    wp (fill E d) (fun _ m' => ∃ wantDec giveDec m₁, Did E (fillPriceActs m.ledger k wantDec) m m₁ ∧
      Did E (fillGoodsActs m.ledger k nonce giveDec) m₁ m') (fun _ => True) m := by
  simp [fill, ha, FillKeys.accounts, hn, tokenTransfer, tokenClose]
  simp only [fillState, hmk]
  intro _ _ _ _ _ _ _ _ _ _ _ _ _ _ giveDec _ wantDec _ _ _ _ _
  refine wp_mono (payWantLeg_did _ _ _) ?_ (fun _ _ => trivial)
  rintro _ m₁ ⟨hpay,-⟩
  simp
  intro s₁ h₁ s₂ h₂ s₃ h₃
  exact ⟨wantDec,giveDec,m₁,hpay,s₁,h₁,s₂,h₂,s₃,h₃,rfl⟩

theorem isMint_length (h : IsMint p s mint) : 44 < (s mint).data.length := by
  rcases h.2.1 with hl | ⟨-,hl,-⟩ <;> omega

theorem fill_total (ha : E.accounts = k.accounts) (hl : d.length = 48) (hn : slice d 0 32 = nonce)
    (h : Fillable E m.ledger k nonce) (hgive : u64At (m.ledger k.swap).data sGiveAmt = u64At d 32)
    (hwant : u64At (m.ledger k.swap).data sWantAmt ≤ u64At d 40)
    (hpay : Did E (fillPriceActs m.ledger k (mintDecimalsAt m.ledger k.wantMint)) m m₁)
    (hd : Did E (fillGoodsActs m.ledger k nonce (mintDecimalsAt m.ledger k.giveMint)) m₁ m') :
    wp (fill E d) (fun _ _ => True) (fun _ => False) m := by
  obtain ⟨b,hb⟩ := h.vault
  obtain ⟨s₁,h₁,s₂,h₂,s₃,h₃,rfl⟩ := hd
  have haddr := h.address
  simp only [transferAct, closeAct, next_ledger, swapSigner] at h₁ h₂ h₃ haddr
  simp [fill, ha, FillKeys.accounts, hl, hn, tokenTransfer, tokenClose, createAddress, h.owner,
    h.fillable]
  simp only [fillState, h.maker]
  simp [hgive.symm, hwant, haddr, hb, h.makerWant, h.giveTokenProg, h.wantMint.1, h.giveMint.1,
    isMint_decimals h.giveMint, isMint_decimals h.wantMint]
  refine ⟨⟨⟨fun _ => ?_,.inl rfl⟩,isMint_length h.wantMint⟩,isMint_length h.giveMint⟩
  refine payWantLeg_total h.isConfig h.covers h.feeDest hpay ?_
  simp [h₁, h₂, h₃, close_effect_le h₃]

structure FillApart (s : Ledger) (k : FillKeys) : Prop where
  payer : k.takerWant ≠ k.feeDest ∧ k.takerWant ≠ k.makerWant
  vault : k.vault ≠ k.takerWant ∧ k.vault ≠ k.feeDest ∧ k.vault ≠ k.makerWant
  goods : k.takerGive ≠ k.feeDest ∧ k.takerGive ≠ k.makerWant
  wallet : tokenAt s k.maker = none

def fillFlows (s : Ledger) (k : FillKeys) : List (Flow Pubkey) :=
  priceFlows k.takerWant k.feeDest k.makerWant (u64At (s k.swap).data sWantAmt)
    (feeAt s k.config (u64At (s k.swap).data sWantAmt)) ++
      [⟨k.vault,k.takerGive,u64At (s k.swap).data sGiveAmt⟩]

structure FillReady (E : Env) (s : Ledger) (k : FillKeys) (nonce : Bytes) (feeOwner : Pubkey) :
    Prop where
  fillable : Fillable E s k nonce
  purse : CanMove E s splTokenId k.takerWant k.wantMint k.taker none
  taken : PriceTaken E s splTokenId k.wantMint k.feeDest feeOwner k.makerWant k.maker
    (u64At (s k.swap).data sWantAmt) (feeAt s k.config (u64At (s k.swap).data sWantAmt))
  goods : Refundable E s k.giveTokenProg k.vault k.giveMint k.takerGive k.swap k.maker
    (u64At (s k.swap).data sGiveAmt) (swapSigner k.maker (s k.swap).data nonce)
  closable : Closable E s k.vault k.swap k.maker
  apart : FillApart s k

/-- After the payment the goods are as ready as before. -/
theorem FillReady.paid (hw : Wellformed E) (h : FillReady E s k nonce feeOwner)
    (hm : Moved (priceFlows k.takerWant k.feeDest k.makerWant price fee) s s') :
    Refundable E s' k.giveTokenProg k.vault k.giveMint k.takerGive k.swap k.maker
        (u64At (s k.swap).data sGiveAmt) (swapSigner k.maker (s k.swap).data nonce) ∧
      Closable E s' k.vault k.swap k.maker ∧
      k.vault ∉ ends (priceFlows k.takerWant k.feeDest k.makerWant price fee) := by
  obtain ⟨hv₁,hv₂,hv₃⟩ := h.apart.vault
  have hv : k.vault ∉ ends (priceFlows k.takerWant k.feeDest k.makerWant price fee) := by
    simp [ends, priceFlows, hv₁, hv₂, hv₃]
  have hin : inTo (priceFlows k.takerWant k.feeDest k.makerWant price fee) k.takerGive = 0 :=
    inTo_zero (by simp [priceFlows, h.apart.goods.1.symm, h.apart.goods.2.symm])
  exact ⟨h.goods.moved hm hv h.apart.wallet hin,
    h.closable.moved hm hv (record_plain hw h.closable.owner) h.apart.wallet,hv⟩

/-- A fill is accepted exactly while the vault has what it owes and the taker
has the price, and moves just the tokens that it should. -/
theorem fill_settles (hw : Wellformed E) (ht : TokenRules E.host) (hacc : TokenAccepts E.host)
    (ha : E.accounts = k.accounts) (hl : d.length = 48) (hn : slice d 0 32 = nonce)
    (h : FillReady E m.ledger k nonce feeOwner)
    (hgive : u64At (m.ledger k.swap).data sGiveAmt = u64At d 32)
    (hwant : u64At (m.ledger k.swap).data sWantAmt ≤ u64At d 40) :
    ((∃ m', fill E d m = .ok () m') ↔
      Exact m.ledger k.vault (u64At (m.ledger k.swap).data sGiveAmt) ∧
      u64At (m.ledger k.swap).data sWantAmt ≤ balance m.ledger k.takerWant) ∧
    ∀ m', fill E d m = .ok () m' → Traded m.ledger m'.ledger (fillFlows m.ledger k) k.vault k.swap
      k.maker := by
  have hspl : IsTokenProgram splTokenId := .inl rfl
  refine ⟨⟨?_,?_⟩,?_⟩
  · rintro ⟨m',hx⟩
    obtain ⟨wantDec,giveDec,m₁,hpay,hgoods⟩ := wp_ok (fill_does ha hn h.fillable.maker) hx
    have hm := price_moved ht hspl hpay
    obtain ⟨hr,-,hv⟩ := h.paid hw hm
    exact ⟨(Exact.moved hm hv).mp (refund_exact ht hr hgoods),
      price_covered hm h.fillable.covers h.apart.payer.1 h.apart.payer.2⟩
  · rintro ⟨hx,hb⟩
    obtain ⟨m₁,hpay⟩ := price_runs hw ht hacc h.purse h.taken h.fillable.covers h.apart.payer.1
      h.apart.payer.2 hb
    have hm := price_moved ht hspl hpay
    obtain ⟨hr,hc,hv⟩ := h.paid hw hm
    obtain ⟨m',hgoods⟩ := refund_runs hw ht hacc hr hc ((Exact.moved hm hv).mpr hx)
    rw [(hm.isMint h.goods.isMint).2] at hgoods
    obtain ⟨_,m'',hm'',-⟩ := wp_total (fill_total ha hl hn h.fillable hgive hwant hpay hgoods)
    exact ⟨m'',hm''⟩
  · intro m' hx
    obtain ⟨wantDec,giveDec,m₁,hpay,hgoods⟩ := wp_ok (fill_does ha hn h.fillable.maker) hx
    have hm := price_moved ht hspl hpay
    obtain ⟨hr,hc,hv⟩ := h.paid hw hm
    exact goods_traded hw ht hm hr hc hv (record_plain hw h.closable.owner) h.apart.wallet hgoods

end

/-! ## The accounts that the client names -/

section
variable {o o' w w' q q' a : Pubkey}

theorem client_found {ss : List Bytes} (h : Sdk.findAddress H ss p = some a) :
    ∃ b, H.findProgramAddress ss p = some (a,b) := by
  obtain ⟨⟨x,b⟩,hx,rfl⟩ := Option.map_eq_some_iff.mp h
  exact ⟨b,hx⟩

theorem ata_inj (hc : H.CollisionFree) (h : Sdk.ata H o w q = some a)
    (h' : Sdk.ata H o' w' q' = some a) :
    o = o' ∧ w = w' ∧ q = q' := by
  obtain ⟨b,hx⟩ := client_found h
  obtain ⟨b',hy⟩ := client_found h'
  obtain ⟨hs,-⟩ := hc _ _ _ _ _ (H.find_create _ _ _ _ hx) (H.find_create _ _ _ _ hy)
  simp at hs
  exact ⟨hs.1,hs.2.2.1,hs.2.1⟩

theorem ata_not_pda (hc : H.CollisionFree) (hata : H.programId ≠ ataProgramId)
    (h : Sdk.ata H o w q = some a) : ¬H.IsPda a := by
  obtain ⟨b,hx⟩ := client_found h
  rintro ⟨bytes,hb⟩
  exact hata (hc _ _ _ _ _ hb (H.find_create _ _ _ _ hx)).2

end

section
variable {k : FillKeys} {nonce : Bytes}

structure FillKeys.At (H : Host) (s : Ledger) (k : FillKeys) (nonce : Bytes) : Prop where
  swap : Sdk.swapPda H k.maker nonce = some k.swap
  vault : Sdk.vaultPda H k.maker nonce = some k.vault
  takerWant : Sdk.ata H k.taker k.wantMint splTokenId = some k.takerWant
  takerGive : Sdk.ata H k.taker k.giveMint k.giveTokenProg = some k.takerGive
  makerWant : Sdk.ata H k.maker k.wantMint splTokenId = some k.makerWant
  config : Sdk.configPda H = some k.config
  feeDest : Sdk.feeDest H k.wantMint nonce (feePolicy (s k.config).data).feeWallet
    (feePolicy (s k.config).data).feeShards = some k.feeDest

structure FillKeys.Strangers (s : Ledger) (k : FillKeys) : Prop where
  maker : k.taker ≠ k.maker
  feeWallet : (feePolicy (s k.config).data).feeShards = 0 →
    k.taker ≠ (feePolicy (s k.config).data).feeWallet

theorem feeDest_cases {wantMint feeWallet feeTo : Pubkey} {shards : UInt8}
    (h : Sdk.feeDest H wantMint nonce feeWallet shards = some feeTo) :
    (shards = 0 ∧ Sdk.ata H feeWallet wantMint splTokenId = some feeTo) ∨
      shards ≠ 0 ∧ ∃ b, H.findProgramAddress (feeVaultSeeds wantMint (byteAt nonce 0 % shards))
        H.programId = some (feeTo,b) := by
  unfold Sdk.feeDest at h
  by_cases hz : shards = 0
  · subst hz
    exact .inl ⟨rfl,h⟩
  · rw [if_pos (UInt8.pos_iff_ne_zero.mpr hz)] at h
    exact .inr ⟨hz,client_found h⟩

theorem FillKeys.At.apart (hc : H.CollisionFree) (hata : H.programId ≠ ataProgramId)
    (hn : nonce.length = 32) (h : k.At H s nonce) (hk : k.Strangers s)
    (hw : tokenAt s k.maker = none) : FillApart s k := by
  obtain ⟨b,hv⟩ := client_found h.vault
  have hvault : (Place.vault k.maker nonce).At H k.vault := .of_find hn hv
  have hplain : ∀ {o w q a}, Sdk.ata H o w q = some a → k.vault ≠ a := by
    rintro o w q a ha rfl
    exact ata_not_pda hc hata ha hvault.isPda
  have hfee : k.takerWant ≠ k.feeDest ∧ k.takerGive ≠ k.feeDest ∧ k.vault ≠ k.feeDest := by
    rcases feeDest_cases h.feeDest with ⟨hz,hf⟩ | ⟨-,b',hf⟩
    · refine ⟨?_,?_,hplain hf⟩
      · intro he
        exact hk.feeWallet hz (ata_inj hc h.takerWant (he ▸ hf)).1
      · intro he
        exact hk.feeWallet hz (ata_inj hc h.takerGive (he ▸ hf)).1
    · have hplace : (Place.feeVault k.wantMint _).At H k.feeDest := .of_find trivial hf
      refine ⟨?_,?_,hvault.ne hc hplace (by simp)⟩
      · intro he
        exact ata_not_pda hc hata h.takerWant (he ▸ hplace.isPda)
      · intro he
        exact ata_not_pda hc hata h.takerGive (he ▸ hplace.isPda)
  exact
    { payer := ⟨hfee.1,fun he => hk.maker (ata_inj hc h.takerWant (he ▸ h.makerWant)).1⟩
      vault := ⟨hplain h.takerWant,hfee.2.2,hplain h.makerWant⟩
      goods := ⟨hfee.2.1,fun he => hk.maker (ata_inj hc h.takerGive (he ▸ h.makerWant)).1⟩
      wallet := hw }

def FeePolicy.collector (cfg : FeePolicy) (config : Pubkey) : Pubkey :=
  if cfg.feeShards = 0 then cfg.feeWallet else config

structure FillFunds (s : Ledger) (k : FillKeys) : Prop where
  wantMint : IsMint splTokenId s k.wantMint
  giveTokenProg : IsTokenProgram k.giveTokenProg
  ordinary : Ordinary s k.giveTokenProg k.vault
  purse : Receives s splTokenId k.takerWant k.wantMint k.taker 0
  goods : Receives s k.giveTokenProg k.takerGive k.giveMint k.taker (u64At (s k.swap).data sGiveAmt)
  proceeds : Receives s splTokenId k.makerWant k.wantMint k.maker (u64At (s k.swap).data sWantAmt)
  fee : 0 < exactFee (feePolicy (s k.config).data) (u64At (s k.swap).data sWantAmt) →
    Receives s splTokenId k.feeDest k.wantMint ((feePolicy (s k.config).data).collector k.config)
      (u64At (s k.swap).data sWantAmt)
  room : (s k.maker).lamports+(s k.vault).lamports+(s k.swap).lamports ≤ u64Max
  wallet : tokenAt s k.maker = none

structure FillTerms (s : Ledger) (k : FillKeys) (clock : ℤ) (maxWant : ℕ) : Prop where
  giveMint : keyAt (s k.swap).data sGiveMint = k.giveMint
  wantMint : keyAt (s k.swap).data sWantMint = k.wantMint
  unexpired : clock < i64At (s k.swap).data sExpiry
  allowed : keyAt (s k.swap).data sTaker = zeroKey ∨ keyAt (s k.swap).data sTaker = k.taker
  price : u64At (s k.swap).data sWantAmt ≤ maxWant

theorem SoundConfig.isConfig {config : Pubkey} (h : SoundConfig E.host config s)
    (hk : Sdk.configPda E.host = some config) :
    IsConfig E s config ∧ (feePolicy (s config).data).feeBps ≤ bpsDenom := by
  obtain ⟨bytes,hrec,hcap⟩ := h
  obtain ⟨b,hb⟩ := client_found hk
  rw [hrec.data]
  exact ⟨⟨hrec.owner,⟨b,hb⟩,by rw [hrec.data]; exact hcap.length⟩,hcap.bps⟩

theorem feeAt_exact (h : (feePolicy (s v).data).feeBps ≤ bpsDenom) (b : Bytes) (i : ℕ) :
    feeAt s v (u64At b i) = exactFee (feePolicy (s v).data) (u64At b i) :=
      bpsOf_exact h (u64At_le _ _)

/-- The program accepts the fee account that the client derives. -/
theorem client_feeDest {cfg : FeePolicy} {config wantMint feeTo : Pubkey}
    (h : Sdk.feeDest E.host wantMint nonce cfg.feeWallet cfg.feeShards = some feeTo)
    (hr : Receives s splTokenId feeTo wantMint (cfg.collector config) n) :
    IsFeeDest E s feeTo wantMint cfg.feeWallet cfg.feeShards (byteAt nonce 0) := by
  unfold IsFeeDest
  rcases feeDest_cases h with ⟨hz,-⟩ | ⟨hz,hfound⟩
  · rw [if_pos hz]
    rw [FeePolicy.collector, if_pos hz] at hr
    exact hr.belongs
  · rw [if_neg hz]
    exact hfound

/-- A standing swap, and a fill that the client sends for it. -/
theorem SwapStands.fillReady {maxWant : ℕ} (hc : E.host.CollisionFree)
    (hata : E.host.programId ≠ ataProgramId) (hw : Wellformed E)
    (h : SwapStands E.host s k.maker nonce k.swap) (hcfg : SoundConfig E.host k.config s)
    (hk : k.At E.host s nonce) (hstr : k.Strangers s) (hf : FillFunds s k)
    (hterms : FillTerms s k E.clock maxWant) (ha : E.accounts = k.accounts) :
    FillReady E s k nonce ((feePolicy (s k.config).data).collector k.config) := by
  obtain ⟨hconfig,hbps⟩ := hcfg.isConfig hk.config
  have hfee := feeAt_exact (s := s) (v := k.config) hbps (s k.swap).data sWantAmt
  have htaker : ¬E.host.IsPda k.taker :=
    hw.signers ⟨k.taker,true,true⟩ (by simp [ha, FillKeys.accounts]) rfl
  obtain ⟨b,hb⟩ := client_found hk.vault
  have hwr : ∀ x ∈ [k.swap,k.vault,k.maker,k.takerWant,k.takerGive,k.makerWant,k.feeDest],
    E.writable x := by
    simp [Env.writable, ha, FillKeys.accounts]
  have hpass : ∀ x ∈ [splTokenId,k.giveTokenProg], ∃ i ∈ E.accounts, i.key = x := by
    simp [ha, FillKeys.accounts]
  have hpay : Payable s k.giveTokenProg k.vault k.giveMint k.takerGive k.taker k.swap k.maker
      (u64At (s k.swap).data sGiveAmt) := ⟨hf.ordinary,hf.goods,hf.room⟩
  obtain ⟨hgoods,hclose⟩ := h.escrow.refundable hw
    (by rw [swapDue, hterms.giveMint]) h.nonce h.nonce hk.vault h.owner h.party htaker hpay
    ⟨hf.giveTokenProg,hpass _ (by simp),hwr _ (by simp),hwr _ (by simp),hwr _ (by simp),
    hwr _ (by simp)⟩
  exact
    { fillable :=
        { owner := h.owner
          fillable := ⟨h.record.length,h.record.isOpen,hterms.giveMint,hterms.wantMint,
            hterms.unexpired,hterms.allowed⟩
          maker := h.record.maker
          address := hgoods.signer
          vault := ⟨b,hb⟩
          makerWant := hf.proceeds.belongs
          giveTokenProg := hf.giveTokenProg
          giveMint := hgoods.isMint
          wantMint := hf.wantMint
          isConfig := hconfig
          covers := by
            rw [hfee]
            exact exactFee_le hbps _
          feeDest := by
            rw [hfee]
            exact fun hpos => client_feeDest hk.feeDest (hf.fee hpos) }
      purse :=
        { program := .inl rfl
          passed := hpass _ (by simp)
          seeds := by simp
          signs := .inl ⟨⟨k.taker,true,true⟩,by simp [ha, FillKeys.accounts],rfl,rfl⟩
          writable := hwr _ (by simp)
          isMint := hf.wantMint
          holds := hf.purse }
      taken :=
        { fee := by
            rw [hfee]
            exact hf.fee
          rest := hf.proceeds
          writable := ⟨hwr _ (by simp),hwr _ (by simp)⟩ }
      goods := hgoods
      closable := hclose
      apart := hk.apart hc hata h.nonce hstr hf.wallet }

theorem u64At_packed (a b : Bytes) (i n : ℕ) (ha : a.length = i) (hn : n ≤ u64Max) :
    u64At (a ++ le 8 n ++ b) i = n := by
  rw [u64At, List.append_assoc, slice_append_right _ _ _ _ (by omega), ha, Nat.sub_self,
    slice_append_left _ _ _ _ (by simp), slice_all _ _ (by simp)]
  exact natLe_le _ _ (by simp only [u64Max] at hn; omega)

/-- The instruction that the client builds. -/
theorem fillIx_sends {ix : Sdk.Instruction} {give maxWant : ℕ} (hk : k.At H s nonce)
    (hl : (s k.config).data.length = configLen) (hgive : give ≤ u64Max)
    (h : Sdk.fill H s k.taker k.maker nonce k.giveMint k.wantMint give maxWant k.giveTokenProg =
      some ix) :
    maxWant ≤ u64Max ∧ ix = ⟨k.accounts,1 :: (nonce ++ le 8 give ++ le 8 maxWant)⟩ := by
  have hcfg : Sdk.getConfig H s = Sdk.configFrom (s k.config).data := by
    rw [Sdk.getConfig, hk.config]; rfl
  have hread : Sdk.configFrom (s k.config).data = some _ := if_pos hl
  have hfee : Sdk.feeDest H k.wantMint nonce (keyAt (s k.config).data 32)
    (byteAt (s k.config).data 106) =
      some k.feeDest := hk.feeDest
  have hpack : Sdk.u64 give = some (le 8 give) := if_pos hgive
  by_cases hmax : maxWant ≤ u64Max
  · have hpack' : Sdk.u64 maxWant = some (le 8 maxWant) := if_pos hmax
    simp only [Sdk.fill, hcfg, hread, Sdk.fillIx, hk.swap, hk.vault, hk.takerWant, hk.takerGive,
      hk.makerWant, hk.config, hfee, hpack, hpack', Option.bind_eq_bind, Option.bind_some,
      Option.pure_def, Option.some_inj] at h
    exact ⟨hmax,h.symm⟩
  · have hpack' : Sdk.u64 maxWant = none := if_neg hmax
    simp [Sdk.fill, hcfg, hread, Sdk.fillIx, hk.swap, hk.vault, hpack, hpack'] at h

/-- In every reachable state the fill that the client builds for a live swap of
`open_swap` is accepted exactly while the vault has no more than the goods and
the taker has the price. Then the fee, the proceeds and the goods are all the
tokens that move, and all rent of the swap is back with the maker. -/
theorem swap_fill {c c₀ : Call} {s₁ : Ledger} {maxWant : ℕ} {ix : Sdk.Instruction}
    (hs : SystemRules H) (ht : TokenRules H) (ha : TokenAccepts H) (hf : Confined H)
    (hno : NoSeizure H) (hc : H.CollisionFree) (hsys : H.programId ≠ systemId)
    (hata : H.programId ≠ ataProgramId) (hg : Genesis H s₀) (hrun : Run H (Assumed H) s₀ s)
    (hcfg : SoundConfig H k.config s) (hp : (Place.swap k.maker nonce).At H k.swap)
    (hl : Live H (s k.swap))
    (hopen : OpenedBy H (Assumed H) (.swap k.maker nonce) k.swap s₀ s c₀ s₁ m)
    (hd : c₀.data = 0 :: d) (hk : k.At H s nonce) (hstr : k.Strangers s) (hfunds : FillFunds s k)
    (hterms : FillTerms s k c.env.clock maxWant)
    (hix : Sdk.fill H s k.taker k.maker nonce k.giveMint k.wantMint (u64At (s k.swap).data sGiveAmt)
      maxWant k.giveTokenProg = some ix)
    (hsent : c.Sends H ix) :
    ((∃ m, c.result s = some m) ↔ Exact s k.vault (u64At (s k.swap).data sGiveAmt) ∧
      u64At (s k.swap).data sWantAmt ≤ balance s k.takerWant) ∧
    ∀ m, c.result s = some m → Traded s m.ledger
      [⟨k.takerWant,k.feeDest,
          exactFee (feePolicy (s k.config).data) (u64At (s k.swap).data sWantAmt)⟩,
        ⟨k.takerWant,k.makerWant,u64At (s k.swap).data sWantAmt-
          exactFee (feePolicy (s k.config).data) (u64At (s k.swap).data sWantAmt)⟩,
        ⟨k.vault,k.takerGive,u64At (s k.swap).data sGiveAmt⟩] k.vault k.swap k.maker := by
  have hstands := swap_stands hs ht hf hno hc hsys hg hrun hp hl hopen hd
  obtain ⟨⟨rfl,hw⟩,hacc,hdata⟩ := hsent
  obtain ⟨hconfig,hbps⟩ := hcfg.isConfig hk.config
  obtain ⟨hmax,hixeq⟩ := fillIx_sends hk hconfig.2.2 (u64At_le _ _) hix
  rw [hixeq] at hacc hdata
  have hready := hstands.fillReady hc hata hw hcfg hk hstr hfunds hterms hacc
  have hlen : (nonce ++ le 8 (u64At (s k.swap).data sGiveAmt) ++ le 8 maxWant).length = 48 := by
    simp [hstands.nonce]
  have hread := fill_settles (m := ⟨s,[]⟩) hw ht ha hacc hlen (by
    rw [List.append_assoc, slice_append_left _ _ _ _ (by simp [hstands.nonce]),
      slice_all _ _ hstands.nonce]) hready
    (u64At_packed nonce _ 32 _ hstands.nonce (u64At_le _ _)).symm (by
      have hpacked := u64At_packed (nonce ++ le 8 (u64At (s k.swap).data sGiveAmt)) [] 40 maxWant
        (by simp [hstands.nonce]) hmax
      rw [List.append_nil] at hpacked
      rw [hpacked]
      exact hterms.price)
  simp only [Call.result_iff hdata]
  rw [fillFlows, feeAt_exact hbps] at hread
  exact hread

end

section
open Xete.Market Xete.Reference

/-! ## An arcade: the kiosk with the associated accounts of all parties -/

def arcadeTable : Table := kioskTable ++
  [((bumped [Market.offerer.bytes,splTokenId.bytes,mintA.bytes] 255).flatten,ataProgramId,offererA),
    ((bumped [Market.taker.bytes,splTokenId.bytes,mintB.bytes] 255).flatten,ataProgramId,takerB),
    ((bumped [Market.taker.bytes,splTokenId.bytes,mintA.bytes] 255).flatten,ataProgramId,takerA),
    ((bumped [Market.maker.bytes,splTokenId.bytes,mintB.bytes] 255).flatten,ataProgramId,makerB),
    ((bumped [Market.feeWallet.bytes,splTokenId.bytes,mintB.bytes] 255).flatten,ataProgramId,feeB)]

def arcade : Host := host programKey arcadeTable

theorem arcade_collisionFree : arcade.CollisionFree := host_collisionFree _ _ (by decide)

theorem arcade_confined : Confined arcade := host_confined _ _ market_apart

theorem arcade_noSeizure : NoSeizure arcade := host_noSeizure _ _ market_apart

theorem arcade_genesis : Genesis arcade kioskStart :=
  genesis_of arcade_collisionFree ⟨trivial,255,by decide⟩ (by decide)

def arcadeCall (clock : ℤ) (ix : Sdk.Instruction) : Call where
  env :=
    { host := arcade
      accounts := ix.accounts
      clock := clock
      instructions := []
      current := 0 }
  data := ix.data

theorem arcadeCall_sends {clock : ℤ} {ix : Sdk.Instruction}
    (h : ∀ a ∈ ix.accounts, a.isSigner = true → a.key ∉ arcadeTable.map fun e => e.2.2) :
    (arcadeCall clock ix).Sends arcade ix where
  on :=
    { host := rfl
      wellformed :=
        { signers := fun a ha hs hp => h a ha hs (host_isPda _ _ _ hp)
          notSystem := market_apart.notSystem
          notToken := market_apart.notToken
          notCore := market_apart.notCore } }
  accounts := rfl
  data := rfl

def arcadeOpen : Call := arcadeCall 0 ⟨openAtBazaar.env.accounts,(openSwapCall 100 500).data⟩

def arcadeKeys : FillKeys where
  taker := Market.taker
  maker := Market.maker
  swap := swapKey
  vault := vaultKey
  giveMint := mintA
  wantMint := mintB
  takerWant := takerB
  takerGive := takerA
  makerWant := makerB
  config := configKey
  feeDest := feeB
  giveTokenProg := splTokenId

def arcadeFill : Sdk.Instruction :=
  ⟨arcadeKeys.accounts,1 :: (Market.nonce ++ le 8 100 ++ le 8 600)⟩

theorem arcade_policy (h : s configKey = ⟨1,programKey,configData⟩) :
    feePolicy (s configKey).data = ⟨100,0,Market.feeWallet,0⟩ := by
  rw [h, feePolicy, FeePolicy.mk.injEq]
  decide

theorem arcade_config (h : s configKey = ⟨1,programKey,configData⟩) :
    SoundConfig arcade configKey s := by
  refine ⟨configData,⟨?_,?_,?_⟩,by decide,by decide⟩ <;> rw [h]
  · rfl
  · decide

theorem arcade_opened (h : arcadeOpen.result kioskStart = some m)
    (hg : GenuineTokens (m.trace.map Event.act)) (hl : Live arcade (m.ledger swapKey)) :
    OpenedBy arcade (Assumed arcade) (.swap Market.maker Market.nonce) swapKey kioskStart m.ledger
      arcadeOpen kioskStart m := by
  have hon : arcadeOpen.On arcade := (arcadeCall_sends (by decide)).on
  have hok : Assumed arcade (.call arcadeOpen) kioskStart m.ledger := assumed_call (by decide) h hg
  have hvacant : Vacant kioskStart swapKey :=
    arcade_genesis (.swap Market.maker Market.nonce) swapKey (by simp) ⟨rfl,255,by decide⟩
  have hdead : ¬Live arcade (kioskStart swapKey) := fun hl =>
    market_apart.notSystem (hl.1.symm.trans hvacant.1)
  exact
    { on := hon
      slot := .vacant hvacant.1 hvacant.2
      meets := hok
      result := h
      episode := ⟨.refl,⟨_,.call _ _ m hon h,hok⟩,hdead,hl,.refl⟩ }

/-- A swap of 100 for 500, filled for a fee of 5. -/
theorem swap_fill_taken : ∃ m₁ m₂ : Machine, arcadeOpen.result kioskStart = some m₁ ∧
    (arcadeCall 1 arcadeFill).result m₁.ledger = some m₂ ∧
    Traded m₁.ledger m₂.ledger [⟨takerB,feeB,5⟩,⟨takerB,makerB,495⟩,⟨vaultKey,takerA,100⟩]
      vaultKey swapKey Market.maker := by
  have h : ((arcadeOpen.result kioskStart).any fun m₁ =>
      decide (GenuineTokens (m₁.trace.map Event.act)) &&
        (decide (Live arcade (m₁.ledger swapKey)) &&
      (decide (keyAt (m₁.ledger swapKey).data sGiveMint = mintA) &&
      (decide (keyAt (m₁.ledger swapKey).data sWantMint = mintB) &&
      (decide (u64At (m₁.ledger swapKey).data sGiveAmt = 100) &&
      (decide (u64At (m₁.ledger swapKey).data sWantAmt = 500) &&
      (decide (1 < i64At (m₁.ledger swapKey).data sExpiry) &&
      (decide (keyAt (m₁.ledger swapKey).data sTaker = zeroKey) &&
      (decide (m₁.ledger configKey = ⟨1,programKey,configData⟩) &&
      (decide (IsMint splTokenId m₁.ledger mintB) &&
      (decide (Ordinary m₁.ledger splTokenId vaultKey) &&
      (decide (Receives m₁.ledger splTokenId takerB mintB Market.taker 0) &&
      (decide (Receives m₁.ledger splTokenId takerA mintA Market.taker 100) &&
      (decide (Receives m₁.ledger splTokenId makerB mintB Market.maker 500) &&
      (decide (Receives m₁.ledger splTokenId feeB mintB Market.feeWallet 500) &&
      (decide ((m₁.ledger Market.maker).lamports+(m₁.ledger vaultKey).lamports+
        (m₁.ledger swapKey).lamports ≤ u64Max) &&
      (decide (tokenAt m₁.ledger Market.maker = none) &&
      (decide (500 ≤ balance m₁.ledger takerB) &&
        (tokenAt m₁.ledger vaultKey).any fun t =>
      decide (t.amount = 100))))))))))))))))))) = true := by
    decide +kernel
  simp only [Option.any_eq_true, Bool.and_eq_true, decide_eq_true_eq] at h
  obtain ⟨m₁,h₁,hg₁,hl,hgm,hwm,hga,hwa,hx,htk,hcfg,him,hord,hpurse,hgoods,hproc,hfee,hroom,hwal,
    hbal,hexact⟩ := h
  have hopen := arcade_opened h₁ hg₁ hl
  have hrun : Run arcade (Assumed arcade) kioskStart m₁.ledger :=
    .single ⟨_,.call _ _ m₁ hopen.on h₁,hopen.meets⟩
  have hpolicy := arcade_policy hcfg
  have hat : arcadeKeys.At arcade m₁.ledger Market.nonce := by
    refine ⟨rfl,rfl,rfl,rfl,rfl,rfl,?_⟩
    show Sdk.feeDest arcade mintB Market.nonce (feePolicy (m₁.ledger configKey).data).feeWallet
      (feePolicy (m₁.ledger configKey).data).feeShards = some feeB
    rw [hpolicy]
    rfl
  have hstrangers : arcadeKeys.Strangers m₁.ledger := by
    refine ⟨by decide,fun _ => ?_⟩
    show Market.taker ≠ (feePolicy (m₁.ledger configKey).data).feeWallet
    rw [hpolicy]
    decide
  have hfunds : FillFunds m₁.ledger arcadeKeys :=
    { wantMint := him
      giveTokenProg := .inl rfl
      ordinary := hord
      purse := hpurse
      goods := by
        show Receives m₁.ledger splTokenId takerA mintA Market.taker
          (u64At (m₁.ledger swapKey).data sGiveAmt)
        rw [hga]
        exact hgoods
      proceeds := by
        show Receives m₁.ledger splTokenId makerB mintB Market.maker
          (u64At (m₁.ledger swapKey).data sWantAmt)
        rw [hwa]
        exact hproc
      fee := by
        intro _
        show Receives m₁.ledger splTokenId feeB mintB
          ((feePolicy (m₁.ledger configKey).data).collector configKey)
          (u64At (m₁.ledger swapKey).data sWantAmt)
        rw [hpolicy, hwa]
        exact hfee
      room := hroom
      wallet := hwal }
  have hterms : FillTerms m₁.ledger arcadeKeys (arcadeCall 1 arcadeFill).env.clock 600 :=
    { giveMint := hgm
      wantMint := hwm
      unexpired := hx
      allowed := .inl htk
      price := by
        show u64At (m₁.ledger swapKey).data sWantAmt ≤ 600
        rw [hwa]
        decide }
  have hix : Sdk.fill arcade m₁.ledger Market.taker Market.maker Market.nonce mintA mintB
      (u64At (m₁.ledger swapKey).data sGiveAmt) 600 splTokenId = some arcadeFill := by
    have hread : Sdk.getConfig arcade m₁.ledger = Sdk.configFrom configData := by
      rw [show configData = (m₁.ledger configKey).data by rw [hcfg]]
      rfl
    rw [hga, Sdk.fill, hread]
    rfl
  obtain ⟨hiff,hdone⟩ := swap_fill (k := arcadeKeys) (host_systemRules _ _) (host_tokenRules _ _)
    (host_tokenAccepts _ _) arcade_confined arcade_noSeizure arcade_collisionFree
    market_apart.notSystem (by decide)
    arcade_genesis hrun (arcade_config hcfg) (⟨rfl,255,by decide⟩ :
      (Place.swap Market.maker Market.nonce).At arcade swapKey) hl hopen rfl hat hstrangers hfunds
    (c := arcadeCall 1 arcadeFill) hterms hix (arcadeCall_sends (by decide))
  have hwant : u64At (m₁.ledger arcadeKeys.swap).data sWantAmt = 500 := hwa
  have hgive : u64At (m₁.ledger arcadeKeys.swap).data sGiveAmt = 100 := hga
  have hfees : exactFee (feePolicy (m₁.ledger arcadeKeys.config).data) 500 = 5 := by
    show exactFee (feePolicy (m₁.ledger configKey).data) 500 = 5
    rw [hpolicy]
    rfl
  rw [hwant, hgive, hfees] at hdone
  rw [hwant, hgive] at hiff
  obtain ⟨m₂,h₂⟩ := hiff.mpr ⟨hexact,hbal⟩
  exact ⟨m₁,m₂,h₁,h₂,hdone m₂ h₂⟩

end

end Xete.Swap
