import XetePrograms.Swap.Solvent
import XetePrograms.Swap.Supplied

/-!
# Who controls a fee vault

A fee vault is created by anyone, and its authority is set by the token program
that the caller passes. With a genuine one the vault belongs to the config from
the start and is emptied only by a sweep; with another one it stays
uninitialised, and an outsider makes it his own.
-/

set_option autoImplicit false

namespace Xete.Swap
open Xete.Octets Xete.Weakest Xete.Chain Xete.Token Xete.Runtime Xete.Rules

variable {E : Env} {H : Host} {m m' : Machine} {d : Bytes} {tag idx bump : UInt8} {v w : Pubkey}
  {s s' : Ledger} {a : Action} {as : List Act}

/-! ## One vault -/

structure FeeFunds (s : Ledger) (v mint r : Pubkey) (n : ℕ) : Prop where
  funds : Funded s v mint r n
  classic : (s v).owner = splTokenId

def FeeHeld (H : Host) (w v : Pubkey) (s : Ledger) : Prop :=
  Vacant s v ∨ ∃ cfg b, H.findProgramAddress configSeeds H.programId = some (cfg,b) ∧
    FeeFunds s v w cfg 0

theorem FeeFunds.mono {mint r : Pubkey} {n n' : ℕ} (h : FeeFunds s v mint r n) (hn : n' ≤ n) :
    FeeFunds s v mint r n' := by
  obtain ⟨⟨hl,t,ht,hm,ha,hamt,hsl⟩,ho⟩ := h
  exact ⟨⟨hl,t,ht,hm,ha,hn.trans hamt,hsl⟩,ho⟩

theorem FeeFunds.same {mint r : Pubkey} {n : ℕ} (h : FeeFunds s v mint r n)
    (he : (s' v).owner = (s v).owner ∧ (s' v).data = (s v).data) (hl : 0 < (s' v).lamports) :
    FeeFunds s' v mint r n := by
  obtain ⟨⟨-,t,ht,hrest⟩,ho⟩ := h
  exact ⟨⟨hl,t,by rw [tokenAt_congr _ _ _ he.1 he.2, ht],hrest⟩,he.1.trans ho⟩

theorem FeeFunds.reap {mint r : Pubkey} {n : ℕ} (h : FeeFunds s v mint r n) :
    FeeFunds (reap s) v mint r n :=
  ⟨h.funds.reap,(congrArg Account.owner (reap_live h.funds.lamports)).trans h.classic⟩

/-- An account of SPL Token keeps its funds when its authority does not sign. -/
theorem FeeFunds.frame {signed : Pubkey → Prop} {mint r : Pubkey} {n : ℕ}
    (h : FeeFunds s v mint r n) (hf : HoldingsOf H (fun p => p = splTokenId) signed s s')
    (hr : H.IsPda r) (hn : ¬signed r) : FeeFunds s' v mint r n := by
  obtain ⟨hfund,ho⟩ := h.funds.frameOf hf h.classic hr hn
  exact ⟨hfund,ho.trans h.classic⟩

/-- The creation of another account, paid by a wallet. -/
theorem FeeFunds.create {payer acct mint r owner : Pubkey} {n space : ℕ} {seeds : List Bytes}
    (hs : SystemRules E.host) (h : FeeFunds s v mint r n)
    (he : (createAct E payer acct space owner seeds).effect E s = some s') (hv : v ≠ acct)
    (hp : v ≠ payer) : FeeFunds s' v mint r n := by
  obtain ⟨-,-,-,hother⟩ := hs.create _ _ _ _ _ _ _ (effect_invoke _ _ _ _ he)
  obtain ⟨ho,hd,hl⟩ := hother v hv
  exact h.same ⟨ho,hd⟩ (hl hp ▸ h.funds.lamports)

/-- A transfer takes from its source alone. -/
theorem FeeFunds.transfer {p source dest mint mint' auth r : Pubkey} {n amount : ℕ} {dec : UInt8}
    {sig : Option (List Bytes)} (ht : TokenRules E.host) (hp : IsTokenProgram p)
    (h : FeeFunds s v mint r n)
    (he : (transferAct p source mint' dest auth amount dec sig).effect E s = some s') :
    FeeFunds s' v mint r (if source = v then 0 else n) := by
  obtain ⟨⟨hl,t,hat,hm,ha,hamt,hsl⟩,ho⟩ := h
  obtain ⟨ts,td,hts,htd,-,-,-,hms,hmd,-,hself,hmove,how,hrest,-,hlam⟩ :=
    ht.transfer _ _ _ _ _ _ _ _ _ hp (effect_invoke _ _ _ _ he)
  have hpos := hlam v hl
  refine ⟨?_,(how v).trans ho⟩
  by_cases hsd : source = dest
  · refine ⟨hpos,t,by rw [tokenAt_congr _ _ _ (how v) (hself hsd v), hat],hm,ha,?_,hsl⟩
    split <;> omega
  · obtain ⟨⟨ts',hts',-,-,hms',has',-,-,hsls⟩,⟨td',htd',hamt',-,hmd',had',-,-,hsld⟩⟩ := hmove hsd
    by_cases hsv : source = v
    · subst hsv
      obtain rfl : t = ts := Option.some_inj.mp (hat.symm.trans hts)
      exact ⟨hpos,ts',hts',hms'.trans (hms.symm.trans hm),has'.trans ha,by simp,hsls hsl⟩
    · rw [if_neg hsv]
      by_cases hdv : dest = v
      · subst hdv
        obtain rfl : t = td := Option.some_inj.mp (hat.symm.trans htd)
        exact ⟨hpos,td',htd',hmd'.trans (hmd.symm.trans hm),had'.trans ha,by omega,hsld hsl⟩
      · have hsame := hrest v (Ne.symm hsv) (Ne.symm hdv)
        exact ⟨hpos,t,by rw [tokenAt_congr _ _ _ (how v) (congrArg Account.data hsame), hat],hm,ha,
          hamt,hsl⟩

/-- A created and initialised account of SPL Token. -/
theorem created_funds {payer p mint r : Pubkey} {space : ℕ} {seeds : List Bytes}
    (hs : SystemRules E.host) (ht : TokenRules E.host) (hp : IsTokenProgram p)
    (hd : Did E [createAct E payer v space splTokenId seeds,initAct p v mint r] m m') :
    FeeFunds m'.ledger v mint r 0 := by
  obtain ⟨s₁,h₁,s₂,h₂,rfl⟩ := hd
  obtain ⟨-,-,hv,-⟩ := hs.create _ _ _ _ _ _ _ (effect_invoke _ _ _ _ h₁)
  obtain ⟨-,-,-,-,⟨t,hat,-,hm,hauth,hsl,-⟩,hsame,-⟩ :=
    ht.init _ _ _ _ _ _ hp (effect_invoke _ _ _ _ h₂)
  refine ⟨⟨?_,t,hat,hm,hauth,Nat.zero_le _,hsl⟩,?_⟩
  · rw [next_ledger, (hsame v).2, next_ledger, hv]
    exact hs.rent _
  · rw [next_ledger, (hsame v).1, next_ledger, hv]

/-! ## One call -/

/-- What a call does to the fee vault at `v`: nothing is taken out of it, or it
is swept. -/
inductive FeeChange (E : Env) (d : Bytes) (m m' : Machine) (w v : Pubkey) : UInt8 → Prop
  | kept (tag : UInt8) (funds : ∀ cfg b n, E.host.findProgramAddress configSeeds E.programId =
      some (cfg,b) → FeeFunds m.ledger v w cfg n → FeeFunds m'.ledger v w cfg n)
      (vacant : Vacant m.ledger v → FeeHeld E.host w v m'.ledger) : FeeChange E d m m' w v tag
  | swept (k : SweepKeys) (dec bump : UInt8) (h : SweptFees E d m m' k dec bump)
      (vault : k.feeVault = v) (mint : k.wantMint = w) (held : FeeHeld E.host w v m'.ledger) :
      FeeChange E d m m' w v 11

/-- A call for which neither the vault nor the config signs. -/
theorem FeeChange.quiet (hw : Wellformed E) (hf : Confined E.host) (hk : SplKeeps E.host)
    (hd : Did E as m m') (hv : E.host.IsPda v) (hnv : ¬SignsIn E as v)
    (hnc : ∀ cfg b, E.host.findProgramAddress configSeeds E.programId = some (cfg,b) →
      ¬SignsIn E as cfg) :
    FeeChange E d m m' w v tag := by
  have hfr := ran_frame hw hf as hd.ran
  refine .kept tag (fun cfg b n hc h => ?_) (fun h => .inl (hfr.vacant v hv hnv h))
  have hat : Place.config.At E.host cfg := .of_find trivial hc
  exact h.frame (ran_holdings hw hk as hd.ran) hat.isPda (hnc cfg b hc)

theorem InitedConfig.feeChange {admin config : Pubkey} {b : Bytes} (hs : SystemRules E.host)
    (hw : Wellformed E) (hf : Confined E.host) (hk : SplKeeps E.host) (hc : E.host.CollisionFree)
    (h : InitedConfig E d m m' admin config bump b) (hv : (Place.feeVault w idx).At E.host v) :
    FeeChange E d m m' w v 8 := by
  have hcat : Place.config.At E.host config := .of_find trivial h.address
  have hne : v ≠ config := hv.ne hc hcat (by simp)
  have hpayer : v ≠ admin := by
    rintro rfl
    obtain ⟨a,ha,hk,hsign⟩ := h.signed
    exact hw.signers a ha hsign (hk ▸ hv.isPda)
  refine .kept 8 ?_ ?_
  · intro cfg b' n hcfg hfund
    obtain ⟨s₁,h₁,s₂,h₂,rfl⟩ := h.did
    have hat : Place.config.At E.host cfg := .of_find trivial hcfg
    exact (hfund.create hs h₁ hne hpayer).frame (effect_holdings hw hk _ h₂) hat.isPda
      (signsIn_write _ _ _)
  · intro hvac
    refine .inl (vacant_did hw hf hv.isPda hvac h.did ?_)
    intro hj
    simp [createAct] at hj
    have hat : Place.config.At E.host v := ⟨trivial,_,hj⟩
    cases hat.inj hc hv

theorem InitedFeeVault.feeChange {k : FeeVaultKeys} (hs : SystemRules E.host)
    (ht : TokenRules E.host) (hw : Wellformed E) (hf : Confined E.host) (hk : SplKeeps E.host)
    (hc : E.host.CollisionFree) (h : InitedFeeVault E d m m' k bump)
    (hp : IsTokenProgram k.tokenProg) (hv : (Place.feeVault w idx).At E.host v) :
    FeeChange E d m m' w v 10 := by
  have hat : (Place.feeVault k.wantMint (byteAt d 0)).At E.host k.feeVault :=
    .of_find trivial h.address
  by_cases he : v = k.feeVault
  · subst he
    obtain ⟨rfl,-⟩ := Place.feeVault.inj (hv.inj hc hat)
    obtain ⟨b,hb⟩ := h.config
    refine .kept 10 ?_ fun _ => .inr ⟨k.config,b,hb,created_funds hs ht hp h.did⟩
    intro cfg b n _ hfund
    obtain ⟨t,ht,-⟩ := hfund.funds.holds
    obtain ⟨s₁,h₁,-⟩ := h.did
    have hvac := create_vacant hs h₁
    have hown := (tokenAt_some _ _ _ ht).1
    rw [hvac.1] at hown
    exact absurd hown (by decide)
  · have hsign : ∀ j, SignsIn E (initFeeVaultActs E k (byteAt d 0) bump) j → j = k.feeVault := by
      intro j hj
      simp [initFeeVaultActs, createAct, initAct] at hj
      exact address_unique hj (E.host.find_create _ _ _ _ h.address)
    refine .quiet hw hf hk h.did hv.isPda (fun hj => he (hsign v hj)) ?_
    intro cfg b hb hj
    have hcat : Place.config.At E.host cfg := .of_find trivial hb
    cases (hsign cfg hj ▸ hcat : Place.At _ _ k.feeVault).inj hc hat

theorem SweptFees.feeChange {k : SweepKeys} {dec : UInt8} (ht : TokenRules E.host)
    (hw : Wellformed E) (hf : Confined E.host) (hc : E.host.CollisionFree)
    (h : SweptFees E d m m' k dec bump) (hp : IsTokenProgram k.tokenProg)
    (hv : (Place.feeVault w idx).At E.host v) (hheld : FeeHeld E.host w v m.ledger) :
    FeeChange E d m m' w v 11 := by
  have hvacant : Vacant m.ledger v → Vacant m'.ledger v := by
    intro hvac
    apply vacant_did hw hf hv.isPda hvac h.did
    intro hj
    unfold sweepActs at hj
    split at hj
    · simp at hj
    · simp [transferAct] at hj
      have hat : Place.config.At E.host v := ⟨trivial,_,hj⟩
      cases hat.inj hc hv
  have hfunds : ∀ cfg n, FeeFunds m.ledger v w cfg n →
      FeeFunds m'.ledger v w cfg (if k.feeVault = v then 0 else n) := by
    intro cfg n hfund
    have hd := h.did
    unfold sweepActs at hd
    split at hd
    · rw [did_nil] at hd
      rw [hd]
      split
      · exact hfund.mono (Nat.zero_le _)
      · exact hfund
    · obtain ⟨s₁,h₁,rfl⟩ := hd
      exact hfund.transfer ht hp h₁
  by_cases he : k.feeVault = v
  · obtain ⟨b,hb⟩ := h.address
    have hat : (Place.feeVault k.wantMint (byteAt d 0)).At E.host k.feeVault := .of_find trivial hb
    obtain ⟨hmint,-⟩ := Place.feeVault.inj (hat.inj hc (he ▸ hv))
    refine .swept k dec bump h he hmint ?_
    rcases hheld with hvac | ⟨cfg,b,hcfg,hfund⟩
    · exact .inl (hvacant hvac)
    · exact .inr ⟨cfg,b,hcfg,(hfunds cfg 0 hfund).mono (Nat.zero_le _)⟩
  · refine .kept 11 ?_ fun hvac => .inl (hvacant hvac)
    intro cfg _ n _ hfund
    have := hfunds cfg n hfund
    rwa [if_neg he] at this

def vaultTags : List UInt8 := [10,11]

theorem Supplied.program (i : ℕ) {p : Pubkey} (h : Supplied tag E.accounts)
    (hi : i ∈ tokenSlots tag) (hp : SlotIs E i p) : IsTokenProgram p := by
  unfold SlotIs at hp
  rw [Option.map_eq_some_iff] at hp
  obtain ⟨a,ha,rfl⟩ := hp
  exact h i hi a ha

theorem Outcome.feeChange (hs : SystemRules E.host) (ht : TokenRules E.host) (hw : Wellformed E)
    (hf : Confined E.host) (hk : SplKeeps E.host) (hc : E.host.CollisionFree)
    (h : Outcome E d m m' tag) (hm : m.trace = [])
    (hsup : tag ∈ vaultTags → Supplied tag E.accounts) (hv : (Place.feeVault w idx).At E.host v)
    (hheld : FeeHeld E.host w v m.ledger) : FeeChange E d m m' w v tag := by
  by_cases htag : tag ∈ ([8,10,11] : List UInt8)
  · cases h with
    | initedConfig _ _ _ _ h => exact h.feeChange hs hw hf hk hc hv
    | initedFeeVault k _ h =>
      have hp : IsTokenProgram k.tokenProg := (hsup (by decide)).program 3 (by decide) h.tokenSlot
      exact h.feeChange hs ht hw hf hk hc hp hv
    | sweptFees k _ _ h =>
      have hp : IsTokenProgram k.tokenProg := (hsup (by decide)).program 5 (by decide) h.tokenSlot
      exact h.feeChange ht hw hf hc hp hv hheld
    | cancelledListing _ ht _ _ _ _ => exact (tags_apart htag ht rfl).elim
    | expiredListing _ ht _ _ _ => exact (tags_apart htag ht rfl).elim
    | sold _ ht _ => exact (tags_apart htag ht rfl).elim
    | bought _ ht _ => exact (tags_apart htag ht rfl).elim
    | _ => exact absurd htag (by decide)
  · obtain ⟨as,hd,-⟩ := h.within
    have hacts : m'.trace.map Event.act = as := by
      rw [did_trace _ _ _ hd, hm, List.map_nil, List.nil_append]
    have hsign : ∀ {p : Place} {j}, p.At E.host j → SignsIn E as j → MaySign tag p := by
      intro p j hat hj
      exact h.maySign hc hm hat (hacts ▸ hj)
    refine .quiet hw hf hk hd hv.isPda ?_ ?_
    · intro hj
      have hsg := hsign hv hj
      simp only [MaySign] at hsg
      simp [hsg] at htag
    · intro cfg b hb hj
      have hat : Place.config.At E.host cfg := .of_find trivial hb
      have hsg := hsign hat hj
      simp only [MaySign, List.mem_cons, List.not_mem_nil, or_false] at hsg htag
      tauto

/-! ## Runs -/

def VaultsSupplied (a : Action) (_ _ : Ledger) : Prop :=
  ∀ c tag d, a = .call c → c.data = tag :: d → tag ∈ vaultTags → Supplied tag c.env.accounts

def VaultsSafe (H : Host) (a : Action) (s s' : Ledger) : Prop :=
  VaultsSupplied a s s' ∧ UnseizedOf H (fun p => p = splTokenId) a s s'

inductive FeeStep (w v : Pubkey) (a : Action) (s s' : Ledger) : Prop
  | kept (h : ∀ t, tokenAt s v = some t → ∃ t', tokenAt s' v = some t' ∧ t.amount ≤ t'.amount)
  | swept (c : Call) (d : Bytes) (m : Machine) (k : SweepKeys) (dec bump : UInt8) (ha : a = .call c)
      (data : c.data = 11 :: d) (h : SweptFees c.env d ⟨s,[]⟩ m k dec bump) (vault : k.feeVault = v)
      (mint : k.wantMint = w) (ledger : m.ledger = s')

theorem FeeHeld.frame {signed touched : Pubkey → Prop} (h : FeeHeld H w v s)
    (hf : Frame H signed touched s s') (hh : HoldingsOf H (fun p => p = splTokenId) signed s s')
    (hv : H.IsPda v) (hn : ∀ k, ¬signed k) : FeeHeld H w v s' := by
  rcases h with hvac | ⟨cfg,b,hcfg,hfund⟩
  · exact .inl (hf.vacant v hv (hn v) hvac)
  · have hat : Place.config.At H cfg := .of_find trivial hcfg
    exact .inr ⟨cfg,b,hcfg,hfund.frame hh hat.isPda (hn cfg)⟩

/-- Funds that stay whatever they amount to leave nothing taken. -/
theorem FeeHeld.kept (hheld : FeeHeld H w v s)
    (h : ∀ cfg b n, H.findProgramAddress configSeeds H.programId = some (cfg,b) →
      FeeFunds s v w cfg n → FeeFunds s' v w cfg n) : FeeStep w v a s s' := by
  refine .kept fun t hat => ?_
  rcases hheld with hvac | ⟨cfg,b,hcfg,⟨hl,t₀,ht₀,hm,ha,-,hsl⟩,ho⟩
  · have hown := (tokenAt_some _ _ _ hat).1
    rw [hvac.1] at hown
    exact absurd hown (by decide)
  · obtain rfl : t = t₀ := Option.some_inj.mp (hat.symm.trans ht₀)
    have hfund : Funded s v w cfg t.amount := ⟨hl,t,hat,hm,ha,Nat.le_refl _,hsl⟩
    obtain ⟨t',ht',-,-,hamt,-⟩ := (h cfg b t.amount hcfg ⟨hfund,ho⟩).funds.holds
    exact ⟨t',ht',hamt⟩

theorem Step.fee (hs : SystemRules H) (ht : TokenRules H) (hf : Confined H) (hk : SplKeeps H)
    (hc : H.CollisionFree) (hv : (Place.feeVault w idx).At H v) (hstep : Step H a s s')
    (hsup : VaultsSafe H a s s') (h : FeeHeld H w v s) : FeeHeld H w v s' ∧ FeeStep w v a s s' := by
  cases hstep with
  | call c _ m ho hr =>
    obtain ⟨tag,d,hdata,hout⟩ := Call.outcome hs hf ho hr
    obtain ⟨rfl,hw⟩ := ho
    cases hout.feeChange hs ht hw hf hk hc rfl (hsup.1 c tag d rfl hdata) hv h with
    | kept _ hfunds hvac =>
      refine ⟨?_,h.kept hfunds⟩
      rcases h with h | ⟨cfg,b,hcfg,hfund⟩
      · exact hvac h
      · exact .inr ⟨cfg,b,hcfg,hfunds cfg b 0 hcfg hfund⟩
    | swept k dec bump hswept hvault hmint hheld =>
      exact ⟨hheld,.swept c d m k dec bump rfl hdata hswept hvault hmint rfl⟩
  | outside _ _ hfr =>
    have hh := hsup.2 rfl
    refine ⟨h.frame hfr hh hv.isPda fun _ => id,h.kept fun cfg b n hcfg hfund => ?_⟩
    have hat : Place.config.At H cfg := .of_find trivial hcfg
    exact hfund.frame hh hat.isPda id
  | reap =>
    refine ⟨?_,h.kept fun _ _ _ _ hfund => hfund.reap⟩
    rcases h with h | ⟨cfg,b,hcfg,hfund⟩
    · exact .inl (vacant_reap h)
    · exact .inr ⟨cfg,b,hcfg,hfund.reap⟩

/-- When fee vaults are created and swept with genuine token programs only, every
fee vault is one of its mint under the config, and tokens leave it only by a
sweep to the fee wallet. -/
theorem feeVault_authority {s₀ : Ledger} (hs : SystemRules H) (ht : TokenRules H) (hf : Confined H)
    (hk : SplKeeps H) (hc : H.CollisionFree) (hg : Genesis H s₀)
    (hrun : Run H (VaultsSafe H) s₀ s) {b : UInt8}
    (hv : H.findProgramAddress (feeVaultSeeds w idx) H.programId = some (v,b)) :
    (∀ t, tokenAt s v = some t →
      t.mint = w ∧ ∃ b', H.findProgramAddress configSeeds H.programId = some (t.authority,b')) ∧
    ∀ a s', Step H a s s' → VaultsSafe H a s s' → FeeStep w v a s s' := by
  have hat : (Place.feeVault w idx).At H v := .of_find trivial hv
  have hheld : FeeHeld H w v s := by
    refine hrun.invariant (P := FeeHeld H w v) (fun a s₁ s₂ hstep hsup h => ?_) ?_
    · exact (hstep.fee hs ht hf hk hc hat hsup h).1
    · exact .inl (hg (.feeVault w idx) v (by simp) hat)
  refine ⟨fun t hat' => ?_,fun a s' hstep hsup => (hstep.fee hs ht hf hk hc hat hsup hheld).2⟩
  rcases hheld with hvac | ⟨cfg,b',hcfg,hfund⟩
  · have hown := (tokenAt_some _ _ _ hat').1
    rw [hvac.1] at hown
    exact absurd hown (by decide)
  · obtain ⟨t',ht',hm,ha,-⟩ := hfund.funds.holds
    obtain rfl : t = t' := Option.some_inj.mp (hat'.symm.trans ht')
    exact ⟨hm,b',ha ▸ hcfg⟩

section
open Xete.Market Xete.Reference

def initFeeVaultCall (tokenProgram : Pubkey) : Call where
  env := sees 0 taker [feeVaultKey,mintB,tokenProgram,systemId]
  data := [10,0]

theorem initFeeVaultCall_on (tokenProgram : Pubkey) : (initFeeVaultCall tokenProgram).On market :=
  sees_on _ _ _ _ (by decide)

/-- An outsider initialises the vault that a program without effect left uninitialised,
and becomes its authority. -/
theorem feeVault_seized : ∃ (m : Machine) (s : Ledger) (t : TokenAccount),
    (initFeeVaultCall noopId).result start = some m ∧
    market.process (.initializeAccount3 splTokenId feeVaultKey mintB taker) m.ledger = some s ∧
    Run market (Unseized market) start s ∧ tokenAt s feeVaultKey = some t ∧ t.authority = taker ∧
    ¬∃ b, market.findProgramAddress configSeeds market.programId = some (t.authority,b) := by
  have h : (((initFeeVaultCall noopId).result start).any fun m =>
      (market.process (.initializeAccount3 splTokenId feeVaultKey mintB taker) m.ledger).any
        fun s => (tokenAt s feeVaultKey).any fun t => decide (t.authority = taker)) = true := by
    decide +kernel
  simp only [Option.any_eq_true, decide_eq_true_eq] at h
  obtain ⟨m,hm,s,hp,t,hat,hauth⟩ := h
  have hprog : (Cpi.initializeAccount3 splTokenId feeVaultKey mintB taker).program ≠
    market.programId := by
    decide
  have hunsigned : ∀ a ∈ (Cpi.initializeAccount3 splTokenId feeVaultKey mintB taker).signers,
      ¬market.IsPda a := by
    intro a ha
    simp [Cpi.signers, Cpi.metas, writing, reading] at ha
  have hrun : Run market (Unseized market) start s :=
    .tail (.single ⟨_,.call _ _ _ (initFeeVaultCall_on noopId) hm,unseized_call⟩)
      ⟨.outside,.of_process market_confined hprog hunsigned hp,
        .of_process market_noSeizure hprog hunsigned hp⟩
  refine ⟨m,s,t,hm,hp,hrun,hat,hauth,?_⟩
  rintro ⟨b,hb⟩
  have hcfg : market.findProgramAddress configSeeds market.programId = some (configKey,255) := by
    decide
  rw [hcfg, hauth, Option.some_inj, Prod.mk.injEq] at hb
  exact absurd hb.1 (by decide)

/-- With the token program the vault belongs to the config. -/
theorem feeVault_authority_genuine : ∃ m : Machine,
    (initFeeVaultCall splTokenId).result start = some m ∧
    (∀ t, tokenAt m.ledger feeVaultKey = some t → t.mint = mintB ∧
      ∃ b, market.findProgramAddress configSeeds market.programId = some (t.authority,b)) ∧
    ∀ a s', Step market a m.ledger s' → VaultsSafe market a m.ledger s' →
      FeeStep mintB feeVaultKey a m.ledger s' := by
  have h : ((initFeeVaultCall splTokenId).result start).isSome = true := by decide +kernel
  obtain ⟨m,hm⟩ := Option.isSome_iff_exists.mp h
  have hsup : VaultsSupplied (.call (initFeeVaultCall splTokenId)) start m.ledger := by
    rintro c tag d hcall hdata -
    cases hcall
    cases hdata
    intro i hi a ha
    obtain rfl : i = 3 := List.mem_singleton.mp hi
    cases ha
    decide
  have hrun : Run market (VaultsSafe market) start m.ledger :=
    .single ⟨_,.call _ _ _ (initFeeVaultCall_on splTokenId) hm,hsup,unseized_call⟩
  have hv : market.findProgramAddress (feeVaultSeeds mintB 0) market.programId =
      some (feeVaultKey,255) := by decide
  exact ⟨m,hm,feeVault_authority market_systemRules market_tokenRules market_confined
    market_noSeizure.splKeeps market_collisionFree start_genesis hrun hv⟩

end

end Xete.Swap
