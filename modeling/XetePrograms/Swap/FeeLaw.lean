import XetePrograms.Swap.BasketSettle
import XetePrograms.Swap.Reach
import XetePrograms.Swap.WantLeg

/-!
# One fee law at five sites

The config keeps its fee at most the whole price, in every run. Under such a
config the fee is the exact floor at every site, and what is left is paid.
-/

set_option autoImplicit false

namespace Xete.Swap
open Xete.Octets Xete.Weakest Xete.Chain Xete.Token Xete.Runtime Xete.Rules Xete.Checked Xete.Market

/-! ## The config over a run -/

section
variable {H : Host} {s s' : Ledger} {a : Action} {c : Call} {m : Machine} {k : Pubkey} {b : UInt8}

def SoundConfig (H : Host) (k : Pubkey) (s : Ledger) : Prop := ∃ bytes, Recorded H k bytes s ∧
    Capped bytes

theorem InitedConfig.sound {E : Env} {d : Bytes} {m m' : Machine} {admin config : Pubkey}
    {bump : UInt8} {bytes : Bytes} (hs : SystemRules E.host) (hw : Wellformed E)
    (hf : Confined E.host) (h : InitedConfig E d m m' admin config bump bytes) (hb : Capped bytes) :
    SoundConfig E.host config m'.ledger := by
  obtain ⟨s₁,h₁,s₂,h₂,rfl⟩ := h.did
  have hcreate : Did E [createAct E admin config configLen E.programId (bumped configSeeds bump)] m
    (m.next _ s₁) := ⟨s₁,h₁,rfl⟩
  have hnew := created_recorded hs hw hf hcreate (touchedIn_nil _)
  exact ⟨bytes,hnew.write h₂,hb⟩

theorem SoundConfig.step (hs : SystemRules H) (hf : Confined H) (hc : H.CollisionFree)
    (hk : H.findProgramAddress configSeeds H.programId = some (k,b)) (h : SoundConfig H k s)
    (hstep : Step H a s s') : SoundConfig H k s' := by
  obtain ⟨bytes,hrec,hcap⟩ := h
  have hat : Place.config.At H k := .of_find trivial hk
  by_cases hcfg : ∃ c tag d, a = .call c ∧ c.data = tag :: d ∧ MayChange tag .config
  · obtain ⟨c,tag,d,rfl,hd,htag⟩ := hcfg
    cases hstep with
    | call _ _ m ho hr =>
      obtain ⟨tag',d',hd',hh⟩ := Call.handled hr
      obtain ⟨rfl,rfl⟩ := List.cons.inj (hd.symm.trans hd')
      obtain ⟨rfl,hw⟩ := ho
      have hcases : tag = 8 ∨ tag = 9 := by simpa [MayChange] using htag
      rcases hcases with rfl | rfl
      · obtain ⟨admin,config,bump,bytes',hi,-⟩ := wp_ok initConfig_capped hh
        obtain ⟨rfl,-⟩ := Prod.mk.inj (Option.some_inj.mp (hk.symm.trans hi.address))
        obtain ⟨s₁,h₁,-⟩ := hi.did
        have hvac : Vacant s k := create_vacant hs h₁
        exact (hw.notSystem (hrec.owner.symm.trans hvac.1)).elim
      · obtain ⟨admin,config,bytes',hu,hcap'⟩ := wp_ok updateConfig_capped hh
        obtain ⟨-,⟨bump,hb⟩,-⟩ := hu.isConfig
        obtain ⟨rfl,-⟩ := Prod.mk.inj (Option.some_inj.mp (hk.symm.trans hb))
        obtain ⟨s₁,h₁,rfl⟩ := hu.did
        exact ⟨bytes',hrec.write h₁,hcap'⟩
  · refine ⟨bytes,hrec.step hs hf hc hat hstep fun c tag d ha hd hm => ?_,hcap⟩
    exact hcfg ⟨c,tag,d,ha,hd,hm⟩

/-- From the creation of the config on, its fee stays within the price. -/
theorem sound_config (hs : SystemRules H) (hf : Confined H) (hc : H.CollisionFree) (ho : c.On H)
    (h8 : c.data.head? = some 8) (hr : c.result s = some m) (hrun : Run H AnyStep m.ledger s') :
    ∃ k b, H.findProgramAddress configSeeds H.programId = some (k,b) ∧ SoundConfig H k s' := by
  obtain ⟨tag,d,hd,hh⟩ := Call.handled hr
  rw [hd] at h8
  cases h8
  obtain ⟨rfl,hw⟩ := ho
  obtain ⟨admin,config,bump,bytes,hi,hcap⟩ := wp_ok initConfig_capped hh
  refine ⟨config,bump,hi.address,?_⟩
  exact hrun.invariant (fun a s s' hstep _ h => h.step hs hf hc hi.address hstep)
    (hi.sound hs hw hf (hcap hs))

end

/-! ## A price and its fee -/

variable {E : Env} {m m' : Machine} {cfg : FeePolicy}

/-- A call failed, and not on the arithmetic of a fee: a panic means that one of
the addresses it derives, from the seeds in `derived`, does not exist. -/
structure FailsElsewhere (E : Env) (derived : List (List Bytes)) (e : ProgramError) : Prop where
  arithmetic : e ∉ ([.arithmeticOverflow,.insufficientFunds] : List ProgramError)
  panics : e = .panicked → ∃ seeds ∈ derived, E.host.findProgramAddress seeds E.programId = none

theorem failsElsewhere_of_ne {derived : List (List Bytes)} {e : ProgramError}
    (h : e ∉ ([.arithmeticOverflow,.insufficientFunds,.panicked] : List ProgramError)) :
    FailsElsewhere E derived e where
  arithmetic he := h (by simp at he ⊢; tauto)
  panics he := (h (by simp [he])).elim

theorem FailedCheck.elsewhere {derived : List (List Bytes)} {seeds : List Bytes} {e : ProgramError}
    (h : FailedCheck E.host seeds E.programId e) (hs : seeds ∈ derived) :
    FailsElsewhere E derived e where
  arithmetic he := h.1 (by simp at he ⊢; tauto)
  panics he := ⟨seeds,hs,h.2 he⟩

def feeDestSeeds (cfg : FeePolicy) (mint : Pubkey) (shardSeed : UInt8) : List (List Bytes) :=
  if cfg.feeShards = 0 then [] else [feeVaultSeeds mint (shardSeed % cfg.feeShards)]

theorem feeDest_elsewhere {derived : List (List Bytes)} {cfg : FeePolicy} {mint : Pubkey}
    {shardSeed : UInt8} {e : ProgramError}
    (h : FailedCheck E.host (feeVaultSeeds mint (shardSeed % cfg.feeShards)) E.programId e)
    (hs : e = .panicked → cfg.feeShards ≠ 0)
    (hd : ∀ seeds ∈ feeDestSeeds cfg mint shardSeed, seeds ∈ derived) :
    FailsElsewhere E derived e where
  arithmetic he := h.1 (by simp at he ⊢; tauto)
  panics he := by
    refine ⟨_,hd _ ?_,h.2 he⟩
    rw [feeDestSeeds, if_neg (hs he)]
    exact List.mem_singleton.mpr rfl

def priceSeeds (cfg : FeePolicy) (mint : Pubkey) (shardSeed : UInt8) : List (List Bytes) :=
  configSeeds :: feeDestSeeds cfg mint shardSeed

structure FeeKeys where
  tokenProg : Pubkey
  source : Pubkey
  mint : Pubkey
  feeAta : Pubkey
  dest : Pubkey
  authority : Pubkey

def exactFee (cfg : FeePolicy) (amount : ℕ) : ℕ := amount*cfg.feeBps/10000

/-- A price paid by the fee law: the floor of the fee to an accepted destination,
where there is a fee, and the rest to the recipient. -/
structure PaysFee (E : Env) (cfg : FeePolicy) (m m' : Machine) (k : FeeKeys) (amount : ℕ)
    (dec shardSeed : UInt8) (seeds : Option (List Bytes)) : Prop where
  le : exactFee cfg amount ≤ amount
  dest : 0 < exactFee cfg amount →
    IsFeeDest E m.ledger k.feeAta k.mint cfg.feeWallet cfg.feeShards shardSeed
  did : Did E (priceActs k.tokenProg k.source k.mint k.feeAta k.dest k.authority amount
    (exactFee cfg amount) dec seeds) m m'

theorem exactFee_le (hb : cfg.feeBps ≤ bpsDenom) (amount : ℕ) : exactFee cfg amount ≤ amount := by
  apply Nat.div_le_of_le_mul
  rw [Nat.mul_comm]
  exact Nat.mul_le_mul_right amount hb

theorem bpsOf_exact (hb : cfg.feeBps ≤ bpsDenom) {amount : ℕ} (ha : amount ≤ u64Max) :
    bpsOf amount cfg.feeBps = exactFee cfg amount := bpsOf_floor ha hb

section
variable {config tokenProg source mint feeAta dest authority : AccountInfo} {amount : ℕ}
  {dec shardSeed : UInt8} {seeds : Option (List Bytes)}

/-- The fee leg and what follows it. -/
theorem price_seq_wpe {β : Type} {Q : β → Machine → Prop} {X : ProgramError → Machine → Prop}
    {derived : List (List Bytes)} (hb : cfg.feeBps ≤ bpsDenom) (ha : amount ≤ u64Max)
    (hv : ∀ seeds ∈ feeDestSeeds cfg mint.key shardSeed, seeds ∈ derived) (f : Unit → Exec β)
    (hf : ∀ m₁, PaysFee E cfg m m₁ ⟨tokenProg.key,source.key,mint.key,feeAta.key,dest.key,
      authority.key⟩ amount dec shardSeed seeds → wpe (f ()) Q X m₁)
    (hX : ∀ e m₁, FailsElsewhere E derived e → X e m₁) :
    wpe (payFee E cfg tokenProg source mint feeAta authority (bpsOf amount cfg.feeBps) dec shardSeed
        seeds)
      (fun _ => wpe (do
        let rest ← checkedSub amount (bpsOf amount cfg.feeBps) .panicked
        let u ← tokenTransfer E tokenProg source mint dest authority rest dec seeds
        f u) Q X) X m := by
  rw [bpsOf_exact hb ha]
  refine payFee_wpe _ _ _ _ _ (fun m₁ h₁ hdest => ?_) (fun e he hs => hX e m (feeDest_elsewhere he hs hv))
    (fun m₁ => hX _ m₁ (failsElsewhere_of_ne (by decide)))
  have hle := exactFee_le hb amount
  rw [wpe_bind, wpe_checkedSub]
  refine ⟨fun _ => ?_,fun h => absurd h (by omega)⟩
  rw [wpe_bind, tokenTransfer, wpe_perform]
  refine ⟨fun s hs => hf _ ?_,fun _ => hX _ _ (failsElsewhere_of_ne (by decide))⟩
  exact ⟨hle,hdest,(did_append _ _ m _).mpr ⟨m₁,h₁,s,hs,rfl⟩⟩

theorem price_wpe {Q : Unit → Machine → Prop} {X : ProgramError → Machine → Prop}
    {derived : List (List Bytes)} (hb : cfg.feeBps ≤ bpsDenom) (ha : amount ≤ u64Max)
    (hv : ∀ seeds ∈ feeDestSeeds cfg mint.key shardSeed, seeds ∈ derived)
    (hQ : ∀ m₁, PaysFee E cfg m m₁ ⟨tokenProg.key,source.key,mint.key,feeAta.key,dest.key,
      authority.key⟩ amount dec shardSeed seeds → Q () m₁)
    (hX : ∀ e m₁, FailsElsewhere E derived e → X e m₁) :
    wpe (payFee E cfg tokenProg source mint feeAta authority (bpsOf amount cfg.feeBps) dec shardSeed
        seeds)
      (fun _ => wpe (do
        let rest ← checkedSub amount (bpsOf amount cfg.feeBps) .panicked
        tokenTransfer E tokenProg source mint dest authority rest dec seeds) Q X) X m := by
  have h := price_seq_wpe hb ha hv pure hQ hX
  simpa only [bind_pure] using h

/-- A site that reads the config itself and pays one price. -/
theorem site_wpe (hb : cfg.feeBps ≤ bpsDenom) (ha : amount ≤ u64Max)
    (hk : IsConfig E m.ledger config.key → feePolicy (m.ledger config.key).data = cfg) :
    wpe (do
      let cfg ← readConfig E config
      payFee E cfg tokenProg source mint feeAta authority (bpsOf amount cfg.feeBps) dec
        shardSeed seeds
      let rest ← checkedSub amount (bpsOf amount cfg.feeBps) .panicked
      tokenTransfer E tokenProg source mint dest authority rest dec seeds)
      (fun _ m' => PaysFee E cfg m m' ⟨tokenProg.key,source.key,mint.key,feeAta.key,dest.key,
        authority.key⟩ amount dec shardSeed seeds)
      (fun e _ => FailsElsewhere E (priceSeeds cfg mint.key shardSeed) e) m := by
  rw [wpe_bind]
  refine wpe_readConfig _ (fun hcfg => ?_) fun e he => he.elsewhere (by simp [priceSeeds])
  rw [wpe_bind, hk hcfg]
  exact price_wpe hb ha (fun _ => List.mem_cons_of_mem _) (fun m₁ h₁ => h₁) fun _ _ he => he

theorem bind_of_ok {α β : Type} {x : Exec α} {m m₁ : Machine} {a : α} (h : x m = .ok a m₁)
    (f : α → Exec β) : (x >>= f) m = f a m₁ := by
  simp only [bind, EStateM.bind, h]

theorem bind_of_error {α β : Type} {x : Exec α} {m m₁ : Machine} {e : ProgramError}
    (h : x m = .error e m₁) (f : α → Exec β) : (x >>= f) m = .error e m₁ := by
  simp only [bind, EStateM.bind, h]

theorem checkedSub_of_le {a b : ℕ} (e : ProgramError) (h : b ≤ a) :
    checkedSub a b e = pure (a-b) := by
  have hn : (failIf (a < b) e : Exec Unit) = pure () := if_neg (by omega)
  rw [checkedSub, hn]
  rfl

/-- Without a royalty, a payment is the plain leg under a cap. -/
theorem payWantAndRoyalty_none {giveMint : AccountInfo} {metadata : Option AccountInfo}
    {creators : List AccountInfo} (maxWant : ℕ) (pct : UInt8) (hb : cfg.feeBps ≤ bpsDenom)
    (ha : amount ≤ u64Max)
    (hk : IsConfig E m.ledger config.key → feePolicy (m.ledger config.key).data = cfg) :
    payWantAndRoyalty E config tokenProg source mint feeAta dest authority amount maxWant dec
      shardSeed
        royaltyNone pct giveMint metadata creators m =
      if amount ≤ maxWant then
        payWantLeg E config tokenProg source mint feeAta dest authority amount dec shardSeed m
      else (do
        let _ ← readConfig E config
        throw .invalidArgument : Exec Unit) m := by
  have hread : wpe (readConfig E config) (fun cfg' m₁ => cfg' = cfg ∧ m₁ = m) (fun _ _ => True) m :=
    wpe_readConfig config (fun hcfg => ⟨hk hcfg,rfl⟩) fun _ _ => trivial
  have hlow : (failIf (u64Max < amount) .arithmeticOverflow : Exec Unit) = pure () :=
    if_neg (by omega)
  unfold payWantAndRoyalty payWantLeg
  cases hx : readConfig E config m with
  | error e m₁ => simp only [bind_of_error hx, ite_self]
  | ok cfg' m₁ =>
    obtain ⟨rfl,rfl⟩ := wpe_ok hread hx
    have hle : bpsOf amount cfg'.feeBps ≤ amount := by
      rw [bpsOf_exact hb ha]
      exact exactFee_le hb amount
    simp only [bind_of_ok hx, resolveRoyalty, if_pos, pure_bind, checkedSub_of_le _ (le_refl 0),
      checkedSub_of_le _ hle, hlow, Nat.sub_zero, Nat.add_zero]
    by_cases hmax : amount ≤ maxWant
    · have hcap : (failIf (maxWant < amount) .invalidArgument : Exec Unit) = pure () :=
        if_neg (by omega)
      simp only [if_pos hmax, hcap, pure_bind, checkedSub_of_le _ (Nat.zero_le _), Nat.sub_zero,
        lt_irrefl, if_false, bind_pure_unit]
    · have hcap : (failIf (maxWant < amount) .invalidArgument : Exec Unit) =
        throw .invalidArgument :=
        if_pos (by omega)
      rw [if_neg hmax, hcap]
      rfl

/-- A cap below the price stops a payment without a royalty before any transfer. -/
theorem capped_fails (cfg : FeePolicy) (mint : AccountInfo) (shardSeed : UInt8) :
    wpe (do
      let _ ← readConfig E config
      throw .invalidArgument : Exec Unit) (fun _ _ => False)
      (fun e _ => FailsElsewhere E (priceSeeds cfg mint.key shardSeed) e) m := by
  rw [wpe_bind]
  exact wpe_readConfig _ (fun _ => failsElsewhere_of_ne (by decide))
    fun e he => he.elsewhere (by simp [priceSeeds])

end

/-! ## Accepting an offer -/

def acceptSeeds (E : Env) (cfg : FeePolicy) (d : Bytes) : List (List Bytes) :=
  match E.accounts with
  | [maker,_,_,_,_,offerer,_,wantMint,_,_,_,_,_] =>
    swapSeeds maker.key (slice d 0 32) :: vaultSeeds maker.key (slice d 0 32) ::
      offerSeeds offerer.key (slice d 32 32) :: ovaultSeeds offerer.key (slice d 32 32) ::
      priceSeeds cfg wantMint.key (byteAt d 0)
  | _ => []

/-- How an `accept_offer` fails: outside the arithmetic of the fee, or after the
price was paid, on the lamports of a record that do not fit into its recipient's. -/
inductive AcceptFails (E : Env) (cfg : FeePolicy) (d : Bytes) (m m' : Machine) (e : ProgramError) :
    Prop
  | elsewhere (h : FailsElsewhere E (acceptSeeds E cfg d) e)
  | overfull (he : e = .arithmeticOverflow) (offer record dest : Pubkey) (slot : SlotIs E 3 offer)
      (slots : SlotIs E 3 record ∧ SlotIs E 5 dest ∨ SlotIs E 1 record ∧ SlotIs E 0 dest)
      (exceeds : u64Max < (m'.ledger dest).lamports+(m'.ledger record).lamports)
      (paid : ∃ m₁ k dec seeds, PaysFee E cfg m m₁ k (u64At (m.ledger offer).data oWantAmt) dec
        (byteAt d 0) seeds)

theorem wpe_close (account dest : AccountInfo) {Q : Unit → Machine → Prop}
    {X : ProgramError → Machine → Prop}
    (hQ : ∀ s, (Act.close account.key dest.key).effect E m.ledger = some s →
      Q () (m.next (.close account.key dest.key) s))
    (hover : u64Max < (m.ledger dest.key).lamports+(m.ledger account.key).lamports →
      X .arithmeticOverflow m)
    (hX : ∀ m₁, X .refused m₁) : wpe (close E account dest) Q X m := by
  simp only [close, wpe_bind, wpe_lamportsOf, wpe_failIf, wpe_perform]
  exact ⟨fun _ => ⟨hQ,fun _ => hX _⟩,hover⟩

theorem acceptOffer_fails {d : Bytes} (hb : cfg.feeBps ≤ bpsDenom)
    (hk : ∀ k, IsConfig E m.ledger k → feePolicy (m.ledger k).data = cfg) :
    wpe (acceptOffer E d) (fun _ _ => True) (fun e m' => AcceptFails E cfg d m m' e) m := by
  have hcheck : ∀ (e : ProgramError) (m' : Machine) (p : Prop),
      e ∉ ([.arithmeticOverflow,.insufficientFunds,.panicked] : List ProgramError) → p →
      AcceptFails E cfg d m m' e := fun e m' p h _ => .elsewhere (failsElsewhere_of_ne h)
  have hrefused : ∀ m', AcceptFails E cfg d m m' .refused := fun m' =>
    .elsewhere (failsElsewhere_of_ne (by decide))
  unfold acceptOffer
  simp only [wpe_bind, wpe_failIf]
  refine ⟨fun _ => ?_,hcheck _ _ _ (by decide)⟩
  split
  · rename_i maker swap swapVault offer offerVault offerer giveMint wantMint offererGive makerWant
      tokenProg config feeAta hacc
    have hseeds : acceptSeeds E cfg d = swapSeeds maker.key (slice d 0 32) ::
        vaultSeeds maker.key (slice d 0 32) :: offerSeeds offerer.key (slice d 32 32) ::
        ovaultSeeds offerer.key (slice d 32 32) :: priceSeeds cfg wantMint.key (byteAt d 0) := by
      rw [acceptSeeds, hacc]
    have hfind : ∀ m' seeds, seeds ∈ acceptSeeds E cfg d →
        E.host.findProgramAddress seeds E.programId = none → AcceptFails E cfg d m m' .panicked :=
      fun _ seeds hs h => .elsewhere ⟨by decide,fun _ => ⟨seeds,hs,h⟩⟩
    have hseed : byteAt (slice d 0 32) 0 = byteAt d 0 := byteAt_slice _ _ (by decide)
    have h0 : SlotIs E 0 maker.key := .of_getElem (by rw [hacc]; rfl)
    have h1 : SlotIs E 1 swap.key := .of_getElem (by rw [hacc]; rfl)
    have h3 : SlotIs E 3 offer.key := .of_getElem (by rw [hacc]; rfl)
    have h5 : SlotIs E 5 offerer.key := .of_getElem (by rw [hacc]; rfl)
    simp only [findAddress, wpe_bind, wpe_failIf, wpe_ownerOf, wpe_dataOf, wpe_unwrap, Prod.forall]
    iterate 11 refine ⟨fun _ => ?_,hcheck _ _ _ (by decide)⟩
    iterate 4 refine ⟨fun _ _ _ => ?_,hfind _ _ (by simp [hseeds])⟩
    refine ⟨fun _ => ?_,hcheck _ _ _ (by decide)⟩
    refine wpe_requireTokenAccount _ _ _ (fun _ => ?_) (hcheck _ _ _ (by decide) trivial)
    rw [wpe_bind]
    refine wpe_requireTokenAccount _ _ _ (fun _ => ?_) (hcheck _ _ _ (by decide) trivial)
    rw [mintDecimals, wpe_bind, wpe_bind, wpe_dataOf, wpe_unwrap]
    refine ⟨fun _ _ => ?_,hcheck _ _ _ (by decide)⟩
    rw [mintDecimals, wpe_bind, wpe_bind, wpe_dataOf, wpe_unwrap]
    refine ⟨fun _ _ => ?_,hcheck _ _ _ (by decide)⟩
    rw [wpe_bind]
    refine wpe_readConfig _ (fun hcfg => ?_)
      fun e he => .elsewhere (he.elsewhere (by simp [hseeds, priceSeeds]))
    rw [wpe_bind, hk _ hcfg]
    have hdest : ∀ seeds ∈ feeDestSeeds cfg wantMint.key (byteAt (slice d 0 32) 0),
        seeds ∈ acceptSeeds E cfg d := by
      intro seeds hs
      rw [hseed] at hs
      simp [hseeds, priceSeeds, hs]
    refine price_seq_wpe hb (u64At_le _ _) hdest _ (fun m₁ hpay => ?_) fun e _ he => .elsewhere he
    simp only [tokenTransfer, tokenClose, wpe_bind, wpe_perform, hrefused, implies_true, and_true]
    intro s₁ _ s₂ _ s₃ _
    refine wpe_close _ _ (fun s₄ _ => ?_) (fun hover => ?_) hrefused
    · refine wpe_close _ _ (fun s₅ _ => trivial) (fun hover => ?_) hrefused
      exact .overfull rfl _ _ _ h3 (.inr ⟨h1,h0⟩) hover ⟨m₁,_,_,_,hseed ▸ hpay⟩
    · exact .overfull rfl _ _ _ h3 (.inl ⟨h3,h5⟩) hover ⟨m₁,_,_,_,hseed ▸ hpay⟩
  · exact hcheck _ _ _ (by decide) trivial

/-- What a successful `accept_offer` pays first. -/
theorem AcceptedOffer.paysFee {d : Bytes} {k : AcceptKeys} {giveDec wantDec : UInt8}
    (h : AcceptedOffer E d m m' k giveDec wantDec) (hk : feePolicy (m.ledger k.config).data = cfg)
    (hb : cfg.feeBps ≤ bpsDenom) :
    ∃ m₁, PaysFee E cfg m m₁ ⟨k.tokenProg,k.offerVault,k.wantMint,k.feeAta,
      k.makerWant,k.offer⟩ (u64At (m.ledger k.offer).data oWantAmt) wantDec (byteAt d 0)
      (some (offerSigner k.offerer (m.ledger k.offer).data (slice d 32 32))) := by
  have hfee : feeAt m.ledger k.config (u64At (m.ledger k.offer).data oWantAmt) =
      exactFee cfg (u64At (m.ledger k.offer).data oWantAmt) := by
    rw [feeAt, hk]
    exact bpsOf_exact hb (u64At_le _ _)
  obtain ⟨-,hle,hdest⟩ := h.feePaid
  have hd := h.did
  rw [hfee] at hle hdest hd
  rw [hk] at hdest
  obtain ⟨m₁,hd₁,-⟩ := (did_append _ _ m m').mp hd
  exact ⟨m₁,hle,hdest,hd₁⟩

/-! ## The want entries of a basket -/

theorem entryFee_exact (hb : cfg.feeBps ≤ bpsDenom) (b : Bytes) (j : ℕ) :
    entryFee b cfg j = exactFee cfg (entryAmount b bWant j) := bpsOf_exact hb (u64At_le _ _)

theorem payWantEntry_law {taker swap tokenProg : AccountInfo} {stateMaker : Pubkey}
    {shardSeed : UInt8} {wantBase j : ℕ} (hb : cfg.feeBps ≤ bpsDenom)
    (hacc : wantBase+j*4+3 < E.accounts.length)
    (hrec : bWant+j*entryLen+entryLen ≤ (m.ledger swap.key).data.length) :
    wpe (payWantEntry E taker swap tokenProg cfg stateMaker shardSeed wantBase j)
      (fun _ m' => ∃ p, PaysEntry E (m.ledger swap.key).data cfg stateMaker shardSeed
        wantBase j m p ∧
        PaysFee E cfg m m' ⟨tokenProg.key,p.takerWant,entryMint (m.ledger swap.key).data bWant j,
          p.feeAta,p.makerWant,taker.key⟩ (entryAmount (m.ledger swap.key).data bWant j) p.dec
          shardSeed none)
      (fun e _ => FailsElsewhere E
        (feeDestSeeds cfg (entryMint (m.ledger swap.key).data bWant j) shardSeed) e) m := by
  have hslot : ∀ i, i ≤ 3 → ∃ a, E.accounts[wantBase+j*4+i]? = some a := fun i hi =>
    ⟨_,List.getElem?_eq_getElem (by omega)⟩
  obtain ⟨wantMint,h0⟩ := hslot 0 (by omega)
  obtain ⟨takerWant,h1⟩ := hslot 1 (by omega)
  obtain ⟨makerWant,h2⟩ := hslot 2 (by omega)
  obtain ⟨feeAta,h3⟩ := hslot 3 (by omega)
  have hgot : ∀ {i a}, E.accounts[i]? = some a → accountAt E i = pure a := fun h => by
    rw [accountAt, h]
    rfl
  have hread : (failIf ((m.ledger swap.key).data.length < bWant+j*entryLen+entryLen) .panicked :
      Exec Unit) = pure () := if_neg (by omega)
  unfold payWantEntry entryAt
  rw [Nat.add_zero] at h0
  simp only [hgot h0, hgot h1, hgot h2, hgot h3, pure_bind]
  rw [wpe_bind, wpe_dataOf, hread, pure_bind, pure_bind]
  dsimp only
  rw [wpe_bind, wpe_failIf]
  refine ⟨fun hmint => ?_,fun _ => failsElsewhere_of_ne (by decide)⟩
  have hmint' : entryMint (m.ledger swap.key).data bWant j = wantMint.key := not_not.mp hmint
  rw [wpe_bind]
  refine wpe_requireTokenAccount _ _ _ (fun hown => ?_) (failsElsewhere_of_ne (by decide))
  rw [mintDecimals, wpe_bind, wpe_bind, wpe_dataOf, wpe_unwrap]
  refine ⟨fun dec _ => ?_,fun _ => failsElsewhere_of_ne (by decide)⟩
  rw [wpe_bind]
  refine price_wpe hb (u64At_le _ _) (by simp [hmint']) (fun m' hpay => ?_) fun _ _ he => he
  rw [← hmint'] at hown hpay
  refine ⟨⟨takerWant.key,makerWant.key,feeAta.key,dec⟩,?_,hpay⟩
  exact
    { mintSlot := hmint' ▸ .of_getElem h0
      takerSlot := .of_getElem h1
      makerSlot := .of_getElem h2
      feeSlot := .of_getElem h3
      owned := hown
      covers := by
        rw [entryFee_exact hb]
        exact exactFee_le hb _
      dest := by
        rw [entryFee_exact hb]
        exact hpay.dest }

/-! ## The law -/

/-- Under the fee policy `cfg`, a fee and its rest are exact at every site, and
without a royalty the two want-legs are one. -/
structure FeeLaw (E : Env) (cfg : FeePolicy) (m : Machine) : Prop where
  arithmetic : ∀ amount ≤ u64Max, amount*cfg.feeBps < 2^128 ∧
    bpsOf amount cfg.feeBps = exactFee cfg amount ∧ exactFee cfg amount ≤ amount
  wantLeg : ∀ (config tokenProg source mint feeAta dest authority : AccountInfo) (amount : ℕ)
    (dec shardSeed : UInt8), amount ≤ u64Max →
    wpe (payWantLeg E config tokenProg source mint feeAta dest authority amount dec shardSeed)
      (fun _ m' => PaysFee E cfg m m' ⟨tokenProg.key,source.key,mint.key,feeAta.key,dest.key,
        authority.key⟩ amount dec shardSeed none)
      (fun e _ => FailsElsewhere E (priceSeeds cfg mint.key shardSeed) e) m
  plain : ∀ (config tokenProg source mint feeAta dest authority giveMint : AccountInfo)
    (metadata : Option AccountInfo) (creators : List AccountInfo) (amount maxWant : ℕ)
    (dec shardSeed pct : UInt8), amount ≤ u64Max →
    (∀ m', payWantAndRoyalty E config tokenProg source mint feeAta dest authority amount maxWant dec
        shardSeed royaltyNone pct giveMint metadata creators m = .ok () m' ↔
      amount ≤ maxWant ∧
        payWantLeg E config tokenProg source mint feeAta dest authority amount dec shardSeed m =
          .ok () m') ∧
    wpe (payWantAndRoyalty E config tokenProg source mint feeAta dest authority amount maxWant dec
        shardSeed royaltyNone pct giveMint metadata creators)
      (fun _ m' => PaysFee E cfg m m' ⟨tokenProg.key,source.key,mint.key,feeAta.key,dest.key,
        authority.key⟩ amount dec shardSeed none)
      (fun e _ => FailsElsewhere E (priceSeeds cfg mint.key shardSeed) e) m
  delegate : ∀ (config tokenProg source mint feeAta dest authority : AccountInfo)
    (seeds : List Bytes) (amount : ℕ) (dec shardSeed : UInt8), amount ≤ u64Max →
    wpe (payCoinsViaDelegate E config tokenProg source mint feeAta dest authority seeds amount dec
        shardSeed)
      (fun _ m' => PaysFee E cfg m m' ⟨tokenProg.key,source.key,mint.key,feeAta.key,dest.key,
        authority.key⟩ amount dec shardSeed (some seeds))
      (fun e _ => FailsElsewhere E (priceSeeds cfg mint.key shardSeed) e) m
  accept : ∀ d : Bytes,
    (∀ m', acceptOffer E d m = .ok () m' → ∃ k giveDec wantDec m₁,
      AcceptedOffer E d m m' k giveDec wantDec ∧
      PaysFee E cfg m m₁ ⟨k.tokenProg,k.offerVault,k.wantMint,k.feeAta,k.makerWant,k.offer⟩
        (u64At (m.ledger k.offer).data oWantAmt) wantDec (byteAt d 0)
        (some (offerSigner k.offerer (m.ledger k.offer).data (slice d 32 32)))) ∧
    ∀ e m', acceptOffer E d m = .error e m' → AcceptFails E cfg d m m' e
  entry : ∀ (taker swap tokenProg : AccountInfo) (stateMaker : Pubkey) (shardSeed : UInt8)
    (wantBase j : ℕ), wantBase+j*4+3 < E.accounts.length →
    bWant+j*entryLen+entryLen ≤ (m.ledger swap.key).data.length →
    wpe (payWantEntry E taker swap tokenProg cfg stateMaker shardSeed wantBase j)
      (fun _ m' => ∃ p, PaysEntry E (m.ledger swap.key).data cfg stateMaker shardSeed
      wantBase j m p ∧
        PaysFee E cfg m m' ⟨tokenProg.key,p.takerWant,entryMint (m.ledger swap.key).data bWant j,
          p.feeAta,p.makerWant,taker.key⟩ (entryAmount (m.ledger swap.key).data bWant j) p.dec
          shardSeed none)
      (fun e _ => FailsElsewhere E
        (feeDestSeeds cfg (entryMint (m.ledger swap.key).data bWant j) shardSeed) e) m
  fill : ∀ (d : Bytes) (m' : Machine), fillBasket E d m = .ok () m' →
    ∃ swap taker maker tokenProg config p r, SettledFill E d m m' swap taker maker tokenProg
      config p r ∧ feePolicy (m.ledger config).data = cfg ∧
      ∀ j, entryFee (m.ledger swap).data cfg j =
        exactFee cfg (entryAmount (m.ledger swap).data bWant j)

theorem plain_law {config tokenProg source mint feeAta dest authority giveMint : AccountInfo}
    {metadata : Option AccountInfo} {creators : List AccountInfo} {amount : ℕ} (maxWant : ℕ)
    {dec shardSeed : UInt8} (pct : UInt8) (hb : cfg.feeBps ≤ bpsDenom) (ha : amount ≤ u64Max)
    (hk : IsConfig E m.ledger config.key → feePolicy (m.ledger config.key).data = cfg) :
    (∀ m', payWantAndRoyalty E config tokenProg source mint feeAta dest authority amount maxWant dec
        shardSeed royaltyNone pct giveMint metadata creators m = .ok () m' ↔
      amount ≤ maxWant ∧
        payWantLeg E config tokenProg source mint feeAta dest authority amount dec shardSeed m =
          .ok () m') ∧
    wpe (payWantAndRoyalty E config tokenProg source mint feeAta dest authority amount maxWant dec
        shardSeed royaltyNone pct giveMint metadata creators)
      (fun _ m' => PaysFee E cfg m m' ⟨tokenProg.key,source.key,mint.key,feeAta.key,dest.key,
        authority.key⟩ amount dec shardSeed none)
      (fun e _ => FailsElsewhere E (priceSeeds cfg mint.key shardSeed) e) m := by
  constructor
  · intro m'
    rw [payWantAndRoyalty_none maxWant pct hb ha hk]
    by_cases hmax : amount ≤ maxWant
    · rw [if_pos hmax]
      exact ⟨fun h => ⟨hmax,h⟩,fun h => h.2⟩
    · rw [if_neg hmax]
      exact ⟨fun h => (wpe_ok (capped_fails cfg mint shardSeed) h).elim,fun h => (hmax h.1).elim⟩
  · unfold wpe
    rw [payWantAndRoyalty_none maxWant pct hb ha hk]
    by_cases hmax : amount ≤ maxWant
    · rw [if_pos hmax]
      exact site_wpe hb ha hk
    · rw [if_neg hmax]
      exact wpe_mono (capped_fails cfg mint shardSeed) (fun _ _ h => h.elim) fun _ _ h => h

theorem fee_law_of (hw : Wellformed E) (hf : Confined E.host) (hb : cfg.feeBps ≤ bpsDenom)
    (hk : ∀ k, IsConfig E m.ledger k → feePolicy (m.ledger k).data = cfg) : FeeLaw E cfg m where
  arithmetic amount ha := by
    refine ⟨?_,bpsOf_exact hb ha,exactFee_le hb amount⟩
    calc amount*cfg.feeBps ≤ u64Max*bpsDenom := Nat.mul_le_mul ha hb
      _ < 2^128 := by decide
  wantLeg _ _ _ _ _ _ _ _ _ _ ha := site_wpe hb ha (hk _)
  plain _ _ _ _ _ _ _ _ _ _ _ maxWant _ _ pct ha := plain_law maxWant pct hb ha (hk _)
  delegate _ _ _ _ _ _ _ _ _ _ _ ha := site_wpe hb ha (hk _)
  accept d := by
    refine ⟨fun m' hx => ?_,fun e m' hx => wpe_error (acceptOffer_fails hb hk) hx⟩
    obtain ⟨k,giveDec,wantDec,h⟩ := wp_ok acceptOffer_did hx
    obtain ⟨m₁,hpay⟩ := h.paysFee (hk _ h.feePaid.isConfig) hb
    exact ⟨k,giveDec,wantDec,m₁,h,hpay⟩
  entry _ _ _ _ _ _ _ hacc hrec := payWantEntry_law hb hacc hrec
  fill d m' hx := by
    obtain ⟨swap,taker,maker,tokenProg,config,p,r,h⟩ := wp_ok (fillBasket_settles hw hf) hx
    exact ⟨swap,taker,maker,tokenProg,config,p,r,h,hk _ h.isConfig,entryFee_exact hb _⟩

/-- From the creation of the config on, in every run, each of the five fee sites
takes the exact floor of the fee and pays the rest. -/
theorem fee_law {H : Host} {c : Call} {s₀ s : Ledger} {m₀ : Machine} (hs : SystemRules H)
    (hf : Confined H) (hc : H.CollisionFree) (ho : c.On H) (h8 : c.data.head? = some 8)
    (hr : c.result s₀ = some m₀) (hrun : Run H AnyStep m₀.ledger s) :
    ∃ k b, H.findProgramAddress configSeeds H.programId = some (k,b) ∧ SoundConfig H k s ∧
      ∀ (E : Env) (m : Machine), E.host = H → Wellformed E → (m.ledger k).data = (s k).data →
        FeeLaw E (feePolicy (s k).data) m := by
  obtain ⟨k,b,hk,hsound⟩ := sound_config hs hf hc ho h8 hr hrun
  refine ⟨k,b,hk,hsound,?_⟩
  rintro E m rfl hw hdata
  obtain ⟨bytes,hrec,hcap⟩ := hsound
  apply fee_law_of hw hf
  · rw [hrec.data]
    exact hcap.bps
  · rintro k' ⟨-,⟨b',hk'⟩,-⟩
    obtain ⟨rfl,-⟩ := Prod.mk.inj (Option.some_inj.mp (hk'.symm.trans hk))
    rw [hdata]

theorem fee_law_created :
    ∃ (m : Machine) (k : Pubkey), initConfigCall.result unconfigured = some m ∧
    (feePolicy (m.ledger k).data).feeBps = 100 ∧
    FeeLaw (sees 1 taker []) (feePolicy (m.ledger k).data) m := by
  have h : (initConfigCall.result unconfigured).any (fun m =>
      decide ((feePolicy (m.ledger configKey).data).feeBps = 100)) = true := by
    decide +kernel
  simp only [Option.any_eq_true, decide_eq_true_eq] at h
  obtain ⟨m,hm,hbps⟩ := h
  obtain ⟨k,b,hk,-,hlaw⟩ := fee_law market_systemRules market_confined market_collisionFree
    (sees_on _ _ _ _ (by decide)) rfl hm .refl
  obtain rfl : configKey = k := by
    have hfind : market.findProgramAddress configSeeds market.programId = some (configKey,255) := by
      decide
    rw [hfind] at hk
    exact (Prod.mk.inj (Option.some_inj.mp hk)).1
  exact ⟨m,configKey,hm,hbps,hlaw _ m rfl (sees_wellformed _ _ _ (by decide)) rfl⟩

end Xete.Swap
