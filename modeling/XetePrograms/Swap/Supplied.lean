import XetePrograms.Swap.Quiet
import XetePrograms.Swap.Seeds

/-!
# Every handler, with the token program it is given

`tokenSlots` lists where a handler takes its token programs. Fourteen handlers
never check the program; for them `legSlots` lists the mints it would have to
own. Under that condition every run, also a failing one, is clean.
-/

set_option autoImplicit false

namespace Xete.Swap
open Xete.Octets Xete.Weakest Xete.Chain Xete.Token Xete.Runtime Xete.Rules

def tokenSlots : UInt8 → List ℕ
  | 0 => [6]
  | 1 => [9,12]
  | 2 => [5]
  | 3 => [6]
  | 4 => [6]
  | 5 => [10]
  | 6 => [5]
  | 7 => [6]
  | 10 => [3]
  | 11 => [5]
  | 12 => [3]
  | 13 => [3]
  | 14 => [4]
  | 16 => [2]
  | 17 => [3]
  | 19 => [7]
  | 23 => [8]
  | 26 => [5]
  | 27 => [9,12]
  | 28 => [4]
  | 31 => [7]
  | 35 => [7]
  | 38 => [10,15]
  | 39 => [6]
  | 40 => [6]
  | 41 => [6,15]
  | 42 => [6]
  | 43 => [6]
  | _ => []

def dataAt (accounts : List AccountInfo) (s : Ledger) (i : ℕ) : Bytes :=
  match accounts[i]? with
  | some a => (s a.key).data
  | none => []

def legSlots (tag : UInt8) (accounts : List AccountInfo) (d : Bytes) (s : Ledger) : List ℕ :=
  match tag with
  | 2 => [3]
  | 3 => [4]
  | 4 => [3]
  | 5 => [6,7]
  | 6 => [3]
  | 7 => [4]
  | 10 => [2]
  | 11 => if u64At (dataAt accounts s 1) 64 = 0 then [] else [2]
  | 12 => (List.range (byteAt d 32).toNat).map (fun i => 6+i*3)
  | 13 =>
      let gives := (byteAt (dataAt accounts s 1) bGiveCount).toNat
      (List.range gives).map (fun i => 5+i*3) ++
        (List.range (byteAt (dataAt accounts s 1) bWantCount).toNat).map (fun j => 5+gives*3+j*4)
  | 14 => (List.range (byteAt (dataAt accounts s 2) bGiveCount).toNat).map (fun i => 5+i*3)
  | 16 => (List.range (byteAt (dataAt accounts s 1) bGiveCount).toNat).map (fun i => 6+i*3)
  | 17 => (List.range (byteAt (dataAt accounts s 1) bGiveCount).toNat).map (fun i => 4+i*3)
  | 28 => [2]
  | _ => []

def Unchecked (tag : UInt8) : Prop := tag ∈ ([2,3,4,5,6,7,10,11,12,13,14,16,17,28] : List UInt8)

instance (tag : UInt8) : Decidable (Unchecked tag) := by unfold Unchecked; infer_instance

def Supplied (tag : UInt8) (accounts : List AccountInfo) : Prop :=
  ∀ i ∈ tokenSlots tag, ∀ a, accounts[i]? = some a → IsTokenProgram a.key

def LegsOwned (tag : UInt8) (accounts : List AccountInfo) (d : Bytes) (s : Ledger) : Prop :=
  ∀ i ∈ tokenSlots tag, ∀ tp, accounts[i]? = some tp →
    ∀ j ∈ legSlots tag accounts d s, ∀ a, accounts[j]? = some a → (s a.key).owner = tp.key

def Genuine (tag : UInt8) (accounts : List AccountInfo) (d : Bytes) (s : Ledger) : Prop :=
  Unchecked tag → Supplied tag accounts ∧ LegsOwned tag accounts d s

/-- Every run of `x` from `m` is clean, and closes or succeeds only when every
token program that was passed is known. -/
def RunsClean (E : Env) (tag : UInt8) (x : Exec Unit) (m : Machine) : Prop :=
  wp x (fun _ m' => Clean (Supplied tag E.accounts) m' ∧ Supplied tag E.accounts)
    (Clean (Supplied tag E.accounts)) m

variable {E : Env} {m : Machine}

theorem used_of_token {p : Pubkey} (a : Account) (ho : a.owner = p) (hp : IsTokenProgram p) :
    a.owner ≠ systemId := by
  rw [ho]
  rintro rfl
  exact absurd hp (by decide)

/-- The token program at `i` was checked, and the optional one at `j` too. -/
theorem supplied_optional (tag : UInt8) (i j : ℕ) {n : ℕ} {as : List AccountInfo}
    {tokenProg : AccountInfo} (hslots : tokenSlots tag = [i,j]) (hi : i < n)
    (ha : E.accounts.take n = as) (hat : as[i]? = some tokenProg)
    (hp : IsTokenProgram tokenProg.key)
    (hgp : IsTokenProgram (E.accounts[j]?.getD tokenProg).key) : Supplied tag E.accounts := by
  intro k hk a hka
  rw [hslots] at hk
  simp only [List.mem_cons, List.not_mem_nil, or_false] at hk
  rcases hk with rfl | rfl
  · rw [take_getElem? n k _ _ ha hi, hat] at hka
    cases hka
    exact hp
  · rwa [hka] at hgp

/-! ## Swaps -/

theorem openSwap_clean (hs : SystemRules E.host) (ht : TokenRules E.host) (d : Bytes)
    (hc : Clean (Supplied 0 E.accounts) m) : RunsClean E 0 (openSwap E d) m := by
  simp [RunsClean, openSwap, hc]
  intros
  split
  · rename_i maker swap vault giveMint wantMint makerGive tokenProg system config aliasAcct ha
    simp [hc]
    intros
    apply clean_createPda hs _ _ _ _ _ hc
    intro m₁ h₁ _
    refine wp_seq (clean_perform _ h₁ (fun _ => proper_log _ _) fun s _ h₂ => ?_)
    simp only [wp_bind, wp_assertTokenProgram]
    refine ⟨fun hp ho => ?_,fun _ => h₂⟩
    have hsup : Supplied 0 E.accounts := by simp [Supplied, tokenSlots, ha, hp]
    apply clean_createPda hs _ _ _ _ _ h₂
    intro m₃ h₃ k₃
    have ho₃ := (k₃ _ (.inl (used_of_token _ ho hp))).1.trans ho
    refine wp_seq (clean_tokenInit ht _ h₃ hp ho₃ fun m₄ h₄ o₄ => ?_)
    simp [h₄]
    intros
    apply clean_tokenTransfer ht _ _ _ h₄ hp ((o₄ _).trans ho₃)
    intro m₅ h₅ _
    simp only [wp_bind, wp_dataOf]
    exact clean_perform _ h₅ (fun _ => proper_write _ _ _) fun s _ h₆ => ⟨h₆,hsup⟩
  · exact hc

theorem fill_clean (ht : TokenRules E.host) (d : Bytes)
    (hc : Clean (Supplied 1 E.accounts) m) : RunsClean E 1 (fill E d) m := by
  simp [RunsClean, fill, hc]
  intros
  split
  · rename_i taker swap vault maker giveMint wantMint takerWant takerGive makerWant tokenProg config
      feeAta ha
    simp [hc]
    intros
    rename_i hp ho hgp hgo
    have hsup : Supplied 1 E.accounts := supplied_optional 1 9 12 rfl (by decide) ha rfl hp hgp
    apply clean_payWantLeg ht _ _ _ hc hp ho
    intro m₁ h₁ o₁
    refine wp_seq (clean_tokenTransfer ht _ _ _ h₁ hgp ((o₁ _).trans hgo) fun m₂ h₂ t₂ => ?_)
    obtain ⟨t,hat,hmt⟩ := t₂.held
    have ho₂ : (m₂.ledger t.mint).owner = (E.accounts[12]?.getD tokenProg).key := by
      rw [hmt, t₂.owners, o₁, hgo]
    refine wp_seq (clean_tokenClose ht _ t hat h₂ hgp ho₂ fun m₃ h₃ _ _ => ?_)
    exact clean_close _ _ h₃ hsup fun m₄ h₄ => ⟨h₄,hsup⟩
  · exact hc

/-- Transfer out of a vault, close it, then close the record. -/
theorem clean_refund {P : Prop} {tokenProg vault mint dest swap maker : AccountInfo}
    (ht : TokenRules E.host) (n : ℕ) (dec : UInt8) (seeds : List Bytes) (hc : Clean P m) (hP : P)
    (hp : IsTokenProgram tokenProg.key) (ho : (m.ledger mint.key).owner = tokenProg.key) :
    wp (do
      tokenTransfer E tokenProg vault mint dest swap n dec (some seeds)
      tokenClose E tokenProg vault maker swap seeds
      close E swap maker) (fun _ m' => Clean P m' ∧ P) (Clean P) m := by
  refine wp_seq (clean_tokenTransfer ht _ _ _ hc hp ho fun m₁ h₁ t₁ => ?_)
  obtain ⟨t,hat,hmt⟩ := t₁.held
  have ho₁ : (m₁.ledger t.mint).owner = tokenProg.key := by rw [hmt, t₁.owners, ho]
  refine wp_seq (clean_tokenClose ht _ t hat h₁ hp ho₁ fun m₂ h₂ _ _ => ?_)
  exact clean_close _ _ h₂ hP fun m₃ h₃ => ⟨h₃,hP⟩

theorem cancelSwap_clean (hs : SystemRules E.host) (ht : TokenRules E.host) (d : Bytes)
    (hg : Genuine 2 E.accounts d m.ledger) (hc : Clean (Supplied 2 E.accounts) m) :
    RunsClean E 2 (cancelSwap E d) m := by
  obtain ⟨hsup,ho⟩ := hg (by decide)
  simp [RunsClean, cancelSwap, hc]
  intros
  split
  · rename_i maker swap vault giveMint makerGive tokenProg config feeWallet system ha
    have hp : IsTokenProgram tokenProg.key := by simpa [Supplied, tokenSlots, ha] using hsup
    have ho' : (m.ledger giveMint.key).owner = tokenProg.key := by
      simpa [LegsOwned, tokenSlots, legSlots, ha] using ho
    simp [hc]
    intros
    apply clean_payDelistFee hs _ _ _ hc
    intro m₁ h₁ s₁
    simp [refundAndClose, h₁]
    intros
    simpa using clean_refund ht _ _ _ h₁ hsup hp ((s₁ _).1.trans ho')
  · exact hc

theorem expire_clean (ht : TokenRules E.host) (d : Bytes) (hg : Genuine 3 E.accounts d m.ledger)
    (hc : Clean (Supplied 3 E.accounts) m) : RunsClean E 3 (expire E d) m := by
  obtain ⟨hsup,ho⟩ := hg (by decide)
  simp [RunsClean, expire, hc]
  intros
  split
  · rename_i caller swap vault maker giveMint makerGive tokenProg ha
    have hp : IsTokenProgram tokenProg.key := by simpa [Supplied, tokenSlots, ha] using hsup
    have ho' : (m.ledger giveMint.key).owner = tokenProg.key := by
      simpa [LegsOwned, tokenSlots, legSlots, ha] using ho
    simp [refundAndClose, hc]
    intros
    simpa using clean_refund ht _ _ _ hc hsup hp ho'
  · exact hc

/-! ## Offers -/

theorem makeOffer_clean (hs : SystemRules E.host) (ht : TokenRules E.host) (d : Bytes)
    (hg : Genuine 4 E.accounts d m.ledger) (hc : Clean (Supplied 4 E.accounts) m) :
    RunsClean E 4 (makeOffer E d) m := by
  obtain ⟨hsup,ho⟩ := hg (by decide)
  simp [RunsClean, makeOffer, hc]
  intros
  split
  · rename_i offerer offer ovault wantMint swap offererWant tokenProg system config aliasAcct ha
    have hp : IsTokenProgram tokenProg.key := by simpa [Supplied, tokenSlots, ha] using hsup
    have ho' : (m.ledger wantMint.key).owner = tokenProg.key := by
      simpa [LegsOwned, tokenSlots, legSlots, ha] using ho
    have hu := used_of_token _ ho' hp
    simp [hc]
    intros
    apply clean_createPda hs _ _ _ _ _ hc
    intro m₁ h₁ k₁
    have ho₁ := (k₁ _ (.inl hu)).1.trans ho'
    refine wp_seq (clean_createPda hs _ _ _ _ _ h₁ fun m₂ h₂ k₂ => ?_)
    have ho₂ := (k₂ _ (.inl (used_of_token _ ho₁ hp))).1.trans ho₁
    refine wp_seq (clean_tokenInit ht _ h₂ hp ho₂ fun m₃ h₃ o₃ => ?_)
    simp [h₃]
    intros
    apply clean_tokenTransfer ht _ _ _ h₃ hp ((o₃ _).trans ho₂)
    intro m₄ h₄ _
    simp only [wp_bind, wp_dataOf]
    exact clean_perform _ h₄ (fun _ => proper_write _ _ _) fun s _ h₅ => ⟨h₅,hsup⟩
  · exact hc

theorem refundOffer_clean {P : Prop} {offerer offer ovault wantMint offererWant tokenProg :
    AccountInfo} (ht : TokenRules E.host) (ononce : Bytes) (obump : UInt8) (n : ℕ)
    (hc : Clean P m) (hP : P) (hp : IsTokenProgram tokenProg.key)
    (ho : (m.ledger wantMint.key).owner = tokenProg.key) :
    wp (refundOffer E offerer offer ovault wantMint offererWant tokenProg ononce obump n)
      (fun _ m' => Clean P m' ∧ P) (Clean P) m := by
  simp only [refundOffer, wp_bind, wp_findAddress, wp_failIf, wp_requireTokenAccount,
    wp_mintDecimals, hc, implies_true, and_true]
  intros
  simpa only [wp_bind] using clean_refund ht n _ _ hc hP hp ho

theorem withdrawOffer_clean (ht : TokenRules E.host) (d : Bytes)
    (hg : Genuine 6 E.accounts d m.ledger) (hc : Clean (Supplied 6 E.accounts) m) :
    RunsClean E 6 (withdrawOffer E d) m := by
  obtain ⟨hsup,ho⟩ := hg (by decide)
  simp [RunsClean, withdrawOffer, hc]
  intros
  split
  · rename_i offerer offer ovault wantMint offererWant tokenProg ha
    have hp : IsTokenProgram tokenProg.key := by simpa [Supplied, tokenSlots, ha] using hsup
    have ho' : (m.ledger wantMint.key).owner = tokenProg.key := by
      simpa [LegsOwned, tokenSlots, legSlots, ha] using ho
    simp [hc]
    intros
    exact refundOffer_clean ht _ _ _ hc hsup hp ho'
  · exact hc

theorem expireOffer_clean (ht : TokenRules E.host) (d : Bytes)
    (hg : Genuine 7 E.accounts d m.ledger) (hc : Clean (Supplied 7 E.accounts) m) :
    RunsClean E 7 (expireOffer E d) m := by
  obtain ⟨hsup,ho⟩ := hg (by decide)
  simp [RunsClean, expireOffer, hc]
  intros
  split
  · rename_i caller offer ovault offerer wantMint offererWant tokenProg ha
    have hp : IsTokenProgram tokenProg.key := by simpa [Supplied, tokenSlots, ha] using hsup
    have ho' : (m.ledger wantMint.key).owner = tokenProg.key := by
      simpa [LegsOwned, tokenSlots, legSlots, ha] using ho
    simp [hc]
    intros
    exact refundOffer_clean ht _ _ _ hc hsup hp ho'
  · exact hc

theorem acceptOffer_clean (hf : E.host.CollisionFree) (ht : TokenRules E.host) (d : Bytes)
    (hg : Genuine 5 E.accounts d m.ledger) (hc : Clean (Supplied 5 E.accounts) m) :
    RunsClean E 5 (acceptOffer E d) m := by
  obtain ⟨hsup,ho⟩ := hg (by decide)
  simp [RunsClean, acceptOffer, hc]
  intro hl
  split
  · rename_i maker swap swapVault offer offerVault offerer giveMint wantMint offererGive makerWant
      tokenProg config feeAta ha
    have hp : IsTokenProgram tokenProg.key := by simpa [Supplied, tokenSlots, ha] using hsup
    obtain ⟨hog,how⟩ : (m.ledger giveMint.key).owner = tokenProg.key ∧
        (m.ledger wantMint.key).owner = tokenProg.key := by
      simpa [LegsOwned, tokenSlots, legSlots, ha] using ho
    simp [hc]
    intro _ _ _ _ _ _ _ _ _ _ _ _ _ _ _ _ _ swapPda _ hsw svault _ hsv offerPda _ hof ovault _ hov
    rintro rfl hv rfl hv'
    have hne : swapVault.key ≠ offerVault.key := by
      rw [← hv, ← hv']
      exact (Place.At.of_find (p := .vault _ _) (slice_length _ _ _ (by omega)) hsv).ne hf
        (Place.At.of_find (p := .ovault _ _) (slice_length _ _ _ (by omega)) hov) (by simp)
    intros
    apply clean_payFee ht _ _ _ _ _ _ hc hp how
    intro m₁ h₁ o₁ _
    simp [h₁]
    intros
    apply clean_tokenTransfer ht _ _ _ h₁ hp ((o₁ _).trans how)
    intro m₂ h₂ t₂
    have hog₂ : (m₂.ledger giveMint.key).owner = tokenProg.key := by rw [t₂.owners, o₁, hog]
    refine wp_seq (clean_tokenTransfer ht _ _ _ h₂ hp hog₂ fun m₃ h₃ t₃ => ?_)
    obtain ⟨t,hat,hmt⟩ := t₂.held
    obtain ⟨t',hat',hmt'⟩ := t₃.tokens _ _ hat
    obtain ⟨u,hau,hmu⟩ := t₃.held
    have hne' : giveMint.key ≠ offerVault.key := by
      intro h
      rw [← h, isMint_not_token _ _ _ t₃.isMint] at hat'
      cases hat'
    have how₃ : (m₃.ledger t'.mint).owner = tokenProg.key := by
      rw [hmt', hmt, t₃.owners, t₂.owners, o₁, how]
    refine wp_seq (clean_tokenClose ht _ t' hat' h₃ hp how₃ fun m₄ h₄ _ s₄ => ?_)
    have hau₄ : tokenAt m₄.ledger swapVault.key = some u := by
      rw [tokenAt_congr _ _ _ (s₄ _ hne).1 (s₄ _ hne).2, hau]
    have hog₄ : (m₄.ledger u.mint).owner = tokenProg.key := by
      rw [hmu, (s₄ _ hne').1, t₃.owners, hog₂]
    refine wp_seq (clean_tokenClose ht _ u hau₄ h₄ hp hog₄ fun m₅ h₅ _ _ => ?_)
    refine wp_seq (clean_close _ _ h₅ hsup fun m₆ h₆ => ?_)
    exact clean_close _ _ h₆ hsup fun m₇ h₇ => ⟨h₇,hsup⟩
  · exact hc

/-! ## Fee vaults -/

theorem initFeeVault_clean (hs : SystemRules E.host) (ht : TokenRules E.host) (d : Bytes)
    (hg : Genuine 10 E.accounts d m.ledger) (hc : Clean (Supplied 10 E.accounts) m) :
    RunsClean E 10 (initFeeVault E d) m := by
  obtain ⟨hsup,ho⟩ := hg (by decide)
  simp [RunsClean, initFeeVault, hc]
  intros
  split
  · rename_i payer feeVault wantMint tokenProgram system ha
    have hp : IsTokenProgram tokenProgram.key := by simpa [Supplied, tokenSlots, ha] using hsup
    have ho' : (m.ledger wantMint.key).owner = tokenProgram.key := by
      simpa [LegsOwned, tokenSlots, legSlots, ha] using ho
    simp [hc]
    intros
    apply clean_createPda hs _ _ _ _ _ hc
    intro m₁ h₁ k₁
    have ho₁ := (k₁ _ (.inl (used_of_token _ ho' hp))).1.trans ho'
    exact clean_tokenInit ht _ h₁ hp ho₁ fun m₂ h₂ _ => ⟨h₂,hsup⟩
  · exact hc

theorem sweepFees_clean (ht : TokenRules E.host) (d : Bytes)
    (hg : Genuine 11 E.accounts d m.ledger) (hc : Clean (Supplied 11 E.accounts) m) :
    RunsClean E 11 (sweepFees E d) m := by
  obtain ⟨hsup,ho⟩ := hg (by decide)
  simp [RunsClean, sweepFees, hc]
  intros
  split
  · rename_i caller feeVault wantMint config feeWalletAta tokenProg ha
    have hp : IsTokenProgram tokenProg.key := by simpa [Supplied, tokenSlots, ha] using hsup
    simp [hc, wp_ite]
    intros
    refine ⟨fun _ => hsup,fun hn _ _ => ?_⟩
    have ho' : (m.ledger wantMint.key).owner = tokenProg.key := by
      simpa [LegsOwned, tokenSlots, legSlots, ha, dataAt, hn] using ho
    exact clean_tokenTransfer ht _ _ _ hc hp ho' fun m₁ h₁ _ => ⟨h₁,hsup⟩
  · exact hc

/-! ## Escrowed assets and listings -/

theorem supplied_single (tag : UInt8) (i : ℕ) {tokenProg : AccountInfo}
    (hslots : tokenSlots tag = [i]) (hat : E.accounts[i]? = some tokenProg)
    (hp : IsTokenProgram tokenProg.key) : Supplied tag E.accounts := by
  intro k hk a hka
  rw [hslots, List.mem_singleton] at hk
  subst hk
  rw [hat] at hka
  cases hka
  exact hp

theorem fillPnft_clean (ht : TokenRules E.host) (d : Bytes)
    (hc : Clean (Supplied 19 E.accounts) m) : RunsClean E 19 (fillPnft E d) m := by
  simp [RunsClean, fillPnft, hc]
  intros
  split
  · rename_i taker swap maker giveMint wantMint takerWant makerWant wantTokenProg config
      feeAta vault
      takerGive metadata edition ownerRecord destRecord tokenMetadata splTok ataProg sysvarIx system
      rulesProg rules ha
    simp [hc]
    intros
    rename_i hp ho
    have hsup : Supplied 19 E.accounts :=
      supplied_single 19 7 rfl (by rw [take_getElem? 23 7 _ _ ha (by decide)]; rfl) hp
    apply clean_payWantAndRoyalty ht _ _ _ _ _ _ _ _ hc hp ho
    intro m₁ h₁ _
    simp only [wp_bind, releasePnft, mplTransfer]
    apply clean_perform _ h₁ (by simp)
    intro s _ h₂
    exact clean_close _ _ h₂ hsup fun m₃ h₃ => ⟨h₃,hsup⟩
  · exact hc

theorem fillCore_clean (ht : TokenRules E.host) (d : Bytes)
    (hc : Clean (Supplied 23 E.accounts) m) : RunsClean E 23 (fillCore E d) m := by
  simp [RunsClean, fillCore, hc]
  intros
  split
  · rename_i taker swap maker asset collection wantMint takerWant makerWant wantTokenProg config
      feeAta mplCore ha
    simp [hc]
    intros
    rename_i hp ho
    have hsup : Supplied 23 E.accounts := supplied_single 23 8 rfl (by rw [ha]; rfl) hp
    apply clean_payWantLeg ht _ _ _ hc hp ho
    intro m₁ h₁ _
    simp only [wp_bind, releaseCore, mplCoreTransfer]
    apply clean_perform _ h₁ (by simp)
    intro s _ h₂
    exact clean_close _ _ h₂ hsup fun m₃ h₃ => ⟨h₃,hsup⟩
  · exact hc

theorem list_clean (hs : SystemRules E.host) (d : Bytes)
    (hc : Clean (Supplied 26 E.accounts) m) : RunsClean E 26 (list E d) m := by
  simp [RunsClean, list, hc]
  intros
  split
  · rename_i maker listing giveMint wantMint makerGive tokenProg system config aliasAcct ha
    simp [hc]
    intro _ _ _ _ hp ho hb _ _ _ _ _
    have hsup : Supplied 26 E.accounts := supplied_single 26 5 rfl (by rw [ha]; rfl) hp
    apply clean_createPda hs _ _ _ _ _ hc
    intro m₁ h₁ k₁
    refine wp_seq (clean_perform _ h₁ (fun _ => proper_log _ _) fun s hlog h₂ => ?_)
    cases hlog
    have hused : (m.ledger makerGive.key).data ≠ [] := by
      intro h
      have := hb.1
      simp [h] at this
    have hmint : (m₁.ledger (keyAt (m₁.ledger makerGive.key).data 0)).owner = tokenProg.key := by
      rw [(k₁ _ (.inr hused)).2, hb.2.1, (k₁ _ (.inl (used_of_token _ ho hp))).1, ho]
    refine wp_seq (clean_tokenApprove _ h₂ hp hmint fun m₃ h₃ => ?_)
    simp only [wp_bind, wp_dataOf]
    exact clean_perform _ h₃ (fun _ => proper_write _ _ _) fun s _ h₄ => ⟨h₄,hsup⟩
  · exact hc

theorem fillListing_clean (ht : TokenRules E.host) (d : Bytes)
    (hc : Clean (Supplied 27 E.accounts) m) : RunsClean E 27 (fillListing E d) m := by
  simp [RunsClean, fillListing, hc]
  intros
  split
  · rename_i taker listing maker giveMint wantMint makerGive takerGive takerWant makerWant tokenProg
      config feeAta ha
    simp [hc]
    intros
    rename_i hp ho hgp hgo _
    have hsup : Supplied 27 E.accounts := supplied_optional 27 9 12 rfl (by decide) ha rfl hp hgp
    apply clean_payWantAndRoyalty ht _ _ _ _ _ _ _ _ hc hp ho
    intro m₁ h₁ o₁
    refine wp_seq (clean_tokenTransfer ht _ _ _ h₁ hgp ((o₁ _).trans hgo) fun m₂ h₂ _ => ?_)
    exact clean_close _ _ h₂ hsup fun m₃ h₃ => ⟨h₃,hsup⟩
  · exact hc

theorem cancelListing_clean (hs : SystemRules E.host) (d : Bytes)
    (hg : Genuine 28 E.accounts d m.ledger) (hc : Clean (Supplied 28 E.accounts) m) :
    RunsClean E 28 (cancelListing E d) m := by
  obtain ⟨hsup,ho⟩ := hg (by decide)
  simp [RunsClean, cancelListing, hc]
  intros
  split
  · rename_i maker listing giveMint makerGive tokenProg config feeWallet system ha
    have hp : IsTokenProgram tokenProg.key := by simpa [Supplied, tokenSlots, ha] using hsup
    have ho' : (m.ledger giveMint.key).owner = tokenProg.key := by
      simpa [LegsOwned, tokenSlots, legSlots, ha] using ho
    simp [hc]
    intro _ _ _ _ _ _ hb _ _ _ _
    apply clean_payDelistFee hs _ _ _ hc
    intro m₁ h₁ s₁
    have hmint : (m₁.ledger (keyAt (m₁.ledger makerGive.key).data 0)).owner = tokenProg.key := by
      rw [(s₁ _).2, hb.2.1, (s₁ _).1, ho']
    refine wp_seq (clean_tokenRevoke h₁ hp hmint fun m₂ h₂ => ?_)
    exact clean_close _ _ h₂ hsup fun m₃ h₃ => ⟨h₃,hsup⟩
  · exact hc

theorem fillListingPnft_clean (ht : TokenRules E.host) (d : Bytes)
    (hc : Clean (Supplied 31 E.accounts) m) : RunsClean E 31 (fillListingPnft E d) m := by
  simp [RunsClean, fillListingPnft, hc]
  intros
  split
  · rename_i taker listing maker giveMint wantMint takerWant makerWant wantTokenProg config feeAta
      makerAta takerAta metadata edition ownerRecord destRecord tokenMetadata splTok ataProg
      sysvarIx system rulesProg rules ha
    simp [hc]
    intros
    rename_i hp ho
    have hsup : Supplied 31 E.accounts :=
      supplied_single 31 7 rfl (by rw [take_getElem? 23 7 _ _ ha (by decide)]; rfl) hp
    apply clean_payWantAndRoyalty ht _ _ _ _ _ _ _ _ hc hp ho
    intro m₁ h₁ _
    simp only [wp_bind, mplTransfer]
    apply clean_perform _ h₁ (by simp)
    intro s _ h₂
    exact clean_close _ _ h₂ hsup fun m₃ h₃ => ⟨h₃,hsup⟩
  · exact hc

theorem fillListingCore_clean (ht : TokenRules E.host) (d : Bytes)
    (hc : Clean (Supplied 35 E.accounts) m) : RunsClean E 35 (fillListingCore E d) m := by
  simp [RunsClean, fillListingCore, hc]
  intros
  split
  · rename_i taker listing maker asset wantMint takerWant makerWant wantTokenProg config feeAta
      mplCore ha
    simp [hc]
    intros
    rename_i hp ho
    have hsup : Supplied 35 E.accounts :=
      supplied_single 35 7 rfl (by
        rw [← splitCollection_getElem? 11 7 _ (by decide), ha]; rfl) hp
    apply clean_payWantLeg ht _ _ _ hc hp ho
    intro m₁ h₁ _
    simp only [wp_bind, mplCoreTransfer]
    apply clean_perform _ h₁ (by simp)
    intro s _ h₂
    exact clean_close _ _ h₂ hsup fun m₃ h₃ => ⟨h₃,hsup⟩
  · exact hc

/-! ## Sealed orders and bids -/

theorem clean_markOrderDone {P : Prop} {Q : UInt8 → Machine → Prop} (hs : SystemRules E.host)
    (maker payer orderAuth orderDone : AccountInfo) (nonce : Bytes) (hc : Clean P m)
    (hk : ∀ b m', Clean P m' → Q b m') :
    wp (markOrderDone E maker payer orderAuth orderDone nonce) Q (Clean P) m := by
  simp only [markOrderDone, wp_bind, wp_findAddress, wp_failIf, hc, implies_true, and_true]
  intro _ b _ _ _ _ _ _
  exact clean_createPda hs _ _ _ _ _ hc fun m₁ h₁ _ => hk b m₁ h₁

theorem clean_verifyBidCommon {P : Prop} {Q : UInt8 → Machine → Prop} (hs : SystemRules E.host)
    (ixSysvar maker taker orderAuth orderDone : AccountInfo) (coins want : Pubkey) (t : OrderTerms)
    (hc : Clean P m) (hk : ∀ b m', Clean P m' → Q b m') :
    wp (verifyBidCommon E ixSysvar maker taker orderAuth orderDone coins want t) Q (Clean P) m := by
  simp only [verifyBidCommon, wp_bind, wp_failIf, wp_verifyEd25519Order, hc, implies_true, and_true]
  intros
  exact clean_markOrderDone hs _ _ _ _ _ hc hk

theorem settleSignedOrder_clean (hs : SystemRules E.host) (ht : TokenRules E.host) (d : Bytes)
    (hc : Clean (Supplied 38 E.accounts) m) : RunsClean E 38 (settleSignedOrder E d) m := by
  simp [RunsClean, settleSignedOrder, hc]
  intros
  split
  · rename_i taker maker giveMint wantMint makerGive takerGive takerWant makerWant orderAuth
      orderDone tokenProg config feeAta system ixSysvar ha
    simp [hc]
    intros
    apply clean_markOrderDone hs _ _ _ _ _ hc
    intro b m₁ h₁
    simp [h₁]
    intros
    rename_i hp ho hgp hgo _
    have hsup : Supplied 38 E.accounts := supplied_optional 38 10 15 rfl (by decide) ha rfl hp hgp
    apply clean_payWantAndRoyalty ht _ _ _ _ _ _ _ _ h₁ hp ho
    intro m₂ h₂ o₂
    exact clean_tokenTransfer ht _ _ _ h₂ hgp ((o₂ _).trans hgo) fun m₃ h₃ _ => ⟨h₃,hsup⟩
  · exact hc

theorem settleSignedOrderPnft_clean (hs : SystemRules E.host) (ht : TokenRules E.host) (d : Bytes)
    (hc : Clean (Supplied 39 E.accounts) m) : RunsClean E 39 (settleSignedOrderPnft E d) m := by
  simp [RunsClean, settleSignedOrderPnft, hc]
  intros
  split
  · rename_i taker maker giveMint wantMint takerWant makerWant wantTokenProg config feeAta orderAuth
      orderDone makerAta takerAta metadata edition ownerRecord destRecord tokenMetadata
      splTok ataProg ixSysvar system rulesProg rules ha
    simp [hc]
    intros
    apply clean_markOrderDone hs _ _ _ _ _ hc
    intro b m₁ h₁
    simp [h₁]
    intros
    rename_i hp ho
    have hsup : Supplied 39 E.accounts :=
      supplied_single 39 6 rfl (by rw [take_getElem? 24 6 _ _ ha (by decide)]; rfl) hp
    apply clean_payWantAndRoyalty ht _ _ _ _ _ _ _ _ h₁ hp ho
    intro m₂ h₂ _
    exact clean_perform _ h₂ (by simp) fun s _ h₃ => ⟨h₃,hsup⟩
  · exact hc

theorem settleSignedOrderCore_clean (hs : SystemRules E.host) (ht : TokenRules E.host) (d : Bytes)
    (hc : Clean (Supplied 40 E.accounts) m) : RunsClean E 40 (settleSignedOrderCore E d) m := by
  simp [RunsClean, settleSignedOrderCore, hc]
  intros
  split
  · rename_i taker maker asset wantMint takerWant makerWant wantTokenProg config feeAta orderAuth
      orderDone system ixSysvar mplCore ha
    simp [hc]
    intros
    apply clean_markOrderDone hs _ _ _ _ _ hc
    intro b m₁ h₁
    simp [h₁]
    intros
    rename_i hp ho
    have hsup : Supplied 40 E.accounts :=
      supplied_single 40 6 rfl (by
        rw [← splitCollection_getElem? 14 6 _ (by decide), ha]; rfl) hp
    apply clean_payWantLeg ht _ _ _ h₁ hp ho
    intro m₂ h₂ _
    exact clean_perform _ h₂ (by simp) fun s _ h₃ => ⟨h₃,hsup⟩
  · exact hc

theorem settleSignedBidSpl_clean (hs : SystemRules E.host) (ht : TokenRules E.host) (d : Bytes)
    (hc : Clean (Supplied 41 E.accounts) m) : RunsClean E 41 (settleSignedBidSpl E d) m := by
  simp [RunsClean, settleSignedBidSpl, hc]
  intros
  split
  · rename_i taker maker coinsMint nftMint makerCoins ownerCoins coinsTokenProg config feeAta
      orderAuth orderDone system ixSysvar ownerNft makerNft nftTokenProg ha
    refine wp_seq (clean_verifyBidCommon hs _ _ _ _ _ _ _ _ hc fun b m₁ h₁ => ?_)
    simp [h₁]
    intros
    rename_i hp ho hnp hno
    have hsup : Supplied 41 E.accounts := by simp [Supplied, tokenSlots, ha, hp, hnp]
    apply clean_payCoinsViaDelegate ht _ _ _ _ h₁ hp ho
    intro m₂ h₂ o₂
    exact clean_tokenTransfer ht _ _ _ h₂ hnp ((o₂ _).trans hno) fun m₃ h₃ _ => ⟨h₃,hsup⟩
  · exact hc

theorem settleSignedBidPnft_clean (hs : SystemRules E.host) (ht : TokenRules E.host) (d : Bytes)
    (hc : Clean (Supplied 42 E.accounts) m) : RunsClean E 42 (settleSignedBidPnft E d) m := by
  simp [RunsClean, settleSignedBidPnft, hc]
  intros
  split
  · rename_i taker maker coinsMint nftMint makerCoins ownerCoins coinsTokenProg config feeAta
      orderAuth orderDone system ixSysvar ownerNft makerNft metadata edition ownerRecord destRecord
      tokenMetadata splTok ataProg rulesProg rules ha
    simp [hc]
    intros
    apply clean_verifyBidCommon hs _ _ _ _ _ _ _ _ hc
    intro b m₁ h₁
    simp [h₁]
    intros
    rename_i hp ho
    have hsup : Supplied 42 E.accounts := supplied_single 42 6 rfl (by rw [ha]; rfl) hp
    apply clean_payCoinsViaDelegate ht _ _ _ _ h₁ hp ho
    intro m₂ h₂ _
    exact clean_perform _ h₂ (by simp) fun s _ h₃ => ⟨h₃,hsup⟩
  · exact hc

theorem settleSignedBidCore_clean (hs : SystemRules E.host) (ht : TokenRules E.host) (d : Bytes)
    (hc : Clean (Supplied 43 E.accounts) m) : RunsClean E 43 (settleSignedBidCore E d) m := by
  simp [RunsClean, settleSignedBidCore, hc]
  intros
  split
  · rename_i taker maker coinsMint asset makerCoins ownerCoins coinsTokenProg config feeAta
      orderAuth orderDone system ixSysvar mplCore ha
    simp [hc]
    intros
    apply clean_verifyBidCommon hs _ _ _ _ _ _ _ _ hc
    intro b m₁ h₁
    simp [h₁]
    intros
    rename_i hp ho
    have hsup : Supplied 43 E.accounts :=
      supplied_single 43 6 rfl (by
        rw [← splitCollection_getElem? 14 6 _ (by decide), ha]; rfl) hp
    apply clean_payCoinsViaDelegate ht _ _ _ _ h₁ hp ho
    intro m₂ h₂ _
    exact clean_perform _ h₂ (by simp) fun s _ h₃ => ⟨h₃,hsup⟩
  · exact hc

/-! ## Baskets -/

section
variable {P : Prop} {Q : Unit → Machine → Prop} {tokenProg : AccountInfo}

/-- An account with a 45th byte is not empty, so that what is kept is kept. -/
theorem owner_of_kept {p : Pubkey} {s : Ledger} {k : Pubkey} {i : ℕ} {b : UInt8}
    (h : (s k).owner = p ∨ (s k).data = []) (hb : (s k).data[i]? = some b) : (s k).owner = p := by
  rcases h with h | h
  · exact h
  · simp [h] at hb

theorem clean_payWantEntry (ht : TokenRules E.host) (taker swap : AccountInfo) (cfg : FeePolicy)
    (stateMaker : Pubkey) (shardSeed : UInt8) (wantBase j : ℕ) (hc : Clean P m)
    (hp : IsTokenProgram tokenProg.key)
    (ho : ∀ a, E.accounts[wantBase+j*4]? = some a →
      (m.ledger a.key).owner = tokenProg.key ∨ (m.ledger a.key).data = [])
    (hk : ∀ m', Clean P m' → Keeps tokenProg.key m.ledger m'.ledger → Q () m') :
    wp (payWantEntry E taker swap tokenProg cfg stateMaker shardSeed wantBase j) Q (Clean P) m := by
  simp [payWantEntry, entryAt, hc]
  intro wantMint ha _ _ _ _ _ _ _ _ _ b hb
  have ho' := owner_of_kept (ho wantMint ha) hb
  apply clean_payFee ht _ _ _ _ _ _ hc hp ho'
  intro m₁ h₁ o₁ k₁
  simp only [wp_bind, wp_checkedSub]
  refine ⟨fun _ => ?_,fun _ => h₁⟩
  apply clean_tokenTransfer ht _ _ _ h₁ hp ((o₁ _).trans ho')
  intro m₂ h₂ t₂
  exact hk m₂ h₂ (k₁.trans t₂.keeps)

theorem clean_releaseLeg (ht : TokenRules E.host) (swap maker : AccountInfo) (makerKey : Pubkey)
    (nonce : Bytes) (seeds : List Bytes) (giveBase : ℕ) (recipient : Option Pubkey) (i : ℕ)
    (hc : Clean P m) (hp : IsTokenProgram tokenProg.key)
    (ho : ∀ a, E.accounts[giveBase+i*3]? = some a →
      (m.ledger a.key).owner = tokenProg.key ∨ (m.ledger a.key).data = [])
    (hk : ∀ m', Clean P m' → Keeps tokenProg.key m.ledger m'.ledger → Q () m') :
    wp (releaseLeg E swap maker tokenProg makerKey nonce seeds giveBase recipient i) Q (Clean P)
      m := by
  have hend : ∀ giveMint vault dest : AccountInfo, ∀ n b,
      E.accounts[giveBase+i*3]? = some giveMint → (m.ledger giveMint.key).data[44]? = some b →
      wp (do
        tokenTransfer E tokenProg vault giveMint dest swap n b (some seeds)
        tokenClose E tokenProg vault maker swap seeds) Q (Clean P) m := by
    intro giveMint vault dest n b ha hb
    have ho' := owner_of_kept (ho giveMint ha) hb
    refine wp_seq (clean_tokenTransfer ht _ _ _ hc hp ho' fun m₁ h₁ t₁ => ?_)
    obtain ⟨t,hat,hmt⟩ := t₁.held
    have ho₁ : (m₁.ledger t.mint).owner = tokenProg.key := by rw [hmt, t₁.owners, ho']
    exact clean_tokenClose ht _ t hat h₁ hp ho₁ fun m₂ h₂ k₂ _ => hk m₂ h₂ (t₁.keeps.trans k₂)
  cases recipient <;> simp [releaseLeg, entryAt, hc] <;> intros <;>
    simpa using hend _ _ _ _ _ ‹_› ‹_›

/-- A loop over legs whose mints the token program owned at its start. -/
theorem clean_legs (s₀ : Ledger) (f : ℕ → Exec Unit) (n : ℕ) (slot : ℕ → ℕ)
    (hc : Clean P m) (hk₀ : Keeps tokenProg.key s₀ m.ledger)
    (ho : ∀ i < n, ∀ a, E.accounts[slot i]? = some a → (s₀ a.key).owner = tokenProg.key)
    (hf : ∀ i m', Clean P m' → (∀ a, E.accounts[slot i]? = some a →
        (m'.ledger a.key).owner = tokenProg.key ∨ (m'.ledger a.key).data = []) →
      wp (f i) (fun _ m'' => Clean P m'' ∧ Keeps tokenProg.key m'.ledger m''.ledger) (Clean P) m')
    (hk : ∀ m', Clean P m' → Keeps tokenProg.key s₀ m'.ledger → Q () m') :
    wp (forEach (List.range n) f) Q (Clean P) m := by
  refine wp_mono (wp_forEach (fun is m' => Clean P m' ∧ Keeps tokenProg.key s₀ m'.ledger ∧
    ∀ i ∈ is, i < n) _ ?_ _ _ ⟨hc,hk₀,by simp⟩) (fun _ m' h => hk m' h.1 h.2.1) (fun _ h => h)
  rintro i is m' ⟨h',k',hi⟩
  have hown : ∀ a, E.accounts[slot i]? = some a →
      (m'.ledger a.key).owner = tokenProg.key ∨ (m'.ledger a.key).data = [] :=
    fun a ha => k' _ (.inl (ho i (hi i (by simp)) a ha))
  refine wp_mono (hf i m' h' hown) (fun _ m'' h => ?_) (fun _ h => h)
  exact ⟨h.1,k'.trans h.2,fun j hj => hi j (by simp [hj])⟩

end

theorem fillBasket_clean (ht : TokenRules E.host) (d : Bytes)
    (hg : Genuine 13 E.accounts d m.ledger) (hc : Clean (Supplied 13 E.accounts) m) :
    RunsClean E 13 (fillBasket E d) m := by
  obtain ⟨hsup,ho⟩ := hg (by decide)
  simp [RunsClean, fillBasket, hc]
  intro _ _ taker _ swap hswap maker _ tokenProg htp config _
  have hp : IsTokenProgram tokenProg.key := hsup 3 (by simp [tokenSlots]) _ htp
  have ho' := ho 3 (by simp [tokenSlots]) _ htp
  simp only [legSlots, dataAt, hswap, List.mem_append, List.mem_map, List.mem_range] at ho'
  intros
  refine clean_legs _ _ _ (fun j => 5+(byteAt (m.ledger swap.key).data bGiveCount).toNat*3+j*4) hc
    (fun _ h => h) (fun j hj => ho' _ (.inr ⟨j,hj,rfl⟩)) ?_ fun m₁ h₁ k₁ => ?_
  · intro j m' h' hown
    exact clean_payWantEntry ht _ _ _ _ _ _ _ h' hp hown fun m'' h k => ⟨h,k⟩
  refine wp_seq (clean_legs _ _ _ (fun i => 5+i*3) h₁ k₁ (fun i hi => ho' _ (.inl ⟨i,hi,rfl⟩)) ?_
    fun m₂ h₂ _ => ?_)
  · intro i m' h' hown
    exact clean_releaseLeg ht _ _ _ _ _ _ _ _ h' hp hown fun m'' h k => ⟨h,k⟩
  exact clean_close _ _ h₂ hsup fun m₃ h₃ => ⟨h₃,hsup⟩

theorem claimBearer_clean (ht : TokenRules E.host) (d : Bytes)
    (hg : Genuine 14 E.accounts d m.ledger) (hc : Clean (Supplied 14 E.accounts) m) :
    RunsClean E 14 (claimBearer E d) m := by
  obtain ⟨hsup,ho⟩ := hg (by decide)
  simp [RunsClean, claimBearer, hc]
  intro _ _ payer _ bearer _ swap hswap maker _ tokenProg htp
  have hp : IsTokenProgram tokenProg.key := hsup 4 (by simp [tokenSlots]) _ htp
  have ho' := ho 4 (by simp [tokenSlots]) _ htp
  simp only [legSlots, dataAt, hswap, List.mem_map, List.mem_range] at ho'
  intros
  refine clean_legs _ _ _ (fun i => 5+i*3) hc (fun _ h => h) (fun i hi => ho' _ ⟨i,hi,rfl⟩) ?_
    fun m₁ h₁ _ => ?_
  · intro i m' h' hown
    exact clean_releaseLeg ht _ _ _ _ _ _ _ _ h' hp hown fun m'' h k => ⟨h,k⟩
  exact clean_close _ _ h₁ hsup fun m₂ h₂ => ⟨h₂,hsup⟩

theorem cancelBasket_clean (hs : SystemRules E.host) (ht : TokenRules E.host) (d : Bytes)
    (hg : Genuine 16 E.accounts d m.ledger) (hc : Clean (Supplied 16 E.accounts) m) :
    RunsClean E 16 (cancelBasket E d) m := by
  obtain ⟨hsup,ho⟩ := hg (by decide)
  simp [RunsClean, cancelBasket, hc]
  intro _ _ maker _ swap hswap tokenProg htp
  have hp : IsTokenProgram tokenProg.key := hsup 2 (by simp [tokenSlots]) _ htp
  have ho' := ho 2 (by simp [tokenSlots]) _ htp
  simp only [legSlots, dataAt, hswap, List.mem_map, List.mem_range] at ho'
  intros
  apply clean_payDelistFee hs _ _ _ hc
  intro m₁ h₁ s₁
  refine wp_seq (clean_legs m₁.ledger _ _ (fun i => 6+i*3) h₁ (fun _ h => h)
    (fun i hi a ha => (s₁ _).1.trans (ho' _ ⟨i,hi,rfl⟩ a ha)) ?_ fun m₂ h₂ _ => ?_)
  · intro i m' h' hown
    exact clean_releaseLeg ht _ _ _ _ _ _ _ _ h' hp hown fun m'' h k => ⟨h,k⟩
  exact clean_close _ _ h₂ hsup fun m₃ h₃ => ⟨h₃,hsup⟩

theorem expireBasket_clean (ht : TokenRules E.host) (d : Bytes)
    (hg : Genuine 17 E.accounts d m.ledger) (hc : Clean (Supplied 17 E.accounts) m) :
    RunsClean E 17 (expireBasket E d) m := by
  obtain ⟨hsup,ho⟩ := hg (by decide)
  simp [RunsClean, expireBasket, hc]
  intro _ _ swap hswap maker _ tokenProg htp
  have hp : IsTokenProgram tokenProg.key := hsup 3 (by simp [tokenSlots]) _ htp
  have ho' := ho 3 (by simp [tokenSlots]) _ htp
  simp only [legSlots, dataAt, hswap, List.mem_map, List.mem_range] at ho'
  intros
  refine clean_legs _ _ _ (fun i => 4+i*3) hc (fun _ h => h) (fun i hi => ho' _ ⟨i,hi,rfl⟩) ?_
    fun m₁ h₁ _ => ?_
  · intro i m' h' hown
    exact clean_releaseLeg ht _ _ _ _ _ _ _ _ h' hp hown fun m'' h k => ⟨h,k⟩
  exact clean_close _ _ h₁ hsup fun m₂ h₂ => ⟨h₂,hsup⟩

section
variable {P : Prop} {Q : Unit → Machine → Prop} {tokenProg : AccountInfo}

theorem clean_write (k : Pubkey) (b : Bytes) (hc : Clean P m)
    (hk : ∀ m', Clean P m' → SameOwners m.ledger m'.ledger → Q () m') :
    wp (perform E (.write k b)) Q (Clean P) m := by
  refine clean_perform _ hc (fun _ => proper_write _ _ _) fun s hs h => hk _ h ?_
  simp only [Act.effect] at hs
  split at hs
  · cases hs
    intro a
    by_cases ha : a = k <;> simp [setData, ha]
  · cases hs

theorem clean_recordWant (swap : AccountInfo) (d : Bytes) (wantOff j : ℕ) (hc : Clean P m)
    (hk : ∀ m', Clean P m' → SameOwners m.ledger m'.ledger → Q () m') :
    wp (recordWant E swap d wantOff j) Q (Clean P) m := by
  simp only [recordWant, wp_bind, wp_failIf, wp_dataOf, hc, implies_true, and_true]
  exact fun _ => clean_write _ _ hc hk

theorem clean_escrowLeg (hs : SystemRules E.host) (ht : TokenRules E.host)
    (maker swap : AccountInfo) (d nonce : Bytes) (giveAmtsOff wantCount i : ℕ) (hc : Clean P m)
    (hp : IsTokenProgram tokenProg.key)
    (ho : ∀ a, E.accounts[6+i*3]? = some a → (m.ledger a.key).owner = tokenProg.key)
    (hk : ∀ m', Clean P m' → (∀ a, (m.ledger a).owner = tokenProg.key → (m'.ledger a).owner =
      tokenProg.key) → Q () m') :
    wp (escrowLeg E maker swap tokenProg d nonce giveAmtsOff wantCount i) Q (Clean P) m := by
  simp [escrowLeg, hc]
  intro giveMint ha
  have ho' := ho giveMint ha
  intros
  apply clean_createPda hs _ _ _ _ _ hc
  intro m₁ h₁ k₁
  have own₁ : ∀ a, (m.ledger a).owner = tokenProg.key → (m₁.ledger a).owner = tokenProg.key :=
    fun a h => (k₁ a (.inl (used_of_token _ h hp))).1.trans h
  refine wp_seq (clean_tokenInit ht _ h₁ hp (own₁ _ ho') fun m₂ h₂ o₂ => ?_)
  simp [h₂]
  intros
  apply clean_tokenTransfer ht _ _ _ h₂ hp ((o₂ _).trans (own₁ _ ho'))
  intro m₃ h₃ t₃
  simp only [wp_bind, wp_dataOf]
  refine clean_write _ _ h₃ fun m₄ h₄ o₄ => hk m₄ h₄ fun a h => ?_
  rw [o₄, t₃.owners, o₂, own₁ a h]

end

theorem openBasket_clean (hs : SystemRules E.host) (ht : TokenRules E.host) (d : Bytes)
    (hg : Genuine 12 E.accounts d m.ledger) (hc : Clean (Supplied 12 E.accounts) m) :
    RunsClean E 12 (openBasket E d) m := by
  obtain ⟨hsup,ho⟩ := hg (by decide)
  simp [RunsClean, openBasket, hc]
  intro _ _ _ _ _ _ _ _ _ maker _ swap _ tokenProg htp config _ aliasAcct _ _ _ _ _ _ _
  have hp : IsTokenProgram tokenProg.key := hsup 3 (by simp [tokenSlots]) _ htp
  have ho' := ho 3 (by simp [tokenSlots]) _ htp
  simp only [legSlots, List.mem_map, List.mem_range] at ho'
  apply clean_createPda hs _ _ _ _ _ hc
  intro m₁ h₁ k₁
  simp only [wp_bind, wp_dataOf]
  apply clean_write _ _ h₁
  intro m₂ h₂ o₂
  have own₂ : ∀ a, (m.ledger a).owner = tokenProg.key → (m₂.ledger a).owner = tokenProg.key :=
    fun a h => (o₂ a).trans ((k₁ a (.inl (used_of_token _ h hp))).1.trans h)
  rw [wp_bind]
  refine wp_mono (wp_forEach (fun _ m' => Clean (Supplied 12 E.accounts) m' ∧
    SameOwners m₂.ledger m'.ledger) _ ?_ _ _ ⟨h₂,fun _ => rfl⟩) ?_ (fun _ h => h)
  · rintro j js m' ⟨h',o'⟩
    exact clean_recordWant _ _ _ _ h' fun m'' h o => ⟨h,fun a => (o a).trans (o' a)⟩
  rintro _ m₃ ⟨h₃,o₃⟩
  refine wp_mono (wp_forEach (fun is m' => Clean (Supplied 12 E.accounts) m' ∧
    (∀ a, (m.ledger a).owner = tokenProg.key → (m'.ledger a).owner = tokenProg.key) ∧
    ∀ i ∈ is, i < (byteAt d 32).toNat) _ ?_ _ _
    ⟨h₃,fun a h => (o₃ a).trans (own₂ a h),by simp⟩)
    (fun _ m' h => ⟨h.1,hsup⟩) (fun _ h => h)
  rintro i is m' ⟨h',own',hi⟩
  refine clean_escrowLeg hs ht _ _ _ _ _ _ _ h' hp
    (fun a ha => own' _ (ho' _ ⟨i,hi i (by simp),rfl⟩ a ha)) fun m'' h own => ?_
  exact ⟨h,fun a ha => own a (own' a ha),fun j hj => hi j (by simp [hj])⟩

/-! ## Every instruction -/

/-- The handlers without a token program run clean, whatever they close. -/
theorem runsClean_of_quiet {tag : UInt8} {x : Exec Unit} (hslots : tokenSlots tag = [])
    (h : ∀ P, (∀ k dest s, Proper P ⟨.close k dest,s⟩) → Clean P m →
      wp x (fun _ => Clean P) (Clean P) m) (hc : Clean (Supplied tag E.accounts) m) :
    RunsClean E tag x m := by
  have hsup : Supplied tag E.accounts := by simp [Supplied, hslots]
  exact wp_mono (h _ (fun k dest s => proper_close_of hsup k dest s) hc)
    (fun _ _ hc' => ⟨hc',hsup⟩) (fun _ hc' => hc')

theorem handler_clean (hf : E.host.CollisionFree) (hs : SystemRules E.host)
    (ht : TokenRules E.host) (tag : UInt8) (d : Bytes) (hg : Genuine tag E.accounts d m.ledger)
    (hc : Clean (Supplied tag E.accounts) m) : RunsClean E tag (handler E tag d) m := by
  unfold handler
  split
  · exact openSwap_clean hs ht d hc
  · exact fill_clean ht d hc
  · exact cancelSwap_clean hs ht d hg hc
  · exact expire_clean ht d hg hc
  · exact makeOffer_clean hs ht d hg hc
  · exact acceptOffer_clean hf ht d hg hc
  · exact withdrawOffer_clean ht d hg hc
  · exact expireOffer_clean ht d hg hc
  · exact runsClean_of_quiet rfl (fun _ _ h => initConfig_quiet d h) hc
  · exact runsClean_of_quiet rfl (fun _ _ h => updateConfig_quiet d h) hc
  · exact initFeeVault_clean hs ht d hg hc
  · exact sweepFees_clean ht d hg hc
  · exact openBasket_clean hs ht d hg hc
  · exact fillBasket_clean ht d hg hc
  · exact claimBearer_clean ht d hg hc
  · exact runsClean_of_quiet rfl (fun _ _ h => rewrap_quiet d h) hc
  · exact cancelBasket_clean hs ht d hg hc
  · exact expireBasket_clean ht d hg hc
  · exact runsClean_of_quiet rfl (fun _ _ h => openPnft_quiet d h) hc
  · exact fillPnft_clean ht d hc
  · exact runsClean_of_quiet rfl (fun _ hp h => cancelPnft_quiet hp d h) hc
  · exact runsClean_of_quiet rfl (fun _ hp h => expirePnft_quiet hp d h) hc
  · exact runsClean_of_quiet rfl (fun _ _ h => openCore_quiet d h) hc
  · exact fillCore_clean ht d hc
  · exact runsClean_of_quiet rfl (fun _ hp h => cancelCore_quiet hp d h) hc
  · exact runsClean_of_quiet rfl (fun _ hp h => expireCore_quiet hp d h) hc
  · exact list_clean hs d hc
  · exact fillListing_clean ht d hc
  · exact cancelListing_clean hs d hg hc
  · exact runsClean_of_quiet rfl (fun _ hp h => expireListing_quiet hp d h) hc
  · exact runsClean_of_quiet rfl (fun _ _ h => listPnft_quiet d h) hc
  · exact fillListingPnft_clean ht d hc
  · exact runsClean_of_quiet rfl (fun _ hp h => cancelListingPnft_quiet hp d h) hc
  · exact runsClean_of_quiet rfl (fun _ hp h => expireListingPnft_quiet hp d h) hc
  · exact runsClean_of_quiet rfl (fun _ _ h => listCore_quiet d h) hc
  · exact fillListingCore_clean ht d hc
  · exact runsClean_of_quiet rfl (fun _ hp h => cancelListingCore_quiet hp d h) hc
  · exact runsClean_of_quiet rfl (fun _ hp h => expireListingCore_quiet hp d h) hc
  · exact settleSignedOrder_clean hs ht d hc
  · exact settleSignedOrderPnft_clean hs ht d hc
  · exact settleSignedOrderCore_clean hs ht d hc
  · exact settleSignedBidSpl_clean hs ht d hc
  · exact settleSignedBidPnft_clean hs ht d hc
  · exact settleSignedBidCore_clean hs ht d hc
  · exact hc

end Xete.Swap
