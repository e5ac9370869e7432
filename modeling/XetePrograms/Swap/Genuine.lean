import XetePrograms.Swap.Supplied
import XetePrograms.Swap.Market
import XetePrograms.Swap.Reach

/-!
# The handlers that trust the token program they are given

A token program accepts no instruction about a mint that it does not own. So a
successful call of a handler that never checks its token program is clean just
when the program that was passed is one of the two known ones and owns the mints.
-/

set_option autoImplicit false

namespace Xete.Swap
open Xete.Octets Xete.Weakest Xete.Chain Xete.Token Xete.Runtime Xete.Rules

variable {E : Env} {m m' : Machine} {s s' : Ledger} {d : Bytes}

/-! ## Acts that make no mint -/

def MintsBefore (s s' : Ledger) : Prop := ∀ p x, IsTokenProgram p → IsMint p s' x → IsMint p s x

theorem MintsBefore.refl (s : Ledger) : MintsBefore s s := fun _ _ _ h => h

theorem MintsBefore.trans {s'' : Ledger} (h : MintsBefore s s') (h' : MintsBefore s' s'') :
    MintsBefore s s'' := fun p x hp hm => h p x hp (h' p x hp hm)

/-- Only accounts that are no mints afterwards have changed. -/
theorem MintsBefore.of_changed (h : ∀ x, (∀ p, IsTokenProgram p → ¬IsMint p s' x) ∨
    (s' x).owner = (s x).owner ∧ (s' x).data = (s x).data) : MintsBefore s s' := by
  intro p x hp hm
  rcases h x with hn | ⟨ho,hd⟩
  · exact (hn p hp hm).elim
  · exact (isMint_congr _ _ _ _ ho hd).mp hm

theorem token_no_mint {a : Pubkey} {t : TokenAccount} (h : tokenAt s a = some t) (p : Pubkey) :
    ¬IsMint p s a := by
  intro hm
  rw [isMint_not_token _ _ _ hm] at h
  cases h

theorem mintsBefore_lamports (h : SameState s s') :
    MintsBefore s s' := .of_changed fun x => .inr (h x)

theorem mintsBefore_create (hs : SystemRules E.host) {payer acct owner : Pubkey} {n space : ℕ}
    (h : E.host.process (.createAccount payer acct n space owner) s = some s') :
    MintsBefore s s' := by
  obtain ⟨-,-,hnew,hrest⟩ := hs.create _ _ _ _ _ _ _ h
  apply MintsBefore.of_changed
  intro x
  by_cases hx : x = acct
  · left
    rintro p - ⟨-,-,hb⟩
    rw [hx, hnew] at hb
    exact hb (byteAt_zeros _ _)
  · exact .inr ⟨(hrest x hx).1,(hrest x hx).2.1⟩

theorem mintsBefore_init (ht : TokenRules E.host) {p acct mint owner : Pubkey}
    (hp : IsTokenProgram p)
    (h : E.host.process (.initializeAccount3 p acct mint owner) s = some s') :
    IsMint p s mint ∧ MintsBefore s s' := by
  obtain ⟨-,-,hm,-,⟨t,hat,-⟩,ho,hd⟩ := ht.init _ _ _ _ _ _ hp h
  refine ⟨hm,.of_changed fun x => ?_⟩
  by_cases hx : x = acct
  · subst hx
    exact .inl fun q _ => token_no_mint hat q
  · exact .inr ⟨(ho x).1,hd x hx⟩

theorem mintsBefore_transfer (ht : TokenRules E.host) {p source mint dest auth : Pubkey} {n : ℕ}
    {dec : UInt8} (hp : IsTokenProgram p)
    (h : E.host.process (.transferChecked p source mint dest auth n dec) s = some s') :
    IsMint p s mint ∧ MintsBefore s s' ∧
      (∀ a t, tokenAt s a = some t → ∃ t', tokenAt s' a = some t') ∧
      ∃ t, tokenAt s' source = some t := by
  have htr := transferred ht hp h
  obtain ⟨ts,td,hts,htd,him,-,-,-,-,-,hself,hmove,how,hrest,-⟩ := ht.transfer _ _ _ _ _ _ _ _ _ hp h
  have htokens : ∀ a t, tokenAt s a = some t → ∃ t', tokenAt s' a = some t' := fun a t hat => by
    obtain ⟨t',hat',-⟩ := htr.tokens a t hat
    exact ⟨t',hat'⟩
  refine ⟨him,.of_changed fun x => ?_,htokens,htokens _ _ hts⟩
  by_cases hx : x = source ∨ x = dest
  · left
    intro q _
    rcases hx with rfl | rfl
    · obtain ⟨t',hat'⟩ := htokens _ _ hts
      exact token_no_mint hat' q
    · obtain ⟨t',hat'⟩ := htokens _ _ htd
      exact token_no_mint hat' q
  · rw [not_or] at hx
    right
    rw [hrest x hx.1 hx.2]
    exact ⟨rfl,rfl⟩

theorem mintsBefore_close (ht : TokenRules E.host) {p acct dest auth : Pubkey} {t : TokenAccount}
    (hp : IsTokenProgram p) (hat : tokenAt s acct = some t)
    (h : E.host.process (.closeAccount p acct dest auth) s = some s') : MintsBefore s s' := by
  obtain ⟨-,-,-,hacct,hdo,hdd,-,hrest⟩ := ht.close _ _ _ _ _ _ _ hp hat h
  apply MintsBefore.of_changed
  intro x
  by_cases hx : x = acct
  · left
    rintro q - ⟨-,hsize,-⟩
    rw [hx, hacct] at hsize
    simp [HasMintSize] at hsize
  · by_cases hd : x = dest
    · rw [hd]
      exact .inr ⟨hdo,hdd⟩
    · rw [hrest x hx hd]
      exact .inr ⟨rfl,rfl⟩

theorem mintsBefore_write (hw : Wellformed E) {k : Pubkey} {b : Bytes}
    (h : (Act.write k b).effect E s = some s') : MintsBefore s s' := by
  simp only [Act.effect] at h
  split at h
  · rename_i hc
    cases h
    apply MintsBefore.of_changed
    intro x
    by_cases hx : x = k
    · left
      rintro p hp ⟨ho,-⟩
      rw [hx, setData_owner, hc.1] at ho
      exact hw.notToken (ho ▸ hp)
    · rw [setData_other _ _ _ _ hx]
      exact .inr ⟨rfl,rfl⟩
  · cases h

/-! ## The helpers -/

variable {Q : Unit → Machine → Prop} {tokenProg source mint dest authority : AccountInfo}

/-- A run that is left as it is. -/
theorem wp_settled {α : Type} {P : Prop} (x : Exec α) (h : P) :
    wp x (fun _ _ => P) (fun _ => True) m := wp_of_forall (fun _ _ => h) (fun _ => trivial)

theorem owns_createPda (hs : SystemRules E.host) (payer acct : AccountInfo) (space : ℕ)
    (owner : Pubkey) (seeds : List Bytes) (hk : ∀ m', MintsBefore m.ledger m'.ledger → Q () m') :
    wp (createPda E payer acct space owner seeds) Q (fun _ => True) m := by
  rw [createPda, wp_perform]
  exact ⟨fun s he => hk _ (mintsBefore_create hs (effect_invoke _ _ _ _ he)),fun _ => trivial⟩

theorem owns_tokenInit (ht : TokenRules E.host) (owner : Pubkey) (hp : IsTokenProgram tokenProg.key)
    (hk : ∀ m', IsMint tokenProg.key m.ledger mint.key → MintsBefore m.ledger m'.ledger → Q () m') :
    wp (tokenInit E tokenProg source mint owner) Q (fun _ => True) m := by
  rw [tokenInit, wp_perform]
  refine ⟨fun s he => ?_,fun _ => trivial⟩
  obtain ⟨hm,hb⟩ := mintsBefore_init ht hp (effect_invoke _ _ _ _ he)
  exact hk _ hm hb

theorem owns_tokenTransfer (ht : TokenRules E.host) (n : ℕ) (dec : UInt8)
    (seeds : Option (List Bytes)) (hp : IsTokenProgram tokenProg.key)
    (hk : ∀ m', IsMint tokenProg.key m.ledger mint.key → MintsBefore m.ledger m'.ledger →
      (∃ t, tokenAt m'.ledger source.key = some t) → Q () m') :
    wp (tokenTransfer E tokenProg source mint dest authority n dec seeds) Q (fun _ => True) m := by
  rw [tokenTransfer, wp_perform]
  refine ⟨fun s he => ?_,fun _ => trivial⟩
  obtain ⟨hm,hb,-,hheld⟩ := mintsBefore_transfer ht hp (effect_invoke _ _ _ _ he)
  exact hk _ hm hb hheld

theorem owns_tokenClose (ht : TokenRules E.host) (seeds : List Bytes)
    (hp : IsTokenProgram tokenProg.key) (hat : ∃ t, tokenAt m.ledger source.key = some t)
    (hk : ∀ m', MintsBefore m.ledger m'.ledger → Q () m') :
    wp (tokenClose E tokenProg source dest authority seeds) Q (fun _ => True) m := by
  rw [tokenClose, wp_perform]
  refine ⟨fun s he => ?_,fun _ => trivial⟩
  obtain ⟨t,hat⟩ := hat
  exact hk _ (mintsBefore_close ht hp hat (effect_invoke _ _ _ _ he))

theorem owns_write (hw : Wellformed E) (k : Pubkey) (b : Bytes)
    (hk : ∀ m', MintsBefore m.ledger m'.ledger → Q () m') :
    wp (perform E (.write k b)) Q (fun _ => True) m := by
  rw [wp_perform]
  exact ⟨fun s he => hk _ (mintsBefore_write hw he),fun _ => trivial⟩

theorem owns_payDelistFee (hs : SystemRules E.host) (config maker feeWallet : AccountInfo)
    (hk : ∀ m', SameState m.ledger m'.ledger → Q () m') :
    wp (payDelistFee E config maker feeWallet) Q (fun _ => True) m := by
  simp only [payDelistFee, transferLamports, wp_bind, wp_readConfig, wp_ite, wp_failIf,
    implies_true, and_true, wp_pure, wp_perform]
  refine fun _ => ⟨fun _ _ s he => hk _ fun a => ?_,fun _ => hk m fun _ => ⟨rfl,rfl⟩⟩
  have h := hs.transfer _ _ _ _ _ (effect_invoke _ _ _ _ he) a
  exact ⟨h.1,h.2.1⟩

theorem owns_payFee (ht : TokenRules E.host) (cfg : FeePolicy) (feeAta : AccountInfo) (fee : ℕ)
    (dec shardSeed : UInt8) (seeds : Option (List Bytes)) (hp : IsTokenProgram tokenProg.key)
    (hk : ∀ m', MintsBefore m.ledger m'.ledger → Q () m') :
    wp (payFee E cfg tokenProg source mint feeAta authority fee dec shardSeed seeds) Q
      (fun _ => True)
      m := by
  rw [payFee, wp_ite]
  constructor
  · intro _
    rw [wp_bind, wp_verifyFeeDest]
    refine ⟨fun _ => ?_,fun _ => trivial⟩
    exact owns_tokenTransfer ht _ _ _ hp fun m' _ hb _ => hk m' hb
  · exact fun _ => hk m (.refl _)

/-! ## The handlers with one leg -/

/-- The one leg of a handler whose mint is at the position `j`. -/
theorem owned_single {tag : UInt8} {i j : ℕ} {tp mint : AccountInfo} (hslots : tokenSlots tag = [i])
    (hlegs : legSlots tag E.accounts d m.ledger = [j]) (hi : E.accounts[i]? = some tp)
    (hj : E.accounts[j]? = some mint) (ho : (m.ledger mint.key).owner = tp.key) :
    LegsOwned tag E.accounts d m.ledger := by
  intro i' hi' tp' htp' j' hj' a ha
  rw [hslots, List.mem_singleton] at hi'
  rw [hlegs, List.mem_singleton] at hj'
  subst hi' hj'
  rw [hi] at htp'
  rw [hj] at ha
  cases htp'
  cases ha
  exact ho

theorem cancelSwap_owned (hs : SystemRules E.host) (ht : TokenRules E.host)
    (hsup : Supplied 2 E.accounts) :
    wp (cancelSwap E d) (fun _ _ => LegsOwned 2 E.accounts d m.ledger) (fun _ => True) m := by
  simp [cancelSwap]
  intros
  split
  · rename_i maker swap vault giveMint makerGive tokenProg config feeWallet system ha
    have hp : IsTokenProgram tokenProg.key := by simpa [Supplied, tokenSlots, ha] using hsup
    simp
    intros
    apply owns_payDelistFee hs _ _ _
    intro m₁ s₁
    simp [refundAndClose]
    intros
    apply owns_tokenTransfer ht _ _ _ hp
    intro m₂ hm _ _
    have ho := (mintsBefore_lamports s₁ _ _ hp hm).1
    exact wp_settled _ (owned_single rfl rfl (by rw [ha]; rfl) (by rw [ha]; rfl) ho)
  · trivial

theorem expire_owned (ht : TokenRules E.host) (hsup : Supplied 3 E.accounts) :
    wp (expire E d) (fun _ _ => LegsOwned 3 E.accounts d m.ledger) (fun _ => True) m := by
  simp [expire]
  intros
  split
  · rename_i caller swap vault maker giveMint makerGive tokenProg ha
    have hp : IsTokenProgram tokenProg.key := by simpa [Supplied, tokenSlots, ha] using hsup
    simp [refundAndClose]
    intros
    apply owns_tokenTransfer ht _ _ _ hp
    intro m₂ hm _ _
    exact wp_settled _ (owned_single rfl rfl (by rw [ha]; rfl) (by rw [ha]; rfl) hm.1)
  · trivial

theorem makeOffer_owned (hs : SystemRules E.host) (ht : TokenRules E.host)
    (hsup : Supplied 4 E.accounts) :
    wp (makeOffer E d) (fun _ _ => LegsOwned 4 E.accounts d m.ledger) (fun _ => True) m := by
  simp [makeOffer]
  intros
  split
  · rename_i offerer offer ovault wantMint swap offererWant tokenProg system config aliasAcct ha
    have hp : IsTokenProgram tokenProg.key := by simpa [Supplied, tokenSlots, ha] using hsup
    simp
    intros
    apply owns_createPda hs _ _ _ _ _
    intro m₁ b₁
    rw [wp_bind]
    apply owns_createPda hs _ _ _ _ _
    intro m₂ b₂
    rw [wp_bind]
    apply owns_tokenInit ht _ hp
    intro m₃ hm _
    have ho := (b₁ _ _ hp (b₂ _ _ hp hm)).1
    exact wp_settled _ (owned_single rfl rfl (by rw [ha]; rfl) (by rw [ha]; rfl) ho)
  · trivial

theorem refundOffer_owned {P : Prop}
    {offerer offer ovault wantMint offererWant tokenProg : AccountInfo} (ht : TokenRules E.host)
    (ononce : Bytes) (obump : UInt8) (n : ℕ) (hp : IsTokenProgram tokenProg.key)
    (hk : IsMint tokenProg.key m.ledger wantMint.key → P) :
    wp (refundOffer E offerer offer ovault wantMint offererWant tokenProg ononce obump n)
      (fun _ _ => P) (fun _ => True) m := by
  simp only [refundOffer, wp_bind, wp_findAddress, wp_failIf, wp_requireTokenAccount,
    wp_mintDecimals, implies_true, and_true]
  intros
  apply owns_tokenTransfer ht _ _ _ hp
  intro m₂ hm _ _
  exact wp_settled _ (hk hm)

theorem withdrawOffer_owned (ht : TokenRules E.host) (hsup : Supplied 6 E.accounts) :
    wp (withdrawOffer E d) (fun _ _ => LegsOwned 6 E.accounts d m.ledger) (fun _ => True) m := by
  simp [withdrawOffer]
  intros
  split
  · rename_i offerer offer ovault wantMint offererWant tokenProg ha
    have hp : IsTokenProgram tokenProg.key := by simpa [Supplied, tokenSlots, ha] using hsup
    simp
    intros
    exact refundOffer_owned ht _ _ _ hp fun hm =>
      owned_single rfl rfl (by rw [ha]; rfl) (by rw [ha]; rfl) hm.1
  · trivial

theorem expireOffer_owned (ht : TokenRules E.host) (hsup : Supplied 7 E.accounts) :
    wp (expireOffer E d) (fun _ _ => LegsOwned 7 E.accounts d m.ledger) (fun _ => True) m := by
  simp [expireOffer]
  intros
  split
  · rename_i caller offer ovault offerer wantMint offererWant tokenProg ha
    have hp : IsTokenProgram tokenProg.key := by simpa [Supplied, tokenSlots, ha] using hsup
    simp
    intros
    exact refundOffer_owned ht _ _ _ hp fun hm =>
      owned_single rfl rfl (by rw [ha]; rfl) (by rw [ha]; rfl) hm.1
  · trivial

theorem initFeeVault_owned (hs : SystemRules E.host) (ht : TokenRules E.host)
    (hsup : Supplied 10 E.accounts) :
    wp (initFeeVault E d) (fun _ _ => LegsOwned 10 E.accounts d m.ledger) (fun _ => True) m := by
  simp [initFeeVault]
  intros
  split
  · rename_i payer feeVault wantMint tokenProgram system ha
    have hp : IsTokenProgram tokenProgram.key := by simpa [Supplied, tokenSlots, ha] using hsup
    simp
    intros
    apply owns_createPda hs _ _ _ _ _
    intro m₁ b₁
    apply owns_tokenInit ht _ hp
    intro m₂ hm _
    exact owned_single rfl rfl (by rw [ha]; rfl) (by rw [ha]; rfl) (b₁ _ _ hp hm).1
  · trivial

theorem sweepFees_owned (ht : TokenRules E.host) (hsup : Supplied 11 E.accounts) :
    wp (sweepFees E d) (fun _ _ => LegsOwned 11 E.accounts d m.ledger) (fun _ => True) m := by
  simp [sweepFees]
  intros
  split
  · rename_i caller feeVault wantMint config feeWalletAta tokenProg ha
    have hp : IsTokenProgram tokenProg.key := by simpa [Supplied, tokenSlots, ha] using hsup
    simp [wp_ite]
    intros
    refine ⟨fun hz => ?_,fun hn _ _ => ?_⟩
    · simp [LegsOwned, legSlots, ha, dataAt, hz]
    · have hlegs : legSlots 11 E.accounts d m.ledger = [2] := by simp [legSlots, ha, dataAt, hn]
      apply owns_tokenTransfer ht _ _ _ hp
      intro m₁ hm _ _
      exact owned_single rfl hlegs (by rw [ha]; rfl) (by rw [ha]; rfl) hm.1
  · trivial

/-- A revocation names no mint, so the event itself has to be authentic. -/
theorem cancelListing_owned {P : Prop} (hs : SystemRules E.host) :
    wp (cancelListing E d) (fun _ m' => Clean P m' → LegsOwned 28 E.accounts d m.ledger)
      (fun _ => True) m := by
  simp [cancelListing]
  intros
  split
  · rename_i maker listing giveMint makerGive tokenProg config feeWallet system ha
    simp
    intro _ _ _ _ _ _ hb _ _ _ _
    apply owns_payDelistFee hs _ _ _
    intro m₁ s₁
    simp [tokenRevoke]
    intro s₂ _ s₃ _ _ hauth _
    have ho := (hauth _ rfl).2
    rw [(s₁ _).2, hb.2.1, (s₁ _).1] at ho
    exact owned_single rfl rfl (by rw [ha]; rfl) (by rw [ha]; rfl) ho
  · trivial

/-! ## The handlers with several legs -/

def OwnsAt (E : Env) (p : Pubkey) (s : Ledger) (i : ℕ) : Prop :=
  ∀ a, E.accounts[i]? = some a → IsMint p s a.key

theorem MintsBefore.owned {p : Pubkey} {i : ℕ} (h : MintsBefore s s') (hp : IsTokenProgram p)
    (ho : OwnsAt E p s' i) : OwnsAt E p s i := fun a ha => h p _ hp (ho a ha)

theorem owned_legs {tag : UInt8} {i : ℕ} {tp : AccountInfo} (hslots : tokenSlots tag = [i])
    (hi : E.accounts[i]? = some tp)
    (ho : ∀ j ∈ legSlots tag E.accounts d m.ledger, OwnsAt E tp.key m.ledger j) :
    LegsOwned tag E.accounts d m.ledger := by
  intro i' hi' tp' htp' j hj a ha
  rw [hslots, List.mem_singleton] at hi'
  subst hi'
  rw [hi] at htp'
  cases htp'
  exact (ho j hj a ha).1

theorem acceptOffer_owned (ht : TokenRules E.host) (hsup : Supplied 5 E.accounts) :
    wp (acceptOffer E d) (fun _ _ => LegsOwned 5 E.accounts d m.ledger) (fun _ => True) m := by
  simp [acceptOffer]
  intro hl
  split
  · rename_i maker swap swapVault offer offerVault offerer giveMint wantMint offererGive makerWant
      tokenProg config feeAta ha
    have hp : IsTokenProgram tokenProg.key := by simpa [Supplied, tokenSlots, ha] using hsup
    simp
    intros
    apply owns_payFee ht _ _ _ _ _ _ hp
    intro m₁ b₁
    simp
    intros
    apply owns_tokenTransfer ht _ _ _ hp
    intro m₂ hw b₂ _
    rw [wp_bind]
    apply owns_tokenTransfer ht _ _ _ hp
    intro m₃ hg _ _
    refine wp_settled _ (owned_legs rfl (by rw [ha]; rfl) ?_)
    have hwant := b₁ _ _ hp hw
    have hgive := b₁ _ _ hp (b₂ _ _ hp hg)
    simp [legSlots, OwnsAt, ha, hgive, hwant]
  · trivial

theorem owns_payWantEntry (ht : TokenRules E.host) (taker swap : AccountInfo) (cfg : FeePolicy)
    (stateMaker : Pubkey) (shardSeed : UInt8) (wantBase j : ℕ) (hp : IsTokenProgram tokenProg.key)
    (hk : ∀ m', OwnsAt E tokenProg.key m.ledger (wantBase+j*4) → MintsBefore m.ledger m'.ledger →
      Q () m') :
    wp (payWantEntry E taker swap tokenProg cfg stateMaker shardSeed wantBase j) Q
      (fun _ => True) m := by
  simp [payWantEntry, entryAt]
  intro wantMint ha
  intros
  apply owns_payFee ht _ _ _ _ _ _ hp
  intro m₁ b₁
  simp only [wp_bind, wp_checkedSub]
  refine ⟨fun _ => ?_,fun _ => trivial⟩
  refine owns_tokenTransfer ht _ _ _ hp fun m₂ hm b₂ _ => hk m₂ ?_ (b₁.trans b₂)
  intro a ha'
  rw [ha] at ha'
  cases ha'
  exact b₁ _ _ hp hm

theorem owns_releaseLeg (ht : TokenRules E.host) (swap maker : AccountInfo) (makerKey : Pubkey)
    (nonce : Bytes) (seeds : List Bytes) (giveBase : ℕ) (recipient : Option Pubkey) (i : ℕ)
    (hp : IsTokenProgram tokenProg.key)
    (hk : ∀ m', OwnsAt E tokenProg.key m.ledger (giveBase+i*3) → MintsBefore m.ledger m'.ledger →
      Q () m') :
    wp (releaseLeg E swap maker tokenProg makerKey nonce seeds giveBase recipient i) Q
      (fun _ => True)
      m := by
  have hend : ∀ giveMint vault dest : AccountInfo, ∀ n b,
      E.accounts[giveBase+i*3]? = some giveMint →
      wp (do
        tokenTransfer E tokenProg vault giveMint dest swap n b (some seeds)
        tokenClose E tokenProg vault maker swap seeds) Q (fun _ => True) m := by
    intro giveMint vault dest n b ha
    rw [wp_bind]
    apply owns_tokenTransfer ht _ _ _ hp
    intro m₁ hm b₁ hat
    refine owns_tokenClose ht _ hp hat fun m₂ b₂ => hk m₂ ?_ (b₁.trans b₂)
    intro a ha'
    rw [ha] at ha'
    cases ha'
    exact hm
  cases recipient <;> simp [releaseLeg, entryAt] <;> intros <;>
    simpa using hend _ _ _ _ _ ‹_›

/-- A loop over legs each of which is accepted: the token program owned their mints
at its start. The legs that are left are the first part of the invariant. -/
theorem owns_legs (f : ℕ → Exec Unit) (n : ℕ) (slot : ℕ → ℕ) (hp : IsTokenProgram tokenProg.key)
    (hf : ∀ i m', wp (f i) (fun _ m'' => OwnsAt E tokenProg.key m'.ledger (slot i) ∧
      MintsBefore m'.ledger m''.ledger) (fun _ => True) m')
    (hk : ∀ m', (∀ i < n, OwnsAt E tokenProg.key m.ledger (slot i)) →
      MintsBefore m.ledger m'.ledger → Q () m') :
    wp (forEach (List.range n) f) Q (fun _ => True) m := by
  refine wp_mono (wp_forEach (F := fun _ => True) (fun is m' => MintsBefore m.ledger m'.ledger ∧
    ∀ i < n, i ∈ is ∨ OwnsAt E tokenProg.key m.ledger (slot i)) f ?_ _ _ ⟨.refl _,?_⟩) ?_
      (fun _ h => h)
  · rintro i is m' ⟨hb,hi⟩
    refine wp_mono (hf i m') (fun _ m'' h => ⟨hb.trans h.2,fun j hj => ?_⟩) (fun _ h => h)
    rcases hi j hj with hmem | ho
    · rcases List.mem_cons.mp hmem with rfl | hmem
      · exact .inr (hb.owned hp h.1)
      · exact .inl hmem
    · exact .inr ho
  · exact fun i hi => .inl (List.mem_range.mpr hi)
  · rintro _ m' ⟨hb,hi⟩
    exact hk m' (fun i h => (hi i h).resolve_left (by simp)) hb

theorem fillBasket_owned (ht : TokenRules E.host) (hsup : Supplied 13 E.accounts) :
    wp (fillBasket E d) (fun _ _ => LegsOwned 13 E.accounts d m.ledger) (fun _ => True) m := by
  simp [fillBasket]
  intro _ _ taker _ swap hswap maker _ tokenProg htp config _
  have hp : IsTokenProgram tokenProg.key := hsup 3 (by simp [tokenSlots]) _ htp
  intros
  refine owns_legs (E := E) _ _
    (fun j => 5+(byteAt (m.ledger swap.key).data bGiveCount).toNat*3+j*4) hp ?_
    fun m₁ hwant b₁ => ?_
  · exact fun j m' => owns_payWantEntry ht _ _ _ _ _ _ _ hp fun m'' ho hb => ⟨ho,hb⟩
  rw [wp_bind]
  refine owns_legs (E := E) _ _ (fun i => 5+i*3) hp ?_ fun m₂ hgive _ => ?_
  · exact fun i m' => owns_releaseLeg ht _ _ _ _ _ _ _ _ hp fun m'' ho hb => ⟨ho,hb⟩
  refine wp_settled _ (owned_legs rfl htp fun j hj => ?_)
  simp only [legSlots, dataAt, hswap, List.mem_append, List.mem_map, List.mem_range] at hj
  rcases hj with ⟨i,hi,rfl⟩ | ⟨i,hi,rfl⟩
  · exact b₁.owned hp (hgive i hi)
  · exact hwant i hi

theorem claimBearer_owned (ht : TokenRules E.host) (hsup : Supplied 14 E.accounts) :
    wp (claimBearer E d) (fun _ _ => LegsOwned 14 E.accounts d m.ledger) (fun _ => True) m := by
  simp [claimBearer]
  intro _ _ payer _ bearer _ swap hswap maker _ tokenProg htp
  have hp : IsTokenProgram tokenProg.key := hsup 4 (by simp [tokenSlots]) _ htp
  intros
  refine owns_legs (E := E) _ _ (fun i => 5+i*3) hp ?_ fun m₁ hgive _ => ?_
  · exact fun i m' => owns_releaseLeg ht _ _ _ _ _ _ _ _ hp fun m'' ho hb => ⟨ho,hb⟩
  refine wp_settled _ (owned_legs rfl htp fun j hj => ?_)
  simp only [legSlots, dataAt, hswap, List.mem_map, List.mem_range] at hj
  obtain ⟨i,hi,rfl⟩ := hj
  exact hgive i hi

theorem cancelBasket_owned (hs : SystemRules E.host) (ht : TokenRules E.host)
    (hsup : Supplied 16 E.accounts) :
    wp (cancelBasket E d) (fun _ _ => LegsOwned 16 E.accounts d m.ledger) (fun _ => True) m := by
  simp [cancelBasket]
  intro _ _ maker _ swap hswap tokenProg htp
  have hp : IsTokenProgram tokenProg.key := hsup 2 (by simp [tokenSlots]) _ htp
  intros
  apply owns_payDelistFee hs _ _ _
  intro m₁ s₁
  rw [wp_bind]
  refine owns_legs (E := E) _ _ (fun i => 6+i*3) hp ?_ fun m₂ hgive _ => ?_
  · exact fun i m' => owns_releaseLeg ht _ _ _ _ _ _ _ _ hp fun m'' ho hb => ⟨ho,hb⟩
  refine wp_settled _ (owned_legs rfl htp fun j hj => ?_)
  simp only [legSlots, dataAt, hswap, List.mem_map, List.mem_range] at hj
  obtain ⟨i,hi,rfl⟩ := hj
  exact (mintsBefore_lamports s₁).owned hp (hgive i hi)

theorem expireBasket_owned (ht : TokenRules E.host) (hsup : Supplied 17 E.accounts) :
    wp (expireBasket E d) (fun _ _ => LegsOwned 17 E.accounts d m.ledger) (fun _ => True) m := by
  simp [expireBasket]
  intro _ _ swap hswap maker _ tokenProg htp
  have hp : IsTokenProgram tokenProg.key := hsup 3 (by simp [tokenSlots]) _ htp
  intros
  refine owns_legs (E := E) _ _ (fun i => 4+i*3) hp ?_ fun m₁ hgive _ => ?_
  · exact fun i m' => owns_releaseLeg ht _ _ _ _ _ _ _ _ hp fun m'' ho hb => ⟨ho,hb⟩
  refine wp_settled _ (owned_legs rfl htp fun j hj => ?_)
  simp only [legSlots, dataAt, hswap, List.mem_map, List.mem_range] at hj
  obtain ⟨i,hi,rfl⟩ := hj
  exact hgive i hi

theorem owns_escrowLeg (hs : SystemRules E.host) (ht : TokenRules E.host) (hw : Wellformed E)
    (maker swap : AccountInfo) (d nonce : Bytes) (giveAmtsOff wantCount i : ℕ)
    (hp : IsTokenProgram tokenProg.key)
    (hk : ∀ m', OwnsAt E tokenProg.key m.ledger (6+i*3) → MintsBefore m.ledger m'.ledger →
      Q () m') :
    wp (escrowLeg E maker swap tokenProg d nonce giveAmtsOff wantCount i) Q (fun _ => True) m := by
  simp [escrowLeg]
  intro giveMint ha
  intros
  apply owns_createPda hs _ _ _ _ _
  intro m₁ b₁
  rw [wp_bind]
  apply owns_tokenInit ht _ hp
  intro m₂ hm b₂
  simp
  intros
  apply owns_tokenTransfer ht _ _ _ hp
  intro m₃ _ b₃ _
  simp only [wp_bind, wp_dataOf]
  refine owns_write hw _ _ fun m₄ b₄ => hk m₄ ?_ (b₁.trans (b₂.trans (b₃.trans b₄)))
  intro a ha'
  rw [ha] at ha'
  cases ha'
  exact b₁ _ _ hp hm

theorem openBasket_owned (hs : SystemRules E.host) (ht : TokenRules E.host) (hw : Wellformed E)
    (hsup : Supplied 12 E.accounts) :
    wp (openBasket E d) (fun _ _ => LegsOwned 12 E.accounts d m.ledger) (fun _ => True) m := by
  simp [openBasket]
  intro _ _ _ _ _ _ _ _ _ maker _ swap _ tokenProg htp config _ aliasAcct _ _ _ _ _ _ _
  have hp : IsTokenProgram tokenProg.key := hsup 3 (by simp [tokenSlots]) _ htp
  apply owns_createPda hs _ _ _ _ _
  intro m₁ b₁
  simp only [wp_bind, wp_dataOf]
  apply owns_write hw _ _
  intro m₂ b₂
  rw [wp_bind]
  refine wp_mono (wp_forEach (F := fun _ => True) (fun _ m' => MintsBefore m₂.ledger m'.ledger)
    _ ?_ _ _ (.refl _)) ?_ (fun _ h => h)
  · intro j js m' b'
    simp only [recordWant, wp_bind, wp_failIf, wp_dataOf, implies_true, and_true]
    exact fun _ => owns_write hw _ _ fun m'' hb => b'.trans hb
  intro _ m₃ b₃
  refine owns_legs (E := E) _ _ (fun i => 6+i*3) hp ?_ fun m₄ hgive _ => ?_
  · exact fun i m' => owns_escrowLeg hs ht hw _ _ _ _ _ _ _ hp fun m'' ho hb => ⟨ho,hb⟩
  apply owned_legs rfl htp
  intro j hj
  simp only [legSlots, List.mem_map, List.mem_range] at hj
  obtain ⟨i,hi,rfl⟩ := hj
  exact (b₁.trans (b₂.trans b₃)).owned hp (hgive i hi)

/-! ## Every instruction -/

/-- A successful call that was handed known token programs and ran clean was handed
the owners of the mints. -/
theorem handler_owned {P : Prop} {tag : UInt8} (hs : SystemRules E.host) (ht : TokenRules E.host)
    (hw : Wellformed E) (hu : Unchecked tag) (hsup : Supplied tag E.accounts) :
    wp (handler E tag d) (fun _ m' => Clean P m' → LegsOwned tag E.accounts d m.ledger)
      (fun _ => True) m := by
  have always : ∀ {x : Exec Unit} {R : Prop}, wp x (fun _ _ => R) (fun _ => True) m →
      wp x (fun _ m' => Clean P m' → R) (fun _ => True) m :=
    fun h => wp_mono h (fun _ _ hr _ => hr) (fun _ h => h)
  simp only [Unchecked, List.mem_cons, List.not_mem_nil, or_false] at hu
  rcases hu with rfl | rfl | rfl | rfl | rfl | rfl | rfl | rfl | rfl | rfl | rfl | rfl | rfl | rfl
  · exact always (cancelSwap_owned hs ht hsup)
  · exact always (expire_owned ht hsup)
  · exact always (makeOffer_owned hs ht hsup)
  · exact always (acceptOffer_owned ht hsup)
  · exact always (withdrawOffer_owned ht hsup)
  · exact always (expireOffer_owned ht hsup)
  · exact always (initFeeVault_owned hs ht hsup)
  · exact always (sweepFees_owned ht hsup)
  · exact always (openBasket_owned hs ht hw hsup)
  · exact always (fillBasket_owned ht hsup)
  · exact always (claimBearer_owned ht hsup)
  · exact always (cancelBasket_owned hs ht hsup)
  · exact always (expireBasket_owned ht hsup)
  · exact cancelListing_owned hs

theorem RunsClean.of_ok {tag : UInt8} {x : Exec Unit} (h : RunsClean E tag x m)
    (hx : x m = .ok () m') :
    Clean (Supplied tag E.accounts) m' ∧ Supplied tag E.accounts := by
  rw [RunsClean, wp, hx] at h
  exact h

/-- Every call that is handed known token programs, which own the mints where the
handler does not check it, runs clean, whatever other programs do and however far
the run goes. Of the calls that succeed no others do. -/
theorem token_programs_genuine {H : Host} {c : Call} {tag : UInt8} (hs : SystemRules H)
    (ht : TokenRules H) (hf : H.CollisionFree) (ho : c.On H) (hdata : c.data = tag :: d) :
    (Genuine tag c.env.accounts d s → RunsClean c.env tag (handler c.env tag d) ⟨s,[]⟩) ∧
      ∀ m, c.result s = some m →
        (RunsClean c.env tag (handler c.env tag d) ⟨s,[]⟩ ↔ Genuine tag c.env.accounts d s) := by
  obtain ⟨rfl,hw⟩ := ho
  have hclean : Genuine tag c.env.accounts d s → RunsClean c.env tag (handler c.env tag d) ⟨s,[]⟩ :=
    fun hg => handler_clean hf hs ht tag d hg (by simp [Clean])
  refine ⟨hclean,fun m hres => ⟨fun hrun hu => ?_,hclean⟩⟩
  obtain ⟨tag',d',hdata',hh⟩ := Call.handled hres
  rw [hdata] at hdata'
  cases hdata'
  obtain ⟨hc,hsup⟩ := hrun.of_ok hh
  exact ⟨hsup,wp_ok (handler_owned hs ht hw hu hsup) hh hc⟩

section
open Xete.Market Xete.Reference

theorem token_programs_genuine_cancelled : ∃ s m, runCalls [openSwapCall 100 50] start = some s ∧
    cancelSwapCall.result s = some m ∧
    (RunsClean cancelSwapCall.env 2 (handler cancelSwapCall.env 2 nonce) ⟨s,[]⟩ ↔
      Genuine 2 cancelSwapCall.env.accounts nonce s) := by
  have h : ((runCalls [openSwapCall 100 50] start).any fun s => (cancelSwapCall.result s).isSome) =
    true := by
    decide +kernel
  simp only [Option.any_eq_true, Option.isSome_iff_exists] at h
  obtain ⟨s,hs,m,hm⟩ := h
  exact ⟨s,m,hs,hm,(token_programs_genuine market_systemRules market_tokenRules market_collisionFree
    (sees_on _ _ _ _ (by decide)) rfl).2 m hm⟩

def Act.signsFor (p k : Pubkey) : Act → Bool
  | .invoke c (some seeds) =>
      decide (c.program = p ∧ market.createProgramAddress seeds programKey = some k)
  | _ => false

theorem Act.signsFor_iff {p k : Pubkey} {a : Act} (h : Act.signsFor p k a = true) :
    ∃ c seeds, a = .invoke c (some seeds) ∧ c.program = p ∧
      market.createProgramAddress seeds programKey = some k := by
  unfold Act.signsFor at h
  split at h
  · rename_i c seeds
    obtain ⟨hp,hk⟩ := of_decide_eq_true h
    exact ⟨c,seeds,rfl,hp,hk⟩
  · cases h

def expireNoopCall : Call where
  env := sees 1000 taker [swapKey,vaultKey,maker,mintA,makerA,noopId]
  data := 3 :: nonce

/-- The record is closed, the goods stay in the vault, and the program that was
passed had the signature of the record. -/
theorem expire_without_refund : ∃ s m, runCalls [openSwapCall 100 50] start = some s ∧
    expireNoopCall.result s = some m ∧ (m.ledger swapKey).lamports = 0 ∧
    (tokenAt m.ledger vaultKey).map TokenAccount.amount = some 100 ∧
    (∃ e ∈ m.trace, ∃ c seeds, e.act = .invoke c (some seeds) ∧ c.program = noopId ∧
      market.createProgramAddress seeds programKey = some swapKey) ∧
    ¬RunsClean expireNoopCall.env 3 (handler expireNoopCall.env 3 nonce) ⟨s,[]⟩ := by
  have h : ((runCalls [openSwapCall 100 50] start).any fun s => (expireNoopCall.result s).any
    fun m =>
      decide ((m.ledger swapKey).lamports = 0 ∧
        (tokenAt m.ledger vaultKey).map TokenAccount.amount = some 100) &&
      m.trace.any fun e => Act.signsFor noopId swapKey e.act) = true := by
    decide +kernel
  simp only [Option.any_eq_true, Bool.and_eq_true, decide_eq_true_eq, List.any_eq_true] at h
  obtain ⟨s,hs,m,hm,⟨hclosed,hheld⟩,e,he,hact⟩ := h
  refine ⟨s,m,hs,hm,hclosed,hheld,⟨e,he,Act.signsFor_iff hact⟩,fun hrun => ?_⟩
  have hsup := (hrun.of_ok (Call.result_ok hm)).2
  exact absurd (hsup 6 (by decide) ⟨noopId,false,true⟩ rfl) (by decide)

end

end Xete.Swap
