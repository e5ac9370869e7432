import XetePrograms.Solana.Rules
import XetePrograms.Swap.Process

/-!
# Which program a token instruction reaches

The token helpers call the program that the caller passed. An event is
authentic when that program is one of the two token programs and owns the mint
that the instruction is about.
-/

set_option autoImplicit false

namespace Xete.Swap
open Xete.Octets Xete.Weakest Xete.Chain Xete.Token Xete.Runtime Xete.Rules

/-- The mint that a token instruction is about: the one that it names, or the
one of the token account that it names. -/
def tokenMint (s : Ledger) : Cpi → Option Pubkey
  | .initializeAccount3 _ _ mint _ => some mint
  | .transferChecked _ _ mint .. => some mint
  | .closeAccount _ acct _ _ => some (keyAt (s acct).data 0)
  | .approve _ source .. => some (keyAt (s source).data 0)
  | .revoke _ source _ => some (keyAt (s source).data 0)
  | .createAccount .. => none
  | .transferLamports .. => none
  | .mplTransfer _ => none
  | .mplDelegate _ => none
  | .coreTransfer .. => none
  | .corePlugin .. => none

def AuthenticCpi (s : Ledger) (c : Cpi) : Prop :=
  ∀ mint, tokenMint s c = some mint → IsTokenProgram c.program ∧ (s mint).owner = c.program

def Authentic (e : Event) : Prop :=
  ∀ c seeds, e.act = .invoke c seeds → AuthenticCpi e.before c

def Proper (P : Prop) (e : Event) : Prop :=
  Authentic e ∧ ∀ k dest, e.act = .close k dest → P

def Clean (P : Prop) (m : Machine) : Prop := ∀ e ∈ m.trace, Proper P e

variable {P : Prop} {E : Env} {m : Machine}

@[simp] theorem clean_next (a : Act) (s : Ledger) :
    Clean P (m.next a s) ↔ Clean P m ∧ Proper P ⟨a,m.ledger⟩ := by
  simp [Clean, or_imp, forall_and]

@[simp] theorem proper_invoke (c : Cpi) (seeds : Option (List Bytes)) (s : Ledger) :
    Proper P ⟨.invoke c seeds,s⟩ ↔ AuthenticCpi s c := by
  constructor
  · intro h
    exact h.1 c seeds rfl
  · intro h
    refine ⟨?_,nofun⟩
    intro c' seeds' he
    cases he
    exact h

@[simp] theorem proper_write (k : Pubkey) (d : Bytes) (s : Ledger) : Proper P ⟨.write k d,s⟩ :=
  ⟨nofun,nofun⟩

@[simp] theorem proper_log (d : Bytes) (s : Ledger) : Proper P ⟨.log d,s⟩ :=
  ⟨nofun,nofun⟩

theorem proper_close (k dest : Pubkey) (s : Ledger) : Proper P ⟨.close k dest,s⟩ ↔ P := by
  constructor
  · intro h
    exact h.2 k dest rfl
  · intro h
    exact ⟨nofun,fun _ _ _ => h⟩

theorem proper_close_of (h : P) (k dest : Pubkey) (s : Ledger) : Proper P ⟨.close k dest,s⟩ :=
  (proper_close k dest s).mpr h

/-! ## The helpers -/

variable {Q : Unit → Machine → Prop}

def SameOwners (s s' : Ledger) : Prop := ∀ a, (s' a).owner = (s a).owner

def KeepsUsed (s s' : Ledger) : Prop :=
  ∀ a, ((s a).owner ≠ systemId ∨ (s a).data ≠ []) →
    (s' a).owner = (s a).owner ∧ (s' a).data = (s a).data

theorem authentic_other (s : Ledger) (c : Cpi) (h : tokenMint s c = none) :
    AuthenticCpi s c := by
  intro mint hm
  rw [h] at hm
  cases hm

@[simp] theorem authentic_createAccount (s : Ledger) (payer acct : Pubkey) (n space : ℕ)
    (owner : Pubkey) : AuthenticCpi s (.createAccount payer acct n space owner) :=
  authentic_other _ _ rfl

@[simp] theorem authentic_transferLamports (s : Ledger) (source dest : Pubkey) (n : ℕ) :
    AuthenticCpi s (.transferLamports source dest n) := authentic_other _ _ rfl

@[simp] theorem authentic_mplTransfer (s : Ledger) (a : MplTransfer) :
    AuthenticCpi s (.mplTransfer a) := authentic_other _ _ rfl

@[simp] theorem authentic_mplDelegate (s : Ledger) (a : MplDelegate) :
    AuthenticCpi s (.mplDelegate a) := authentic_other _ _ rfl

@[simp] theorem authentic_coreTransfer (s : Ledger)
    (core asset collection payer authority owner : Pubkey) (signer : Bool) :
    AuthenticCpi s (.coreTransfer core asset collection payer authority owner signer) :=
  authentic_other _ _ rfl

@[simp] theorem authentic_corePlugin (s : Ledger) (core asset collection signer system : Pubkey)
    (d : Bytes) : AuthenticCpi s (.corePlugin core asset collection signer system d) :=
  authentic_other _ _ rfl

theorem effect_invoke (c : Cpi) (seeds : Option (List Bytes)) (s s' : Ledger)
    (h : Act.effect E (.invoke c seeds) s = some s') : E.host.process c s = some s' := by
  simp only [Act.effect] at h
  split at h
  · exact h
  · cases h

/-- An act that is no token instruction and closes nothing. -/
theorem clean_perform (a : Act) (hc : Clean P m) (hp : ∀ s, Proper P ⟨a,s⟩)
    (hk : ∀ s, a.effect E m.ledger = some s → Clean P (m.next a s) → Q () (m.next a s)) :
    wp (perform E a) Q (Clean P) m := by
  rw [wp_perform]
  have hn : ∀ s, Clean P (m.next a s) := fun s => (clean_next a s).mpr ⟨hc,hp _⟩
  exact ⟨fun s hs => hk s hs (hn s),fun _ => hn _⟩

theorem clean_close (account dest : AccountInfo) (hc : Clean P m) (hp : P)
    (hk : ∀ m', Clean P m' → Q () m') : wp (close E account dest) Q (Clean P) m := by
  have h : wp (perform E (.close account.key dest.key)) Q (Clean P) m :=
    clean_perform _ hc (fun s => (proper_close _ _ s).mpr hp) (fun _ _ h => hk _ h)
  rw [wp_perform] at h
  exact (wp_close _ _).mpr ⟨h.1,fun _ => hc,fun _ => h.2⟩

theorem clean_createPda (hs : SystemRules E.host) (payer acct : AccountInfo) (space : ℕ)
    (owner : Pubkey) (seeds : List Bytes) (hc : Clean P m)
    (hk : ∀ m', Clean P m' → KeepsUsed m.ledger m'.ledger → Q () m') :
    wp (createPda E payer acct space owner seeds) Q (Clean P) m := by
  apply clean_perform _ hc
  · simp
  · intro s he hn
    apply hk _ hn
    intro a ha
    obtain ⟨hv,-,-,ho⟩ := hs.create _ _ _ _ _ _ _ (effect_invoke _ _ _ _ he)
    have hne : a ≠ acct.key := by
      rintro rfl
      rcases ha with ha | ha
      · exact ha hv.1
      · exact ha hv.2
    exact ⟨(ho a hne).1,(ho a hne).2.1⟩

def SameState (s s' : Ledger) : Prop :=
  ∀ a, (s' a).owner = (s a).owner ∧ (s' a).data = (s a).data

theorem clean_payDelistFee (hs : SystemRules E.host) (config maker feeWallet : AccountInfo)
    (hc : Clean P m) (hk : ∀ m', Clean P m' → SameState m.ledger m'.ledger → Q () m') :
    wp (payDelistFee E config maker feeWallet) Q (Clean P) m := by
  simp only [payDelistFee, wp_bind, wp_readConfig, wp_ite, wp_failIf, hc, implies_true, and_true,
    wp_pure]
  refine fun _ => ⟨fun _ _ => ?_,fun _ => hk m hc (fun _ => ⟨rfl,rfl⟩)⟩
  apply clean_perform _ hc
  · simp
  · intro s he hn
    apply hk _ hn
    intro a
    have h := hs.transfer _ _ _ _ _ (effect_invoke _ _ _ _ he) a
    exact ⟨h.1,h.2.1⟩

theorem clean_token (c : Cpi) (seeds : Option (List Bytes)) (mint : Pubkey)
    (hm : tokenMint m.ledger c = some mint) (hc : Clean P m) (hp : IsTokenProgram c.program)
    (ho : (m.ledger mint).owner = c.program)
    (hk : ∀ s, E.host.process c m.ledger = some s → Clean P (m.next (.invoke c seeds) s) →
      Q () (m.next (.invoke c seeds) s)) :
    wp (perform E (.invoke c seeds)) Q (Clean P) m := by
  rw [wp_perform]
  have ha : AuthenticCpi m.ledger c := by
    intro x hx
    rw [hm] at hx
    cases hx
    exact ⟨hp,ho⟩
  have hn : ∀ s, Clean P (m.next (.invoke c seeds) s) := fun s => by simp [hc, ha]
  exact ⟨fun s hs => hk s (effect_invoke _ _ _ _ hs) (hn s),fun _ => hn _⟩

variable {tokenProg source mint dest authority : AccountInfo}

/-- What token instructions of `p` leave alone: its accounts stay its own
unless they are closed, and closed accounts stay closed. -/
def Keeps (p : Pubkey) (s s' : Ledger) : Prop :=
  ∀ a, ((s a).owner = p ∨ (s a).data = []) → (s' a).owner = p ∨ (s' a).data = []

theorem Keeps.trans {p : Pubkey} {s₁ s₂ s₃ : Ledger} (h : Keeps p s₁ s₂) (h' : Keeps p s₂ s₃) :
    Keeps p s₁ s₃ := fun a ha => h' a (h a ha)

structure Transferred (p mint source : Pubkey) (s s' : Ledger) : Prop where
  owners : SameOwners s s'
  keeps : Keeps p s s'
  tokens : ∀ a t, tokenAt s a = some t → ∃ t', tokenAt s' a = some t' ∧ t'.mint = t.mint
  isMint : IsMint p s' mint
  held : ∃ t, tokenAt s' source = some t ∧ t.mint = mint

theorem transferred (ht : TokenRules E.host) {p source mint dest authority : Pubkey} {n : ℕ}
    {dec : UInt8} {s s' : Ledger} (hp : IsTokenProgram p)
    (h : E.host.process (.transferChecked p source mint dest authority n dec) s = some s') :
    Transferred p mint source s s' := by
  obtain ⟨ts,td,hts,htd,him,hps,hpd,hms,hmd,-,hself,hmove,how,hrest,-⟩ :=
    ht.transfer _ _ _ _ _ _ _ _ _ hp h
  have hne : ∀ a t, tokenAt s a = some t → a ≠ mint := by
    rintro a t hat rfl
    rw [isMint_not_token _ _ _ him] at hat
    cases hat
  have htokens : ∀ a t, tokenAt s a = some t → ∃ t', tokenAt s' a = some t' ∧ t'.mint = t.mint := by
    intro a t hat
    by_cases he : source = dest
    · exact ⟨t,by rw [tokenAt_congr _ _ _ (how _) (hself he _), hat],rfl⟩
    · obtain ⟨⟨ts',hts',-,-,hms',-⟩,⟨td',htd',-,-,hmd',-⟩⟩ := hmove he
      by_cases hsrc : a = source
      · subst hsrc
        rw [hts] at hat
        cases hat
        exact ⟨ts',hts',hms'.trans hms.symm⟩
      · by_cases hdst : a = dest
        · subst hdst
          rw [htd] at hat
          cases hat
          exact ⟨td',htd',hmd'.trans hmd.symm⟩
        · exact ⟨t,by rw [tokenAt_congr _ _ _ (how _) (by rw [hrest a hsrc hdst]), hat],rfl⟩
  refine ⟨how,?_,htokens,?_,?_⟩
  · rintro a (ha | ha)
    · exact .inl ((how a).trans ha)
    · by_cases hsrc : a = source
      · exact .inl ((how a).trans (by rw [hsrc, ← (tokenAt_some _ _ _ hts).2.2.1, hps]))
      · by_cases hdst : a = dest
        · exact .inl ((how a).trans (by rw [hdst, ← (tokenAt_some _ _ _ htd).2.2.1, hpd]))
        · exact .inr (by rw [hrest a hsrc hdst, ha])
  · have he := hrest mint (hne _ _ hts).symm (hne _ _ htd).symm
    exact (isMint_congr _ _ _ _ (by rw [he]) (by rw [he])).mpr him
  · obtain ⟨t',ht',hm'⟩ := htokens _ _ hts
    exact ⟨t',ht',hm'.trans hms⟩

theorem clean_tokenTransfer (ht : TokenRules E.host) (n : ℕ) (dec : UInt8)
    (seeds : Option (List Bytes)) (hc : Clean P m) (hp : IsTokenProgram tokenProg.key)
    (ho : (m.ledger mint.key).owner = tokenProg.key)
    (hk : ∀ m', Clean P m' →
      Transferred tokenProg.key mint.key source.key m.ledger m'.ledger → Q () m') :
    wp (tokenTransfer E tokenProg source mint dest authority n dec seeds) Q (Clean P) m := by
  refine clean_token _ _ mint.key rfl hc hp ho ?_
  intro s hs hn
  exact hk _ hn (transferred ht hp hs)

theorem clean_tokenClose (ht : TokenRules E.host) (seeds : List Bytes) (t : TokenAccount)
    (hat : tokenAt m.ledger source.key = some t) (hc : Clean P m)
    (hp : IsTokenProgram tokenProg.key) (ho : (m.ledger t.mint).owner = tokenProg.key)
    (hk : ∀ m', Clean P m' → Keeps tokenProg.key m.ledger m'.ledger →
      (∀ a, a ≠ source.key → (m'.ledger a).owner = (m.ledger a).owner ∧
        (m'.ledger a).data = (m.ledger a).data) → Q () m') :
    wp (tokenClose E tokenProg source dest authority seeds) Q (Clean P) m := by
  rw [(tokenAt_some _ _ _ hat).2.2.2.1] at ho
  refine clean_token _ _ _ rfl hc hp ho ?_
  intro s hs hn
  obtain ⟨-,-,-,hacct,hdo,hdd,-,hrest⟩ := ht.close _ _ _ _ _ _ _ hp hat hs
  have hsame : ∀ a, a ≠ source.key → (s a).owner = (m.ledger a).owner ∧
      (s a).data = (m.ledger a).data := by
    intro a ha
    by_cases hd : a = dest.key
    · rw [hd]
      exact ⟨hdo,hdd⟩
    · rw [hrest a ha hd]
      exact ⟨rfl,rfl⟩
  refine hk _ hn ?_ hsame
  intro a ha
  by_cases hsrc : a = source.key
  · exact .inr (by rw [next_ledger, hsrc, hacct])
  · rw [next_ledger, (hsame a hsrc).1, (hsame a hsrc).2]
    exact ha

theorem clean_tokenInit (ht : TokenRules E.host) (owner : Pubkey) (hc : Clean P m)
    (hp : IsTokenProgram tokenProg.key) (ho : (m.ledger mint.key).owner = tokenProg.key)
    (hk : ∀ m', Clean P m' → SameOwners m.ledger m'.ledger → Q () m') :
    wp (tokenInit E tokenProg source mint owner) Q (Clean P) m := by
  refine clean_token _ _ mint.key rfl hc hp ho ?_
  intro s hs hn
  exact hk _ hn (fun a => ((ht.init _ _ _ _ _ _ hp hs).2.2.2.2.2.1 a).1)

theorem clean_tokenApprove (n : ℕ) (hc : Clean P m) (hp : IsTokenProgram tokenProg.key)
    (ho : (m.ledger (keyAt (m.ledger source.key).data 0)).owner = tokenProg.key)
    (hk : ∀ m', Clean P m' → Q () m') :
    wp (tokenApprove E tokenProg source dest authority n) Q (Clean P) m :=
  clean_token _ _ _ rfl hc hp ho (fun _ _ h => hk _ h)

theorem clean_tokenRevoke (hc : Clean P m) (hp : IsTokenProgram tokenProg.key)
    (ho : (m.ledger (keyAt (m.ledger source.key).data 0)).owner = tokenProg.key)
    (hk : ∀ m', Clean P m' → Q () m') :
    wp (tokenRevoke E tokenProg source authority) Q (Clean P) m :=
  clean_token _ _ _ rfl hc hp ho (fun _ _ h => hk _ h)

/-! ## The payments -/

theorem clean_payFee (ht : TokenRules E.host) (cfg : FeePolicy) (feeAta : AccountInfo) (fee : ℕ)
    (dec shardSeed : UInt8) (seeds : Option (List Bytes)) (hc : Clean P m)
    (hp : IsTokenProgram tokenProg.key) (ho : (m.ledger mint.key).owner = tokenProg.key)
    (hk : ∀ m', Clean P m' → SameOwners m.ledger m'.ledger →
      Keeps tokenProg.key m.ledger m'.ledger → Q () m') :
    wp (payFee E cfg tokenProg source mint feeAta authority fee dec shardSeed seeds) Q (Clean P)
      m := by
  rw [payFee, wp_ite]
  constructor
  · intro _
    rw [wp_bind, wp_verifyFeeDest]
    refine ⟨fun _ => ?_,fun _ => hc⟩
    exact clean_tokenTransfer ht _ _ _ hc hp ho (fun m' h₁ t₁ => hk m' h₁ t₁.owners t₁.keeps)
  · intro _
    exact hk m hc (fun _ => rfl) (fun _ ha => ha)

variable {config takerWant wantMint feeAta makerWant taker giveMint : AccountInfo}

theorem clean_payWantLeg (ht : TokenRules E.host) (n : ℕ) (dec shardSeed : UInt8)
    (hc : Clean P m) (hp : IsTokenProgram tokenProg.key)
    (ho : (m.ledger wantMint.key).owner = tokenProg.key)
    (hk : ∀ m', Clean P m' → SameOwners m.ledger m'.ledger → Q () m') :
    wp (payWantLeg E config tokenProg takerWant wantMint feeAta makerWant taker n dec shardSeed) Q
      (Clean P) m := by
  simp only [payWantLeg, wp_bind, wp_readConfig]
  refine ⟨fun _ => ?_,fun _ => hc⟩
  apply clean_payFee ht _ _ _ _ _ _ hc hp ho
  intro m₁ h₁ o₁ _
  rw [wp_bind, wp_checkedSub]
  refine ⟨fun _ => ?_,fun _ => h₁⟩
  apply clean_tokenTransfer ht _ _ _ h₁ hp ((o₁ _).trans ho)
  intro m₂ h₂ t₂
  exact hk m₂ h₂ (fun a => (t₂.owners a).trans (o₁ a))

theorem clean_payCoinsViaDelegate (ht : TokenRules E.host) (seeds : List Bytes) (n : ℕ)
    (dec shardSeed : UInt8) (hc : Clean P m) (hp : IsTokenProgram tokenProg.key)
    (ho : (m.ledger wantMint.key).owner = tokenProg.key)
    (hk : ∀ m', Clean P m' → SameOwners m.ledger m'.ledger → Q () m') :
    wp (payCoinsViaDelegate E config tokenProg takerWant wantMint feeAta makerWant taker seeds n dec
      shardSeed) Q (Clean P) m := by
  simp only [payCoinsViaDelegate, wp_bind, wp_readConfig]
  refine ⟨fun _ => ?_,fun _ => hc⟩
  apply clean_payFee ht _ _ _ _ _ _ hc hp ho
  intro m₁ h₁ o₁ _
  rw [wp_bind, wp_checkedSub]
  refine ⟨fun _ => ?_,fun _ => h₁⟩
  apply clean_tokenTransfer ht _ _ _ h₁ hp ((o₁ _).trans ho)
  intro m₂ h₂ t₂
  exact hk m₂ h₂ (fun a => (t₂.owners a).trans (o₁ a))

theorem clean_payWantAndRoyalty (ht : TokenRules E.host) (n maxWant : ℕ)
    (dec shardSeed mode pct : UInt8) (md : Option AccountInfo) (atas : List AccountInfo)
    (hc : Clean P m) (hp : IsTokenProgram tokenProg.key)
    (ho : (m.ledger wantMint.key).owner = tokenProg.key)
    (hk : ∀ m', Clean P m' → SameOwners m.ledger m'.ledger → Q () m') :
    wp (payWantAndRoyalty E config tokenProg takerWant wantMint feeAta makerWant taker n maxWant dec
      shardSeed mode pct giveMint md atas) Q (Clean P) m := by
  simp only [payWantAndRoyalty, wp_bind, wp_readConfig]
  refine ⟨fun _ => ?_,fun _ => hc⟩
  apply resolveRoyalty_reads _ _ _ _ _ hc
  intro terms
  simp only [wp_bind, wp_checkedSub, wp_failIf, hc, implies_true, and_true]
  intros
  apply clean_payFee ht _ _ _ _ _ _ hc hp ho
  intro m₁ h₁ o₁ _
  rw [wp_bind]
  apply clean_tokenTransfer ht _ _ _ h₁ hp ((o₁ _).trans ho)
  intro m₂ h₂ t₂
  have o : SameOwners m.ledger m₂.ledger := fun a => (t₂.owners a).trans (o₁ a)
  rw [wp_ite]
  refine ⟨fun _ => ?_,fun _ => hk m₂ h₂ o⟩
  rw [wp_bind, wp_unwrap]
  refine ⟨fun splits _ => ?_,fun _ => h₂⟩
  refine wp_mono (wp_forEach (fun _ m' => Clean P m' ∧ SameOwners m.ledger m'.ledger) _ ?_ _ _
    ⟨h₂,o⟩) (fun _ m' h => hk m' h.1 h.2) (fun _ h => h)
  rintro p ps m' ⟨h',o'⟩
  rw [wp_ite]
  refine ⟨fun _ => ?_,fun _ => ⟨h',o'⟩⟩
  apply clean_tokenTransfer ht _ _ _ h' hp ((o' _).trans ho)
  intro m₃ h₃ t₃
  exact ⟨h₃,fun a => (t₃.owners a).trans (o' a)⟩

end Xete.Swap
