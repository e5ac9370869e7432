import XetePrograms.Solana.Runtime

/-!
# What the runtime and the other programs are assumed to do

The host is a parameter; these are the documented rules of the programs behind
it. Each group is assumed only where it is used.
-/

set_option autoImplicit false

namespace Xete.Rules
open Xete.Octets Xete.Chain Xete.Token

/-- An address nobody has signed for: owned by the system program, without data. -/
def Vacant (s : Ledger) (a : Pubkey) : Prop := (s a).owner = systemId ∧ (s a).data = []

instance (s : Ledger) (a : Pubkey) : Decidable (Vacant s a) := by unfold Vacant; infer_instance

/-- No other key than the authority can move the tokens or close the account. -/
def Sealed (t : TokenAccount) : Prop := t.delegate = none ∧ t.closeAuthority = none

instance (t : TokenAccount) : Decidable (Sealed t) := by unfold Sealed; infer_instance

/-- What may happen to a sealed account without its authority: it is credited. -/
structure Grows (t t' : TokenAccount) : Prop where
  program : t'.program = t.program
  mint : t'.mint = t.mint
  authority : t'.authority = t.authority
  native : t'.native = t.native
  isSealed : Sealed t'
  amount : t.amount ≤ t'.amount

theorem Grows.refl (t : TokenAccount) (h : Sealed t) : Grows t t :=
  ⟨rfl,rfl,rfl,rfl,h,le_refl _⟩

theorem Grows.trans {t u v : TokenAccount} (h : Grows t u) (h' : Grows u v) : Grows t v :=
  ⟨h'.program.trans h.program,h'.mint.trans h.mint,h'.authority.trans h.authority,
    h'.native.trans h.native,h'.isSealed,h.amount.trans h'.amount⟩

/-- A change of the ledger in which only the program-derived addresses of
`signed` took part, and in which this program changed only the accounts of
`touched`: its other records and the other empty addresses stay as they are. -/
structure Frame (H : Host) (signed touched : Pubkey → Prop) (s s' : Ledger) : Prop where
  owned : ∀ a, (s a).owner = H.programId → ¬touched a →
    (s' a).owner = H.programId ∧ (s' a).data = (s a).data ∧ (s a).lamports ≤ (s' a).lamports
  vacant : ∀ a, H.IsPda a → ¬signed a → Vacant s a → Vacant s' a

/-- A change of the ledger that leaves what every program-derived address
outside `signed` holds under the programs of `held` where it is. -/
structure HoldingsOf (H : Host) (held signed : Pubkey → Prop) (s s' : Ledger) : Prop where
  tokens : ∀ a t, tokenAt s a = some t → held t.program → H.IsPda t.authority →
    ¬signed t.authority → Sealed t →
      (∃ t', tokenAt s' a = some t' ∧ Grows t t') ∧ (s a).lamports ≤ (s' a).lamports
  mints : ∀ a t, tokenAt s a = some t → held t.program → H.IsPda t.authority →
    ¬signed t.authority → Sealed t → 0 < t.amount → IsMint t.program s t.mint →
      IsMint t.program s' t.mint ∧ mintDecimalsAt s' t.mint = mintDecimalsAt s t.mint
  cores : held mplCoreId → ∀ a o, coreOwner s a = some o → H.IsPda o → ¬signed o →
    coreOwner s' a = some o

/-- All tokens and all assets stay. -/
abbrev Holdings (H : Host) (signed : Pubkey → Prop) (s s' : Ledger) : Prop :=
  HoldingsOf H (fun _ => True) signed s s'

section
variable {H : Host} {held held' signed touched signed' touched' : Pubkey → Prop}
  {s s' s'' : Ledger}

theorem Frame.refl (H : Host) (signed touched : Pubkey → Prop) (s : Ledger) :
    Frame H signed touched s s where
  owned _ ha _ := ⟨ha,rfl,le_refl _⟩
  vacant _ _ _ hv := hv

theorem Frame.mono (h : Frame H signed touched s s') (hs : ∀ a, H.IsPda a → signed a → signed' a)
    (ht : ∀ a, touched a → touched' a) : Frame H signed' touched' s s' where
  owned a ho hn := h.owned a ho (fun hc => hn (ht a hc))
  vacant a hp hn := h.vacant a hp (fun hc => hn (hs a hp hc))

theorem Frame.trans (h : Frame H signed touched s s') (h' : Frame H signed touched s' s'') :
    Frame H signed touched s s'' where
  owned a ho hn := by
    obtain ⟨ho₁,hd₁,hl₁⟩ := h.owned a ho hn
    obtain ⟨ho₂,hd₂,hl₂⟩ := h'.owned a ho₁ hn
    exact ⟨ho₂,hd₂.trans hd₁,hl₁.trans hl₂⟩
  vacant a hp hn hv := h'.vacant a hp hn (h.vacant a hp hn hv)

theorem HoldingsOf.refl (H : Host) (held signed : Pubkey → Prop) (s : Ledger) :
    HoldingsOf H held signed s s where
  tokens _ t ht _ _ _ hs := ⟨⟨t,ht,Grows.refl t hs⟩,le_refl _⟩
  mints _ _ _ _ _ _ _ _ hm := ⟨hm,rfl⟩
  cores _ _ _ ho _ _ := ho

theorem HoldingsOf.mono (h : HoldingsOf H held signed s s')
    (hs : ∀ a, H.IsPda a → signed a → signed' a) : HoldingsOf H held signed' s s' where
  tokens a t hat hh hp hn := h.tokens a t hat hh hp (fun hc => hn (hs _ hp hc))
  mints a t hat hh hp hn := h.mints a t hat hh hp (fun hc => hn (hs _ hp hc))
  cores hh a o ho hp hn := h.cores hh a o ho hp (fun hc => hn (hs _ hp hc))

theorem HoldingsOf.only (h : HoldingsOf H held signed s s') (hh : ∀ p, held' p → held p) :
    HoldingsOf H held' signed s s' where
  tokens a t hat hp := h.tokens a t hat (hh _ hp)
  mints a t hat hp := h.mints a t hat (hh _ hp)
  cores hp := h.cores (hh _ hp)

theorem HoldingsOf.trans (h : HoldingsOf H held signed s s')
    (h' : HoldingsOf H held signed s' s'') : HoldingsOf H held signed s s'' where
  tokens a t hat hh hp hn hsl := by
    obtain ⟨⟨u,hau,hu⟩,hl₁⟩ := h.tokens a t hat hh hp hn hsl
    rw [← hu.program] at hh
    rw [← hu.authority] at hp hn
    obtain ⟨⟨v,hav,hv⟩,hl₂⟩ := h'.tokens a u hau hh hp hn hu.isSealed
    exact ⟨⟨v,hav,hu.trans hv⟩,hl₁.trans hl₂⟩
  mints a t hat hh hp hn hsl hpos him := by
    obtain ⟨⟨u,hau,hu⟩,-⟩ := h.tokens a t hat hh hp hn hsl
    obtain ⟨him₁,hd₁⟩ := h.mints a t hat hh hp hn hsl hpos him
    rw [← hu.authority] at hp hn
    rw [← hu.program, ← hu.mint] at him₁
    rw [← hu.program] at hh
    obtain ⟨him₂,hd₂⟩ := h'.mints a u hau hh hp hn hu.isSealed (hpos.trans_le hu.amount) him₁
    rw [hu.program, hu.mint] at him₂
    rw [hu.mint] at hd₂
    exact ⟨him₂,hd₂.trans hd₁⟩
  cores hh a o ho hp hn := h'.cores hh a o (h.cores hh a o ho hp hn) hp hn

end

/-- The runtime confines the other programs: only a program changes the data of
its own accounts, and an address is assigned to one only by its signature. -/
def Confined (H : Host) : Prop :=
  ∀ c s s', c.program ≠ H.programId → H.process c s = some s' →
    Frame H (fun a => a ∈ c.signers) (fun _ => False) s s'

/-- Under the programs of `held`, nothing is taken from an address that has not
signed. -/
def NoSeizureOf (H : Host) (held : Pubkey → Prop) : Prop :=
  ∀ c s s', c.program ≠ H.programId → H.process c s = some s' →
    HoldingsOf H held (fun a => a ∈ c.signers) s s'

/-- No delegate takes what belongs to an address that has not signed: there are
no mints and no assets with a permanent delegate. -/
abbrev NoSeizure (H : Host) : Prop := NoSeizureOf H fun _ => True

/-- SPL Token knows no permanent delegates: what an address holds there moves
with its signature only. -/
abbrev SplKeeps (H : Host) : Prop := NoSeizureOf H fun p => p = splTokenId

theorem NoSeizure.splKeeps {H : Host} (h : NoSeizure H) : SplKeeps H :=
  fun c s s' hp hr => (h c s s' hp hr).only fun _ _ => trivial

/-- The system program: creation of accounts and lamport transfers. -/
structure SystemRules (H : Host) : Prop where
  create : ∀ payer acct n space owner s s',
    H.process (.createAccount payer acct n space owner) s = some s' →
      Vacant s acct ∧ (s acct).lamports = 0 ∧ s' acct = ⟨n,owner,zeros space⟩ ∧
      ∀ a, a ≠ acct → (s' a).owner = (s a).owner ∧ (s' a).data = (s a).data ∧
        (a ≠ payer → (s' a).lamports = (s a).lamports)
  transfer : ∀ source dest n s s', H.process (.transferLamports source dest n) s = some s' →
    ∀ a, (s' a).owner = (s a).owner ∧ (s' a).data = (s a).data ∧
      (a ≠ source → (s a).lamports ≤ (s' a).lamports)
  rent : ∀ space, 0 < H.minimumBalance space

/-- The ledger after `payer` paid `n` lamports for the new account `acct`. -/
def withAccount (s : Ledger) (payer acct : Pubkey) (n space : ℕ) (owner : Pubkey) : Ledger :=
  Function.update (Function.update s payer { s payer with lamports := (s payer).lamports-n })
    acct ⟨n,owner,zeros space⟩

/-- The system program creates an account at an address without lamports, for a
wallet that can pay for it. -/
structure SystemAccepts (H : Host) : Prop where
  create : ∀ payer acct n space owner s, Vacant s acct → (s acct).lamports = 0 → payer ≠ acct →
    Vacant s payer → n ≤ (s payer).lamports →
      H.process (.createAccount payer acct n space owner) s =
        some (withAccount s payer acct n space owner)

/-- The two token programs, on an instruction that they accept. -/
structure TokenRules (H : Host) : Prop where
  init : ∀ p acct mint owner s s', IsTokenProgram p →
    H.process (.initializeAccount3 p acct mint owner) s = some s' →
      (s acct).owner = p ∧ tokenAt s acct = none ∧ IsMint p s mint ∧ acct ≠ mint ∧
      (∃ t, tokenAt s' acct = some t ∧ t.program = p ∧ t.mint = mint ∧ t.authority = owner ∧
        Sealed t ∧ (t.native = false → t.amount = 0)) ∧
      (∀ a, (s' a).owner = (s a).owner ∧ (s' a).lamports = (s a).lamports) ∧
      ∀ a, a ≠ acct → (s' a).data = (s a).data
  transfer : ∀ p source mint dest auth n dec s s', IsTokenProgram p →
    H.process (.transferChecked p source mint dest auth n dec) s = some s' →
      ∃ ts td, tokenAt s source = some ts ∧ tokenAt s dest = some td ∧ IsMint p s mint ∧
        ts.program = p ∧ td.program = p ∧ ts.mint = mint ∧ td.mint = mint ∧ n ≤ ts.amount ∧
        (source = dest → ∀ a, (s' a).data = (s a).data) ∧
        (source ≠ dest →
          (∃ ts', tokenAt s' source = some ts' ∧ ts'.amount = ts.amount-n ∧
            ts'.program = p ∧ ts'.mint = mint ∧ ts'.authority = ts.authority ∧
            ts'.native = ts.native ∧ ts'.frozen = ts.frozen ∧ (Sealed ts → Sealed ts')) ∧
          (∃ td', tokenAt s' dest = some td' ∧ td'.amount = td.amount+n ∧
            td'.program = p ∧ td'.mint = mint ∧ td'.authority = td.authority ∧
            td'.native = td.native ∧ td'.frozen = td.frozen ∧ (Sealed td → Sealed td'))) ∧
        (∀ a, (s' a).owner = (s a).owner) ∧
        (∀ a, a ≠ source → a ≠ dest → s' a = s a) ∧
        (ts.native = false → ∀ a, (s' a).lamports = (s a).lamports) ∧
        ∀ a, 0 < (s a).lamports → 0 < (s' a).lamports
  close : ∀ p acct dest auth s s' t, IsTokenProgram p → tokenAt s acct = some t →
    H.process (.closeAccount p acct dest auth) s = some s' →
      t.program = p ∧ (t.native = true ∨ t.amount = 0) ∧ acct ≠ dest ∧
      s' acct = ⟨0,systemId,[]⟩ ∧ (s' dest).owner = (s dest).owner ∧
      (s' dest).data = (s dest).data ∧
      (s' dest).lamports = (s dest).lamports+(s acct).lamports ∧
      ∀ a, a ≠ acct → a ≠ dest → s' a = s a
  approve : ∀ p source delegate auth n s s', IsTokenProgram p →
    H.process (.approve p source delegate auth n) s = some s' →
      (∀ a, (s' a).owner = (s a).owner ∧ (s' a).lamports = (s a).lamports) ∧
      ∀ a, a ≠ source → (s' a).data = (s a).data
  revoke : ∀ p source auth s s', IsTokenProgram p →
    H.process (.revoke p source auth) s = some s' →
      (∀ a, (s' a).owner = (s a).owner ∧ (s' a).lamports = (s a).lamports) ∧
      ∀ a, a ≠ source → (s' a).data = (s a).data

/-- The two token programs accept a transfer by the authority of an account
that holds enough, and the close of an account that holds nothing. -/
structure TokenAccepts (H : Host) : Prop where
  transfer : ∀ p source mint dest n s ts td, IsTokenProgram p → IsMint p s mint →
    tokenAt s source = some ts → tokenAt s dest = some td → ts.program = p → td.program = p →
    ts.mint = mint → td.mint = mint → ts.frozen = false → td.frozen = false → source ≠ dest →
    n ≤ ts.amount → td.amount+n ≤ u64Max →
      ∃ s', H.process
        (.transferChecked p source mint dest ts.authority n (mintDecimalsAt s mint)) s = some s'
  close : ∀ p acct dest s t, IsTokenProgram p → tokenAt s acct = some t → t.program = p →
    t.native = false → t.amount = 0 → t.closeAuthority = none → acct ≠ dest →
    (s dest).lamports+(s acct).lamports ≤ u64Max →
      ∃ s', H.process (.closeAccount p acct dest t.authority) s = some s'

/-- Token-Metadata: a transfer moves the stated units of a mint between two
token accounts, out of one whose owner is named and into a plain one of the
recipient. -/
structure MplRules (H : Host) : Prop where
  transfer : ∀ a s s', a.tm = tokenMetadataId → H.process (.mplTransfer a) s = some s' →
    ∃ ts td', tokenAt s a.srcTa = some ts ∧ ts.mint = a.mint ∧ ts.authority = a.tokenOwner ∧
      IsMint ts.program s a.mint ∧ a.amount ≤ ts.amount ∧
      tokenAt s' a.dstTa = some td' ∧ td'.mint = a.mint ∧ td'.authority = a.dstOwner ∧
      td'.program = ts.program ∧ Sealed td' ∧ a.amount ≤ td'.amount ∧
      (a.srcTa ≠ a.dstTa → ∃ ts', tokenAt s' a.srcTa = some ts' ∧ ts'.amount = ts.amount-a.amount ∧
        td'.amount = (match tokenAt s a.dstTa with | some td => td.amount | none => 0)+a.amount) ∧
      IsMint ts.program s' a.mint

/-- Core: what a transfer gives to the new owner was an asset before. -/
structure CoreRules (H : Host) : Prop where
  transfer : ∀ asset collection payer authority newOwner signer s s',
    H.process (.coreTransfer mplCoreId asset collection payer authority newOwner signer) s =
    some s' →
      coreOwner s asset ≠ none ∧ coreOwner s' asset = some newOwner

end Xete.Rules
