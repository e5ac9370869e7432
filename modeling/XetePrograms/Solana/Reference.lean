import Mathlib.Data.List.Nodup
import XetePrograms.Solana.Rules
import XetePrograms.Solana.Runtime

/-!
# A reference host

A small executable host: system program, the two token programs, transfers of
Token-Metadata and of Core, and one program that does nothing and succeeds.
It meets the rules assumed of the real programs, so that these can be met
together, and runs of the program can be evaluated on it.
-/

set_option autoImplicit false

namespace Xete.Reference
open Xete.Octets Xete.Chain Xete.Token Xete.Runtime Xete.Rules

/-- Addresses by their seeds and their program. -/
abbrev Table := List (Bytes × Pubkey × Pubkey)

def deriveIn (table : Table) (seeds : Bytes) (program : Pubkey) : Option Pubkey :=
  (table.find? fun e => e.1 = seeds ∧ e.2.1 = program).map fun e => e.2.2

def withAmount (s : Ledger) (a : Pubkey) (n : ℕ) : Ledger :=
  setData s a (patch (s a).data 64 (le 8 n))

/-- Take `n` units off the delegation of `a`, and the delegation away at zero. -/
def spendDelegation (s : Ledger) (a : Pubkey) (n : ℕ) : Ledger :=
  let left := u64At (s a).data 121-n
  let d := patch (s a).data 121 (le 8 left)
  setData s a (if left = 0 then patch d 72 (zeros 36) else d)

def tokenMove (s : Ledger) (source dest : Pubkey) (ts td : TokenAccount) (n : ℕ) : Ledger :=
  if source = dest then s
  else withAmount (withAmount s source (ts.amount-n)) dest (td.amount+n)

def newTokenData (mint owner : Pubkey) : Bytes :=
  patches (zeros 165) [(0,mint.bytes),(32,owner.bytes),(108,[1])]

/-- An address that is told from the others by its first byte. -/
def keyOf (n : UInt8) : Pubkey := ⟨n :: zeros 31,rfl⟩

/-- The program whose every instruction succeeds and does nothing. -/
def noopId : Pubkey := keyOf 200

def createAccount (payer acct : Pubkey) (n space : ℕ) (owner : Pubkey) (s : Ledger) :
    Option Ledger :=
  if Vacant s acct ∧ (s acct).lamports = 0 ∧ payer ≠ acct ∧ (s payer).owner = systemId ∧
      n ≤ (s payer).lamports then
    some (Function.update
      (Function.update s payer { s payer with lamports := (s payer).lamports-n })
      acct ⟨n,owner,zeros space⟩)
  else none

def transferLamports (source dest : Pubkey) (n : ℕ) (s : Ledger) : Option Ledger :=
  if (s source).owner = systemId ∧ n ≤ (s source).lamports ∧ source ≠ dest then
    some (Function.update
      (Function.update s source { s source with lamports := (s source).lamports-n })
      dest { s dest with lamports := (s dest).lamports+n })
  else none

def initializeAccount3 (p acct mint owner : Pubkey) (s : Ledger) : Option Ledger :=
  if IsTokenProgram p ∧ (s acct).owner = p ∧ (s acct).data.length = 165 ∧
      byteAt (s acct).data 108 = 0 ∧ IsMint p s mint then
    some (setData s acct (newTokenData mint owner))
  else none

def transferChecked (p source mint dest auth : Pubkey) (n : ℕ) (dec : UInt8) (s : Ledger) :
    Option Ledger :=
  match tokenAt s source, tokenAt s dest with
  | some ts, some td =>
    if IsTokenProgram p ∧ IsMint p s mint ∧ ts.program = p ∧ td.program = p ∧ ts.mint = mint ∧
        td.mint = mint ∧ ts.frozen = false ∧ td.frozen = false ∧ n ≤ ts.amount ∧
        td.amount+n ≤ u64Max ∧ dec = mintDecimalsAt s mint then
      if ts.authority = auth then some (tokenMove s source dest ts td n)
      else if ts.delegate = some auth ∧ n ≤ u64At (s source).data 121 ∧ source ≠ dest then
        some (spendDelegation (tokenMove s source dest ts td n) source n)
      else none
    else none
  | _, _ => none

def closeAccount (p acct dest auth : Pubkey) (s : Ledger) : Option Ledger :=
  match tokenAt s acct with
  | some t =>
    if IsTokenProgram p ∧ t.program = p ∧ t.amount = 0 ∧ acct ≠ dest ∧
        (t.closeAuthority = none ∧ t.authority = auth ∨ t.closeAuthority = some auth) then
      some (Function.update
        (Function.update s dest { s dest with lamports := (s dest).lamports+(s acct).lamports })
        acct ⟨0,systemId,[]⟩)
    else none
  | none => none

def approve (p source delegate auth : Pubkey) (n : ℕ) (s : Ledger) : Option Ledger :=
  match tokenAt s source with
  | some t =>
    if IsTokenProgram p ∧ t.program = p ∧ t.authority = auth ∧ t.frozen = false then
      some (setData s source
        (patch (patch (s source).data 72 ([1,0,0,0] ++ delegate.bytes)) 121 (le 8 n)))
    else none
  | none => none

def revoke (p source auth : Pubkey) (s : Ledger) : Option Ledger :=
  match tokenAt s source with
  | some t =>
    if IsTokenProgram p ∧ t.program = p ∧ t.authority = auth ∧ t.frozen = false then
      some (setData s source (patch (patch (s source).data 72 (zeros 36)) 121 (zeros 8)))
    else none
  | none => none

def mplTransfer (a : MplTransfer) (s : Ledger) : Option Ledger :=
  match tokenAt s a.srcTa, tokenAt s a.dstTa with
  | some ts, some td =>
    if a.tm = tokenMetadataId ∧ (s a.metadata).owner = tokenMetadataId ∧
        IsMint ts.program s a.mint ∧ td.program = ts.program ∧ ts.mint = a.mint ∧
        td.mint = a.mint ∧ ts.authority = a.tokenOwner ∧ td.authority = a.dstOwner ∧
        a.authority = a.tokenOwner ∧ Sealed td ∧ a.amount ≤ ts.amount ∧
        td.amount+a.amount ≤ u64Max then
      some (tokenMove s a.srcTa a.dstTa ts td a.amount)
    else none
  | _, _ => none

def coreTransfer (core asset payer authority newOwner : Pubkey) (signer : Bool) (s : Ledger) :
    Option Ledger :=
  if core = mplCoreId ∧ coreOwner s asset = some (if signer then authority else payer) then
    some (setData s asset (patch (s asset).data 1 newOwner.bytes))
  else none

def processCpi : Cpi → Ledger → Option Ledger
  | .createAccount payer acct n space owner, s => createAccount payer acct n space owner s
  | .transferLamports source dest n, s => transferLamports source dest n s
  | .initializeAccount3 p acct mint owner, s =>
      if p = noopId then some s else initializeAccount3 p acct mint owner s
  | .transferChecked p source mint dest auth n dec, s =>
      if p = noopId then some s else transferChecked p source mint dest auth n dec s
  | .closeAccount p acct dest auth, s =>
      if p = noopId then some s else closeAccount p acct dest auth s
  | .approve p source delegate auth n, s =>
      if p = noopId then some s else approve p source delegate auth n s
  | .revoke p source auth, s => if p = noopId then some s else revoke p source auth s
  | .mplTransfer a, s => mplTransfer a s
  | .mplDelegate _, _ => none
  | .coreTransfer core asset _ payer authority newOwner signer, s =>
      coreTransfer core asset payer authority newOwner signer s
  | .corePlugin .., _ => none

def host (program : Pubkey) (table : Table) : Host where
  programId := program
  derive := deriveIn table
  hash k := ⟨(k.reverse).takeD 32 0,by simp⟩
  minimumBalance space := 890880+6960*space
  process := processCpi

theorem host_isPda (program : Pubkey) (table : Table) (a : Pubkey)
    (h : (host program table).IsPda a) : a ∈ table.map fun e => e.2.2 := by
  obtain ⟨seeds,hs⟩ := h
  simp only [host, deriveIn, Option.map_eq_some_iff] at hs
  obtain ⟨e,he,rfl⟩ := hs
  exact List.mem_map_of_mem (List.mem_of_find?_eq_some he)

theorem host_collisionFree (program : Pubkey) (table : Table)
    (h : (table.map fun e => e.2.2).Nodup) : (host program table).CollisionFree := by
  intro s t p q a hs ht
  simp only [host, deriveIn, Option.map_eq_some_iff] at hs ht
  obtain ⟨e,he,rfl⟩ := hs
  obtain ⟨f,hf,hfe⟩ := ht
  have hef : e = f := List.inj_on_of_nodup_map h (List.mem_of_find?_eq_some he)
    (List.mem_of_find?_eq_some hf) hfe.symm
  subst hef
  have h₁ := List.find?_some he
  have h₂ := List.find?_some hf
  simp only [decide_eq_true_eq] at h₁ h₂
  exact ⟨h₁.1.symm.trans h₂.1,h₁.2.symm.trans h₂.2⟩

theorem host_systemRules (program : Pubkey) (table : Table) : SystemRules (host program table) where
  create := by
    intro payer acct n space owner s s' h
    simp only [host, processCpi, createAccount] at h
    split at h
    · rename_i hc
      cases h
      refine ⟨hc.1,hc.2.1,by simp,?_⟩
      intro a ha
      by_cases hp : a = payer
      · subst hp
        simp [ha]
      · simp [ha, hp]
    · cases h
  transfer := by
    intro source dest n s s' h a
    simp only [host, processCpi, transferLamports] at h
    split at h
    · rename_i hc
      cases h
      by_cases hd : a = dest
      · subst hd
        simp [Ne.symm hc.2.2]
      · by_cases hs : a = source
        · subst hs
          simp [hd]
        · simp [hd, hs]
    · cases h
  rent := fun space => Nat.add_pos_left (by decide) _

/-! ## Token accounts with a part overwritten -/

section
variable {s : Ledger} {a : Pubkey} {t : TokenAccount}

theorem host_systemAccepts (program : Pubkey) (table : Table) :
    SystemAccepts (host program table) where
  create payer acct n space owner s hv hz hne hw hn := by
    show createAccount payer acct n space owner s = _
    exact if_pos ⟨hv,hz,hne,hw.1,hn⟩

theorem keyAt_patch (d b : Bytes) (off o : ℕ) (hk : off+32 ≤ d.length)
    (h : off+32 ≤ o ∨ o+b.length ≤ off) (hb : o+b.length ≤ d.length) :
    keyAt (patch d o b) off = keyAt d off := by
  apply Pubkey.ext'
  rw [keyAt_bytes _ _ (by rw [patch_length _ _ _ hb]; exact hk), keyAt_bytes _ _ hk,
    slice_patch_disjoint _ _ _ _ _ h hb]

theorem optionKeyAt_patch (d b : Bytes) (off o : ℕ) (hk : off+36 ≤ d.length)
    (h : off+36 ≤ o ∨ o+b.length ≤ off) (hb : o+b.length ≤ d.length) :
    optionKeyAt (patch d o b) off = optionKeyAt d off := by
  rw [optionKeyAt, optionKeyAt, slice_patch_disjoint _ _ _ _ _ (by omega) hb,
    keyAt_patch _ _ _ _ (by omega) (by omega) hb]

theorem hasTokenSize_patch (owner : Pubkey) (d b : Bytes) (o : ℕ) (h : HasTokenSize owner d)
    (ho : o+b.length ≤ 165) : HasTokenSize owner (patch d o b) := by
  have hl : 165 ≤ d.length := by rcases h with h | h <;> omega
  rw [HasTokenSize, patch_length _ _ _ (by omega), byteAt_patch_disjoint _ _ _ _ (.inr ho)
    (by omega)]
  exact h

theorem tokenAt_setData_other (s : Ledger) (b : Pubkey) (d : Bytes) (h : a ≠ b) :
    tokenAt (setData s b d) a = tokenAt s a :=
  tokenAt_congr _ _ _ (by simp) (by rw [setData_other _ _ _ _ h])

theorem tokenAt_withAmount (h : tokenAt s a = some t) (n : ℕ) (hn : n ≤ u64Max) :
    tokenAt (withAmount s a n) a = some { t with amount := n } := by
  have hl := tokenAt_size s a t h
  simp only [tokenAt] at h ⊢
  split at h
  · rename_i hc
    cases h
    have hb : 64+(le 8 n).length ≤ (s a).data.length := by simp; omega
    have hsz := hasTokenSize_patch _ _ (le 8 n) 64 hc.2.1 (by simp)
    have h₁₀₈ := byteAt_patch_disjoint (s a).data (le 8 n) 108 64 (.inr (by simp)) hb
    have hamt : u64At (patch (s a).data 64 (le 8 n)) 64 = n := by
      rw [u64At, slice_patch_same _ _ _ _ (by simp) (by omega)]
      exact natLe_le 8 n (by simp only [u64Max] at hn; omega)
    simp only [withAmount, setData_same, setData_owner, hc.1, hsz, h₁₀₈, hc.2.2, hamt, ne_eq,
      not_false_eq_true, and_self, if_true, keyAt_patch _ _ _ _ (show 0+32 ≤ _ by omega)
      (.inl (by decide)) hb, keyAt_patch _ _ _ _ (show 32+32 ≤ _ by omega) (.inl (by decide)) hb,
      optionKeyAt_patch _ _ _ _ (show 72+36 ≤ _ by omega) (.inr (by simp)) hb,
      optionKeyAt_patch _ _ _ _ (show 129+36 ≤ _ by omega) (.inr (by simp)) hb,
      slice_patch_disjoint _ _ _ _ _ (.inr (show 64+(le 8 n).length ≤ 109 by simp)) hb]
  · cases h

/-- Overwriting the delegated amount changes nothing that is decoded. -/
theorem tokenAt_delegated (h : tokenAt s a = some t) (b : Bytes) (hb₈ : b.length = 8) :
    tokenAt (setData s a (patch (s a).data 121 b)) a = some t := by
  have hl := tokenAt_size s a t h
  rw [← h]
  have hb : 121+b.length ≤ (s a).data.length := by omega
  have hsz : HasTokenSize (s a).owner (patch (s a).data 121 b) ↔
      HasTokenSize (s a).owner (s a).data := by
    simp only [HasTokenSize, patch_length _ _ _ hb,
      byteAt_patch_disjoint _ _ 165 121 (.inr (by omega)) hb]
  simp only [tokenAt, setData_same, setData_owner, hsz, u64At,
    byteAt_patch_disjoint _ _ 108 121 (.inl (by omega)) hb,
    keyAt_patch _ _ _ _ (show 0+32 ≤ _ by omega) (.inl (by decide)) hb,
    keyAt_patch _ _ _ _ (show 32+32 ≤ _ by omega) (.inl (by decide)) hb,
    optionKeyAt_patch _ _ _ _ (show 72+36 ≤ _ by omega) (.inl (by decide)) hb,
    optionKeyAt_patch _ _ _ _ (show 129+36 ≤ _ by omega) (.inr (by omega)) hb,
    slice_patch_disjoint _ _ 64 8 121 (.inl (by decide)) hb,
    slice_patch_disjoint _ _ 109 4 121 (.inl (by decide)) hb]

/-- Overwriting the delegate changes the delegate. -/
theorem tokenAt_delegate (h : tokenAt s a = some t) (b : Bytes) (hb₃₆ : b.length = 36) :
    tokenAt (setData s a (patch (s a).data 72 b)) a =
      some { t with delegate := optionKeyAt (patch (s a).data 72 b) 72 } := by
  have hl := tokenAt_size s a t h
  simp only [tokenAt] at h ⊢
  split at h
  · rename_i hc
    cases h
    have hb : 72+b.length ≤ (s a).data.length := by omega
    have hsz := hasTokenSize_patch _ _ b 72 hc.2.1 (by omega)
    have h₁₀₈ := byteAt_patch_disjoint (s a).data b 108 72 (.inr (by omega)) hb
    simp only [setData_same, setData_owner, hc.1, hsz, h₁₀₈, hc.2.2, ne_eq, u64At,
      not_false_eq_true, and_self, if_true, keyAt_patch _ _ _ _ (show 0+32 ≤ _ by omega)
      (.inl (by decide)) hb, keyAt_patch _ _ _ _ (show 32+32 ≤ _ by omega) (.inl (by decide)) hb,
      optionKeyAt_patch _ _ _ _ (show 129+36 ≤ _ by omega) (.inr (by omega)) hb,
      slice_patch_disjoint _ _ 64 8 72 (.inl (by decide)) hb,
      slice_patch_disjoint _ _ 109 4 72 (.inr (by omega)) hb]
  · cases h

end

/-! ## The rules of the token programs -/

section
variable {s : Ledger} {a source dest : Pubkey} {t ts td : TokenAccount} {n : ℕ}

theorem setData_setData (s : Ledger) (a : Pubkey) (d d' : Bytes) :
    setData (setData s a d) a d' = setData s a d' := by
  simp [setData]

theorem newTokenData_length (mint owner : Pubkey) : (newTokenData mint owner).length = 165 := by
  rw [newTokenData, patches_length] <;> simp

theorem newTokenData_field (mint owner : Pubkey) (off len : ℕ) (b : Bytes) (hl : b.length = len)
    (hb : (off,b) ∈ [(0,mint.bytes),(32,owner.bytes),(108,[1])]) :
    slice (newTokenData mint owner) off len = b := by
  subst hl
  exact slice_patches (zeros 165) _ ⟨by simp,by simp⟩ (off,b) hb

theorem newTokenData_empty (mint owner : Pubkey) (off len : ℕ) (h₁ : 64 ≤ off)
    (h₂ : off+len ≤ 108 ∨ 109 ≤ off) (h₃ : off+len ≤ 165) :
    slice (newTokenData mint owner) off len = zeros len := by
  rw [newTokenData, slice_patches_disjoint]
  · exact slice_zeros _ _ _ h₃
  · simp
  · simp
    omega

/-- A new token account is empty and sealed. -/
theorem tokenAt_new (s : Ledger) (a mint owner : Pubkey) (ho : IsTokenProgram (s a).owner) :
    tokenAt (setData s a (newTokenData mint owner)) a =
      some ⟨(s a).owner,mint,owner,0,none,false,false,none⟩ := by
  have hb : byteAt (newTokenData mint owner) 108 = 1 := by
    rw [byteAt_eq_slice, newTokenData_field mint owner 108 1 [1] rfl (by simp)]
    rfl
  have hm : keyAt (newTokenData mint owner) 0 = mint :=
    keyAt_eq _ _ _ (newTokenData_field _ _ 0 32 _ mint.size (by simp))
  have hk : keyAt (newTokenData mint owner) 32 = owner :=
    keyAt_eq _ _ _ (newTokenData_field _ _ 32 32 _ owner.size (by simp))
  have he := newTokenData_empty mint owner
  simp [tokenAt, HasTokenSize, newTokenData_length, ho, hb, hm, hk, optionKeyAt, u64At, he,
    natLe_zeros]

theorem withAmount_other (s : Ledger) (b : Pubkey) (n : ℕ) (h : a ≠ b) :
    withAmount s b n a = s a := setData_other _ _ _ _ h

theorem tokenAt_withAmount_other (s : Ledger) (b : Pubkey) (n : ℕ) (h : a ≠ b) :
    tokenAt (withAmount s b n) a = tokenAt s a := tokenAt_setData_other _ _ _ h

theorem tokenMove_owner (a : Pubkey) : (tokenMove s source dest ts td n a).owner = (s a).owner := by
  unfold tokenMove
  split <;> simp [withAmount]

theorem tokenMove_lamports (a : Pubkey) :
    (tokenMove s source dest ts td n a).lamports = (s a).lamports := by
  unfold tokenMove
  split <;> simp [withAmount]

theorem tokenMove_other (h₁ : a ≠ source) (h₂ : a ≠ dest) :
    tokenMove s source dest ts td n a = s a := by
  unfold tokenMove
  split
  · rfl
  · rw [withAmount_other _ _ _ h₂, withAmount_other _ _ _ h₁]

theorem tokenMove_self (h : source = dest) : tokenMove s source dest ts td n = s := by
  simp [tokenMove, h]

theorem tokenMove_source (hs : tokenAt s source = some ts) (h : source ≠ dest) :
    tokenAt (tokenMove s source dest ts td n) source = some { ts with amount := ts.amount-n } := by
  have hle := tokenAt_amount_le s source ts hs
  rw [tokenMove, if_neg h, tokenAt_withAmount_other _ _ _ h]
  exact tokenAt_withAmount hs _ (by omega)

theorem tokenMove_dest (hd : tokenAt s dest = some td) (h : source ≠ dest)
    (hn : td.amount+n ≤ u64Max) :
    tokenAt (tokenMove s source dest ts td n) dest = some { td with amount := td.amount+n } := by
  rw [tokenMove, if_neg h]
  exact tokenAt_withAmount (by rwa [tokenAt_withAmount_other _ _ _ h.symm]) _ hn

theorem spendDelegation_owner (a b : Pubkey) (n : ℕ) :
    (spendDelegation s b n a).owner = (s a).owner := by
  simp [spendDelegation]

theorem spendDelegation_other (b : Pubkey) (n : ℕ) (h : a ≠ b) : spendDelegation s b n a = s a := by
  simp [spendDelegation, setData_other _ _ _ _ h]

theorem optionKeyAt_none (d : Bytes) (off : ℕ) (h : off+36 ≤ d.length) :
    optionKeyAt (patch d off (zeros 36)) off = none := by
  have hs : slice (patch d off (zeros 36)) off 4 = zeros 4 := by
    rw [← Nat.add_zero off, ← slice_slice _ off 36 0 4 (by decide), Nat.add_zero,
      slice_patch_same _ (zeros 36) _ 36 rfl h]
    rfl
  rw [optionKeyAt, if_pos hs]

theorem spendDelegation_token (h : tokenAt s a = some t) (n : ℕ) :
    ∃ d, tokenAt (spendDelegation s a n) a = some { t with delegate := d } := by
  have hl := tokenAt_size s a t h
  have hd := tokenAt_delegated h (le 8 (u64At (s a).data 121-n)) (by simp)
  simp only [spendDelegation]
  split
  · have hz := tokenAt_delegate hd (zeros 36) rfl
    rw [setData_same, setData_setData] at hz
    exact ⟨_,hz⟩
  · exact ⟨t.delegate,hd⟩

end

theorem host_coreRules (program : Pubkey) (table : Table) : CoreRules (host program table) where
  transfer := by
    intro asset collection payer authority newOwner signer s s' h
    simp only [host, processCpi, coreTransfer, true_and] at h
    by_cases hc : coreOwner s asset = some (if signer then authority else payer)
    · rw [if_pos hc] at h
      cases h
      refine ⟨by rw [hc]; exact Option.some_ne_none _,?_⟩
      have hown := hc
      unfold coreOwner at hown
      split at hown
      · rename_i hasset
        obtain ⟨ho,hl,hb⟩ := hasset
        have hlen : (patch (s asset).data 1 newOwner.bytes).length = (s asset).data.length :=
          patch_length _ _ _ (by rw [newOwner.size]; omega)
        have hzero : byteAt (patch (s asset).data 1 newOwner.bytes) 0 = 1 := by
          rw [byteAt_eq_slice, slice_patch_before _ _ _ _ _ (by decide) (by omega),
            ← byteAt_eq_slice, hb]
        have hkey : keyAt (patch (s asset).data 1 newOwner.bytes) 1 = newOwner :=
          keyAt_eq _ _ _ (slice_patch_same _ _ _ _ newOwner.size (by omega))
        simp [coreOwner, ho, hlen, hl, hzero, hkey]
      · cases hown
    · rw [if_neg hc] at h
      cases h

theorem host_tokenAccepts (program : Pubkey) (table : Table) :
    TokenAccepts (host program table) where
  transfer p source mint dest n s ts td hp him hs hd hps hpd hms hmd hfs hfd hne hn hfit := by
    have hno : p ≠ noopId := by rcases hp with rfl | rfl <;> decide
    refine ⟨tokenMove s source dest ts td n,?_⟩
    simp only [host, processCpi, if_neg hno, transferChecked, hs, hd]
    rw [if_pos ⟨hp,him,hps,hpd,hms,hmd,hfs,hfd,hn,hfit,trivial⟩, if_pos trivial]
  close p acct dest s t hp hat hpt _ hz hca hne _ := by
    have hno : p ≠ noopId := by rcases hp with rfl | rfl <;> decide
    simp only [host, processCpi, if_neg hno, closeAccount, hat]
    rw [if_pos ⟨hp,hpt,hz,hne,.inl ⟨hca,trivial⟩⟩]
    exact ⟨_,rfl⟩

theorem host_tokenRules (program : Pubkey) (table : Table) : TokenRules (host program table) where
  init := by
    intro p acct mint owner s s' hp h
    have hne : p ≠ noopId := by rcases hp with rfl | rfl <;> decide
    simp only [host, processCpi, if_neg hne, initializeAccount3] at h
    split at h
    · rename_i hc
      cases h
      obtain ⟨-,ho,hl,hz,him⟩ := hc
      have hnt : tokenAt s acct = none := by
        simp [tokenAt, hz]
      have hnm : acct ≠ mint := by
        rintro rfl
        rcases him.2.1 with h | ⟨-,h,-⟩ <;> omega
      refine ⟨ho,hnt,him,hnm,⟨_,tokenAt_new s acct mint owner (ho ▸ hp),ho,rfl,rfl,⟨rfl,rfl⟩,
        fun _ => rfl⟩,fun a => by simp,?_⟩
      intro a ha
      rw [setData_other _ _ _ _ ha]
    · cases h
  transfer := by
    intro p source mint dest auth n dec s s' hp h
    have hne : p ≠ noopId := by rcases hp with rfl | rfl <;> decide
    simp only [host, processCpi, if_neg hne, transferChecked] at h
    split at h
    · rename_i ts td hts htd
      split at h
      · rename_i hc
        obtain ⟨-,him,hps,hpd,hms,hmd,-,-,hn,hfit,-⟩ := hc
        refine ⟨ts,td,hts,htd,him,hps,hpd,hms,hmd,hn,?_⟩
        split at h
        · cases h
          refine ⟨fun he a => by rw [tokenMove_self he],?_,tokenMove_owner,
            fun a h₁ h₂ => tokenMove_other h₁ h₂,fun _ => tokenMove_lamports,
            fun a ha => (tokenMove_lamports a).symm ▸ ha⟩
          intro hne'
          exact ⟨⟨_,tokenMove_source hts hne',rfl,hps,hms,rfl,rfl,rfl,id⟩,
            ⟨_,tokenMove_dest htd hne' hfit,rfl,hpd,hmd,rfl,rfl,rfl,id⟩⟩
        · split at h
          · rename_i hdel
            cases h
            obtain ⟨hdel,-,hne'⟩ := hdel
            have hsrc : tokenAt (tokenMove s source dest ts td n) source =
                some { ts with amount := ts.amount-n } := tokenMove_source hts hne'
            obtain ⟨d,hd⟩ := spendDelegation_token hsrc n
            have hlam : ∀ a, (spendDelegation (tokenMove s source dest ts td n) source n
              a).lamports =
                (s a).lamports := fun a => by
              rw [spendDelegation]
              simp [tokenMove_lamports]
            refine ⟨fun he => (hne' he).elim,fun _ => ?_,?_,?_,fun _ => hlam,
              fun a ha => (hlam a).symm ▸ ha⟩
            · refine ⟨⟨_,hd,rfl,hps,hms,rfl,rfl,rfl,fun hsl => ?_⟩,
                ⟨{ td with amount := td.amount+n },?_,rfl,hpd,hmd,rfl,rfl,rfl,id⟩⟩
              · rw [hsl.1] at hdel
                cases hdel
              · rw [tokenAt_congr _ _ _ (spendDelegation_owner _ _ _)
                  (by rw [spendDelegation_other _ _ hne'.symm])]
                exact tokenMove_dest htd hne' hfit
            · intro a
              rw [spendDelegation_owner, tokenMove_owner]
            · intro a h₁ h₂
              rw [spendDelegation_other _ _ h₁, tokenMove_other h₁ h₂]
          · cases h
      · cases h
    · cases h
  close := by
    intro p acct dest auth s s' t hp hat h
    have hne : p ≠ noopId := by rcases hp with rfl | rfl <;> decide
    simp only [host, processCpi, if_neg hne, closeAccount, hat] at h
    split at h
    · rename_i hc
      cases h
      obtain ⟨-,hpt,hz,hne',-⟩ := hc
      refine ⟨hpt,.inr hz,hne',by simp,by simp [hne'.symm],by simp [hne'.symm],
        by simp [hne'.symm],?_⟩
      intro a h₁ h₂
      simp [h₁, h₂]
    · cases h
  approve := by
    intro p source delegate auth n s s' hp h
    have hne : p ≠ noopId := by rcases hp with rfl | rfl <;> decide
    simp only [host, processCpi, if_neg hne, approve] at h
    split at h
    · split at h
      · cases h
        exact ⟨fun a => by simp,fun a ha => by rw [setData_other _ _ _ _ ha]⟩
      · cases h
    · cases h
  revoke := by
    intro p source auth s s' hp h
    have hne : p ≠ noopId := by rcases hp with rfl | rfl <;> decide
    simp only [host, processCpi, if_neg hne, revoke] at h
    split at h
    · split at h
      · cases h
        exact ⟨fun a => by simp,fun a ha => by rw [setData_other _ _ _ _ ha]⟩
      · cases h
    · cases h

/-! ## The host acts only for signers -/

/-- What the host keeps in a call signed by `signed`. -/
def Keeps (H : Host) (signed : Pubkey → Prop) (s s' : Ledger) : Prop :=
  Frame H signed (fun _ => False) s s' ∧ Holdings H signed s s'

theorem Keeps.refl (H : Host) (signed : Pubkey → Prop) (s : Ledger) : Keeps H signed s s :=
  ⟨Frame.refl _ _ _ _,HoldingsOf.refl _ _ _ _⟩

/-- A step that changes the accounts of `changed` only, each of them in a way that
is allowed. -/
theorem keeps_of_local {H : Host} {s s' : Ledger} {signed : Pubkey → Prop}
    (changed : Pubkey → Prop) (hs : H.programId ≠ systemId)
    (hq : ∀ a, ¬changed a → (s' a).owner = (s a).owner ∧ (s' a).data = (s a).data ∧
      ((s a).owner ≠ systemId → (s a).lamports ≤ (s' a).lamports))
    (hown : ∀ a, changed a → (s a).owner ≠ H.programId)
    (hvac : ∀ a, changed a → Vacant s a → signed a)
    (htok : ∀ a t, changed a → tokenAt s a = some t → ¬signed t.authority → Sealed t →
      (∃ t', tokenAt s' a = some t' ∧ Grows t t') ∧ (s a).lamports ≤ (s' a).lamports)
    (hmint : ∀ a p, changed a → IsTokenProgram p → ¬IsMint p s a)
    (hcore : ∀ a o, changed a → coreOwner s a = some o → signed o) :
    Keeps H signed s s' := by
  constructor
  · constructor
    · intro a ha _
      obtain ⟨ho,hd,hl⟩ := hq a (fun hc => hown a hc ha)
      exact ⟨ho.trans ha,hd,hl (ha ▸ hs)⟩
    · intro a _ hn hv
      obtain ⟨ho,hd,-⟩ := hq a (fun hc => hn (hvac a hc hv))
      exact ⟨ho.trans hv.1,hd.trans hv.2⟩
  · constructor
    · intro a t hat _ _ hn hsl
      by_cases hc : changed a
      · exact htok a t hc hat hn hsl
      · obtain ⟨ho,hd,hl⟩ := hq a hc
        refine ⟨⟨t,by rw [tokenAt_congr _ _ _ ho hd, hat],Grows.refl t hsl⟩,hl ?_⟩
        intro h
        rcases (tokenAt_some _ _ _ hat).1 with hp | hp <;> rw [h] at hp <;> revert hp <;> decide
    · intro a t hat _ _ _ _ _ him
      have hp : IsTokenProgram t.program := by
        obtain ⟨hp,-,ht,-⟩ := tokenAt_some _ _ _ hat
        rwa [ht]
      obtain ⟨ho,hd,-⟩ := hq t.mint (fun hc => hmint _ _ hc hp him)
      exact ⟨(isMint_congr _ _ _ _ ho hd).mpr him,by rw [mintDecimalsAt, mintDecimalsAt, hd]⟩
    · intro _ a o hao _ hn
      obtain ⟨ho,hd,-⟩ := hq a (fun hc => hn (hcore a o hc hao))
      rw [coreOwner_congr _ _ _ ho hd, hao]

section
variable {signed : Pubkey → Prop} {H : Host} {s : Ledger} {a source dest : Pubkey}
  {t ts td : TokenAccount} {n : ℕ}

/-- An account that decodes as a token account is none of the other kinds. -/
theorem token_kind (h : tokenAt s a = some t) (program : Pubkey) (hp : ¬IsTokenProgram program) :
    (s a).owner ≠ program ∧ ¬Vacant s a ∧ (∀ p, ¬IsMint p s a) ∧ coreOwner s a = none := by
  have ho := (tokenAt_some _ _ _ h).1
  refine ⟨fun hc => hp (hc ▸ ho),?_,?_,?_⟩
  · rintro ⟨hs,-⟩
    rw [hs] at ho
    revert ho
    decide
  · intro p him
    rw [isMint_not_token p s a him] at h
    cases h
  · by_contra hc
    obtain ⟨o,hao⟩ := Option.ne_none_iff_exists'.mp hc
    exact coreOwner_not_token s a o hao ho

/-- The same for a step that changes token accounts only. -/
theorem keeps_of_tokens (changed : Pubkey → Prop) {s' : Ledger} (hs : H.programId ≠ systemId)
    (hn : ¬IsTokenProgram H.programId)
    (hq : ∀ a, ¬changed a → (s' a).owner = (s a).owner ∧ (s' a).data = (s a).data ∧
      (s a).lamports ≤ (s' a).lamports)
    (hk : ∀ a, changed a → ∃ t, tokenAt s a = some t ∧ (¬signed t.authority → Sealed t →
      (∃ t', tokenAt s' a = some t' ∧ Grows t t') ∧ (s a).lamports ≤ (s' a).lamports)) :
    Keeps H signed s s' := by
  have hkind : ∀ a, changed a → (s a).owner ≠ H.programId ∧ ¬Vacant s a ∧
      (∀ p, ¬IsMint p s a) ∧ coreOwner s a = none := by
    intro a ha
    obtain ⟨t,hat,-⟩ := hk a ha
    exact token_kind hat _ hn
  refine keeps_of_local changed hs (fun a ha => ⟨(hq a ha).1,(hq a ha).2.1,fun _ => (hq a ha).2.2⟩)
    (fun a ha => (hkind a ha).1) (fun a ha hv => ((hkind a ha).2.1 hv).elim) ?_
    (fun a p ha _ => (hkind a ha).2.2.1 p) ?_
  · intro a t ha hat
    obtain ⟨u,hau,h⟩ := hk a ha
    cases hau.symm.trans hat
    exact h
  · intro a o ha hao
    rw [(hkind a ha).2.2.2] at hao
    cases hao

/-- A move of tokens by the owner of the source or by its delegate. -/
theorem tokenMove_keeps {s' : Ledger} (hs : H.programId ≠ systemId)
    (hn : ¬IsTokenProgram H.programId) (hts : tokenAt s source = some ts)
    (htd : tokenAt s dest = some td) (hfit : td.amount+n ≤ u64Max)
    (hs' : ∀ a, a ≠ source → s' a = tokenMove s source dest ts td n a)
    (hsig : signed ts.authority ∨ ts.delegate ≠ none) :
    Keeps H signed s s' := by
  apply keeps_of_tokens (fun a => a = source ∨ a = dest) hs hn
  · intro a ha
    rw [not_or] at ha
    rw [hs' a ha.1, tokenMove_other ha.1 ha.2]
    exact ⟨rfl,rfl,le_refl _⟩
  · intro a ha
    by_cases has : a = source
    · subst has
      exact ⟨ts,hts,fun hc hsl => (hsig.elim hc fun h => h hsl.1).elim⟩
    · have had := ha.resolve_left has
      subst had
      refine ⟨td,htd,fun _ hsl => ⟨⟨{ td with amount := td.amount+n },?_,
        ⟨rfl,rfl,rfl,rfl,hsl,Nat.le_add_right _ _⟩⟩,?_⟩⟩
      · rw [tokenAt_congr (tokenMove s source a ts td n) _ _ (by rw [hs' a has])
          (by rw [hs' a has])]
        exact tokenMove_dest htd (Ne.symm has) hfit
      · rw [hs' a has]
        exact (tokenMove_lamports _).ge

/-- A change of the data of one token account by its owner or of its delegate. -/
theorem setData_keeps (hs : H.programId ≠ systemId) (hn : ¬IsTokenProgram H.programId)
    (hts : tokenAt s source = some ts) (d : Bytes)
    (hsig : signed ts.authority ∨ ts.delegate ≠ none) :
    Keeps H signed s (setData s source d) := by
  apply keeps_of_tokens (fun a => a = source) hs hn
  · intro a ha
    rw [setData_other _ _ _ _ ha]
    exact ⟨rfl,rfl,le_refl _⟩
  · rintro a rfl
    exact ⟨ts,hts,fun hc hsl => (hsig.elim hc fun h => h hsl.1).elim⟩

end

/-- The demands on the address of the program itself. -/
structure Apart (program : Pubkey) : Prop where
  notSystem : program ≠ systemId
  notToken : ¬IsTokenProgram program
  notCore : program ≠ mplCoreId

theorem system_keeps {H : Host} {s s' : Ledger} {signed : Pubkey → Prop} (acct : Pubkey)
    (hs : H.programId ≠ systemId) (hv : (s acct).owner = systemId) (hsig : signed acct)
    (hq : ∀ a, a ≠ acct → (s' a).owner = (s a).owner ∧ (s' a).data = (s a).data ∧
      ((s a).owner ≠ systemId → (s a).lamports ≤ (s' a).lamports)) :
    Keeps H signed s s' := by
  have hne : ∀ p, IsTokenProgram p → (s acct).owner ≠ p := by
    rintro p hp rfl
    rw [hv] at hp
    revert hp
    decide
  apply keeps_of_local (fun a => a = acct) hs hq
  · rintro a rfl
    rw [hv]
    exact hs.symm
  · rintro a rfl _
    exact hsig
  · rintro a t rfl hat
    exact (hne _ (tokenAt_some _ _ _ hat).1 rfl).elim
  · rintro a p rfl hp him
    exact hne p hp him.1
  · rintro a o rfl hao
    unfold coreOwner at hao
    split at hao
    · rename_i h
      rw [hv] at h
      exact absurd h.1 (by decide)
    · cases hao

theorem host_keeps (program : Pubkey) (table : Table) (hp : Apart program) (c : Cpi) (s s' : Ledger)
    (h : (host program table).process c s = some s') :
    Keeps (host program table) (fun a => a ∈ c.signers) s s' := by
  have hs : (host program table).programId ≠ systemId := hp.notSystem
  have hn : ¬IsTokenProgram (host program table).programId := hp.notToken
  simp only [host] at h
  cases c with
  | createAccount payer acct n space owner =>
    simp only [processCpi, createAccount] at h
    split at h
    · rename_i hc
      cases h
      apply system_keeps acct hs hc.1.1 (by simp [Cpi.signers, Cpi.metas, payingFor])
      intro a ha
      by_cases hap : a = payer
      · subst hap
        simp [ha, hc.2.2.2.1]
      · simp [ha, hap]
    · cases h
  | transferLamports source dest n =>
    simp only [processCpi, transferLamports] at h
    split at h
    · rename_i hc
      cases h
      apply system_keeps source hs hc.1 (by simp [Cpi.signers, Cpi.metas, payingFor, writing])
      intro a ha
      by_cases had : a = dest
      · subst had
        simp
      · simp [had, ha]
    · cases h
  | initializeAccount3 p acct mint owner =>
    simp only [processCpi] at h
    split at h
    · cases h
      exact Keeps.refl _ _ _
    · simp only [initializeAccount3] at h
      split at h
      · rename_i hc
        cases h
        obtain ⟨hpt,ho,hl,hz,him⟩ := hc
        have hnt : tokenAt s acct = none := by
          simp [tokenAt, hz]
        apply keeps_of_local (fun a => a = acct) hs
        · intro a ha
          rw [setData_other _ _ _ _ ha]
          exact ⟨rfl,rfl,fun _ => le_refl _⟩
        · rintro a rfl hc
          exact hn (hc ▸ ho ▸ hpt)
        · rintro a rfl hv
          rw [hv.2] at hl
          cases hl
        · rintro a t rfl hat
          rw [hnt] at hat
          cases hat
        · rintro a q rfl - him'
          rcases him'.2.1 with h | ⟨-,h,-⟩ <;> omega
        · rintro a o rfl hao
          exact (coreOwner_not_token _ _ _ hao (ho ▸ hpt)).elim
      · cases h
  | transferChecked p source mint dest auth n dec =>
    simp only [processCpi] at h
    split at h
    · cases h
      exact Keeps.refl _ _ _
    · simp only [transferChecked] at h
      split at h
      · rename_i ts td hts htd
        split at h
        · rename_i hc
          obtain ⟨-,-,-,-,-,-,-,-,-,hfit,-⟩ := hc
          split at h
          · rename_i hau
            cases h
            refine tokenMove_keeps hs hn hts htd hfit (fun _ _ => rfl) (.inl ?_)
            simp [hau, Cpi.signers, Cpi.metas, signing, writing, reading]
          · split at h
            · rename_i hdel
              cases h
              refine tokenMove_keeps hs hn hts htd hfit
                (fun a ha => spendDelegation_other _ _ ha) (.inr ?_)
              rw [hdel.1]
              exact Option.some_ne_none _
            · cases h
        · cases h
      · cases h
  | closeAccount p acct dest auth =>
    simp only [processCpi] at h
    split at h
    · cases h
      exact Keeps.refl _ _ _
    · simp only [closeAccount] at h
      split at h
      · rename_i t hat
        split at h
        · rename_i hc
          cases h
          obtain ⟨-,-,hz,hne,hau⟩ := hc
          apply keeps_of_tokens (fun a => a = acct) hs hn
          · intro a ha
            by_cases had : a = dest
            · subst had
              simp [ha]
            · simp [ha, had]
          · rintro a rfl
            refine ⟨t,hat,fun hnau hsl => ?_⟩
            rcases hau with ⟨-,hau⟩ | hau
            · exact (hnau (by simp [hau, Cpi.signers, Cpi.metas, signing, writing])).elim
            · rw [hsl.2] at hau
              cases hau
        · cases h
      · cases h
  | approve p source delegate auth n =>
    simp only [processCpi] at h
    split at h
    · cases h
      exact Keeps.refl _ _ _
    · simp only [approve] at h
      split at h
      · rename_i t hat
        split at h
        · rename_i hc
          cases h
          refine setData_keeps hs hn hat _ (.inl ?_)
          simp [hc.2.2.1, Cpi.signers, Cpi.metas, signing, writing, reading]
        · cases h
      · cases h
  | revoke p source auth =>
    simp only [processCpi] at h
    split at h
    · cases h
      exact Keeps.refl _ _ _
    · simp only [revoke] at h
      split at h
      · rename_i t hat
        split at h
        · rename_i hc
          cases h
          refine setData_keeps hs hn hat _ (.inl ?_)
          simp [hc.2.2.1, Cpi.signers, Cpi.metas, signing, writing]
        · cases h
      · cases h
  | mplTransfer a =>
    simp only [processCpi, mplTransfer] at h
    split at h
    · rename_i ts td hts htd
      split at h
      · rename_i hc
        obtain ⟨-,-,-,-,-,-,hto,-,hau,-,-,hfit⟩ := hc
        cases h
        refine tokenMove_keeps hs hn hts htd hfit (fun _ _ => rfl) (.inl ?_)
        simp [hto, hau, Cpi.signers, Cpi.metas, signing, writing, reading]
      · cases h
    · cases h
  | mplDelegate a => cases h
  | coreTransfer core asset collection payer authority newOwner signer =>
    simp only [processCpi, coreTransfer, Option.ite_none_right_eq_some] at h
    obtain ⟨hc,h⟩ := h
    cases h
    have ho : (s asset).owner = mplCoreId := by
      have := hc.2
      unfold coreOwner at this
      split at this
      · rename_i h
        exact h.1
      · cases this
    apply keeps_of_local (fun a => a = asset) hs
    · intro a ha
      rw [setData_other _ _ _ _ ha]
      exact ⟨rfl,rfl,fun _ => le_refl _⟩
    · rintro a rfl
      rw [ho]
      exact hp.notCore.symm
    · rintro a rfl hv
      rw [hv.1] at ho
      exact absurd ho (by decide)
    · rintro a t rfl hat
      exact (coreOwner_not_token _ _ _ hc.2 (tokenAt_some _ _ _ hat).1).elim
    · rintro a q rfl hq him
      exact coreOwner_not_token _ _ _ hc.2 (him.1 ▸ hq)
    · rintro a o rfl hao
      rw [hao] at hc
      cases signer
      · simp [Option.some.inj hc.2, Cpi.signers, Cpi.metas, payingFor, writing, reading]
      · simp [Option.some.inj hc.2, Cpi.signers, Cpi.metas, payingFor, writing, reading]
  | corePlugin => cases h

theorem host_confined (program : Pubkey) (table : Table) (hp : Apart program) :
    Confined (host program table) :=
  fun c s s' _ h => (host_keeps program table hp c s s' h).1

theorem host_noSeizure (program : Pubkey) (table : Table) (hp : Apart program) :
    NoSeizure (host program table) :=
  fun c s s' _ h => (host_keeps program table hp c s s' h).2

/-! ## Ledgers -/

def ledgerOf (accounts : List (Pubkey × Account)) : Ledger :=
  fun a => ((accounts.find? fun e => e.1 = a).map Prod.snd).getD ⟨0,systemId,[]⟩

def walletAccount : Account := ⟨1000000000,systemId,[]⟩

def mintAccount : Account := ⟨1461600,splTokenId,patch (zeros 82) 45 [1]⟩

def tokenAccount (mint owner : Pubkey) (amount : ℕ) : Account :=
  ⟨2039280,splTokenId,patch (newTokenData mint owner) 64 (le 8 amount)⟩

end Xete.Reference
