import XetePrograms.Swap.State

/-!
# Wiring of the cross-program calls and the account helpers
-/

set_option autoImplicit false

namespace Xete.Swap
open Xete.Octets Xete.Weakest Xete.Chain Xete.Runtime

variable (E : Env)

/-- Create a program-derived account, signed for by `seeds`. -/
def createPda (payer acct : AccountInfo) (space : ℕ) (owner : Pubkey) (seeds : List Bytes) :
    Exec Unit :=
  perform E (.invoke (.createAccount payer.key acct.key (E.host.minimumBalance space) space owner)
    (some seeds))

/-- The token program must be one of the two known ones and own the mint. -/
def assertTokenProgram (tokenProg giveMint : AccountInfo) : Exec Unit := do
  failIf (tokenProg.key ≠ splTokenId ∧ tokenProg.key ≠ token2022Id) .incorrectProgramId
  failIf ((← ownerOf giveMint) ≠ tokenProg.key) .incorrectProgramId

/-- The associated token account for an owner and a mint under the classic program. -/
def ataFor (owner mint : Pubkey) : Exec Pubkey := do
  let (ata,_) ← unwrap
    (E.host.findProgramAddress [owner.bytes,splTokenId.bytes,mint.bytes] ataProgramId) .panicked
  return ata

def mplTransfer (tm srcTa tokenOwner dstTa dstOwner mint metadata edition ownerRecord dstRecord
    authority payer system sysvarIx splTok ataProg rulesProg rules : AccountInfo) (amount : ℕ)
    (seeds : Option (List Bytes)) : Exec Unit :=
  perform E (.invoke (.mplTransfer
    { tm := tm.key, srcTa := srcTa.key, tokenOwner := tokenOwner.key, dstTa := dstTa.key
      dstOwner := dstOwner.key, mint := mint.key, metadata := metadata.key, edition := edition.key
      ownerRecord := ownerRecord.key, dstRecord := dstRecord.key, authority := authority.key
      payer := payer.key, system := system.key, sysvarIx := sysvarIx.key, splTok := splTok.key
      ataProg := ataProg.key, rulesProg := rulesProg.key, rules := rules.key
      amount := amount }) seeds)

/-- Move a Core asset. The authority is the Core program itself as the sentinel
for "the payer" on escrow, or the program-derived owner on release. -/
def mplCoreTransfer (core asset collection payer authority newOwner : AccountInfo)
    (authorityIsSigner : Bool) (seeds : Option (List Bytes)) : Exec Unit :=
  perform E (.invoke (.coreTransfer core.key asset.key collection.key payer.key authority.key
    newOwner.key authorityIsSigner) seeds)

def mplDelegateOrRevoke (tm tokenRecord delegate metadata edition mint ownerAta authority payer
    system sysvarIx splTok rulesProg rules : AccountInfo) (amount : ℕ) (revoke : Bool) :
    Exec Unit :=
  perform E (.invoke (.mplDelegate
    { tm := tm.key, tokenRecord := tokenRecord.key, delegate := delegate.key
      metadata := metadata.key, edition := edition.key, mint := mint.key
      ownerAta := ownerAta.key, authority := authority.key, payer := payer.key
      system := system.key, sysvarIx := sysvarIx.key, splTok := splTok.key
      rulesProg := rulesProg.key, rules := rules.key, amount := amount, revoke := revoke }) none)

def mplCorePlugin (core asset collection signer system : AccountInfo) (data : Bytes)
    (seeds : Option (List Bytes)) : Exec Unit :=
  perform E (.invoke (.corePlugin core.key asset.key collection.key signer.key system.key data)
    seeds)

def tokenApprove (tokenProg source delegate authority : AccountInfo) (amount : ℕ) : Exec Unit :=
  perform E (.invoke (.approve tokenProg.key source.key delegate.key authority.key amount) none)

def tokenRevoke (tokenProg source authority : AccountInfo) : Exec Unit :=
  perform E (.invoke (.revoke tokenProg.key source.key authority.key) none)

/-- Initialise a token account; `authority` becomes its token owner. -/
def tokenInit (tokenProg acct mint : AccountInfo) (authority : Pubkey) : Exec Unit :=
  perform E (.invoke (.initializeAccount3 tokenProg.key acct.key mint.key authority) none)

/-- The seeds are given when the authority is a program-derived address, and
not when it signed the transaction. -/
def tokenTransfer (tokenProg source mint dest authority : AccountInfo) (amount : ℕ)
    (decimals : UInt8) (seeds : Option (List Bytes)) : Exec Unit :=
  perform E (.invoke (.transferChecked tokenProg.key source.key mint.key dest.key authority.key
    amount decimals) seeds)

def tokenClose (tokenProg acct dest authority : AccountInfo) (seeds : List Bytes) : Exec Unit :=
  perform E (.invoke (.closeAccount tokenProg.key acct.key dest.key authority.key) (some seeds))

/-- A flat lamport payment from a signer. -/
def transferLamports (source dest : AccountInfo) (lamports : ℕ) : Exec Unit :=
  perform E (.invoke (.transferLamports source.key dest.key lamports) none)

/-- A passed token account must hold `mint` and belong to `owner`. -/
def requireTokenAccount (acct : AccountInfo) (mint owner : Pubkey) : Exec Unit := do
  let a ← dataOf acct
  failIf (a.length < 64 ∨ slice a 0 32 ≠ mint.bytes ∨ slice a 32 32 ≠ owner.bytes)
    .invalidArgument

/-- Move every lamport of `account` to `dest` and wipe its data. -/
def close (account dest : AccountInfo) : Exec Unit := do
  let amt ← lamportsOf account
  failIf (u64Max < (← lamportsOf dest)+amt) .arithmeticOverflow
  perform E (.close account.key dest.key)

/-- The account at `a` reads as a token account of `mint` that belongs to `owner`. -/
def BelongsTo (s : Ledger) (a mint owner : Pubkey) : Prop :=
  64 ≤ (s a).data.length ∧ keyAt (s a).data 0 = mint ∧ keyAt (s a).data 32 = owner

section
variable {E} {m : Machine} {F : Machine → Prop}

theorem slice_eq_key (d : Bytes) (off : ℕ) (k : Pubkey) (h : off+32 ≤ d.length) :
    slice d off 32 = k.bytes ↔ keyAt d off = k := by
  rw [← keyAt_bytes d off h, Pubkey.bytes_inj]

@[simp] theorem wp_requireTokenAccount (acct : AccountInfo) (mint owner : Pubkey)
    {Q : Unit → Machine → Prop} :
    wp (requireTokenAccount acct mint owner) Q F m ↔
      (BelongsTo m.ledger acct.key mint owner → Q () m) ∧
      (¬BelongsTo m.ledger acct.key mint owner → F m) := by
  have h : BelongsTo m.ledger acct.key mint owner ↔
      ¬((m.ledger acct.key).data.length < 64 ∨
        slice (m.ledger acct.key).data 0 32 ≠ mint.bytes ∨
        slice (m.ledger acct.key).data 32 32 ≠ owner.bytes) := by
    simp only [BelongsTo, not_or, not_lt, not_not]
    constructor
    · rintro ⟨h,h₁,h₂⟩
      exact ⟨h,(slice_eq_key _ _ _ (by omega)).mpr h₁,(slice_eq_key _ _ _ (by omega)).mpr h₂⟩
    · rintro ⟨h,h₁,h₂⟩
      exact ⟨h,(slice_eq_key _ _ _ (by omega)).mp h₁,(slice_eq_key _ _ _ (by omega)).mp h₂⟩
  rw [requireTokenAccount, wp_bind, wp_dataOf, wp_failIf, h, not_not]

/-- The overflow check of a close refuses nothing that the close itself accepts. -/
theorem close_effect_none {s : Ledger} {k dest : Pubkey}
    (h : u64Max < (s dest).lamports+(s k).lamports) : (Act.close k dest).effect E s = none := by
  rw [Act.effect, if_neg]
  rintro ⟨-,-,-,-,hle⟩
  omega

theorem close_effect_le {s s' : Ledger} {k dest : Pubkey}
    (h : (Act.close k dest).effect E s = some s') :
    (s dest).lamports+(s k).lamports ≤ u64Max := by
  by_contra hle
  rw [close_effect_none (not_le.mp hle)] at h
  cases h

@[simp] theorem wp_close (account dest : AccountInfo) {Q : Unit → Machine → Prop} :
    wp (close E account dest) Q F m ↔
      (∀ s, (Act.close account.key dest.key).effect E m.ledger = some s →
        Q () (m.next (.close account.key dest.key) s)) ∧
      (u64Max < (m.ledger dest.key).lamports+(m.ledger account.key).lamports → F m) ∧
      ((m.ledger dest.key).lamports+(m.ledger account.key).lamports ≤ u64Max →
        (Act.close account.key dest.key).effect E m.ledger = none →
          F (m.next (.close account.key dest.key) m.ledger)) := by
  simp only [close, wp_bind, wp_lamportsOf, wp_failIf, wp_perform, not_lt]
  constructor
  · rintro ⟨hle,hover⟩
    refine ⟨fun s hs => ?_,hover,fun h => (hle h).2⟩
    by_cases h : u64Max < (m.ledger dest.key).lamports+(m.ledger account.key).lamports
    · rw [close_effect_none h] at hs
      cases hs
    · exact (hle (by omega)).1 s hs
  · rintro ⟨hs,hover,hnone⟩
    exact ⟨fun h => ⟨hs,hnone h⟩,hover⟩

theorem total_close (account dest : AccountInfo) {Q : Unit → Machine → Prop} :
    wp (close E account dest) Q (fun _ => False) m ↔
      ∃ s, (Act.close account.key dest.key).effect E m.ledger = some s ∧
        Q () (m.next (.close account.key dest.key) s) := by
  rw [← total_perform, wp_close, wp_perform]
  constructor
  · rintro ⟨hs,hover,hnone⟩
    refine ⟨hs,fun h => ?_⟩
    by_cases hle : (m.ledger dest.key).lamports+(m.ledger account.key).lamports ≤ u64Max
    · exact hnone hle h
    · exact hover (by omega)
  · rintro ⟨hs,hnone⟩
    exact ⟨hs,fun h => hnone (close_effect_none h),fun _ => hnone⟩

@[simp] theorem wp_assertTokenProgram (tokenProg mint : AccountInfo) {Q : Unit → Machine → Prop} :
    wp (assertTokenProgram tokenProg mint) Q F m ↔
      (IsTokenProgram tokenProg.key → (m.ledger mint.key).owner = tokenProg.key → Q () m) ∧
      (¬(IsTokenProgram tokenProg.key ∧ (m.ledger mint.key).owner = tokenProg.key) → F m) := by
  simp only [assertTokenProgram, wp_bind, wp_failIf, wp_ownerOf, IsTokenProgram]
  tauto

@[simp] theorem wp_ataFor (owner mint : Pubkey) {Q : Pubkey → Machine → Prop} :
    wp (ataFor E owner mint) Q F m ↔
      (∀ a b, E.host.findProgramAddress [owner.bytes,splTokenId.bytes,mint.bytes] ataProgramId =
        some (a,b) → Q a m) ∧
      (E.host.findProgramAddress [owner.bytes,splTokenId.bytes,mint.bytes] ataProgramId = none →
        F m) := by
  simp [ataFor]

end

end Xete.Swap
