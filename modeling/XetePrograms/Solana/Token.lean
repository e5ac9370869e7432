import XetePrograms.Solana.Chain

/-!
# Token accounts, mints and Core assets

The token programs and Metaplex Core keep their state in account data at fixed
offsets. The decoders here are shared by the rules of those programs and by
the statements about custody.
-/

set_option autoImplicit false

namespace Xete.Token
open Xete.Octets Xete.Chain

structure TokenAccount where
  program : Pubkey
  mint : Pubkey
  authority : Pubkey
  amount : ℕ
  delegate : Option Pubkey
  frozen : Bool
  native : Bool
  closeAuthority : Option Pubkey
  deriving DecidableEq

/-- A key behind a four-byte tag. -/
def optionKeyAt (d : Bytes) (off : ℕ) : Option Pubkey :=
  if slice d off 4 = zeros 4 then none else some (keyAt d (off+4))

def HasTokenSize (owner : Pubkey) (d : Bytes) : Prop :=
  d.length = 165 ∨ owner = token2022Id ∧ 165 < d.length ∧ byteAt d 165 = 2

def HasMintSize (owner : Pubkey) (d : Bytes) : Prop :=
  d.length = 82 ∨ owner = token2022Id ∧ 165 < d.length ∧ byteAt d 165 = 1

instance (owner : Pubkey) (d : Bytes) : Decidable (HasTokenSize owner d) := by
  unfold HasTokenSize; infer_instance

instance (owner : Pubkey) (d : Bytes) : Decidable (HasMintSize owner d) := by
  unfold HasMintSize; infer_instance

/-- The initialised token account at `a`, under either token program. -/
def tokenAt (s : Ledger) (a : Pubkey) : Option TokenAccount :=
  let d := (s a).data
  if IsTokenProgram (s a).owner ∧ HasTokenSize (s a).owner d ∧ byteAt d 108 ≠ 0 then
    some
      { program := (s a).owner
        mint := keyAt d 0
        authority := keyAt d 32
        amount := u64At d 64
        delegate := optionKeyAt d 72
        frozen := byteAt d 108 = 2
        native := slice d 109 4 ≠ zeros 4
        closeAuthority := optionKeyAt d 129 }
  else none

def IsMint (program : Pubkey) (s : Ledger) (m : Pubkey) : Prop :=
  (s m).owner = program ∧ HasMintSize program (s m).data ∧ byteAt (s m).data 45 ≠ 0

instance (program : Pubkey) (s : Ledger) (m : Pubkey) : Decidable (IsMint program s m) := by
  unfold IsMint; infer_instance

def mintDecimalsAt (s : Ledger) (m : Pubkey) : UInt8 := byteAt (s m).data 44

/-- The owner recorded in a Core asset. -/
def coreOwner (s : Ledger) (a : Pubkey) : Option Pubkey :=
  if (s a).owner = mplCoreId ∧ 33 ≤ (s a).data.length ∧ byteAt (s a).data 0 = 1 then
    some (keyAt (s a).data 1)
  else none

theorem tokenAt_some (s : Ledger) (a : Pubkey) (t : TokenAccount) (h : tokenAt s a = some t) :
    IsTokenProgram (s a).owner ∧ HasTokenSize (s a).owner (s a).data ∧ t.program = (s a).owner ∧
      t.mint = keyAt (s a).data 0 ∧ t.authority = keyAt (s a).data 32 ∧
      t.amount = u64At (s a).data 64 := by
  simp only [tokenAt] at h
  split at h
  · rename_i hc
    cases h
    exact ⟨hc.1,hc.2.1,rfl,rfl,rfl,rfl⟩
  · cases h

theorem tokenAt_size (s : Ledger) (a : Pubkey) (t : TokenAccount) (h : tokenAt s a = some t) :
    165 ≤ (s a).data.length := by
  rcases (tokenAt_some s a t h).2.1 with h | h <;> omega

theorem tokenAt_congr (s s' : Ledger) (a : Pubkey) (ho : (s' a).owner = (s a).owner)
    (hd : (s' a).data = (s a).data) : tokenAt s' a = tokenAt s a := by
  simp only [tokenAt, ho, hd]

theorem isMint_congr (p : Pubkey) (s s' : Ledger) (m : Pubkey) (ho : (s' m).owner = (s m).owner)
    (hd : (s' m).data = (s m).data) : IsMint p s' m ↔ IsMint p s m := by
  simp only [IsMint, ho, hd]

theorem coreOwner_congr (s s' : Ledger) (a : Pubkey) (ho : (s' a).owner = (s a).owner)
    (hd : (s' a).data = (s a).data) : coreOwner s' a = coreOwner s a := by
  simp only [coreOwner, ho, hd]

theorem tokenAt_amount_le (s : Ledger) (a : Pubkey) (t : TokenAccount)
    (h : tokenAt s a = some t) : t.amount ≤ u64Max := by
  rw [(tokenAt_some s a t h).2.2.2.2.2]
  exact u64At_le _ _

/-- A mint is told from a token account by its size or its type byte. -/
theorem isMint_not_token (p : Pubkey) (s : Ledger) (m : Pubkey) (h : IsMint p s m) :
    tokenAt s m = none := by
  obtain ⟨ho,hs,-⟩ := h
  by_contra hn
  obtain ⟨t,ht⟩ := Option.ne_none_iff_exists'.mp hn
  have hz := (tokenAt_some s m t ht).2.1
  rw [ho] at hz
  rcases hz with hz | ⟨-,hz,hb⟩ <;> rcases hs with hs | ⟨-,hs,hc⟩
  · omega
  · omega
  · omega
  · rw [hb] at hc
    exact absurd hc (by decide)

/-- No account belongs to a token program and to Core. -/
theorem coreOwner_not_token (s : Ledger) (a o : Pubkey) (h : coreOwner s a = some o) :
    ¬IsTokenProgram (s a).owner := by
  unfold coreOwner at h
  split at h
  · rename_i hc
    rw [hc.1]
    decide
  · cases h

end Xete.Token
