import XetePrograms.Swap.Trace

/-!
# The acts of the fee vault instructions
-/

set_option autoImplicit false

namespace Xete.Swap
open Xete.Octets Xete.Weakest Xete.Chain Xete.Token Xete.Runtime Xete.Rules

variable {E : Env} {m m' : Machine} {d : Bytes}

structure InitedConfig (E : Env) (d : Bytes) (m m' : Machine) (admin config : Pubkey) (bump : UInt8)
    (b : Bytes) : Prop where
  signed : E.signed admin
  address : E.host.findProgramAddress configSeeds E.programId = some (config,bump)
  did : Did E [createAct E admin config configLen E.programId (bumped configSeeds bump),
    .write config b] m m'

structure Capped (b : Bytes) : Prop where
  length : b.length = configLen
  bps : (feePolicy b).feeBps ≤ bpsDenom

/-- A record written with a checked fee among its fields is capped. -/
theorem capped_patches {c : Bytes} (hc : c.length = configLen) (hd : d.length = 75)
    (hb : u16At d 32 ≤ bpsDenom) (fields : List (ℕ × Bytes)) (hp : WellPlaced configLen fields)
    (hf : (cFeeBps,slice d 32 2) ∈ fields) : Capped (patches c fields) where
  length := by
    rw [patches_length c fields (by rw [hc]; exact hp.1), hc]
  bps := by
    have hlen : (slice d 32 2).length = 2 := slice_length d 32 2 (by omega)
    have hread := slice_patches c fields (by rw [hc]; exact hp) _ hf
    rw [hlen] at hread
    show natLe (slice (patches c fields) cFeeBps 2) ≤ bpsDenom
    rw [hread]
    exact hb

theorem initConfig_capped :
    wp (initConfig E d) (fun _ m' => ∃ admin config bump b,
      InitedConfig E d m m' admin config bump b ∧ (SystemRules E.host → Capped b))
      (fun _ => True) m := by
  simp [initConfig]
  intro hl hbps
  split
  · rename_i admin config system ha
    simp [createPda]
    intro hsign cfgPda bump hk he s₁ h₁ s₂ h₂
    subst he
    refine ⟨admin.key,config.key,bump,_,
      { signed := ⟨admin,by simp [ha],rfl,hsign⟩
        address := hk
        did := ⟨s₁,h₁,s₂,h₂,rfl⟩ },fun hs => ?_⟩
    obtain ⟨hst,-⟩ := created_stores hs ⟨s₁,h₁,rfl⟩
    have hlen : (s₁ config.key).data.length = configLen := by
      rw [← zeros_length configLen]
      exact congrArg List.length hst.2
    refine capped_patches hlen hl hbps _ ?_ (by simp)
    simp [WellPlaced, slice_length, hl, cAdmin, cFeeWallet, cFeeBps, cDelistFee, cAliasProgram,
      cFeeShards, cBump, configLen]
  · trivial

theorem initConfig_did :
    wp (initConfig E d) (fun _ m' => ∃ admin config bump b,
      InitedConfig E d m m' admin config bump b)
      (fun _ => True) m := by
  refine wp_mono initConfig_capped ?_ (fun _ _ => trivial)
  rintro _ m' ⟨admin,config,bump,b,h,-⟩
  exact ⟨admin,config,bump,b,h⟩

structure UpdatedConfig (E : Env) (d : Bytes) (m m' : Machine) (admin config : Pubkey) (b : Bytes) :
    Prop where
  signed : E.signed admin
  isAdmin : slice (m.ledger config).data cAdmin 32 = admin.bytes
  isConfig : IsConfig E m.ledger config
  did : Did E [.write config b] m m'

theorem updateConfig_capped :
    wp (updateConfig E d) (fun _ m' => ∃ admin config b,
      UpdatedConfig E d m m' admin config b ∧ Capped b) (fun _ => True) m := by
  simp [updateConfig]
  intro hl hbps
  split
  · rename_i admin config ha
    simp
    intro hsign ho cfgPda bump hk he hlen hadmin s₁ h₁
    subst he
    refine ⟨admin.key,config.key,_,
      { signed := ⟨admin,by simp [ha],rfl,hsign⟩
        isAdmin := hadmin
        isConfig := ⟨ho,⟨bump,hk⟩,hlen⟩
        did := ⟨s₁,h₁,rfl⟩ },?_⟩
    refine capped_patches hlen hl hbps _ ?_ (by simp)
    simp [WellPlaced, slice_length, hl, cFeeWallet, cFeeBps, cDelistFee, cAliasProgram, cFeeShards,
      configLen]
  · trivial

theorem updateConfig_did :
    wp (updateConfig E d) (fun _ m' => ∃ admin config b, UpdatedConfig E d m m' admin config b)
      (fun _ => True) m := by
  refine wp_mono updateConfig_capped ?_ (fun _ _ => trivial)
  rintro _ m' ⟨admin,config,b,h,-⟩
  exact ⟨admin,config,b,h⟩

structure FeeVaultKeys where
  payer : Pubkey
  feeVault : Pubkey
  wantMint : Pubkey
  tokenProg : Pubkey
  config : Pubkey

def initFeeVaultActs (E : Env) (k : FeeVaultKeys) (idx bump : UInt8) : List Act :=
  [createAct E k.payer k.feeVault tokenAcctLen splTokenId
    (bumped (feeVaultSeeds k.wantMint idx) bump),
    initAct k.tokenProg k.feeVault k.wantMint k.config]

structure InitedFeeVault (E : Env) (d : Bytes) (m m' : Machine) (k : FeeVaultKeys) (bump : UInt8) :
    Prop where
  mintSlot : SlotIs E 2 k.wantMint
  tokenSlot : SlotIs E 3 k.tokenProg
  config : ∃ b, E.host.findProgramAddress configSeeds E.programId = some (k.config,b)
  address : E.host.findProgramAddress (feeVaultSeeds k.wantMint (byteAt d 0)) E.programId =
    some (k.feeVault,bump)
  did : Did E (initFeeVaultActs E k (byteAt d 0) bump) m m'

theorem initFeeVault_did :
    wp (initFeeVault E d) (fun _ m' => ∃ k bump, InitedFeeVault E d m m' k bump) (fun _ => True)
      m := by
  simp [initFeeVault]
  intro hl
  split
  · rename_i payer feeVault wantMint tokenProg system ha
    simp [createPda, tokenInit]
    intro hsign cfgPda bc hc fvPda bump hfv he s₁ h₁ s₂ h₂
    subst he
    refine ⟨⟨payer.key,feeVault.key,wantMint.key,tokenProg.key,cfgPda⟩,bump,?_⟩
    exact
      { mintSlot := by simp [SlotIs, ha]
        tokenSlot := by simp [SlotIs, ha]
        config := ⟨bc,hc⟩
        address := hfv
        did := ⟨s₁,h₁,s₂,h₂,rfl⟩ }
  · trivial

structure SweepKeys where
  feeVault : Pubkey
  wantMint : Pubkey
  config : Pubkey
  feeWalletAta : Pubkey
  tokenProg : Pubkey

def sweepActs (k : SweepKeys) (amount : ℕ) (dec bump : UInt8) : List Act :=
  if amount = 0 then []
  else [transferAct k.tokenProg k.feeVault k.wantMint k.feeWalletAta k.config amount dec
    (some (bumped configSeeds bump))]

structure SweptFees (E : Env) (d : Bytes) (m m' : Machine) (k : SweepKeys) (dec bump : UInt8) :
    Prop where
  vaultSlot : SlotIs E 1 k.feeVault
  mintSlot : SlotIs E 2 k.wantMint
  tokenSlot : SlotIs E 5 k.tokenProg
  isConfig : IsConfig E m.ledger k.config
  config : E.host.findProgramAddress configSeeds E.programId = some (k.config,bump)
  address : ∃ b, E.host.findProgramAddress (feeVaultSeeds k.wantMint (byteAt d 0)) E.programId =
    some (k.feeVault,b)
  wallet : BelongsTo m.ledger k.feeWalletAta k.wantMint (keyAt (m.ledger k.config).data cFeeWallet)
  did : Did E (sweepActs k (u64At (m.ledger k.feeVault).data 64) dec bump) m m'

theorem sweepFees_did :
    wp (sweepFees E d) (fun _ m' => ∃ k dec bump, SweptFees E d m m' k dec bump) (fun _ => True)
      m := by
  simp [sweepFees]
  intro hl
  split
  · rename_i caller feeVault wantMint config feeWalletAta tokenProg ha
    simp [tokenTransfer, wp_ite]
    intro hsign fvPda bv hfv he ho cfgPda bc hc he' hlen hw hv
    subst he he'
    have hswept : ∀ dec m', Did E (sweepActs ⟨feeVault.key,wantMint.key,config.key,feeWalletAta.key,
        tokenProg.key⟩ (u64At (m.ledger feeVault.key).data 64) dec bc) m m' →
        ∃ k dec bump, SweptFees E d m m' k dec bump := fun dec m' hd =>
      ⟨_,dec,bc,
        { vaultSlot := by simp [SlotIs, ha]
          mintSlot := by simp [SlotIs, ha]
          tokenSlot := by simp [SlotIs, ha]
          isConfig := ⟨ho,⟨bc,hc⟩,hlen⟩
          config := hc
          address := ⟨bv,hfv⟩
          wallet := hw
          did := hd }⟩
    constructor
    · intro hz
      apply hswept 0
      simp [sweepActs, hz]
    · intro hnz dec _ s₁ h₁
      apply hswept dec
      rw [sweepActs, if_neg hnz]
      exact ⟨s₁,h₁,rfl⟩
  · trivial

end Xete.Swap
