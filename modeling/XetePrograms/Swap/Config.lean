import XetePrograms.Swap.Cpi

/-!
# The fee policy, the alias gate and the fee vaults (tags 8 to 11)
-/

set_option autoImplicit false

namespace Xete.Swap
open Xete.Octets Xete.Weakest Xete.Chain Xete.Runtime

variable (E : Env)

/-- Create the fee-policy config; the signer becomes its admin (tag 8). -/
def initConfig (d : Bytes) : Exec Unit := do
  failIf (d.length ≠ 75) .invalidInstructionData
  failIf (bpsDenom < u16At d 32) .invalidArgument
  let [admin,config,_system] := E.accounts | throw .notEnoughAccountKeys
  failIf (admin.isSigner = false) .missingRequiredSignature
  let (cfgPda,bump) ← findAddress E configSeeds
  failIf (cfgPda ≠ config.key) .invalidSeeds
  createPda E admin config configLen E.programId (bumped configSeeds bump)
  let c ← dataOf config
  perform E (.write config.key (patches c
    [(cAdmin,admin.key.bytes),(cFeeWallet,slice d 0 32),(cFeeBps,slice d 32 2),
      (cDelistFee,slice d 34 8),(cAliasProgram,slice d 42 32),(cFeeShards,[byteAt d 74]),
      (cBump,[bump])]))

/-- Retune the fee policy, by its admin only (tag 9). -/
def updateConfig (d : Bytes) : Exec Unit := do
  failIf (d.length ≠ 75) .invalidInstructionData
  failIf (bpsDenom < u16At d 32) .invalidArgument
  let [admin,config] := E.accounts | throw .notEnoughAccountKeys
  failIf (admin.isSigner = false) .missingRequiredSignature
  failIf ((← ownerOf config) ≠ E.programId) .illegalOwner
  let (cfgPda,_) ← findAddress E configSeeds
  failIf (cfgPda ≠ config.key) .invalidSeeds
  let c ← dataOf config
  failIf (c.length ≠ configLen ∨ slice c cAdmin 32 ≠ admin.key.bytes) .invalidArgument
  perform E (.write config.key (patches c
    [(cFeeWallet,slice d 0 32),(cFeeBps,slice d 32 2),(cDelistFee,slice d 34 8),
      (cAliasProgram,slice d 42 32),(cFeeShards,[byteAt d 74])]))

/-- Create the fee vault of one want mint and shard (tag 10). -/
def initFeeVault (d : Bytes) : Exec Unit := do
  failIf (d.length ≠ 1) .invalidInstructionData
  let idx := byteAt d 0
  let [payer,feeVault,wantMint,tokenProgram,_system] := E.accounts
    | throw .notEnoughAccountKeys
  failIf (payer.isSigner = false) .missingRequiredSignature
  let (cfgPda,_) ← findAddress E configSeeds
  let (fvPda,fbump) ← findAddress E (feeVaultSeeds wantMint.key idx)
  failIf (fvPda ≠ feeVault.key) .invalidSeeds
  createPda E payer feeVault tokenAcctLen splTokenId (bumped (feeVaultSeeds wantMint.key idx) fbump)
  tokenInit E tokenProgram feeVault wantMint cfgPda

/-- Drain one fee vault into the fee wallet's account, by anyone (tag 11). -/
def sweepFees (d : Bytes) : Exec Unit := do
  failIf (d.length ≠ 1) .invalidInstructionData
  let idx := byteAt d 0
  let [caller,feeVault,wantMint,config,feeWalletAta,tokenProgram] := E.accounts
    | throw .notEnoughAccountKeys
  failIf (caller.isSigner = false) .missingRequiredSignature
  let (fvPda,_) ← findAddress E (feeVaultSeeds wantMint.key idx)
  failIf (fvPda ≠ feeVault.key) .invalidSeeds
  failIf ((← ownerOf config) ≠ E.programId) .illegalOwner
  let (cfgPda,cfgBump) ← findAddress E configSeeds
  failIf (cfgPda ≠ config.key) .invalidSeeds
  let c ← dataOf config
  failIf (c.length ≠ configLen) .invalidAccountData
  let feeWallet := keyAt c cFeeWallet
  requireTokenAccount feeWalletAta wantMint.key feeWallet
  let v ← dataOf feeVault
  failIf (v.length < 72) .invalidAccountData
  let amount := u64At v 64
  if amount = 0 then
    return ()
  let wantDec ← mintDecimals wantMint
  tokenTransfer E tokenProgram feeVault wantMint feeWalletAta config amount wantDec
    (some (bumped configSeeds cfgBump))

structure FeePolicy where
  feeBps : ℕ
  delistFee : ℕ
  feeWallet : Pubkey
  feeShards : UInt8

def feePolicy (c : Bytes) : FeePolicy :=
  ⟨u16At c cFeeBps,u64At c cDelistFee,keyAt c cFeeWallet,byteAt c cFeeShards⟩

/-- Read the fee policy from the config account, verifying it. -/
def readConfig (config : AccountInfo) : Exec FeePolicy := do
  failIf ((← ownerOf config) ≠ E.programId) .illegalOwner
  let (cfgPda,_) ← findAddress E configSeeds
  failIf (cfgPda ≠ config.key) .invalidSeeds
  let c ← dataOf config
  failIf (c.length ≠ configLen) .invalidAccountData
  return feePolicy c

/-- The fee destination is the fee wallet's account of the want mint, or the
shard's fee vault when sharding is on. -/
def verifyFeeDest (feeAta wantMint : AccountInfo) (feeWallet : Pubkey)
    (feeShards shardSeed : UInt8) : Exec Unit := do
  if feeShards = 0 then
    requireTokenAccount feeAta wantMint.key feeWallet
  else
    let (fv,_) ← findAddress E (feeVaultSeeds wantMint.key (shardSeed % feeShards))
    failIf (fv ≠ feeAta.key) .invalidArgument

/-- The listing gate: the caller presents an alias account it owns, unless the
config names no alias program. -/
def requireAlias (config : AccountInfo) (caller : Pubkey) (aliasAcct : AccountInfo) :
    Exec Unit := do
  failIf ((← ownerOf config) ≠ E.programId) .illegalOwner
  let (cfgPda,_) ← findAddress E configSeeds
  failIf (cfgPda ≠ config.key) .invalidSeeds
  let c ← dataOf config
  failIf (c.length ≠ configLen) .invalidAccountData
  let aliasProgram := keyAt c cAliasProgram
  if aliasProgram = zeroKey then
    return ()
  failIf ((← ownerOf aliasAcct) ≠ aliasProgram) .invalidArgument
  let a ← dataOf aliasAcct
  failIf (a.length ≠ aliasLen ∨ slice a 0 32 ≠ caller.bytes) .invalidArgument

/-- The flat lamport charge of a voluntary cancel. -/
def payDelistFee (config maker feeWallet : AccountInfo) : Exec Unit := do
  let cfg ← readConfig E config
  if 0 < cfg.delistFee then
    failIf (feeWallet.key ≠ cfg.feeWallet) .invalidArgument
    transferLamports E maker feeWallet cfg.delistFee

/-- `k` is the config account of this program. -/
def IsConfig (s : Ledger) (k : Pubkey) : Prop :=
  (s k).owner = E.programId ∧
    (∃ b, E.host.findProgramAddress configSeeds E.programId = some (k,b)) ∧
    (s k).data.length = configLen

def PassesGate (s : Ledger) (config caller aliasAcct : Pubkey) : Prop :=
  IsConfig E s config ∧
    (keyAt (s config).data cAliasProgram = zeroKey ∨
      (s aliasAcct).owner = keyAt (s config).data cAliasProgram ∧
        (s aliasAcct).data.length = aliasLen ∧ slice (s aliasAcct).data 0 32 = caller.bytes)

def IsFeeDest (s : Ledger) (feeAta wantMint feeWallet : Pubkey) (feeShards shardSeed : UInt8) :
    Prop :=
  if feeShards = 0 then BelongsTo s feeAta wantMint feeWallet
  else ∃ b, E.host.findProgramAddress (feeVaultSeeds wantMint (shardSeed % feeShards))
    E.programId = some (feeAta,b)

section
variable {E} {m : Machine} {F : Machine → Prop}

@[simp] theorem wp_readConfig (config : AccountInfo) {Q : FeePolicy → Machine → Prop} :
    wp (readConfig E config) Q F m ↔
      (IsConfig E m.ledger config.key → Q (feePolicy (m.ledger config.key).data) m) ∧
      (¬IsConfig E m.ledger config.key → F m) := by
  simp only [readConfig, wp_bind, wp_ownerOf, wp_failIf, wp_findAddress, wp_dataOf, wp_pure,
    IsConfig]
  rcases E.host.findProgramAddress configSeeds E.programId with _ | ⟨a,b⟩
  · simp
  · by_cases ha : a = config.key
    · simp [ha]
      tauto
    · simp [ha]

@[simp] theorem wp_verifyFeeDest (feeAta wantMint : AccountInfo) (feeWallet : Pubkey)
    (feeShards shardSeed : UInt8) {Q : Unit → Machine → Prop} :
    wp (verifyFeeDest E feeAta wantMint feeWallet feeShards shardSeed) Q F m ↔
      (IsFeeDest E m.ledger feeAta.key wantMint.key feeWallet feeShards shardSeed → Q () m) ∧
      (¬IsFeeDest E m.ledger feeAta.key wantMint.key feeWallet feeShards shardSeed → F m) := by
  unfold verifyFeeDest IsFeeDest
  split
  · rw [wp_requireTokenAccount]
  · simp only [wp_bind, wp_failIf, wp_findAddress]
    rcases E.host.findProgramAddress _ E.programId with _ | ⟨a,b⟩
    · simp
    · simp

@[simp] theorem wp_requireAlias (config : AccountInfo) (caller : Pubkey) (aliasAcct : AccountInfo)
    {Q : Unit → Machine → Prop} :
    wp (requireAlias E config caller aliasAcct) Q F m ↔
      (PassesGate E m.ledger config.key caller aliasAcct.key → Q () m) ∧
      (¬PassesGate E m.ledger config.key caller aliasAcct.key → F m) := by
  simp only [requireAlias, wp_bind, wp_ownerOf, wp_failIf, wp_findAddress, wp_dataOf, wp_ite,
    wp_pure, PassesGate, IsConfig]
  rcases E.host.findProgramAddress configSeeds E.programId with _ | ⟨a,b⟩
  · simp
  · by_cases ha : a = config.key
    · simp [ha]
      tauto
    · simp [ha]

end

end Xete.Swap
