import XetePrograms.Swap.Settle

/-!
# Bounded multi-mint baskets and claims by bearer key (tags 12 to 17)
-/

set_option autoImplicit false

namespace Xete.Swap
open Xete.Octets Xete.Weakest Xete.Chain Xete.Runtime

variable (E : Env)

def basketHeader (maker : Pubkey) (giveCount wantCount : ℕ) (targetTaker : Bytes)
    (authMode : UInt8) (claimAuth : Bytes) (expiry : ℤ) (bump : UInt8) (nonce : Bytes) :
    List (ℕ × Bytes) :=
  [(bMaker,maker.bytes),(bGiveCount,[UInt8.ofNat giveCount]),(bWantCount,[UInt8.ofNat wantCount]),
    (bTaker,targetTaker),(bAuthMode,[authMode]),(bClaimAuth,claimAuth),(bExpiry,leInt 8 expiry),
    (bStatus,[statusOpen]),(bBump,[bump]),(bNonce,nonce)]

/-- Copy the `j`-th want entry from the instruction data to the record. -/
def recordWant (swap : AccountInfo) (d : Bytes) (wantOff j : ℕ) : Exec Unit := do
  let e := wantOff+j*entryLen
  failIf (u64At d (e+32) = 0) .invalidInstructionData
  let s ← dataOf swap
  perform E (.write swap.key (patch s (bWant+j*entryLen) (slice d e entryLen)))

/-- Create and fund the vault of the `i`-th give entry, and record the entry. -/
def escrowLeg (maker swap tokenProg : AccountInfo) (d nonce : Bytes)
    (giveAmtsOff wantCount i : ℕ) : Exec Unit := do
  let giveMint ← accountAt E (6+i*3)
  let giveVault ← accountAt E (6+i*3+1)
  let makerGive ← accountAt E (6+i*3+2)
  let amt := u64At d (giveAmtsOff+i*8)
  failIf (amt = 0) .invalidInstructionData
  let s ← dataOf swap
  failIf (∃ j ∈ List.range wantCount, slice s (bWant+j*entryLen) 32 = giveMint.key.bytes)
    .invalidArgument
  let idx := UInt8.ofNat i
  let (vpda,vbump) ← findAddress E (bvaultSeeds maker.key nonce idx)
  failIf (vpda ≠ giveVault.key) .invalidSeeds
  createPda E maker giveVault tokenAcctLen splTokenId
    (bumped (bvaultSeeds maker.key nonce idx) vbump)
  tokenInit E tokenProg giveVault giveMint swap.key
  let dec ← mintDecimals giveMint
  tokenTransfer E tokenProg makerGive giveMint giveVault maker amt dec none
  let s ← dataOf swap
  perform E (.write swap.key (patches s
    [(bGive+i*entryLen,giveMint.key.bytes),(bGive+i*entryLen+32,le 8 amt)]))

/-- Escrow a basket of up to five mints (tag 12). -/
def openBasket (d : Bytes) : Exec Unit := do
  failIf (d.length < 34) .invalidInstructionData
  let nonce := slice d 0 32
  let giveCount := (byteAt d 32).toNat
  let wantCount := (byteAt d 33).toNat
  failIf (giveCount < 1 ∨ maxLeg < giveCount ∨ maxLeg < wantCount) .invalidInstructionData
  let giveAmtsOff := 34
  let wantOff := giveAmtsOff+giveCount*8
  let tailOff := wantOff+wantCount*entryLen
  failIf (d.length ≠ tailOff+73) .invalidInstructionData
  let expiry := i64At d tailOff
  let targetTaker := slice d (tailOff+8) 32
  let authMode := byteAt d (tailOff+40)
  let claimAuth := slice d (tailOff+41) 32
  failIf (authMode ≠ authNormal ∧ authMode ≠ authBearer) .invalidInstructionData
  failIf (authMode = authBearer ∧ (wantCount ≠ 0 ∨ claimAuth = zeros 32)) .invalidArgument
  failIf (expiry ≤ E.clock) .invalidArgument
  failIf (E.accounts.length ≠ 6+giveCount*3) .notEnoughAccountKeys
  let maker ← accountAt E 0
  let swap ← accountAt E 1
  let tokenProg ← accountAt E 3
  let config ← accountAt E 4
  let aliasAcct ← accountAt E 5
  failIf (maker.isSigner = false) .missingRequiredSignature
  requireAlias E config maker.key aliasAcct
  let (swapPda,bump) ← findAddress E (basketSeeds maker.key nonce)
  failIf (swapPda ≠ swap.key) .invalidSeeds
  createPda E maker swap basketLen E.programId (bumped (basketSeeds maker.key nonce) bump)
  let s ← dataOf swap
  perform E (.write swap.key (patches s (basketHeader maker.key giveCount wantCount targetTaker
    authMode claimAuth expiry bump nonce)))
  forEach (List.range wantCount) (recordWant E swap d wantOff)
  forEach (List.range giveCount) (escrowLeg E maker swap tokenProg d nonce giveAmtsOff wantCount)

/-- The mint and the amount of the `i`-th entry of a basket side. -/
def entryAt (s : Bytes) (base i : ℕ) : Exec (Pubkey × ℕ) := do
  failIf (s.length < base+i*entryLen+entryLen) .panicked
  return (keyAt s (base+i*entryLen),u64At s (base+i*entryLen+32))

/-- Pay the `j`-th want entry of the record to its maker, less the fee. -/
def payWantEntry (taker swap tokenProg : AccountInfo) (cfg : FeePolicy) (stateMaker : Pubkey)
    (shardSeed : UInt8) (wantBase j : ℕ) : Exec Unit := do
  let wantMint ← accountAt E (wantBase+j*4)
  let takerWant ← accountAt E (wantBase+j*4+1)
  let makerWant ← accountAt E (wantBase+j*4+2)
  let feeAta ← accountAt E (wantBase+j*4+3)
  let s ← dataOf swap
  let (expMint,wantAmount) ← entryAt s bWant j
  failIf (expMint ≠ wantMint.key) .invalidArgument
  requireTokenAccount makerWant wantMint.key stateMaker
  let wantDec ← mintDecimals wantMint
  let fee := bpsOf wantAmount cfg.feeBps
  payFee E cfg tokenProg takerWant wantMint feeAta taker fee wantDec shardSeed none
  let rest ← checkedSub wantAmount fee .panicked
  tokenTransfer E tokenProg takerWant wantMint makerWant taker rest wantDec none

/-- Release the `i`-th give entry from its vault and close the vault. The
accounts of the entry start at `giveBase+i*3`; with `recipient` given, the
destination must be that party's account. -/
def releaseLeg (swap maker tokenProg : AccountInfo) (makerKey : Pubkey) (nonce : Bytes)
    (seeds : List Bytes) (giveBase : ℕ) (recipient : Option Pubkey) (i : ℕ) : Exec Unit := do
  let giveMint ← accountAt E (giveBase+i*3)
  let giveVault ← accountAt E (giveBase+i*3+1)
  let dest ← accountAt E (giveBase+i*3+2)
  let s ← dataOf swap
  let (expMint,giveAmount) ← entryAt s bGive i
  failIf (expMint ≠ giveMint.key) .invalidArgument
  match recipient with
  | some owner => requireTokenAccount dest giveMint.key owner
  | none => pure ()
  let (vpda,_) ← findAddress E (bvaultSeeds makerKey nonce (UInt8.ofNat i))
  failIf (vpda ≠ giveVault.key) .invalidSeeds
  let dec ← mintDecimals giveMint
  tokenTransfer E tokenProg giveVault giveMint dest swap giveAmount dec (some seeds)
  tokenClose E tokenProg giveVault maker swap seeds

/-- A taker settles a normal basket (tag 13). -/
def fillBasket (d : Bytes) : Exec Unit := do
  failIf (d.length ≠ 32) .invalidInstructionData
  let nonce := slice d 0 32
  failIf (E.accounts.length < 5) .notEnoughAccountKeys
  let taker ← accountAt E 0
  let swap ← accountAt E 1
  let maker ← accountAt E 2
  let tokenProg ← accountAt E 3
  let config ← accountAt E 4
  failIf (taker.isSigner = false) .missingRequiredSignature
  failIf ((← ownerOf swap) ≠ E.programId) .illegalOwner
  let s ← dataOf swap
  failIf (s.length ≠ basketLen ∨ byteAt s bStatus ≠ statusOpen) .invalidAccountData
  failIf (byteAt s bAuthMode ≠ authNormal) .invalidArgument
  let wantCount := (byteAt s bWantCount).toNat
  failIf (wantCount = 0) .invalidArgument
  failIf (i64At s bExpiry ≤ E.clock) .invalidArgument
  failIf (keyAt s bTaker ≠ zeroKey ∧ keyAt s bTaker ≠ taker.key) .invalidArgument
  let giveCount := (byteAt s bGiveCount).toNat
  let bump := byteAt s bBump
  let stateMaker := keyAt s bMaker
  failIf (maker.key ≠ stateMaker) .invalidArgument
  let swapPda ← createAddress E (basketSeeds stateMaker nonce) bump
  failIf (swapPda ≠ swap.key) .invalidSeeds
  failIf (E.accounts.length ≠ 5+giveCount*3+wantCount*4) .notEnoughAccountKeys
  let cfg ← readConfig E config
  let seeds := bumped (basketSeeds stateMaker nonce) bump
  forEach (List.range wantCount)
    (payWantEntry E taker swap tokenProg cfg stateMaker (byteAt nonce 0) (5+giveCount*3))
  forEach (List.range giveCount)
    (releaseLeg E swap maker tokenProg stateMaker nonce seeds 5 none)
  close E swap maker

/-- Whoever holds the bearer key claims the basket (tag 14). -/
def claimBearer (d : Bytes) : Exec Unit := do
  failIf (d.length ≠ 32) .invalidInstructionData
  let nonce := slice d 0 32
  failIf (E.accounts.length < 5) .notEnoughAccountKeys
  let payer ← accountAt E 0
  let bearer ← accountAt E 1
  let swap ← accountAt E 2
  let maker ← accountAt E 3
  let tokenProg ← accountAt E 4
  failIf (payer.isSigner = false ∨ bearer.isSigner = false) .missingRequiredSignature
  failIf ((← ownerOf swap) ≠ E.programId) .illegalOwner
  let s ← dataOf swap
  failIf (s.length ≠ basketLen ∨ byteAt s bStatus ≠ statusOpen) .invalidAccountData
  failIf (byteAt s bAuthMode ≠ authBearer) .invalidArgument
  failIf (keyAt s bClaimAuth ≠ E.host.hash bearer.key.bytes) .invalidArgument
  let giveCount := (byteAt s bGiveCount).toNat
  let bump := byteAt s bBump
  let stateMaker := keyAt s bMaker
  failIf (maker.key ≠ stateMaker) .invalidArgument
  let swapPda ← createAddress E (basketSeeds stateMaker nonce) bump
  failIf (swapPda ≠ swap.key) .invalidSeeds
  failIf (E.accounts.length ≠ 5+giveCount*3) .notEnoughAccountKeys
  let seeds := bumped (basketSeeds stateMaker nonce) bump
  forEach (List.range giveCount)
    (releaseLeg E swap maker tokenProg stateMaker nonce seeds 5 none)
  close E swap maker

/-- The current bearer re-keys the basket to a new bearer hash (tag 15). -/
def rewrap (d : Bytes) : Exec Unit := do
  failIf (d.length ≠ 64) .invalidInstructionData
  let nonce := slice d 0 32
  let newAuth := slice d 32 32
  failIf (newAuth = zeros 32) .invalidArgument
  let [bearer,swap] := E.accounts | throw .notEnoughAccountKeys
  failIf (bearer.isSigner = false) .missingRequiredSignature
  failIf ((← ownerOf swap) ≠ E.programId) .illegalOwner
  let s ← dataOf swap
  failIf (s.length ≠ basketLen ∨ byteAt s bStatus ≠ statusOpen ∨ byteAt s bAuthMode ≠ authBearer)
    .invalidAccountData
  failIf (keyAt s bClaimAuth ≠ E.host.hash bearer.key.bytes) .invalidArgument
  let stateMaker := keyAt s bMaker
  let (swapPda,_) ← findAddress E (basketSeeds stateMaker nonce)
  failIf (swapPda ≠ swap.key) .invalidSeeds
  perform E (.write swap.key (patch s bClaimAuth newAuth))

/-- The maker reclaims an unfilled normal basket (tag 16). -/
def cancelBasket (d : Bytes) : Exec Unit := do
  failIf (d.length ≠ 32) .invalidInstructionData
  let nonce := slice d 0 32
  failIf (E.accounts.length < 6) .notEnoughAccountKeys
  let maker ← accountAt E 0
  let swap ← accountAt E 1
  let tokenProg ← accountAt E 2
  let config ← accountAt E 3
  let feeWallet ← accountAt E 4
  failIf (maker.isSigner = false) .missingRequiredSignature
  failIf ((← ownerOf swap) ≠ E.programId) .illegalOwner
  let s ← dataOf swap
  failIf (s.length ≠ basketLen ∨ byteAt s bStatus ≠ statusOpen) .invalidAccountData
  failIf (byteAt s bAuthMode = authBearer) .invalidArgument
  failIf (keyAt s bMaker ≠ maker.key) .illegalOwner
  let giveCount := (byteAt s bGiveCount).toNat
  let bump := byteAt s bBump
  let swapPda ← createAddress E (basketSeeds maker.key nonce) bump
  failIf (swapPda ≠ swap.key) .invalidSeeds
  failIf (E.accounts.length ≠ 6+giveCount*3) .notEnoughAccountKeys
  payDelistFee E config maker feeWallet
  let seeds := bumped (basketSeeds maker.key nonce) bump
  forEach (List.range giveCount)
    (releaseLeg E swap maker tokenProg maker.key nonce seeds 6 (some maker.key))
  close E swap maker

/-- Anyone returns an expired normal basket to its maker (tag 17). -/
def expireBasket (d : Bytes) : Exec Unit := do
  failIf (d.length ≠ 32) .invalidInstructionData
  let nonce := slice d 0 32
  failIf (E.accounts.length < 4) .notEnoughAccountKeys
  let swap ← accountAt E 1
  let maker ← accountAt E 2
  let tokenProg ← accountAt E 3
  failIf ((← ownerOf swap) ≠ E.programId) .illegalOwner
  let s ← dataOf swap
  failIf (s.length ≠ basketLen ∨ byteAt s bStatus ≠ statusOpen) .invalidAccountData
  failIf (byteAt s bAuthMode = authBearer) .invalidArgument
  failIf (E.clock < i64At s bExpiry) .invalidArgument
  let giveCount := (byteAt s bGiveCount).toNat
  let bump := byteAt s bBump
  let stateMaker := keyAt s bMaker
  failIf (maker.key ≠ stateMaker) .invalidArgument
  let swapPda ← createAddress E (basketSeeds stateMaker nonce) bump
  failIf (swapPda ≠ swap.key) .invalidSeeds
  failIf (E.accounts.length ≠ 4+giveCount*3) .notEnoughAccountKeys
  let seeds := bumped (basketSeeds stateMaker nonce) bump
  forEach (List.range giveCount)
    (releaseLeg E swap maker tokenProg stateMaker nonce seeds 4 (some stateMaker))
  close E swap maker

end Xete.Swap
