import XetePrograms.Swap.Events
import XetePrograms.Swap.Settle

/-!
# Swaps of one token for another: open, fill, cancel and expire (tags 0 to 3)
-/

set_option autoImplicit false

namespace Xete.Swap
open Xete.Octets Xete.Weakest Xete.Chain Xete.Runtime

variable (E : Env)

/-- The fields of a new swap record, in the order in which they are written. -/
def swapFields (maker giveMint : Pubkey) (giveAmount : ℕ) (wantMint : Pubkey) (wantAmount : ℕ)
    (targetTaker terms : Bytes) (expiry : ℤ) (bump : UInt8) (nonce : Bytes) : List (ℕ × Bytes) :=
  [(sMaker,maker.bytes),(sGiveMint,giveMint.bytes),(sGiveAmt,le 8 giveAmount),
    (sWantMint,wantMint.bytes),(sWantAmt,le 8 wantAmount),(sTaker,targetTaker),(sTerms,terms),
    (sExpiry,leInt 8 expiry),(sStatus,[statusOpen]),(sBump,[bump]),(sNonce,nonce)]

/-- Lock the give-leg in a vault and post the terms (tag 0). -/
def openSwap (d : Bytes) : Exec Unit := do
  failIf (d.length ≠ 120) .invalidInstructionData
  let nonce := slice d 0 32
  let giveAmount := u64At d 32
  let wantAmount := u64At d 40
  let terms := slice d 48 32
  let expiry := i64At d 80
  let targetTaker := slice d 88 32
  let [maker,swap,vault,giveMint,wantMint,makerGive,tokenProg,_system,config,aliasAcct] :=
    E.accounts
    | throw .notEnoughAccountKeys
  failIf (maker.isSigner = false) .missingRequiredSignature
  failIf (giveAmount = 0 ∨ wantAmount = 0) .invalidInstructionData
  failIf (expiry ≤ E.clock) .invalidArgument
  requireAlias E config maker.key aliasAcct
  let (swapPda,bump) ← findAddress E (swapSeeds maker.key nonce)
  failIf (swapPda ≠ swap.key) .invalidSeeds
  let (vaultPda,vbump) ← findAddress E (vaultSeeds maker.key nonce)
  failIf (vaultPda ≠ vault.key) .invalidSeeds
  createPda E maker swap swapLen E.programId (bumped (swapSeeds maker.key nonce) bump)
  emitPostCreated E kindSwap maker.key swap.key giveMint.key wantMint.key giveAmount wantAmount
    expiry nonce
  assertTokenProgram tokenProg giveMint
  createPda E maker vault tokenAcctLen tokenProg.key (bumped (vaultSeeds maker.key nonce) vbump)
  tokenInit E tokenProg vault giveMint swap.key
  let dec ← mintDecimals giveMint
  tokenTransfer E tokenProg makerGive giveMint vault maker giveAmount dec none
  let s ← dataOf swap
  perform E (.write swap.key (patches s (swapFields maker.key giveMint.key giveAmount wantMint.key
    wantAmount targetTaker terms expiry bump nonce)))

/-- Settle both legs at the terms the taker pinned (tag 1). -/
def fill (d : Bytes) : Exec Unit := do
  failIf (d.length ≠ 48) .invalidInstructionData
  let nonce := slice d 0 32
  let expectGive := u64At d 32
  let maxWant := u64At d 40
  failIf (E.accounts.length < 12) .notEnoughAccountKeys
  let [taker,swap,vault,maker,giveMint,wantMint,takerWant,takerGive,makerWant,tokenProg,config,
    feeAta] := E.accounts.take 12 | throw .notEnoughAccountKeys
  let giveTokenProg := E.accounts[12]?.getD tokenProg
  failIf (taker.isSigner = false) .missingRequiredSignature
  failIf ((← ownerOf swap) ≠ E.programId) .illegalOwner
  let st ← loadFillState E swap giveMint.key wantMint.key taker.key
  failIf (st.giveAmount ≠ expectGive ∨ maxWant < st.wantAmount) .invalidArgument
  failIf (maker.key ≠ st.maker) .invalidArgument
  let swapPda ← createAddress E (swapSeeds st.maker nonce) st.bump
  failIf (swapPda ≠ swap.key) .invalidSeeds
  let (vaultPda,_) ← findAddress E (vaultSeeds st.maker nonce)
  failIf (vaultPda ≠ vault.key) .invalidSeeds
  requireTokenAccount makerWant wantMint.key st.maker
  let giveDec ← mintDecimals giveMint
  let wantDec ← mintDecimals wantMint
  assertTokenProgram tokenProg wantMint
  assertTokenProgram giveTokenProg giveMint
  payWantLeg E config tokenProg takerWant wantMint feeAta makerWant taker st.wantAmount wantDec
    (byteAt nonce 0)
  let seeds := bumped (swapSeeds st.maker nonce) st.bump
  tokenTransfer E giveTokenProg vault giveMint takerGive swap st.giveAmount giveDec (some seeds)
  tokenClose E giveTokenProg vault maker swap seeds
  close E swap maker

/-- Refund the give-leg to the maker, then close the vault and the record.
`makerGive` is checked to be the maker's account, also when anyone may call. -/
def refundAndClose (swap vault maker giveMint makerGive tokenProg : AccountInfo) (nonce : Bytes)
    (bump : UInt8) (giveAmount : ℕ) : Exec Unit := do
  requireTokenAccount makerGive giveMint.key maker.key
  let swapPda ← createAddress E (swapSeeds maker.key nonce) bump
  failIf (swapPda ≠ swap.key) .invalidSeeds
  let (vaultPda,_) ← findAddress E (vaultSeeds maker.key nonce)
  failIf (vaultPda ≠ vault.key) .invalidSeeds
  let giveDec ← mintDecimals giveMint
  let seeds := bumped (swapSeeds maker.key nonce) bump
  tokenTransfer E tokenProg vault giveMint makerGive swap giveAmount giveDec (some seeds)
  tokenClose E tokenProg vault maker swap seeds
  close E swap maker

/-- The maker reclaims the give-leg before any fill (tag 2). -/
def cancelSwap (d : Bytes) : Exec Unit := do
  failIf (d.length ≠ 32) .invalidInstructionData
  let nonce := slice d 0 32
  let [maker,swap,vault,giveMint,makerGive,tokenProg,config,feeWallet,_system] := E.accounts
    | throw .notEnoughAccountKeys
  failIf (maker.isSigner = false) .missingRequiredSignature
  failIf ((← ownerOf swap) ≠ E.programId) .illegalOwner
  let s ← dataOf swap
  failIf (s.length ≠ swapLen ∨ byteAt s sStatus ≠ statusOpen) .invalidAccountData
  failIf (keyAt s sMaker ≠ maker.key) .illegalOwner
  failIf (keyAt s sGiveMint ≠ giveMint.key) .invalidArgument
  payDelistFee E config maker feeWallet
  refundAndClose E swap vault maker giveMint makerGive tokenProg nonce (byteAt s sBump)
    (u64At s sGiveAmt)

/-- Anyone refunds the maker after the deadline (tag 3). -/
def expire (d : Bytes) : Exec Unit := do
  failIf (d.length ≠ 32) .invalidInstructionData
  let nonce := slice d 0 32
  let [_caller,swap,vault,maker,giveMint,makerGive,tokenProg] := E.accounts
    | throw .notEnoughAccountKeys
  failIf ((← ownerOf swap) ≠ E.programId) .illegalOwner
  let s ← dataOf swap
  failIf (s.length ≠ swapLen ∨ byteAt s sStatus ≠ statusOpen) .invalidAccountData
  failIf (keyAt s sGiveMint ≠ giveMint.key) .invalidArgument
  failIf (E.clock < i64At s sExpiry) .invalidArgument
  failIf (maker.key ≠ keyAt s sMaker) .invalidArgument
  refundAndClose E swap vault maker giveMint makerGive tokenProg nonce (byteAt s sBump)
    (u64At s sGiveAmt)

end Xete.Swap
