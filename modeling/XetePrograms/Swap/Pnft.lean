import XetePrograms.Swap.Swap

/-!
# Escrow of programmable NFTs through Token-Metadata (tags 18 to 21)
-/

set_option autoImplicit false

namespace Xete.Swap
open Xete.Octets Xete.Weakest Xete.Chain Xete.Runtime

variable (E : Env)

/-- Move a programmable NFT into the token account of the swap address (tag 18). -/
def openPnft (d : Bytes) : Exec Unit := do
  failIf (d.length ≠ 120) .invalidInstructionData
  let nonce := slice d 0 32
  let giveAmount := u64At d 32
  let wantAmount := u64At d 40
  let terms := slice d 48 32
  let expiry := i64At d 80
  let targetTaker := slice d 88 32
  let [maker,swap,giveMint,wantMint,sourceAta,vaultAta,metadata,edition,ownerRecord,destRecord,
    tokenMetadata,splTok,ataProg,sysvarIx,system,rulesProg,rules,config,aliasAcct] := E.accounts
    | throw .notEnoughAccountKeys
  failIf (maker.isSigner = false) .missingRequiredSignature
  failIf (giveAmount ≠ 1 ∨ wantAmount = 0) .invalidInstructionData
  failIf (expiry ≤ E.clock) .invalidArgument
  failIf (tokenMetadata.key ≠ tokenMetadataId ∨ sysvarIx.key ≠ sysvarInstructionsId)
    .incorrectProgramId
  requireAlias E config maker.key aliasAcct
  let (swapPda,bump) ← findAddress E (swapSeeds maker.key nonce)
  failIf (swapPda ≠ swap.key) .invalidSeeds
  failIf (sourceAta.key ≠ (← ataFor E maker.key giveMint.key) ∨
    vaultAta.key ≠ (← ataFor E swapPda giveMint.key)) .invalidArgument
  createPda E maker swap swapLen E.programId (bumped (swapSeeds maker.key nonce) bump)
  emitPostCreated E kindSwapPnft maker.key swap.key giveMint.key wantMint.key giveAmount wantAmount
    expiry nonce
  mplTransfer E tokenMetadata sourceAta maker vaultAta swap giveMint metadata edition ownerRecord
    destRecord maker maker system sysvarIx splTok ataProg rulesProg rules 1 none
  let s ← dataOf swap
  perform E (.write swap.key (patches s (swapFields maker.key giveMint.key 1 wantMint.key wantAmount
    targetTaker terms expiry bump nonce)))

/-- Release an escrowed programmable NFT; the swap address signs. -/
def releasePnft (tm vault swap dstTa dstOwner giveMint metadata edition vaultRecord dstRecord payer
    system sysvarIx splTok ataProg rulesProg rules : AccountInfo) (stateMaker : Pubkey)
    (nonce : Bytes) (bump : UInt8) : Exec Unit :=
  mplTransfer E tm vault swap dstTa dstOwner giveMint metadata edition vaultRecord dstRecord swap
    payer system sysvarIx splTok ataProg rulesProg rules 1
    (some (bumped (swapSeeds stateMaker nonce) bump))

/-- A taker pays the want-leg and receives the NFT (tag 19). -/
def fillPnft (d : Bytes) : Exec Unit := do
  failIf (d.length ≠ 48) .invalidInstructionData
  let nonce := slice d 0 32
  let expectGive := u64At d 32
  let maxWant := u64At d 40
  failIf (E.accounts.length < 23) .notEnoughAccountKeys
  let [taker,swap,maker,giveMint,wantMint,takerWant,makerWant,wantTokenProg,config,feeAta,vault,
    takerGive,metadata,edition,ownerRecord,destRecord,tokenMetadata,splTok,ataProg,sysvarIx,system,
    rulesProg,rules] := E.accounts.take 23 | throw .notEnoughAccountKeys
  failIf (taker.isSigner = false) .missingRequiredSignature
  failIf ((← ownerOf swap) ≠ E.programId) .illegalOwner
  failIf (tokenMetadata.key ≠ tokenMetadataId ∨ sysvarIx.key ≠ sysvarInstructionsId)
    .incorrectProgramId
  let st ← loadFillState E swap giveMint.key wantMint.key taker.key
  failIf (st.giveAmount ≠ expectGive) .invalidArgument
  failIf (maker.key ≠ st.maker) .invalidArgument
  let swapPda ← createAddress E (swapSeeds st.maker nonce) st.bump
  failIf (swapPda ≠ swap.key) .invalidSeeds
  failIf (vault.key ≠ (← ataFor E swapPda giveMint.key) ∨
    takerGive.key ≠ (← ataFor E taker.key giveMint.key)) .invalidArgument
  requireTokenAccount makerWant wantMint.key st.maker
  let wantDec ← mintDecimals wantMint
  assertTokenProgram wantTokenProg wantMint
  payWantAndRoyalty E config wantTokenProg takerWant wantMint feeAta makerWant taker st.wantAmount
    maxWant wantDec (byteAt nonce 0) st.royaltyMode st.makerPct giveMint (some metadata)
    (E.accounts.drop 23)
  releasePnft E tokenMetadata vault swap takerGive taker giveMint metadata edition ownerRecord
    destRecord taker system sysvarIx splTok ataProg rulesProg rules st.maker nonce st.bump
  close E swap maker

/-- The maker reclaims the NFT before any fill (tag 20). -/
def cancelPnft (d : Bytes) : Exec Unit := do
  failIf (d.length ≠ 32) .invalidInstructionData
  let nonce := slice d 0 32
  let [maker,swap,giveMint,makerGive,vault,config,feeWallet,system,metadata,edition,ownerRecord,
    destRecord,tokenMetadata,splTok,ataProg,sysvarIx,rulesProg,rules] := E.accounts
    | throw .notEnoughAccountKeys
  failIf (maker.isSigner = false) .missingRequiredSignature
  failIf ((← ownerOf swap) ≠ E.programId) .illegalOwner
  failIf (tokenMetadata.key ≠ tokenMetadataId ∨ sysvarIx.key ≠ sysvarInstructionsId)
    .incorrectProgramId
  let st ← dataOf swap
  failIf (st.length ≠ swapLen ∨ byteAt st sStatus ≠ statusOpen) .invalidAccountData
  failIf (keyAt st sMaker ≠ maker.key) .illegalOwner
  failIf (keyAt st sGiveMint ≠ giveMint.key) .invalidArgument
  let bump := byteAt st sBump
  let swapPda ← createAddress E (swapSeeds maker.key nonce) bump
  failIf (swapPda ≠ swap.key) .invalidSeeds
  failIf (vault.key ≠ (← ataFor E swapPda giveMint.key) ∨
    makerGive.key ≠ (← ataFor E maker.key giveMint.key)) .invalidArgument
  payDelistFee E config maker feeWallet
  releasePnft E tokenMetadata vault swap makerGive maker giveMint metadata edition ownerRecord
    destRecord maker system sysvarIx splTok ataProg rulesProg rules maker.key nonce bump
  close E swap maker

/-- Anyone returns the NFT to the maker after the deadline (tag 21). -/
def expirePnft (d : Bytes) : Exec Unit := do
  failIf (d.length ≠ 32) .invalidInstructionData
  let nonce := slice d 0 32
  let [caller,swap,maker,giveMint,makerGive,vault,metadata,edition,ownerRecord,destRecord,
    tokenMetadata,splTok,ataProg,sysvarIx,system,rulesProg,rules] := E.accounts
    | throw .notEnoughAccountKeys
  failIf (caller.isSigner = false) .missingRequiredSignature
  failIf ((← ownerOf swap) ≠ E.programId) .illegalOwner
  failIf (tokenMetadata.key ≠ tokenMetadataId ∨ sysvarIx.key ≠ sysvarInstructionsId)
    .incorrectProgramId
  let st ← dataOf swap
  failIf (st.length ≠ swapLen ∨ byteAt st sStatus ≠ statusOpen) .invalidAccountData
  failIf (keyAt st sGiveMint ≠ giveMint.key) .invalidArgument
  failIf (E.clock < i64At st sExpiry) .invalidArgument
  let stateMaker := keyAt st sMaker
  let bump := byteAt st sBump
  failIf (maker.key ≠ stateMaker) .invalidArgument
  let swapPda ← createAddress E (swapSeeds stateMaker nonce) bump
  failIf (swapPda ≠ swap.key) .invalidSeeds
  failIf (vault.key ≠ (← ataFor E swapPda giveMint.key) ∨
    makerGive.key ≠ (← ataFor E maker.key giveMint.key)) .invalidArgument
  releasePnft E tokenMetadata vault swap makerGive maker giveMint metadata edition ownerRecord
    destRecord caller system sysvarIx splTok ataProg rulesProg rules stateMaker nonce bump
  close E swap maker

end Xete.Swap
