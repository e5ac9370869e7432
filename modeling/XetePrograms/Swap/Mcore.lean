import XetePrograms.Swap.Swap

/-!
# Escrow of Metaplex Core assets (tags 22 to 25)
-/

set_option autoImplicit false

namespace Xete.Swap
open Xete.Octets Xete.Weakest Xete.Chain Xete.Runtime

variable (E : Env)

/-- Transfer a Core asset to the swap address (tag 22). -/
def openCore (d : Bytes) : Exec Unit := do
  failIf (d.length ≠ 120) .invalidInstructionData
  let nonce := slice d 0 32
  let giveAmount := u64At d 32
  let wantAmount := u64At d 40
  let terms := slice d 48 32
  let expiry := i64At d 80
  let targetTaker := slice d 88 32
  let [maker,swap,asset,collection,wantMint,mplCore,_system,config,aliasAcct] := E.accounts
    | throw .notEnoughAccountKeys
  failIf (maker.isSigner = false) .missingRequiredSignature
  failIf (giveAmount ≠ 1 ∨ wantAmount = 0) .invalidInstructionData
  failIf (expiry ≤ E.clock) .invalidArgument
  failIf (mplCore.key ≠ mplCoreId) .incorrectProgramId
  requireAlias E config maker.key aliasAcct
  let (swapPda,bump) ← findAddress E (swapSeeds maker.key nonce)
  failIf (swapPda ≠ swap.key) .invalidSeeds
  createPda E maker swap swapLen E.programId (bumped (swapSeeds maker.key nonce) bump)
  emitPostCreated E kindSwapCore maker.key swap.key asset.key wantMint.key giveAmount wantAmount
    expiry nonce
  mplCoreTransfer E mplCore asset collection maker mplCore swap false none
  let s ← dataOf swap
  perform E (.write swap.key (patches s (swapFields maker.key asset.key 1 wantMint.key wantAmount
    targetTaker terms expiry bump nonce)))

/-- Release an escrowed Core asset; the swap address signs as its owner. -/
def releaseCore (core asset collection swap payer newOwner : AccountInfo) (stateMaker : Pubkey)
    (nonce : Bytes) (bump : UInt8) : Exec Unit :=
  mplCoreTransfer E core asset collection payer swap newOwner true
    (some (bumped (swapSeeds stateMaker nonce) bump))

/-- A taker pays the want-leg and receives the asset (tag 23). -/
def fillCore (d : Bytes) : Exec Unit := do
  failIf (d.length ≠ 48) .invalidInstructionData
  let nonce := slice d 0 32
  let expectGive := u64At d 32
  let maxWant := u64At d 40
  let [taker,swap,maker,asset,collection,wantMint,takerWant,makerWant,wantTokenProg,config,feeAta,
    mplCore] := E.accounts | throw .notEnoughAccountKeys
  failIf (taker.isSigner = false) .missingRequiredSignature
  failIf ((← ownerOf swap) ≠ E.programId) .illegalOwner
  failIf (mplCore.key ≠ mplCoreId) .incorrectProgramId
  let st ← loadFillState E swap asset.key wantMint.key taker.key
  failIf (st.giveAmount ≠ expectGive ∨ maxWant < st.wantAmount) .invalidArgument
  failIf (maker.key ≠ st.maker) .invalidArgument
  let swapPda ← createAddress E (swapSeeds st.maker nonce) st.bump
  failIf (swapPda ≠ swap.key) .invalidSeeds
  requireTokenAccount makerWant wantMint.key st.maker
  let wantDec ← mintDecimals wantMint
  assertTokenProgram wantTokenProg wantMint
  payWantLeg E config wantTokenProg takerWant wantMint feeAta makerWant taker st.wantAmount wantDec
    (byteAt nonce 0)
  releaseCore E mplCore asset collection swap taker taker st.maker nonce st.bump
  close E swap maker

/-- The maker reclaims the asset before any fill (tag 24). -/
def cancelCore (d : Bytes) : Exec Unit := do
  failIf (d.length ≠ 32) .invalidInstructionData
  let nonce := slice d 0 32
  let [maker,swap,asset,collection,config,feeWallet,_system,mplCore] := E.accounts
    | throw .notEnoughAccountKeys
  failIf (maker.isSigner = false) .missingRequiredSignature
  failIf ((← ownerOf swap) ≠ E.programId) .illegalOwner
  failIf (mplCore.key ≠ mplCoreId) .incorrectProgramId
  let st ← dataOf swap
  failIf (st.length ≠ swapLen ∨ byteAt st sStatus ≠ statusOpen) .invalidAccountData
  failIf (keyAt st sMaker ≠ maker.key) .illegalOwner
  failIf (keyAt st sGiveMint ≠ asset.key) .invalidArgument
  let bump := byteAt st sBump
  let swapPda ← createAddress E (swapSeeds maker.key nonce) bump
  failIf (swapPda ≠ swap.key) .invalidSeeds
  payDelistFee E config maker feeWallet
  releaseCore E mplCore asset collection swap maker maker maker.key nonce bump
  close E swap maker

/-- Anyone returns the asset to the maker after the deadline (tag 25). -/
def expireCore (d : Bytes) : Exec Unit := do
  failIf (d.length ≠ 32) .invalidInstructionData
  let nonce := slice d 0 32
  let [caller,swap,maker,asset,collection,mplCore] := E.accounts | throw .notEnoughAccountKeys
  failIf (caller.isSigner = false) .missingRequiredSignature
  failIf ((← ownerOf swap) ≠ E.programId) .illegalOwner
  failIf (mplCore.key ≠ mplCoreId) .incorrectProgramId
  let st ← dataOf swap
  failIf (st.length ≠ swapLen ∨ byteAt st sStatus ≠ statusOpen) .invalidAccountData
  failIf (keyAt st sGiveMint ≠ asset.key) .invalidArgument
  failIf (E.clock < i64At st sExpiry) .invalidArgument
  let stateMaker := keyAt st sMaker
  let bump := byteAt st sBump
  failIf (maker.key ≠ stateMaker) .invalidArgument
  let swapPda ← createAddress E (swapSeeds stateMaker nonce) bump
  failIf (swapPda ≠ swap.key) .invalidSeeds
  releaseCore E mplCore asset collection swap caller maker stateMaker nonce bump
  close E swap maker

end Xete.Swap
