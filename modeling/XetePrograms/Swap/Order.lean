import XetePrograms.Swap.Escrowless

/-!
# Sealed orders and bids, signed off chain (tags 38 to 43)
-/

set_option autoImplicit false

namespace Xete.Swap
open Xete.Octets Xete.Weakest Xete.Chain Xete.Runtime

variable (E : Env)

def orderDomain : Bytes := [65,88,84,83,87,65,80,58,111,114,100,101,114,58,49]
def bidDomain : Bytes := [65,88,84,83,87,65,80,58,98,105,100,58,49]

/-- The header of a single-signature instruction whose key, signature and
message all lie in its own data. -/
def ed25519Header (msgSz : ℕ) : Bytes :=
  [1,0] ++ le 2 48 ++ [255,255] ++ le 2 16 ++ [255,255] ++ le 2 112 ++ le 2 msgSz ++ [255,255]

/-- `data` is exactly the canonical single-signature instruction for `signer`
over `message`. -/
def ed25519LayoutOk (data : Bytes) (signer : Pubkey) (message : Bytes) :
    Except ProgramError Unit := do
  if 65535 < message.length then throw .invalidArgument
  if data.length ≠ 112+message.length then throw .invalidArgument
  if slice data 0 16 ≠ ed25519Header message.length then throw .invalidArgument
  if slice data 16 32 ≠ signer.bytes then throw .invalidArgument
  if slice data 112 message.length ≠ message then throw .invalidArgument

/-- The instruction just before this one is the native verification of
`signer`'s signature over `message`. -/
def verifyEd25519Order (ixSysvar : AccountInfo) (signer : Pubkey) (message : Bytes) :
    Exec Unit := do
  failIf (ixSysvar.key ≠ sysvarInstructionsId) .invalidArgument
  failIf (E.current = 0) .invalidArgument
  let ed ← unwrap E.instructions[E.current-1]? .invalidArgument
  failIf (ed.programId ≠ ed25519Program) .invalidArgument
  orThrow (ed25519LayoutOk ed.data signer message)

/-- The instruction before this one verified `signer`'s signature over `message`. -/
def SignedBefore (ixSysvar signer : Pubkey) (message : Bytes) : Prop :=
  ixSysvar = sysvarInstructionsId ∧ E.current ≠ 0 ∧
    ∃ ed, E.instructions[E.current-1]? = some ed ∧ ed.programId = ed25519Program ∧
      ed25519LayoutOk ed.data signer message = .ok ()

structure OrderTerms where
  giveAmount : ℕ
  wantAmount : ℕ
  taker : Bytes
  expiry : ℤ
  nonce : Bytes
  royaltyMode : UInt8
  makerPct : UInt8
  deriving DecidableEq

/-- The terms of an order as the instruction data gives them. -/
def orderTerms (d : Bytes) : OrderTerms where
  giveAmount := u64At d 0
  wantAmount := u64At d 8
  taker := slice d 16 32
  expiry := i64At d 48
  nonce := slice d 56 32
  royaltyMode := byteAt d 88
  makerPct := byteAt d 89

/-- The bytes that are signed. -/
def orderMessage (domain : Bytes) (give want : Pubkey) (t : OrderTerms) : Bytes :=
  domain ++ give.bytes ++ le 8 t.giveAmount ++ want.bytes ++ le 8 t.wantAmount ++ t.taker ++
    leInt 8 t.expiry ++ t.nonce ++ [t.royaltyMode] ++ [t.makerPct]

section
variable {E} {m : Machine} {F : Machine → Prop}

@[simp] theorem wp_verifyEd25519Order (ixSysvar : AccountInfo) (signer : Pubkey) (message : Bytes)
    {Q : Unit → Machine → Prop} :
    wp (verifyEd25519Order E ixSysvar signer message) Q F m ↔
      (SignedBefore E ixSysvar.key signer message → Q () m) ∧
      (¬SignedBefore E ixSysvar.key signer message → F m) := by
  simp only [verifyEd25519Order, wp_bind, wp_failIf, wp_unwrap, wp_orThrow, SignedBefore]
  rcases E.instructions[E.current-1]? with _ | ed
  · simp
    tauto
  · cases h : ed25519LayoutOk ed.data signer message with
    | ok u => simp [h]; tauto
    | error e => simp [h]; tauto

end

/-- Check the two addresses of an order and create its done-marker, which fails
if the order was settled before. Returns the bump of the order address. -/
def markOrderDone (maker payer orderAuth orderDone : AccountInfo) (nonce : Bytes) :
    Exec UInt8 := do
  let (authPda,authBump) ← findAddress E (orderSeeds maker.key)
  failIf (authPda ≠ orderAuth.key) .invalidSeeds
  let (donePda,doneBump) ← findAddress E (orderDoneSeeds maker.key nonce)
  failIf (donePda ≠ orderDone.key) .invalidSeeds
  createPda E payer orderDone 1 E.programId (bumped (orderDoneSeeds maker.key nonce) doneBump)
  return authBump

/-- Settle a signed order for a fungible token (tag 38). -/
def settleSignedOrder (d : Bytes) : Exec Unit := do
  failIf (d.length ≠ 90) .invalidInstructionData
  let t := orderTerms d
  failIf (royaltySplit < t.royaltyMode ∨ 100 < t.makerPct) .invalidInstructionData
  failIf (E.accounts.length < 15) .notEnoughAccountKeys
  let [taker,maker,giveMint,wantMint,makerGive,takerGive,takerWant,makerWant,orderAuth,orderDone,
    tokenProg,config,feeAta,_system,ixSysvar] := E.accounts.take 15 | throw .notEnoughAccountKeys
  let giveTokenProg := E.accounts[15]?.getD tokenProg
  failIf (taker.isSigner = false) .missingRequiredSignature
  failIf (t.giveAmount = 0 ∨ t.wantAmount = 0) .invalidInstructionData
  failIf (t.expiry ≤ E.clock) .invalidArgument
  failIf (t.taker ≠ zeros 32 ∧ t.taker ≠ taker.key.bytes) .invalidArgument
  verifyEd25519Order E ixSysvar maker.key (orderMessage orderDomain giveMint.key wantMint.key t)
  let authBump ← markOrderDone E maker taker orderAuth orderDone t.nonce
  requireTokenAccount makerGive giveMint.key maker.key
  requireTokenAccount makerWant wantMint.key maker.key
  let giveDec ← mintDecimals giveMint
  let wantDec ← mintDecimals wantMint
  assertTokenProgram tokenProg wantMint
  assertTokenProgram giveTokenProg giveMint
  failIf (t.royaltyMode ≠ royaltyNone ∧ E.accounts.length < 17) .notEnoughAccountKeys
  let metadata := if t.royaltyMode = royaltyNone then none else E.accounts[16]?
  payWantAndRoyalty E config tokenProg takerWant wantMint feeAta makerWant taker t.wantAmount
    u64Max wantDec (byteAt t.nonce 0) t.royaltyMode t.makerPct giveMint metadata
    (E.accounts.drop 17)
  tokenTransfer E giveTokenProg makerGive giveMint takerGive orderAuth t.giveAmount giveDec
    (some (bumped (orderSeeds maker.key) authBump))

/-- Settle a signed order for a programmable NFT (tag 39). -/
def settleSignedOrderPnft (d : Bytes) : Exec Unit := do
  failIf (d.length ≠ 90) .invalidInstructionData
  let t := orderTerms d
  failIf (royaltySplit < t.royaltyMode ∨ 100 < t.makerPct) .invalidInstructionData
  failIf (E.accounts.length < 24) .notEnoughAccountKeys
  let [taker,maker,giveMint,wantMint,takerWant,makerWant,wantTokenProg,config,feeAta,orderAuth,
    orderDone,makerAta,takerAta,metadata,edition,ownerRecord,destRecord,tokenMetadata,splTok,
    ataProg,ixSysvar,system,rulesProg,rules] := E.accounts.take 24 | throw .notEnoughAccountKeys
  failIf (taker.isSigner = false) .missingRequiredSignature
  failIf (t.giveAmount ≠ 1 ∨ t.wantAmount = 0) .invalidInstructionData
  failIf (t.expiry ≤ E.clock) .invalidArgument
  failIf (t.taker ≠ zeros 32 ∧ t.taker ≠ taker.key.bytes) .invalidArgument
  failIf (tokenMetadata.key ≠ tokenMetadataId ∨ ixSysvar.key ≠ sysvarInstructionsId)
    .incorrectProgramId
  verifyEd25519Order E ixSysvar maker.key (orderMessage orderDomain giveMint.key wantMint.key t)
  let authBump ← markOrderDone E maker taker orderAuth orderDone t.nonce
  failIf (makerAta.key ≠ (← ataFor E maker.key giveMint.key) ∨
    takerAta.key ≠ (← ataFor E taker.key giveMint.key)) .invalidArgument
  requireTokenAccount makerWant wantMint.key maker.key
  let wantDec ← mintDecimals wantMint
  assertTokenProgram wantTokenProg wantMint
  payWantAndRoyalty E config wantTokenProg takerWant wantMint feeAta makerWant taker t.wantAmount
    u64Max wantDec (byteAt t.nonce 0) t.royaltyMode t.makerPct giveMint (some metadata)
    (E.accounts.drop 24)
  mplTransfer E tokenMetadata makerAta maker takerAta taker giveMint metadata edition ownerRecord
    destRecord orderAuth taker system ixSysvar splTok ataProg rulesProg rules 1
    (some (bumped (orderSeeds maker.key) authBump))

/-- Settle a signed order for a Core asset (tag 40). -/
def settleSignedOrderCore (d : Bytes) : Exec Unit := do
  failIf (d.length ≠ 90) .invalidInstructionData
  let t := orderTerms d
  failIf (t.royaltyMode ≠ royaltyNone) .invalidInstructionData
  let (rest,collOpt) := splitCollection 14 E.accounts
  let [taker,maker,asset,wantMint,takerWant,makerWant,wantTokenProg,config,feeAta,orderAuth,
    orderDone,_system,ixSysvar,mplCore] := rest | throw .notEnoughAccountKeys
  let collection ← resolveCollection mplCore collOpt
  failIf (taker.isSigner = false) .missingRequiredSignature
  failIf (t.giveAmount ≠ 1 ∨ t.wantAmount = 0) .invalidInstructionData
  failIf (t.expiry ≤ E.clock) .invalidArgument
  failIf (t.taker ≠ zeros 32 ∧ t.taker ≠ taker.key.bytes) .invalidArgument
  failIf (mplCore.key ≠ mplCoreId) .incorrectProgramId
  verifyEd25519Order E ixSysvar maker.key (orderMessage orderDomain asset.key wantMint.key t)
  let authBump ← markOrderDone E maker taker orderAuth orderDone t.nonce
  requireTokenAccount makerWant wantMint.key maker.key
  let wantDec ← mintDecimals wantMint
  assertTokenProgram wantTokenProg wantMint
  payWantLeg E config wantTokenProg takerWant wantMint feeAta makerWant taker t.wantAmount wantDec
    (byteAt t.nonce 0)
  mplCoreTransfer E mplCore asset collection taker orderAuth taker true
    (some (bumped (orderSeeds maker.key) authBump))

/-- The gates shared by the bids: the owner signs, and the bidder's signature
covers the bid. -/
def verifyBidCommon (ixSysvar maker taker orderAuth orderDone : AccountInfo)
    (coinsMintKey wantKey : Pubkey) (t : OrderTerms) : Exec UInt8 := do
  failIf (taker.isSigner = false) .missingRequiredSignature
  failIf (t.giveAmount = 0 ∨ t.wantAmount ≠ 1) .invalidInstructionData
  failIf (t.royaltyMode ≠ royaltyNone ∨ t.makerPct ≠ 0) .invalidInstructionData
  failIf (t.expiry ≤ E.clock) .invalidArgument
  failIf (t.taker ≠ zeros 32 ∧ t.taker ≠ taker.key.bytes) .invalidArgument
  verifyEd25519Order E ixSysvar maker.key (orderMessage bidDomain coinsMintKey wantKey t)
  markOrderDone E maker taker orderAuth orderDone t.nonce

/-- Accept a signed bid for a Core asset (tag 43). -/
def settleSignedBidCore (d : Bytes) : Exec Unit := do
  failIf (d.length ≠ 90) .invalidInstructionData
  let t := orderTerms d
  let (rest,collOpt) := splitCollection 14 E.accounts
  let [taker,maker,coinsMint,asset,makerCoins,ownerCoins,coinsTokenProg,config,feeAta,orderAuth,
    orderDone,_system,ixSysvar,mplCore] := rest | throw .notEnoughAccountKeys
  let collection ← resolveCollection mplCore collOpt
  failIf (mplCore.key ≠ mplCoreId) .incorrectProgramId
  let authBump ← verifyBidCommon E ixSysvar maker taker orderAuth orderDone coinsMint.key
    asset.key t
  requireTokenAccount makerCoins coinsMint.key maker.key
  requireTokenAccount ownerCoins coinsMint.key taker.key
  let coinsDec ← mintDecimals coinsMint
  assertTokenProgram coinsTokenProg coinsMint
  payCoinsViaDelegate E config coinsTokenProg makerCoins coinsMint feeAta ownerCoins orderAuth
    (bumped (orderSeeds maker.key) authBump) t.giveAmount coinsDec (byteAt t.nonce 0)
  mplCoreTransfer E mplCore asset collection taker taker maker true none

/-- Accept a signed bid for a one-of-one token (tag 41). -/
def settleSignedBidSpl (d : Bytes) : Exec Unit := do
  failIf (d.length ≠ 90) .invalidInstructionData
  let t := orderTerms d
  let [taker,maker,coinsMint,nftMint,makerCoins,ownerCoins,coinsTokenProg,config,feeAta,orderAuth,
    orderDone,_system,ixSysvar,ownerNft,makerNft,nftTokenProg] := E.accounts
    | throw .notEnoughAccountKeys
  let authBump ← verifyBidCommon E ixSysvar maker taker orderAuth orderDone coinsMint.key
    nftMint.key t
  requireTokenAccount makerCoins coinsMint.key maker.key
  requireTokenAccount ownerCoins coinsMint.key taker.key
  requireTokenAccount ownerNft nftMint.key taker.key
  requireTokenAccount makerNft nftMint.key maker.key
  let coinsDec ← mintDecimals coinsMint
  assertTokenProgram coinsTokenProg coinsMint
  assertTokenProgram nftTokenProg nftMint
  payCoinsViaDelegate E config coinsTokenProg makerCoins coinsMint feeAta ownerCoins orderAuth
    (bumped (orderSeeds maker.key) authBump) t.giveAmount coinsDec (byteAt t.nonce 0)
  tokenTransfer E nftTokenProg ownerNft nftMint makerNft taker 1 0 none

/-- Accept a signed bid for a programmable NFT (tag 42). -/
def settleSignedBidPnft (d : Bytes) : Exec Unit := do
  failIf (d.length ≠ 90) .invalidInstructionData
  let t := orderTerms d
  let [taker,maker,coinsMint,nftMint,makerCoins,ownerCoins,coinsTokenProg,config,feeAta,orderAuth,
    orderDone,system,ixSysvar,ownerNft,makerNft,metadata,edition,ownerRecord,destRecord,
    tokenMetadata,splTok,ataProg,rulesProg,rules] := E.accounts | throw .notEnoughAccountKeys
  failIf (tokenMetadata.key ≠ tokenMetadataId) .incorrectProgramId
  let authBump ← verifyBidCommon E ixSysvar maker taker orderAuth orderDone coinsMint.key
    nftMint.key t
  requireTokenAccount makerCoins coinsMint.key maker.key
  requireTokenAccount ownerCoins coinsMint.key taker.key
  let coinsDec ← mintDecimals coinsMint
  assertTokenProgram coinsTokenProg coinsMint
  payCoinsViaDelegate E config coinsTokenProg makerCoins coinsMint feeAta ownerCoins orderAuth
    (bumped (orderSeeds maker.key) authBump) t.giveAmount coinsDec (byteAt t.nonce 0)
  mplTransfer E tokenMetadata ownerNft taker makerNft maker nftMint metadata edition ownerRecord
    destRecord taker taker system ixSysvar splTok ataProg rulesProg rules 1 none

end Xete.Swap
