import XetePrograms.Swap.Settle

/-!
# Escrowed price bids on an open swap (tags 4 to 7)
-/

set_option autoImplicit false

namespace Xete.Swap
open Xete.Octets Xete.Weakest Xete.Chain Xete.Runtime

variable (E : Env)

def offerFields (offerer swap wantMint : Pubkey) (wantAmount : ℕ) (giveMint : Pubkey)
    (giveAmount : ℕ) (expiry : ℤ) (bump : UInt8) (nonce : Bytes) : List (ℕ × Bytes) :=
  [(oOfferer,offerer.bytes),(oSwap,swap.bytes),(oWantMint,wantMint.bytes),
    (oWantAmt,le 8 wantAmount),(oGiveMint,giveMint.bytes),(oGiveAmt,le 8 giveAmount),
    (oExpiry,leInt 8 expiry),(oStatus,[statusOpen]),(oBump,[bump]),(oNonce,nonce)]

/-- Escrow a bid. The goods it is for are captured from the live listing (tag 4). -/
def makeOffer (d : Bytes) : Exec Unit := do
  failIf (d.length ≠ 48) .invalidInstructionData
  let ononce := slice d 0 32
  let wantAmount := u64At d 32
  let expiry := i64At d 40
  let [offerer,offer,ovault,wantMint,swap,offererWant,tokenProg,_system,config,aliasAcct] :=
    E.accounts | throw .notEnoughAccountKeys
  failIf (offerer.isSigner = false) .missingRequiredSignature
  failIf ((← ownerOf swap) ≠ E.programId) .illegalOwner
  failIf (wantAmount = 0) .invalidInstructionData
  requireAlias E config offerer.key aliasAcct
  let s ← dataOf swap
  failIf (s.length ≠ swapLen ∨ byteAt s sStatus ≠ statusOpen) .invalidAccountData
  failIf (keyAt s sWantMint ≠ wantMint.key) .invalidArgument
  let giveMint := keyAt s sGiveMint
  let giveAmount := u64At s sGiveAmt
  let (offerPda,obump) ← findAddress E (offerSeeds offerer.key ononce)
  failIf (offerPda ≠ offer.key) .invalidSeeds
  let (ovaultPda,ovbump) ← findAddress E (ovaultSeeds offerer.key ononce)
  failIf (ovaultPda ≠ ovault.key) .invalidSeeds
  createPda E offerer offer offerLen E.programId (bumped (offerSeeds offerer.key ononce) obump)
  createPda E offerer ovault tokenAcctLen splTokenId
    (bumped (ovaultSeeds offerer.key ononce) ovbump)
  tokenInit E tokenProg ovault wantMint offer.key
  let dec ← mintDecimals wantMint
  tokenTransfer E tokenProg offererWant wantMint ovault offerer wantAmount dec none
  let o ← dataOf offer
  perform E (.write offer.key (patches o (offerFields offerer.key swap.key wantMint.key wantAmount
    giveMint giveAmount expiry obump ononce)))

/-- The maker settles the swap against a bid that targets it (tag 5). -/
def acceptOffer (d : Bytes) : Exec Unit := do
  failIf (d.length ≠ 64) .invalidInstructionData
  let snonce := slice d 0 32
  let ononce := slice d 32 32
  let [maker,swap,swapVault,offer,offerVault,offerer,giveMint,wantMint,offererGive,makerWant,
    tokenProg,config,feeAta] := E.accounts | throw .notEnoughAccountKeys
  failIf (maker.isSigner = false) .missingRequiredSignature
  failIf ((← ownerOf swap) ≠ E.programId ∨ (← ownerOf offer) ≠ E.programId) .illegalOwner
  let s ← dataOf swap
  failIf (s.length ≠ swapLen ∨ byteAt s sStatus ≠ statusOpen) .invalidAccountData
  failIf (keyAt s sMaker ≠ maker.key) .illegalOwner
  failIf (keyAt s sGiveMint ≠ giveMint.key ∨ keyAt s sWantMint ≠ wantMint.key) .invalidArgument
  failIf (i64At s sExpiry ≤ E.clock) .invalidArgument
  let giveAmount := u64At s sGiveAmt
  let o ← dataOf offer
  failIf (o.length ≠ offerLen ∨ byteAt o oStatus ≠ statusOpen) .invalidAccountData
  failIf (keyAt o oSwap ≠ swap.key) .invalidArgument
  failIf (keyAt o oOfferer ≠ offerer.key ∨ keyAt o oWantMint ≠ wantMint.key) .invalidArgument
  failIf (i64At o oExpiry ≤ E.clock) .invalidArgument
  let wantAmount := u64At o oWantAmt
  -- the goods of the listing right now must be those the bid was made for
  failIf (keyAt o oGiveMint ≠ giveMint.key ∨ u64At o oGiveAmt ≠ giveAmount) .invalidArgument
  let (swapPda,_) ← findAddress E (swapSeeds maker.key snonce)
  let (svaultPda,_) ← findAddress E (vaultSeeds maker.key snonce)
  let (offerPda,_) ← findAddress E (offerSeeds offerer.key ononce)
  let (ovaultPda,_) ← findAddress E (ovaultSeeds offerer.key ononce)
  failIf (swapPda ≠ swap.key ∨ svaultPda ≠ swapVault.key ∨ offerPda ≠ offer.key ∨
    ovaultPda ≠ offerVault.key) .invalidSeeds
  requireTokenAccount makerWant wantMint.key maker.key
  requireTokenAccount offererGive giveMint.key offerer.key
  let giveDec ← mintDecimals giveMint
  let wantDec ← mintDecimals wantMint
  let oseeds := bumped (offerSeeds offerer.key ononce) (byteAt o oBump)
  let sseeds := bumped (swapSeeds maker.key snonce) (byteAt s sBump)
  let cfg ← readConfig E config
  let fee := bpsOf wantAmount cfg.feeBps
  payFee E cfg tokenProg offerVault wantMint feeAta offer fee wantDec (byteAt snonce 0)
    (some oseeds)
  let rest ← checkedSub wantAmount fee .panicked
  tokenTransfer E tokenProg offerVault wantMint makerWant offer rest wantDec (some oseeds)
  tokenTransfer E tokenProg swapVault giveMint offererGive swap giveAmount giveDec (some sseeds)
  tokenClose E tokenProg offerVault offerer offer oseeds
  tokenClose E tokenProg swapVault maker swap sseeds
  close E offer offerer
  close E swap maker

/-- Return the escrowed bid to the offerer and close its vault and record: the
common end of the two refunds of an offer. -/
def refundOffer (offerer offer ovault wantMint offererWant tokenProg : AccountInfo)
    (ononce : Bytes) (obump : UInt8) (wantAmount : ℕ) : Exec Unit := do
  let (offerPda,_) ← findAddress E (offerSeeds offerer.key ononce)
  let (ovaultPda,_) ← findAddress E (ovaultSeeds offerer.key ononce)
  failIf (offerPda ≠ offer.key ∨ ovaultPda ≠ ovault.key) .invalidSeeds
  requireTokenAccount offererWant wantMint.key offerer.key
  let seeds := bumped (offerSeeds offerer.key ononce) obump
  let dec ← mintDecimals wantMint
  tokenTransfer E tokenProg ovault wantMint offererWant offer wantAmount dec (some seeds)
  tokenClose E tokenProg ovault offerer offer seeds
  close E offer offerer

/-- The offerer reclaims the bid (tag 6). -/
def withdrawOffer (d : Bytes) : Exec Unit := do
  failIf (d.length ≠ 32) .invalidInstructionData
  let ononce := slice d 0 32
  let [offerer,offer,ovault,wantMint,offererWant,tokenProg] := E.accounts
    | throw .notEnoughAccountKeys
  failIf (offerer.isSigner = false) .missingRequiredSignature
  failIf ((← ownerOf offer) ≠ E.programId) .illegalOwner
  let o ← dataOf offer
  failIf (o.length ≠ offerLen ∨ byteAt o oStatus ≠ statusOpen) .invalidAccountData
  failIf (keyAt o oOfferer ≠ offerer.key) .illegalOwner
  failIf (keyAt o oWantMint ≠ wantMint.key) .invalidArgument
  refundOffer E offerer offer ovault wantMint offererWant tokenProg ononce (byteAt o oBump)
    (u64At o oWantAmt)

/-- Anyone refunds an expired bid to the offerer (tag 7). -/
def expireOffer (d : Bytes) : Exec Unit := do
  failIf (d.length ≠ 32) .invalidInstructionData
  let ononce := slice d 0 32
  let [_caller,offer,ovault,offerer,wantMint,offererWant,tokenProg] := E.accounts
    | throw .notEnoughAccountKeys
  failIf ((← ownerOf offer) ≠ E.programId) .illegalOwner
  let o ← dataOf offer
  failIf (o.length ≠ offerLen ∨ byteAt o oStatus ≠ statusOpen) .invalidAccountData
  failIf (keyAt o oOfferer ≠ offerer.key) .invalidArgument
  failIf (keyAt o oWantMint ≠ wantMint.key) .invalidArgument
  failIf (E.clock < i64At o oExpiry) .invalidArgument
  refundOffer E offerer offer ovault wantMint offererWant tokenProg ononce (byteAt o oBump)
    (u64At o oWantAmt)

end Xete.Swap
