import XetePrograms.Swap.Swap

/-!
# Listings under a standing delegate; the asset stays with the maker (tags 26 to 37)
-/

set_option autoImplicit false

namespace Xete.Swap
open Xete.Octets Xete.Weakest Xete.Chain Xete.Runtime

variable (E : Env)

/-- The fields of a new listing, with the royalty stance where the listing has one. -/
def listingFields (maker giveMint : Pubkey) (giveAmount : ℕ) (royaltyMode makerPct : UInt8)
    (wantMint : Pubkey) (wantAmount : ℕ) (targetTaker terms : Bytes) (expiry : ℤ) (bump : UInt8)
    (nonce : Bytes) : List (ℕ × Bytes) :=
  [(sMaker,maker.bytes),(sGiveMint,giveMint.bytes),(sGiveAmt,le 8 giveAmount),
    (sRoyaltyMode,[royaltyMode]),(sMakerPct,[makerPct]),(sWantMint,wantMint.bytes),
    (sWantAmt,le 8 wantAmount),(sTaker,targetTaker),(sTerms,terms),(sExpiry,leInt 8 expiry),
    (sStatus,[statusOpen]),(sBump,[bump]),(sNonce,nonce)]

/-- Approve the listing address for the give-leg (tag 26). -/
def list (d : Bytes) : Exec Unit := do
  failIf (d.length ≠ 122) .invalidInstructionData
  let nonce := slice d 0 32
  let giveAmount := u64At d 32
  let wantAmount := u64At d 40
  let terms := slice d 48 32
  let expiry := i64At d 80
  let targetTaker := slice d 88 32
  let royaltyMode := byteAt d 120
  let makerPct := byteAt d 121
  failIf (royaltySplit < royaltyMode ∨ 100 < makerPct) .invalidInstructionData
  let [maker,listing,giveMint,wantMint,makerGive,tokenProg,_system,config,aliasAcct] := E.accounts
    | throw .notEnoughAccountKeys
  failIf (maker.isSigner = false) .missingRequiredSignature
  failIf (giveAmount = 0 ∨ wantAmount = 0) .invalidInstructionData
  failIf (expiry ≤ E.clock) .invalidArgument
  assertTokenProgram tokenProg giveMint
  requireTokenAccount makerGive giveMint.key maker.key
  requireAlias E config maker.key aliasAcct
  let (listingPda,bump) ← findAddress E (listingSeeds maker.key nonce)
  failIf (listingPda ≠ listing.key) .invalidSeeds
  createPda E maker listing swapLen E.programId (bumped (listingSeeds maker.key nonce) bump)
  emitPostCreated E kindListing maker.key listing.key giveMint.key wantMint.key giveAmount
    wantAmount expiry nonce
  tokenApprove E tokenProg makerGive listing maker giveAmount
  let st ← dataOf listing
  perform E (.write listing.key (patches st (listingFields maker.key giveMint.key giveAmount
    royaltyMode makerPct wantMint.key wantAmount targetTaker terms expiry bump nonce)))

/-- A taker pays and the listing address moves the goods (tag 27). -/
def fillListing (d : Bytes) : Exec Unit := do
  failIf (d.length ≠ 48) .invalidInstructionData
  let nonce := slice d 0 32
  let expectGive := u64At d 32
  let maxWant := u64At d 40
  failIf (E.accounts.length < 12) .notEnoughAccountKeys
  let [taker,listing,maker,giveMint,wantMint,makerGive,takerGive,takerWant,makerWant,tokenProg,
    config,feeAta] := E.accounts.take 12 | throw .notEnoughAccountKeys
  let giveTokenProg := E.accounts[12]?.getD tokenProg
  failIf (taker.isSigner = false) .missingRequiredSignature
  failIf ((← ownerOf listing) ≠ E.programId) .illegalOwner
  let st ← loadFillState E listing giveMint.key wantMint.key taker.key
  failIf (st.giveAmount ≠ expectGive) .invalidArgument
  failIf (maker.key ≠ st.maker) .invalidArgument
  let listingPda ← createAddress E (listingSeeds st.maker nonce) st.bump
  failIf (listingPda ≠ listing.key) .invalidSeeds
  requireTokenAccount makerGive giveMint.key st.maker
  requireTokenAccount makerWant wantMint.key st.maker
  let giveDec ← mintDecimals giveMint
  let wantDec ← mintDecimals wantMint
  assertTokenProgram tokenProg wantMint
  assertTokenProgram giveTokenProg giveMint
  failIf (st.royaltyMode ≠ royaltyNone ∧ E.accounts.length < 14) .notEnoughAccountKeys
  let metadata := if st.royaltyMode = royaltyNone then none else E.accounts[13]?
  let creatorAtas := if st.royaltyMode = royaltyNone then [] else E.accounts.drop 14
  payWantAndRoyalty E config tokenProg takerWant wantMint feeAta makerWant taker st.wantAmount
    maxWant wantDec (byteAt nonce 0) st.royaltyMode st.makerPct giveMint metadata creatorAtas
  tokenTransfer E giveTokenProg makerGive giveMint takerGive listing st.giveAmount giveDec
    (some (bumped (listingSeeds st.maker nonce) st.bump))
  close E listing maker

/-- The maker revokes the delegate and closes the listing (tag 28). -/
def cancelListing (d : Bytes) : Exec Unit := do
  failIf (d.length ≠ 32) .invalidInstructionData
  let nonce := slice d 0 32
  let [maker,listing,giveMint,makerGive,tokenProg,config,feeWallet,_system] := E.accounts
    | throw .notEnoughAccountKeys
  failIf (maker.isSigner = false) .missingRequiredSignature
  failIf ((← ownerOf listing) ≠ E.programId) .illegalOwner
  let st ← dataOf listing
  failIf (st.length ≠ swapLen ∨ byteAt st sStatus ≠ statusOpen) .invalidAccountData
  failIf (keyAt st sMaker ≠ maker.key) .illegalOwner
  failIf (keyAt st sGiveMint ≠ giveMint.key) .invalidArgument
  requireTokenAccount makerGive giveMint.key maker.key
  let (listingPda,_) ← findAddress E (listingSeeds maker.key nonce)
  failIf (listingPda ≠ listing.key) .invalidSeeds
  payDelistFee E config maker feeWallet
  tokenRevoke E tokenProg makerGive maker
  close E listing maker

/-- The checks and the close shared by the permissionless expiries of listings. -/
def expireRestedListing (caller listing maker : AccountInfo) (asset : Option Pubkey)
    (nonce : Bytes) : Exec Unit := do
  failIf (caller.isSigner = false) .missingRequiredSignature
  failIf ((← ownerOf listing) ≠ E.programId) .illegalOwner
  let st ← dataOf listing
  failIf (st.length ≠ swapLen ∨ byteAt st sStatus ≠ statusOpen) .invalidAccountData
  failIf (∃ k ∈ asset, keyAt st sGiveMint ≠ k) .invalidArgument
  failIf (E.clock < i64At st sExpiry) .invalidArgument
  let stateMaker := keyAt st sMaker
  failIf (maker.key ≠ stateMaker) .invalidArgument
  let (listingPda,_) ← findAddress E (listingSeeds stateMaker nonce)
  failIf (listingPda ≠ listing.key) .invalidSeeds
  close E listing maker

/-- Anyone closes a listing after the deadline (tag 29). -/
def expireListing (d : Bytes) : Exec Unit := do
  failIf (d.length ≠ 32) .invalidInstructionData
  let nonce := slice d 0 32
  let [caller,listing,maker] := E.accounts | throw .notEnoughAccountKeys
  expireRestedListing E caller listing maker none nonce

/-- Delegate a programmable NFT to the listing address (tag 30). -/
def listPnft (d : Bytes) : Exec Unit := do
  failIf (d.length ≠ 122) .invalidInstructionData
  let nonce := slice d 0 32
  let giveAmount := u64At d 32
  let wantAmount := u64At d 40
  let terms := slice d 48 32
  let expiry := i64At d 80
  let targetTaker := slice d 88 32
  let royaltyMode := byteAt d 120
  let makerPct := byteAt d 121
  failIf (royaltySplit < royaltyMode ∨ 100 < makerPct) .invalidInstructionData
  let [maker,listing,giveMint,wantMint,ownerAta,tokenRecord,metadata,edition,tokenMetadata,splTok,
    sysvarIx,system,rulesProg,rules,config,aliasAcct] := E.accounts | throw .notEnoughAccountKeys
  failIf (maker.isSigner = false) .missingRequiredSignature
  failIf (giveAmount ≠ 1 ∨ wantAmount = 0) .invalidInstructionData
  failIf (expiry ≤ E.clock) .invalidArgument
  failIf (tokenMetadata.key ≠ tokenMetadataId ∨ sysvarIx.key ≠ sysvarInstructionsId)
    .incorrectProgramId
  failIf (ownerAta.key ≠ (← ataFor E maker.key giveMint.key)) .invalidArgument
  requireAlias E config maker.key aliasAcct
  let (listingPda,bump) ← findAddress E (listingSeeds maker.key nonce)
  failIf (listingPda ≠ listing.key) .invalidSeeds
  createPda E maker listing swapLen E.programId (bumped (listingSeeds maker.key nonce) bump)
  emitPostCreated E kindListingPnft maker.key listing.key giveMint.key wantMint.key giveAmount
    wantAmount expiry nonce
  mplDelegateOrRevoke E tokenMetadata tokenRecord listing metadata edition giveMint ownerAta maker
    maker system sysvarIx splTok rulesProg rules 1 false
  let st ← dataOf listing
  perform E (.write listing.key (patches st (listingFields maker.key giveMint.key 1
    royaltyMode makerPct wantMint.key wantAmount targetTaker terms expiry bump nonce)))

/-- A taker pays and the listing address moves the NFT (tag 31). -/
def fillListingPnft (d : Bytes) : Exec Unit := do
  failIf (d.length ≠ 48) .invalidInstructionData
  let nonce := slice d 0 32
  let expectGive := u64At d 32
  let maxWant := u64At d 40
  failIf (E.accounts.length < 23) .notEnoughAccountKeys
  let [taker,listing,maker,giveMint,wantMint,takerWant,makerWant,wantTokenProg,config,feeAta,
    makerAta,takerAta,metadata,edition,ownerRecord,destRecord,tokenMetadata,splTok,ataProg,sysvarIx,
    system,rulesProg,rules] := E.accounts.take 23 | throw .notEnoughAccountKeys
  failIf (taker.isSigner = false) .missingRequiredSignature
  failIf ((← ownerOf listing) ≠ E.programId) .illegalOwner
  failIf (tokenMetadata.key ≠ tokenMetadataId ∨ sysvarIx.key ≠ sysvarInstructionsId)
    .incorrectProgramId
  let st ← loadFillState E listing giveMint.key wantMint.key taker.key
  failIf (st.giveAmount ≠ expectGive) .invalidArgument
  failIf (maker.key ≠ st.maker) .invalidArgument
  let listingPda ← createAddress E (listingSeeds st.maker nonce) st.bump
  failIf (listingPda ≠ listing.key) .invalidSeeds
  failIf (makerAta.key ≠ (← ataFor E maker.key giveMint.key) ∨
    takerAta.key ≠ (← ataFor E taker.key giveMint.key)) .invalidArgument
  requireTokenAccount makerWant wantMint.key st.maker
  let wantDec ← mintDecimals wantMint
  assertTokenProgram wantTokenProg wantMint
  payWantAndRoyalty E config wantTokenProg takerWant wantMint feeAta makerWant taker st.wantAmount
    maxWant wantDec (byteAt nonce 0) st.royaltyMode st.makerPct giveMint (some metadata)
    (E.accounts.drop 23)
  mplTransfer E tokenMetadata makerAta maker takerAta taker giveMint metadata edition ownerRecord
    destRecord listing taker system sysvarIx splTok ataProg rulesProg rules 1
    (some (bumped (listingSeeds st.maker nonce) st.bump))
  close E listing maker

/-- The maker revokes the delegation of the NFT and closes the listing (tag 32). -/
def cancelListingPnft (d : Bytes) : Exec Unit := do
  failIf (d.length ≠ 32) .invalidInstructionData
  let nonce := slice d 0 32
  let [maker,listing,giveMint,ownerAta,tokenRecord,metadata,edition,tokenMetadata,splTok,sysvarIx,
    system,rulesProg,rules,config,feeWallet] := E.accounts | throw .notEnoughAccountKeys
  failIf (maker.isSigner = false) .missingRequiredSignature
  failIf ((← ownerOf listing) ≠ E.programId) .illegalOwner
  failIf (tokenMetadata.key ≠ tokenMetadataId ∨ sysvarIx.key ≠ sysvarInstructionsId)
    .incorrectProgramId
  let st ← dataOf listing
  failIf (st.length ≠ swapLen ∨ byteAt st sStatus ≠ statusOpen) .invalidAccountData
  failIf (keyAt st sMaker ≠ maker.key) .illegalOwner
  failIf (keyAt st sGiveMint ≠ giveMint.key) .invalidArgument
  let (listingPda,_) ← findAddress E (listingSeeds maker.key nonce)
  failIf (listingPda ≠ listing.key) .invalidSeeds
  failIf (ownerAta.key ≠ (← ataFor E maker.key giveMint.key)) .invalidArgument
  payDelistFee E config maker feeWallet
  mplDelegateOrRevoke E tokenMetadata tokenRecord listing metadata edition giveMint ownerAta maker
    maker system sysvarIx splTok rulesProg rules 0 true
  close E listing maker

/-- Anyone closes an NFT listing after the deadline (tag 33). -/
def expireListingPnft (d : Bytes) : Exec Unit := do
  failIf (d.length ≠ 32) .invalidInstructionData
  let nonce := slice d 0 32
  let [caller,listing,maker] := E.accounts | throw .notEnoughAccountKeys
  expireRestedListing E caller listing maker none nonce

/-- An account list of `n` accounts, or of `n` accounts and a collection. -/
def splitCollection (n : ℕ) (accounts : List AccountInfo) :
    List AccountInfo × Option AccountInfo :=
  if accounts.length = n+1 then (accounts.take n,accounts[n]?) else (accounts,none)

theorem splitCollection_getElem? (n i : ℕ) (xs : List AccountInfo) (hi : i < n) :
    (splitCollection n xs).1[i]? = xs[i]? := by
  unfold splitCollection
  split
  · simp [hi]
  · rfl

/-- The collection slot: the account that was appended, which Core must own, or
the Core program itself as the sentinel. -/
def resolveCollection (mplCore : AccountInfo) (collection : Option AccountInfo) :
    Exec AccountInfo := do
  match collection with
  | some c =>
    if c.key = mplCore.key then
      return mplCore
    failIf ((← ownerOf c) ≠ mplCore.key) .illegalOwner
    return c
  | none => return mplCore

/-- `c` is what the collection slot stands for. -/
def Resolves (s : Ledger) (mplCore : AccountInfo) (collection : Option AccountInfo)
    (c : AccountInfo) : Prop :=
  match collection with
  | some a => if a.key = mplCore.key then c = mplCore else (s a.key).owner = mplCore.key ∧ c = a
  | none => c = mplCore

@[simp] theorem wp_resolveCollection {m : Machine} {F : Machine → Prop} (mplCore : AccountInfo)
    (collection : Option AccountInfo) {Q : AccountInfo → Machine → Prop} :
    wp (resolveCollection mplCore collection) Q F m ↔
      (∀ c, Resolves m.ledger mplCore collection c → Q c m) ∧
      ((∀ c, ¬Resolves m.ledger mplCore collection c) → F m) := by
  cases collection with
  | none => simp [resolveCollection, Resolves]
  | some a =>
    by_cases h : a.key = mplCore.key
    · simp [resolveCollection, Resolves, h]
    · simp [resolveCollection, Resolves, h]

/-- Delegate a Core asset to the listing address through a plugin (tag 34). -/
def listCore (d : Bytes) : Exec Unit := do
  failIf (d.length ≠ 120) .invalidInstructionData
  let nonce := slice d 0 32
  let giveAmount := u64At d 32
  let wantAmount := u64At d 40
  let terms := slice d 48 32
  let expiry := i64At d 80
  let targetTaker := slice d 88 32
  let (rest,collOpt) := splitCollection 8 E.accounts
  let [maker,listing,asset,wantMint,mplCore,system,config,aliasAcct] := rest
    | throw .notEnoughAccountKeys
  let collection ← resolveCollection mplCore collOpt
  failIf (maker.isSigner = false) .missingRequiredSignature
  failIf (giveAmount ≠ 1 ∨ wantAmount = 0) .invalidInstructionData
  failIf (expiry ≤ E.clock) .invalidArgument
  failIf (mplCore.key ≠ mplCoreId) .incorrectProgramId
  requireAlias E config maker.key aliasAcct
  let (listingPda,bump) ← findAddress E (listingSeeds maker.key nonce)
  failIf (listingPda ≠ listing.key) .invalidSeeds
  createPda E maker listing swapLen E.programId (bumped (listingSeeds maker.key nonce) bump)
  emitPostCreated E kindListingCore maker.key listing.key asset.key wantMint.key giveAmount
    wantAmount expiry nonce
  mplCorePlugin E mplCore asset collection maker system [0x02,0x03,0x00] none
  mplCorePlugin E mplCore asset collection maker system ([0x08,0x03,0x03] ++ listing.key.bytes) none
  let st ← dataOf listing
  perform E (.write listing.key
    (patches st (swapFields maker.key asset.key 1 wantMint.key wantAmount
    targetTaker terms expiry bump nonce)))

/-- A taker pays and the listing address moves the asset (tag 35). -/
def fillListingCore (d : Bytes) : Exec Unit := do
  failIf (d.length ≠ 48) .invalidInstructionData
  let nonce := slice d 0 32
  let expectGive := u64At d 32
  let maxWant := u64At d 40
  let (rest,collOpt) := splitCollection 11 E.accounts
  let [taker,listing,maker,asset,wantMint,takerWant,makerWant,wantTokenProg,config,feeAta,
    mplCore] :=
    rest | throw .notEnoughAccountKeys
  let collection ← resolveCollection mplCore collOpt
  failIf (taker.isSigner = false) .missingRequiredSignature
  failIf ((← ownerOf listing) ≠ E.programId) .illegalOwner
  failIf (mplCore.key ≠ mplCoreId) .incorrectProgramId
  let st ← loadFillState E listing asset.key wantMint.key taker.key
  failIf (st.giveAmount ≠ expectGive ∨ maxWant < st.wantAmount) .invalidArgument
  failIf (maker.key ≠ st.maker) .invalidArgument
  let listingPda ← createAddress E (listingSeeds st.maker nonce) st.bump
  failIf (listingPda ≠ listing.key) .invalidSeeds
  requireTokenAccount makerWant wantMint.key st.maker
  let wantDec ← mintDecimals wantMint
  assertTokenProgram wantTokenProg wantMint
  payWantLeg E config wantTokenProg takerWant wantMint feeAta makerWant taker st.wantAmount wantDec
    (byteAt nonce 0)
  mplCoreTransfer E mplCore asset collection taker listing taker true
    (some (bumped (listingSeeds st.maker nonce) st.bump))
  close E listing maker

/-- The maker revokes and removes the plugin and closes the listing (tag 36). -/
def cancelListingCore (d : Bytes) : Exec Unit := do
  failIf (d.length ≠ 32) .invalidInstructionData
  let nonce := slice d 0 32
  let (rest,collOpt) := splitCollection 7 E.accounts
  let [maker,listing,asset,config,feeWallet,system,mplCore] := rest | throw .notEnoughAccountKeys
  let collection ← resolveCollection mplCore collOpt
  failIf (maker.isSigner = false) .missingRequiredSignature
  failIf ((← ownerOf listing) ≠ E.programId) .illegalOwner
  failIf (mplCore.key ≠ mplCoreId) .incorrectProgramId
  let st ← dataOf listing
  failIf (st.length ≠ swapLen ∨ byteAt st sStatus ≠ statusOpen) .invalidAccountData
  failIf (keyAt st sMaker ≠ maker.key) .illegalOwner
  failIf (keyAt st sGiveMint ≠ asset.key) .invalidArgument
  let (listingPda,_) ← findAddress E (listingSeeds maker.key nonce)
  failIf (listingPda ≠ listing.key) .invalidSeeds
  payDelistFee E config maker feeWallet
  mplCorePlugin E mplCore asset collection maker system [0x0a,0x03] none
  mplCorePlugin E mplCore asset collection maker system [0x04,0x03] none
  close E listing maker

/-- Anyone closes a Core listing after the deadline (tag 37). -/
def expireListingCore (d : Bytes) : Exec Unit := do
  failIf (d.length ≠ 32) .invalidInstructionData
  let nonce := slice d 0 32
  let [caller,listing,maker,asset] := E.accounts | throw .notEnoughAccountKeys
  expireRestedListing E caller listing maker (some asset.key) nonce

end Xete.Swap
