import XetePrograms.Swap.Config
import XetePrograms.Swap.Royalty

/-!
# The want-leg payments and the checks shared by all fills
-/

set_option autoImplicit false

namespace Xete.Swap
open Xete.Octets Xete.Weakest Xete.Chain Xete.Runtime

variable (E : Env)

/-- A share of `amount` in basis points, cast back to 64 bits. -/
def bpsOf (amount bps : ℕ) : ℕ := amount*bps/bpsDenom % 2^64

def metadataSeeds (mint : Pubkey) : List Bytes :=
  [[109,101,116,97,100,97,116,97],tokenMetadataId.bytes,mint.bytes]

/-- The metadata must be the canonical account of the mint under Token-Metadata. -/
def verifyMetadataPda (metadata mint : AccountInfo) : Exec Unit := do
  failIf ((← ownerOf metadata) ≠ tokenMetadataId) .illegalOwner
  let (pda,_) ← unwrap (E.host.findProgramAddress (metadataSeeds mint.key) tokenMetadataId)
    .panicked
  failIf (metadata.key ≠ pda) .invalidArgument

/-- `md` is the canonical metadata account of `mint`. -/
def IsMetadata (s : Ledger) (md mint : Pubkey) : Prop :=
  (s md).owner = tokenMetadataId ∧
    ∃ b, E.host.findProgramAddress (metadataSeeds mint) tokenMetadataId = some (md,b)

structure RoyaltyTerms where
  royalty : ℕ
  makerShare : ℕ
  creators : List (Pubkey × UInt8)

/-- The royalty, the maker's part of it and the creators, from the metadata. -/
def resolveRoyalty (wantMint : AccountInfo) (wantAmount : ℕ) (royaltyMode makerPct : UInt8)
    (giveMint : AccountInfo) (metadata : Option AccountInfo) (creatorAtas : List AccountInfo) :
    Exec RoyaltyTerms := do
  if royaltyMode = royaltyNone then
    return ⟨0,0,[]⟩
  let mdAcct ← unwrap metadata .notEnoughAccountKeys
  verifyMetadataPda E mdAcct giveMint
  let data ← dataOf mdAcct
  let (bps,creators) ← unwrap (parseTmRoyalty data) .invalidAccountData
  failIf (bps = 0 ∨ creators = []) .invalidArgument
  failIf ((creators.map (fun c => c.2.toNat)).sum ≠ 100) .invalidArgument
  let royalty := bpsOf wantAmount bps
  failIf (royaltyMode ≠ royaltyMaker ∧ royaltyMode ≠ royaltyTaker ∧ royaltyMode ≠ royaltySplit)
    .invalidArgument
  failIf (royaltyMode = royaltySplit ∧ 100 < makerPct.toNat) .invalidArgument
  let makerShare := if royaltyMode = royaltyMaker then royalty
    else if royaltyMode = royaltyTaker then 0
    else royalty*makerPct.toNat/100 % 2^64
  failIf (creatorAtas.length ≠ creators.length) .notEnoughAccountKeys
  forEach (creatorAtas.zip creators) (fun p => requireTokenAccount p.1 wantMint.key p.2.1)
  return ⟨royalty,makerShare,creators⟩

/-- The protocol fee of a payment, when there is one. -/
def payFee (cfg : FeePolicy) (tokenProg source mint feeAta authority : AccountInfo) (fee : ℕ)
    (dec shardSeed : UInt8) (seeds : Option (List Bytes)) : Exec Unit := do
  if 0 < fee then
    verifyFeeDest E feeAta mint cfg.feeWallet cfg.feeShards shardSeed
    tokenTransfer E tokenProg source mint feeAta authority fee dec seeds

/-- The want-leg with the negotiated royalty, all from the taker: the fee, the
maker's proceeds and the split royalty. -/
def payWantAndRoyalty (config tokenProg takerWant wantMint feeAta makerWant taker : AccountInfo)
    (wantAmount maxWant : ℕ) (wantDec shardSeed royaltyMode makerPct : UInt8)
    (giveMint : AccountInfo) (metadata : Option AccountInfo) (creatorAtas : List AccountInfo) :
    Exec Unit := do
  let cfg ← readConfig E config
  let fee := bpsOf wantAmount cfg.feeBps
  let terms ← resolveRoyalty E wantMint wantAmount royaltyMode makerPct giveMint metadata
    creatorAtas
  let takerShare ← checkedSub terms.royalty terms.makerShare .panicked
  failIf (u64Max < wantAmount+takerShare) .arithmeticOverflow
  failIf (maxWant < wantAmount+takerShare) .invalidArgument
  let net ← checkedSub wantAmount fee .insufficientFunds
  let makerPayment ← checkedSub net terms.makerShare .insufficientFunds
  payFee E cfg tokenProg takerWant wantMint feeAta taker fee wantDec shardSeed none
  tokenTransfer E tokenProg takerWant wantMint makerWant taker makerPayment wantDec none
  if 0 < terms.royalty then
    let splits ← unwrap (splitByShare terms.royalty (terms.creators.map Prod.snd)) .panicked
    forEach (creatorAtas.zip splits) (fun p => do
      if 0 < p.2 then
        tokenTransfer E tokenProg takerWant wantMint p.1 taker p.2 wantDec none)

/-- The taker pays the want-leg: the fee, and the rest to the maker. -/
def payWantLeg (config tokenProg takerWant wantMint feeAta makerWant taker : AccountInfo)
    (wantAmount : ℕ) (wantDec shardSeed : UInt8) : Exec Unit := do
  let cfg ← readConfig E config
  let fee := bpsOf wantAmount cfg.feeBps
  payFee E cfg tokenProg takerWant wantMint feeAta taker fee wantDec shardSeed none
  let rest ← checkedSub wantAmount fee .panicked
  tokenTransfer E tokenProg takerWant wantMint makerWant taker rest wantDec none

/-- The coins of a bid, moved by the order address as the bidder's delegate. -/
def payCoinsViaDelegate (config tokenProg makerCoins coinsMint feeAta ownerCoins
    orderAuth : AccountInfo) (seeds : List Bytes) (amount : ℕ) (coinsDec shardSeed : UInt8) :
    Exec Unit := do
  let cfg ← readConfig E config
  let fee := bpsOf amount cfg.feeBps
  payFee E cfg tokenProg makerCoins coinsMint feeAta orderAuth fee coinsDec shardSeed (some seeds)
  let rest ← checkedSub amount fee .panicked
  tokenTransfer E tokenProg makerCoins coinsMint ownerCoins orderAuth rest coinsDec (some seeds)

structure FillState where
  maker : Pubkey
  giveAmount : ℕ
  wantAmount : ℕ
  bump : UInt8
  royaltyMode : UInt8
  makerPct : UInt8

def fillState (st : Bytes) : FillState :=
  ⟨keyAt st sMaker,u64At st sGiveAmt,u64At st sWantAmt,byteAt st sBump,
    byteAt st sRoyaltyMode,byteAt st sMakerPct⟩

/-- Load a rested swap or listing and check that `taker` may fill it now. -/
def loadFillState (state : AccountInfo) (giveKey wantKey takerKey : Pubkey) : Exec FillState := do
  let st ← dataOf state
  failIf (st.length ≠ swapLen ∨ byteAt st sStatus ≠ statusOpen) .invalidAccountData
  failIf (keyAt st sGiveMint ≠ giveKey ∨ keyAt st sWantMint ≠ wantKey) .invalidArgument
  failIf (i64At st sExpiry ≤ E.clock) .invalidArgument
  failIf (keyAt st sTaker ≠ zeroKey ∧ keyAt st sTaker ≠ takerKey) .invalidArgument
  return fillState st

/-- The record at `k` is open, unexpired and fillable by `taker`, in this pair. -/
def MayFill (s : Ledger) (k give want taker : Pubkey) : Prop :=
  (s k).data.length = swapLen ∧ byteAt (s k).data sStatus = statusOpen ∧
    keyAt (s k).data sGiveMint = give ∧ keyAt (s k).data sWantMint = want ∧
    E.clock < i64At (s k).data sExpiry ∧
    (keyAt (s k).data sTaker = zeroKey ∨ keyAt (s k).data sTaker = taker)

section
variable {E} {m : Machine} {F : Machine → Prop}

@[simp] theorem wp_verifyMetadataPda (metadata mint : AccountInfo) {Q : Unit → Machine → Prop} :
    wp (verifyMetadataPda E metadata mint) Q F m ↔
      (IsMetadata E m.ledger metadata.key mint.key → Q () m) ∧
      (¬IsMetadata E m.ledger metadata.key mint.key → F m) := by
  simp only [verifyMetadataPda, wp_bind, wp_ownerOf, wp_failIf, wp_unwrap, Prod.forall, IsMetadata]
  rcases E.host.findProgramAddress _ tokenMetadataId with _ | ⟨a,b⟩
  · simp
  · by_cases ha : metadata.key = a
    · simp [ha]
    · simp [ha, Ne.symm ha]

@[simp] theorem wp_loadFillState (state : AccountInfo) (give want taker : Pubkey)
    {Q : FillState → Machine → Prop} :
    wp (loadFillState E state give want taker) Q F m ↔
      (MayFill E m.ledger state.key give want taker → Q (fillState (m.ledger state.key).data) m) ∧
      (¬MayFill E m.ledger state.key give want taker → F m) := by
  simp only [loadFillState, wp_bind, wp_dataOf, wp_failIf, wp_pure, MayFill]
  grind

/-- Resolving the royalty only reads. -/
theorem resolveRoyalty_reads {wantMint giveMint : AccountInfo} {Q : RoyaltyTerms → Machine → Prop}
    (wantAmount : ℕ) (mode pct : UInt8) (md : Option AccountInfo) (atas : List AccountInfo)
    (hF : F m) (hQ : ∀ terms, Q terms m) :
    wp (resolveRoyalty E wantMint wantAmount mode pct giveMint md atas) Q F m := by
  unfold resolveRoyalty
  split
  · exact hQ _
  · simp only [wp_bind, wp_unwrap, wp_verifyMetadataPda, wp_dataOf, wp_failIf, hF, implies_true,
      and_true]
    intros
    refine wp_mono (wp_forEach (fun _ m' => m' = m) _ ?_ _ _ rfl) ?_ (fun _ h => h)
    · rintro a as s rfl
      rw [wp_requireTokenAccount]
      exact ⟨fun _ => rfl,fun _ => hF⟩
    · rintro _ s rfl
      exact hQ _

end

end Xete.Swap
