import XetePrograms.Swap.State

/-!
# The instructions that the Python client builds
-/

set_option autoImplicit false

namespace Xete.Sdk
open Xete.Octets Xete.Chain Xete.Swap

structure Instruction where
  accounts : List AccountInfo
  data : Bytes

variable (H : Host)

/-- An address derived for a program; the client raises where there is none. -/
def findAddress (seeds : List Bytes) (program : Pubkey) : Option Pubkey :=
  (H.findProgramAddress seeds program).map Prod.fst

/-- The associated token account of an owner. -/
def ata (owner mint prog : Pubkey) : Option Pubkey :=
  findAddress H [owner.bytes,prog.bytes,mint.bytes] ataProgramId

def swapPda (maker : Pubkey) (nonce : Bytes) : Option Pubkey :=
  findAddress H [[115,119,97,112],maker.bytes,nonce] H.programId

def vaultPda (maker : Pubkey) (nonce : Bytes) : Option Pubkey :=
  findAddress H [[118,97,117,108,116],maker.bytes,nonce] H.programId

def offerPda (offerer : Pubkey) (nonce : Bytes) : Option Pubkey :=
  findAddress H [[111,102,102,101,114],offerer.bytes,nonce] H.programId

def ovaultPda (offerer : Pubkey) (nonce : Bytes) : Option Pubkey :=
  findAddress H [[111,118,97,117,108,116],offerer.bytes,nonce] H.programId

def configPda : Option Pubkey := findAddress H [[99,111,110,102,105,103]] H.programId

def feeVaultPda (wantMint : Pubkey) (idx : UInt8) : Option Pubkey :=
  findAddress H [[102,101,101,95,118,97,117,108,116],wantMint.bytes,[idx]] H.programId

/-- A number packed into eight bytes; the client raises where it does not fit. -/
def u64 (n : ℕ) : Option Bytes := if n ≤ u64Max then some (le 8 n) else none

structure Config where
  admin : Pubkey
  feeWallet : Pubkey
  feeBps : ℕ
  delistFee : ℕ
  aliasProgram : Pubkey
  feeShards : UInt8
  deriving DecidableEq

/-- The decoder of the config account. -/
def configFrom (d : Bytes) : Option Config :=
  if d.length = 108 then
    some ⟨keyAt d 0,keyAt d 32,u16At d 64,u64At d 66,keyAt d 74,byteAt d 106⟩
  else none

/-- The config that the client reads. -/
def getConfig (s : Ledger) : Option Config := (configPda H).bind fun k => configFrom (s k).data

/-- Where the fee lands: the wallet's account, or the vault of the nonce's shard. -/
def feeDest (wantMint : Pubkey) (nonce : Bytes) (feeWallet : Pubkey) (feeShards : UInt8) :
    Option Pubkey :=
  if 0 < feeShards then feeVaultPda H wantMint (byteAt nonce 0 % feeShards)
  else ata H feeWallet wantMint splTokenId

def fillIx (taker maker : Pubkey) (nonce : Bytes) (giveMint wantMint : Pubkey)
    (expectGive maxWant : ℕ) (feeWallet : Pubkey) (feeShards : UInt8) (giveTokenProg : Pubkey) :
    Option Instruction := do
  let sp ← swapPda H maker nonce
  let vp ← vaultPda H maker nonce
  let give ← u64 expectGive
  let want ← u64 maxWant
  let takerWant ← ata H taker wantMint splTokenId
  let takerGive ← ata H taker giveMint giveTokenProg
  let makerWant ← ata H maker wantMint splTokenId
  let config ← configPda H
  let fee ← feeDest H wantMint nonce feeWallet feeShards
  return ⟨[⟨taker,true,true⟩,⟨sp,false,true⟩,⟨vp,false,true⟩,⟨maker,false,true⟩,
    ⟨giveMint,false,false⟩,⟨wantMint,false,false⟩,⟨takerWant,false,true⟩,⟨takerGive,false,true⟩,
    ⟨makerWant,false,true⟩,⟨splTokenId,false,false⟩,⟨config,false,false⟩,⟨fee,false,true⟩,
    ⟨giveTokenProg,false,false⟩],1 :: (nonce ++ give ++ want)⟩

/-- The fill with the fee policy that the client reads. -/
def fill (s : Ledger) (taker maker : Pubkey) (nonce : Bytes) (giveMint wantMint : Pubkey)
    (expectGive maxWant : ℕ) (giveTokenProg : Pubkey) : Option Instruction := do
  let c ← getConfig H s
  fillIx H taker maker nonce giveMint wantMint expectGive maxWant c.feeWallet c.feeShards
    giveTokenProg

def expireIx (caller maker : Pubkey) (nonce : Bytes) (giveMint : Pubkey) : Option Instruction := do
  let sp ← swapPda H maker nonce
  let vp ← vaultPda H maker nonce
  let makerGive ← ata H maker giveMint splTokenId
  return ⟨[⟨caller,true,true⟩,⟨sp,false,true⟩,⟨vp,false,true⟩,⟨maker,false,true⟩,
    ⟨giveMint,false,false⟩,⟨makerGive,false,true⟩,⟨splTokenId,false,false⟩],3 :: nonce⟩

def acceptOfferIx (maker : Pubkey) (swapNonce : Bytes) (offerer : Pubkey) (offerNonce : Bytes)
    (giveMint wantMint feeWallet : Pubkey) (feeShards : UInt8) : Option Instruction := do
  let sp ← swapPda H maker swapNonce
  let vp ← vaultPda H maker swapNonce
  let offer ← offerPda H offerer offerNonce
  let ovault ← ovaultPda H offerer offerNonce
  let offererGive ← ata H offerer giveMint splTokenId
  let makerWant ← ata H maker wantMint splTokenId
  let config ← configPda H
  let fee ← feeDest H wantMint swapNonce feeWallet feeShards
  return ⟨[⟨maker,true,true⟩,⟨sp,false,true⟩,⟨vp,false,true⟩,⟨offer,false,true⟩,⟨ovault,false,true⟩,
    ⟨offerer,false,true⟩,⟨giveMint,false,false⟩,⟨wantMint,false,false⟩,⟨offererGive,false,true⟩,
    ⟨makerWant,false,true⟩,⟨splTokenId,false,false⟩,⟨config,false,false⟩,⟨fee,false,true⟩],
    5 :: (swapNonce ++ offerNonce)⟩

/-- The acceptance with the fee policy that the client reads. -/
def acceptOffer (s : Ledger) (maker : Pubkey) (swapNonce : Bytes) (offerer : Pubkey)
    (offerNonce : Bytes) (giveMint wantMint : Pubkey) : Option Instruction := do
  let c ← getConfig H s
  acceptOfferIx H maker swapNonce offerer offerNonce giveMint wantMint c.feeWallet c.feeShards

def withdrawOfferIx (offerer : Pubkey) (nonce : Bytes) (wantMint : Pubkey) :
    Option Instruction := do
  let offer ← offerPda H offerer nonce
  let ovault ← ovaultPda H offerer nonce
  let offererWant ← ata H offerer wantMint splTokenId
  return ⟨[⟨offerer,true,true⟩,⟨offer,false,true⟩,⟨ovault,false,true⟩,⟨wantMint,false,false⟩,
    ⟨offererWant,false,true⟩,⟨splTokenId,false,false⟩],6 :: nonce⟩

def expireOfferIx (caller offerer : Pubkey) (nonce : Bytes) (wantMint : Pubkey) :
    Option Instruction := do
  let offer ← offerPda H offerer nonce
  let ovault ← ovaultPda H offerer nonce
  let offererWant ← ata H offerer wantMint splTokenId
  return ⟨[⟨caller,true,true⟩,⟨offer,false,true⟩,⟨ovault,false,true⟩,⟨offerer,false,true⟩,
    ⟨wantMint,false,false⟩,⟨offererWant,false,true⟩,⟨splTokenId,false,false⟩],7 :: nonce⟩

end Xete.Sdk
