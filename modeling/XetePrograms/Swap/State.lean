import XetePrograms.Solana.Runtime

/-!
# Account byte layouts and the decoders shared by every instruction
-/

set_option autoImplicit false

namespace Xete.Swap
open Xete.Octets Xete.Weakest Xete.Chain Xete.Runtime

/-! ## Swap account -/

def sMaker : ℕ := 0
def sGiveMint : ℕ := 32
def sGiveAmt : ℕ := 64
def sWantMint : ℕ := 72
def sWantAmt : ℕ := 104
def sTaker : ℕ := 112
def sTerms : ℕ := 144
def sExpiry : ℕ := 176
def sStatus : ℕ := 184
def sBump : ℕ := 185
def sNonce : ℕ := 186
def sRoyaltyMode : ℕ := 218
def sMakerPct : ℕ := 219
def swapLen : ℕ := 220

def royaltyNone : UInt8 := 0
def royaltyMaker : UInt8 := 1
def royaltyTaker : UInt8 := 2
def royaltySplit : UInt8 := 3

def tokenAcctLen : ℕ := 165

def statusOpen : UInt8 := 0

/-! ## Offer account -/

def oOfferer : ℕ := 0
def oSwap : ℕ := 32
def oWantMint : ℕ := 64
def oWantAmt : ℕ := 96
def oGiveMint : ℕ := 104
def oGiveAmt : ℕ := 136
def oExpiry : ℕ := 144
def oStatus : ℕ := 152
def oBump : ℕ := 153
def oNonce : ℕ := 154
def offerLen : ℕ := 186

/-! ## Config account -/

def cAdmin : ℕ := 0
def cFeeWallet : ℕ := 32
def cFeeBps : ℕ := 64
def cDelistFee : ℕ := 66
def cAliasProgram : ℕ := 74
def cFeeShards : ℕ := 106
def cBump : ℕ := 107
def configLen : ℕ := 108
def bpsDenom : ℕ := 10000
def aliasLen : ℕ := 106

/-! ## Basket account -/

def maxLeg : ℕ := 5
def entryLen : ℕ := 40
def bMaker : ℕ := 0
def bGiveCount : ℕ := 32
def bWantCount : ℕ := 33
def bGive : ℕ := 34
def bWant : ℕ := 234
def bTaker : ℕ := 434
def bAuthMode : ℕ := 466
def bClaimAuth : ℕ := 467
def bExpiry : ℕ := 499
def bStatus : ℕ := 507
def bBump : ℕ := 508
def bNonce : ℕ := 509
def basketLen : ℕ := 541
def authNormal : UInt8 := 0
def authBearer : UInt8 := 1

def u16At (d : Bytes) (off : ℕ) : ℕ := natLe (slice d off 2)

/-- Mint decimals live at offset 44 of a mint account. -/
def mintDecimals (mint : AccountInfo) : Exec UInt8 := do
  let d ← dataOf mint
  unwrap d[44]? .invalidAccountData

/-! ## Address seeds -/

def swapSeeds (maker : Pubkey) (nonce : Bytes) : List Bytes :=
  [[115,119,97,112],maker.bytes,nonce]

def vaultSeeds (maker : Pubkey) (nonce : Bytes) : List Bytes :=
  [[118,97,117,108,116],maker.bytes,nonce]

def offerSeeds (offerer : Pubkey) (nonce : Bytes) : List Bytes :=
  [[111,102,102,101,114],offerer.bytes,nonce]

def ovaultSeeds (offerer : Pubkey) (nonce : Bytes) : List Bytes :=
  [[111,118,97,117,108,116],offerer.bytes,nonce]

def basketSeeds (maker : Pubkey) (nonce : Bytes) : List Bytes :=
  [[98,97,115,107,101,116],maker.bytes,nonce]

def bvaultSeeds (maker : Pubkey) (nonce : Bytes) (idx : UInt8) : List Bytes :=
  [[98,118,97,117,108,116],maker.bytes,nonce,[idx]]

def listingSeeds (maker : Pubkey) (nonce : Bytes) : List Bytes :=
  [[108,105,115,116,105,110,103],maker.bytes,nonce]

def orderSeeds (maker : Pubkey) : List Bytes := [[111,114,100,101,114],maker.bytes]

def orderDoneSeeds (maker : Pubkey) (nonce : Bytes) : List Bytes :=
  [[111,114,100,101,114,95,100,111,110,101],maker.bytes,nonce]

def configSeeds : List Bytes := [[99,111,110,102,105,103]]

def feeVaultSeeds (wantMint : Pubkey) (idx : UInt8) : List Bytes :=
  [[102,101,101,95,118,97,117,108,116],wantMint.bytes,[idx]]

/-- The seeds with their bump seed. -/
def bumped (seeds : List Bytes) (bump : UInt8) : List Bytes := seeds ++ [[bump]]

def findAddress (E : Env) (seeds : List Bytes) : Exec (Pubkey × UInt8) :=
  unwrap (E.host.findProgramAddress seeds E.programId) .panicked

def createAddress (E : Env) (seeds : List Bytes) (bump : UInt8) : Exec Pubkey :=
  unwrap (E.host.createProgramAddress (bumped seeds bump) E.programId) .invalidSeeds

def accountAt (E : Env) (i : ℕ) : Exec AccountInfo := unwrap E.accounts[i]? .panicked

theorem take_getElem? (n i : ℕ) (xs ys : List AccountInfo) (h : xs.take n = ys) (hi : i < n) :
    xs[i]? = ys[i]? := by
  rw [← h, List.getElem?_take, if_pos hi]

section
variable {E : Env} {m : Machine} {F : Machine → Prop}

@[simp] theorem wp_mintDecimals (mint : AccountInfo) {Q : UInt8 → Machine → Prop} :
    wp (mintDecimals mint) Q F m ↔ (∀ b, (m.ledger mint.key).data[44]? = some b → Q b m) ∧
      ((m.ledger mint.key).data[44]? = none → F m) := by
  rw [mintDecimals, wp_bind, wp_dataOf, wp_unwrap]

@[simp] theorem wp_findAddress (seeds : List Bytes) {Q : Pubkey × UInt8 → Machine → Prop} :
    wp (findAddress E seeds) Q F m ↔
      (∀ a b, E.host.findProgramAddress seeds E.programId = some (a,b) → Q (a,b) m) ∧
      (E.host.findProgramAddress seeds E.programId = none → F m) := by
  rw [findAddress, wp_unwrap, Prod.forall]

@[simp] theorem wp_createAddress (seeds : List Bytes) (bump : UInt8)
    {Q : Pubkey → Machine → Prop} :
    wp (createAddress E seeds bump) Q F m ↔
      (∀ a, E.host.createProgramAddress (bumped seeds bump) E.programId = some a → Q a m) ∧
      (E.host.createProgramAddress (bumped seeds bump) E.programId = none → F m) := by
  rw [createAddress, wp_unwrap]

@[simp] theorem wp_accountAt (i : ℕ) {Q : AccountInfo → Machine → Prop} :
    wp (accountAt E i) Q F m ↔ (∀ a, E.accounts[i]? = some a → Q a m) ∧
      (E.accounts[i]? = none → F m) := by
  rw [accountAt, wp_unwrap]

end

end Xete.Swap
