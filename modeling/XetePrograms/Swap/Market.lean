import XetePrograms.Solana.Reference
import XetePrograms.Swap.Run

/-!
# A small market on the reference host

Three traders, a fee wallet, two mints and the addresses of one slot. The host
of the market meets every rule that the results assume, and calls and runs can
be evaluated on it.
-/

set_option autoImplicit false

namespace Xete.Market
open Xete.Octets Xete.Chain Xete.Token Xete.Runtime Xete.Rules Xete.Reference Xete.Swap

def programKey : Pubkey := keyOf 100

def maker : Pubkey := keyOf 1
def taker : Pubkey := keyOf 2
def offerer : Pubkey := keyOf 3
def feeWallet : Pubkey := keyOf 4
def mintA : Pubkey := keyOf 10
def mintB : Pubkey := keyOf 11

def configKey : Pubkey := keyOf 20
def swapKey : Pubkey := keyOf 21
def vaultKey : Pubkey := keyOf 22
def offerKey : Pubkey := keyOf 23
def ovaultKey : Pubkey := keyOf 24
def basketKey : Pubkey := keyOf 25
def bvaultKey : Pubkey := keyOf 26
def bvaultKeyB : Pubkey := keyOf 36
def orderKey : Pubkey := keyOf 27
def orderDoneKey : Pubkey := keyOf 28
def feeVaultKey : Pubkey := keyOf 29

def makerA : Pubkey := keyOf 40
def makerB : Pubkey := keyOf 41
def takerA : Pubkey := keyOf 42
def takerB : Pubkey := keyOf 43
def offererA : Pubkey := keyOf 44
def offererB : Pubkey := keyOf 45
def feeB : Pubkey := keyOf 46

def nonce : Bytes := zeros 32

/-- The addresses of the program, by what they stand for. -/
def places : List (Place × Pubkey) :=
  [(.config,configKey),(.swap maker nonce,swapKey),(.vault maker nonce,vaultKey),
    (.offer offerer nonce,offerKey),(.ovault offerer nonce,ovaultKey),
    (.basket maker nonce,basketKey),(.bvault maker nonce 0,bvaultKey),
    (.bvault maker nonce 1,bvaultKeyB),(.order maker,orderKey),
    (.orderDone maker nonce,orderDoneKey),(.feeVault mintB 0,feeVaultKey)]

def table : Table := places.map fun p => ((bumped p.1.seeds 255).flatten,programKey,p.2)

def market : Host := host programKey table

def configData : Bytes :=
  patches (zeros configLen) [(cFeeWallet,feeWallet.bytes),(cFeeBps,le 2 100)]

def start : Ledger := ledgerOf
  [(maker,walletAccount),(taker,walletAccount),(offerer,walletAccount),(feeWallet,walletAccount),
    (mintA,mintAccount),(mintB,mintAccount),(configKey,⟨1,programKey,configData⟩),
    (makerA,tokenAccount mintA maker 1000),(makerB,tokenAccount mintB maker 0),
    (takerA,tokenAccount mintA taker 0),(takerB,tokenAccount mintB taker 1000),
    (offererA,tokenAccount mintA offerer 0),(offererB,tokenAccount mintB offerer 1000),
    (feeB,tokenAccount mintB feeWallet 0)]

/-- What a call sees whose first account signs. -/
def sees (clock : ℤ) (signer : Pubkey) (others : List Pubkey) : Env where
  host := market
  accounts := ⟨signer,true,true⟩ :: others.map fun k => ⟨k,false,true⟩
  clock := clock
  instructions := []
  current := 0

/-- The machine after a run that succeeds. -/
def finished (x : Exec Unit) (m : Machine) : Option Machine :=
  match x m with
  | .ok _ m' => some m'
  | .error _ _ => none

theorem finished_ok {x : Exec Unit} {m m' : Machine} (h : finished x m = some m') :
    x m = .ok () m' := by
  unfold finished at h
  split at h
  · rename_i u m₁ hx
    cases h
    exact hx
  · cases h

theorem market_apart : Apart programKey := ⟨by decide,by decide,by decide⟩

theorem market_collisionFree : market.CollisionFree := host_collisionFree _ _ (by decide)

theorem market_systemRules : SystemRules market := host_systemRules _ _

theorem market_tokenRules : TokenRules market := host_tokenRules _ _

theorem market_confined : Confined market := host_confined _ _ market_apart

theorem market_noSeizure : NoSeizure market := host_noSeizure _ _ market_apart

theorem market_systemAccepts : SystemAccepts market := host_systemAccepts _ _

theorem signer_apart {c : Cpi} {k : Pubkey} (hc : c.signers = [k]) (hk : k ∉ places.map Prod.snd) :
    ∀ a ∈ c.signers, a ∉ places.map Prod.snd := by
  intro a ha
  rw [hc, List.mem_singleton] at ha
  exact ha ▸ hk

/-- A program called by parties of the market. -/
theorem market_outside {c : Cpi} {s s' : Ledger} (hp : c.program ≠ programKey)
    (hk : ∀ a ∈ c.signers, a ∉ places.map Prod.snd) (h : market.process c s = some s') :
    Step market .outside s s' := by
  refine .of_process market_confined hp (fun a ha hpda => hk a ha ?_) h
  have hmem := host_isPda _ _ _ hpda
  rwa [table, List.map_map] at hmem

theorem sees_wellformed (clock : ℤ) (signer : Pubkey) (others : List Pubkey)
    (h : signer ∉ places.map Prod.snd) : Wellformed (sees clock signer others) where
  signers := by
    intro a ha hs hp
    rcases List.mem_cons.mp ha with rfl | ha
    · apply h
      have := host_isPda _ _ _ hp
      rwa [table, List.map_map] at this
    · obtain ⟨k,-,rfl⟩ := List.mem_map.mp ha
      cases hs
  notSystem := market_apart.notSystem
  notToken := market_apart.notToken
  notCore := market_apart.notCore

theorem sees_on (clock : ℤ) (signer : Pubkey) (others : List Pubkey) (d : Bytes)
    (h : signer ∉ places.map Prod.snd) : (⟨sees clock signer others,d⟩ : Call).On market :=
  ⟨rfl,sees_wellformed clock signer others h⟩

/-- The ledger before the fee policy was set. -/
def unconfigured : Ledger := Function.update start configKey ⟨0,systemId,[]⟩

def initConfigCall : Call where
  env := sees 0 maker [configKey,systemId]
  data := 8 :: feeWallet.bytes ++ le 2 100 ++ le 8 0 ++ zeros 32 ++ [0]

/-! ## The calls around one slot -/

def openSwapCall (give want : ℕ) : Call where
  env := sees 0 maker [swapKey,vaultKey,mintA,mintB,makerA,splTokenId,systemId,configKey,systemId]
  data := 0 :: nonce ++ le 8 give ++ le 8 want ++ zeros 32 ++ leInt 8 1000 ++ zeros 32

def cancelSwapCall : Call where
  env := sees 0 maker [swapKey,vaultKey,mintA,makerA,splTokenId,configKey,feeWallet,systemId]
  data := 2 :: nonce

def makeOfferCall (price : ℕ) : Call where
  env := sees 0 offerer [offerKey,ovaultKey,mintB,swapKey,offererB,splTokenId,systemId,configKey,
    systemId]
  data := 4 :: nonce ++ le 8 price ++ leInt 8 1000

def withdrawOfferCall : Call where
  env := sees 0 offerer [offerKey,ovaultKey,mintB,offererB,splTokenId]
  data := 6 :: nonce

def sealedTerms : Bytes := le 8 5 ++ le 8 7 ++ zeros 32 ++ leInt 8 1000 ++ nonce ++ [0,0]

/-- The maker sells 5 of the first mint for 7 of the second by a signed order. -/
def settleOrderCall : Call where
  env :=
    { sees 0 taker [maker,mintA,mintB,makerA,takerA,takerB,makerB,orderKey,orderDoneKey,splTokenId,
        configKey,feeB,systemId,sysvarInstructionsId] with
      instructions := [⟨ed25519Program,ed25519Header 169 ++ maker.bytes ++ List.replicate 64 7 ++
        orderMessage orderDomain mintA mintB (orderTerms sealedTerms)⟩,
        ⟨programKey,38 :: sealedTerms⟩]
      current := 1 }
  data := 38 :: sealedTerms

def acceptOfferCall : Call where
  env := sees 0 maker [swapKey,vaultKey,offerKey,ovaultKey,offerer,mintA,mintB,offererA,makerB,
    splTokenId,configKey,feeB]
  data := 5 :: nonce ++ nonce

/-- The maker asks for `want` of the second mint against `give` of the first. -/
def openBasketCall (give want : ℕ) : Call where
  env := sees 0 maker [basketKey,systemId,splTokenId,configKey,systemId,mintA,bvaultKey,makerA]
  data := 12 :: nonce ++ [1,1] ++ le 8 give ++ mintB.bytes ++ le 8 want ++ leInt 8 1000 ++
    zeros 32 ++ [authNormal] ++ zeros 32

def fillBasketCall : Call where
  env := sees 1 taker [basketKey,maker,splTokenId,configKey,mintA,bvaultKey,takerA,mintB,takerB,
    makerB,feeB]
  data := 13 :: nonce

/-- A basket of two entries of the first mint against two of the second. -/
def openPairsCall (give giveB want wantB : ℕ) : Call where
  env := sees 0 maker [basketKey,systemId,splTokenId,configKey,systemId,mintA,bvaultKey,makerA,
    mintA,bvaultKeyB,makerA]
  data := 12 :: nonce ++ [2,2] ++ le 8 give ++ le 8 giveB ++ mintB.bytes ++ le 8 want ++
    mintB.bytes ++ le 8 wantB ++ leInt 8 1000 ++ zeros 32 ++ [authNormal] ++ zeros 32

def fillPairsCall : Call where
  env := sees 1 taker [basketKey,maker,splTokenId,configKey,mintA,bvaultKey,takerA,mintA,bvaultKeyB,
    takerA,mintB,takerB,makerB,feeB,mintB,takerB,makerB,feeB]
  data := 13 :: nonce

/-! ## A stall: the market with a listing, and a mint with metadata -/

def listingKey : Pubkey := keyOf 30
def metadataKey : Pubkey := keyOf 31
def artist : Pubkey := keyOf 5
def artistB : Pubkey := keyOf 47

def stallTable : Table := table ++
  [((bumped (Place.listing maker nonce).seeds 255).flatten,programKey,listingKey),
    ((bumped (metadataSeeds mintA) 255).flatten,tokenMetadataId,metadataKey)]

def stall : Host := host programKey stallTable

def stallSees (clock : ℤ) (signer : Pubkey) (others : List Pubkey) : Env :=
  { sees clock signer others with host := stall }

theorem stall_collisionFree : stall.CollisionFree := host_collisionFree _ _ (by decide)

theorem stall_systemRules : SystemRules stall := host_systemRules _ _

theorem stall_confined : Confined stall := host_confined _ _ market_apart

theorem stallSees_on (clock : ℤ) (signer : Pubkey) (others : List Pubkey) (d : Bytes)
    (h : signer ∉ stallTable.map fun e => e.2.2) :
    (⟨stallSees clock signer others,d⟩ : Call).On stall where
  host := rfl
  wellformed :=
    { signers := by
        intro a ha hs hp
        rcases List.mem_cons.mp ha with rfl | ha
        · exact h (host_isPda _ _ _ hp)
        · obtain ⟨k,-,rfl⟩ := List.mem_map.mp ha
          cases hs
      notSystem := market_apart.notSystem
      notToken := market_apart.notToken
      notCore := market_apart.notCore }

/-- The metadata of the first mint: five percent, all of it to the artist. -/
def metadataData : Bytes := zeros 77 ++ le 2 500 ++ [1] ++ le 4 1 ++ artist.bytes ++ [1,100]

def stallStart : Ledger :=
  Function.update (Function.update start metadataKey ⟨1,tokenMetadataId,metadataData⟩) artistB
    (tokenAccount mintB artist 0)

/-- A listing of the first mint with the royalty stance `mode`. -/
def listCall (give want : ℕ) (mode pct : UInt8) : Call where
  env := stallSees 0 maker [listingKey,mintA,mintB,makerA,splTokenId,systemId,configKey,systemId]
  data := 26 :: nonce ++ le 8 give ++ le 8 want ++ zeros 32 ++ leInt 8 1000 ++ zeros 32 ++
    [mode,pct]

/-- The fill of a listing; a royalty stance takes the metadata and the creators. -/
def fillListingCall (give maxWant : ℕ) (royalty : List Pubkey) : Call where
  env := stallSees 1 taker ([listingKey,maker,mintA,mintB,makerA,takerA,takerB,makerB,splTokenId,
    configKey,feeB] ++ royalty)
  data := 27 :: nonce ++ le 8 give ++ le 8 maxWant

/-! ## A bazaar: the stall with the associated accounts of the maker and of a swap -/

def swapAta : Pubkey := keyOf 32
def makerAta : Pubkey := keyOf 33
def edition : Pubkey := keyOf 34

def bazaarTable : Table := stallTable ++
  [((bumped [swapKey.bytes,splTokenId.bytes,mintA.bytes] 255).flatten,ataProgramId,swapAta),
    ((bumped [maker.bytes,splTokenId.bytes,mintA.bytes] 255).flatten,ataProgramId,makerAta)]

def bazaar : Host := host programKey bazaarTable

/-- The maker has one unit, and so has the swap address, by somebody's gift of `gift`. -/
def bazaarStart (gift : ℕ) : Ledger :=
  Function.update (Function.update stallStart swapAta (tokenAccount mintA swapKey gift)) makerAta
    (tokenAccount mintA maker 1)

def bazaarSees (clock : ℤ) (signer : Pubkey) (others : List Pubkey) : Env :=
  { sees clock signer others with host := bazaar }

/-- The swap of 100 for 50, opened on the bazaar. -/
def openAtBazaar : Call where
  env := bazaarSees 0 maker [swapKey,vaultKey,mintA,mintB,makerA,splTokenId,systemId,configKey,
    systemId]
  data := (openSwapCall 100 50).data

end Xete.Market
