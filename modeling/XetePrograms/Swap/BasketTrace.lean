import XetePrograms.Swap.Trace

/-!
# The acts of the basket instructions
-/

set_option autoImplicit false

namespace Xete.Swap
open Xete.Octets Xete.Weakest Xete.Chain Xete.Token Xete.Runtime Xete.Rules

variable {E : Env} {m m' : Machine} {d : Bytes}

/-! ## The legs -/

def entryMint (b : Bytes) (base i : ℕ) : Pubkey := keyAt b (base+i*entryLen)

def entryAmount (b : Bytes) (base i : ℕ) : ℕ := u64At b (base+i*entryLen+32)

def IsWantLeg (E : Env) (b : Bytes) (taker tokenProg : Pubkey) (wantBase j : ℕ) (as : List Act) :
    Prop :=
  ∃ takerWant makerWant feeAta : Pubkey, ∃ fee dec, fee ≤ entryAmount b bWant j ∧
    SlotIs E (wantBase+j*4) (entryMint b bWant j) ∧
    as = priceActs tokenProg takerWant (entryMint b bWant j) feeAta makerWant taker
      (entryAmount b bWant j) fee dec none

def IsGiveLeg (E : Env) (b : Bytes) (swap maker tokenProg makerKey : Pubkey) (nonce : Bytes)
    (seeds : List Bytes) (giveBase i : ℕ) (as : List Act) : Prop :=
  ∃ vault dest : Pubkey, ∃ dec bump, SlotIs E (giveBase+i*3) (entryMint b bGive i) ∧
    E.host.findProgramAddress (bvaultSeeds makerKey nonce (UInt8.ofNat i)) E.programId =
      some (vault,bump) ∧
    as = [transferAct tokenProg vault (entryMint b bGive i) dest swap (entryAmount b bGive i) dec
      (some seeds),closeAct tokenProg vault maker swap seeds]

structure WantPayment where
  takerWant : Pubkey
  makerWant : Pubkey
  feeAta : Pubkey
  dec : UInt8

instance : Inhabited WantPayment := ⟨⟨zeroKey,zeroKey,zeroKey,0⟩⟩

def entryFee (b : Bytes) (cfg : FeePolicy) (j : ℕ) : ℕ := bpsOf (entryAmount b bWant j) cfg.feeBps

def WantPayment.acts (p : WantPayment) (b : Bytes) (cfg : FeePolicy) (taker tokenProg : Pubkey)
    (j : ℕ) : List Act :=
  priceActs tokenProg p.takerWant (entryMint b bWant j) p.feeAta p.makerWant taker
    (entryAmount b bWant j) (entryFee b cfg j) p.dec none

structure PaysEntry (E : Env) (b : Bytes) (cfg : FeePolicy) (stateMaker : Pubkey)
    (shardSeed : UInt8) (wantBase j : ℕ) (m : Machine) (p : WantPayment) : Prop where
  mintSlot : SlotIs E (wantBase+j*4) (entryMint b bWant j)
  takerSlot : SlotIs E (wantBase+j*4+1) p.takerWant
  makerSlot : SlotIs E (wantBase+j*4+2) p.makerWant
  feeSlot : SlotIs E (wantBase+j*4+3) p.feeAta
  owned : BelongsTo m.ledger p.makerWant (entryMint b bWant j) stateMaker
  covers : entryFee b cfg j ≤ entryAmount b bWant j
  dest : 0 < entryFee b cfg j → IsFeeDest E m.ledger p.feeAta (entryMint b bWant j) cfg.feeWallet
    cfg.feeShards shardSeed

structure GiveRelease where
  vault : Pubkey
  dest : Pubkey
  dec : UInt8

instance : Inhabited GiveRelease := ⟨⟨zeroKey,zeroKey,0⟩⟩

def GiveRelease.acts (r : GiveRelease) (b : Bytes) (swap maker tokenProg : Pubkey)
    (seeds : List Bytes) (i : ℕ) : List Act :=
  [transferAct tokenProg r.vault (entryMint b bGive i) r.dest swap (entryAmount b bGive i) r.dec
    (some seeds),closeAct tokenProg r.vault maker swap seeds]

structure ReleasesEntry (E : Env) (b : Bytes) (makerKey : Pubkey) (nonce : Bytes) (giveBase : ℕ)
    (recipient : Option Pubkey) (i : ℕ) (m : Machine) (r : GiveRelease) : Prop where
  mintSlot : SlotIs E (giveBase+i*3) (entryMint b bGive i)
  vaultSlot : SlotIs E (giveBase+i*3+1) r.vault
  destSlot : SlotIs E (giveBase+i*3+2) r.dest
  vault : ∃ bump, E.host.findProgramAddress (bvaultSeeds makerKey nonce (UInt8.ofNat i))
    E.programId = some (r.vault,bump)
  owned : ∀ owner, recipient = some owner → BelongsTo m.ledger r.dest (entryMint b bGive i) owner

theorem payWantEntry_pays (hw : Wellformed E) (hf : Confined E.host) {taker swap tokenProg :
    AccountInfo} {b : Bytes} (cfg : FeePolicy) (stateMaker : Pubkey) (shardSeed : UInt8)
    (wantBase j : ℕ) (hs : Stores E swap.key b m) :
    wp (payWantEntry E taker swap tokenProg cfg stateMaker shardSeed wantBase j)
      (fun _ m' => Stores E swap.key b m' ∧ ∃ p,
        PaysEntry E b cfg stateMaker shardSeed wantBase j m p ∧
        Did E (p.acts b cfg taker.key tokenProg.key j) m m') (fun _ => True) m := by
  simp only [payWantEntry, entryAt, wp_bind, wp_accountAt, wp_dataOf, wp_failIf, wp_pure,
    wp_requireTokenAccount, wp_mintDecimals, implies_true, and_true, hs.2, not_not]
  intro wantMint ha takerWant ht makerWant hm feeAta hfee _ hmint hown dec _
  apply wp_price cfg _ dec shardSeed none
  intro m' hd hle hdest
  have hmint' : wantMint.key = entryMint b bWant j := hmint.symm
  rw [hmint'] at hown hd hdest
  refine ⟨hs.did hw hf hd (touchedIn_priceActs _ _ _ _ _ _ _ _ _ _ _),
    ⟨takerWant.key,makerWant.key,feeAta.key,dec⟩,?_,hd⟩
  exact
    { mintSlot := hmint' ▸ .of_getElem ha
      takerSlot := .of_getElem ht
      makerSlot := .of_getElem hm
      feeSlot := .of_getElem hfee
      owned := hown
      covers := hle
      dest := hdest }

theorem releaseLeg_releases (hw : Wellformed E) (hf : Confined E.host) {swap maker tokenProg :
    AccountInfo} {b : Bytes} (makerKey : Pubkey) (nonce : Bytes) (seeds : List Bytes)
    (giveBase : ℕ) (recipient : Option Pubkey) (i : ℕ) (hs : Stores E swap.key b m) :
    wp (releaseLeg E swap maker tokenProg makerKey nonce seeds giveBase recipient i)
      (fun _ m' => Stores E swap.key b m' ∧ ∃ r,
        ReleasesEntry E b makerKey nonce giveBase recipient i m r ∧
        Did E (r.acts b swap.key maker.key tokenProg.key seeds i) m m') (fun _ => True) m := by
  have hend : ∀ (giveMint vault dest : AccountInfo) (bump dec : UInt8),
      E.accounts[giveBase+i*3]? = some giveMint → E.accounts[giveBase+i*3+1]? = some vault →
      E.accounts[giveBase+i*3+2]? = some dest → entryMint b bGive i = giveMint.key →
      E.host.findProgramAddress (bvaultSeeds makerKey nonce (UInt8.ofNat i)) E.programId =
        some (vault.key,bump) →
      (∀ owner, recipient = some owner → BelongsTo m.ledger dest.key giveMint.key owner) →
      wp (do
        tokenTransfer E tokenProg vault giveMint dest swap (entryAmount b bGive i) dec (some seeds)
        tokenClose E tokenProg vault maker swap seeds)
        (fun _ m' => Stores E swap.key b m' ∧ ∃ r,
          ReleasesEntry E b makerKey nonce giveBase recipient i m r ∧
          Did E (r.acts b swap.key maker.key tokenProg.key seeds i) m m') (fun _ => True) m := by
    intro giveMint vault dest bump dec ha hv hd hm hfind hown
    rw [← hm] at hown
    rw [wp_bind]
    refine wp_mono (did_perform _) (fun _ m₁ h₁ => ?_) (fun _ _ => trivial)
    refine wp_mono (did_perform _) (fun _ m₂ h₂ => ?_) (fun _ _ => trivial)
    have hd₂ := (did_append _ _ m m₂).mpr ⟨m₁,h₁,h₂⟩
    refine ⟨hs.did hw hf hd₂ (by simp),⟨vault.key,dest.key,dec⟩,?_,?_⟩
    · exact
        { mintSlot := hm ▸ .of_getElem ha
          vaultSlot := .of_getElem hv
          destSlot := .of_getElem hd
          vault := ⟨bump,hfind⟩
          owned := hown }
    · rw [← hm] at hd₂
      exact hd₂
  cases recipient <;>
    simp only [releaseLeg, entryAt, wp_bind, wp_accountAt, wp_dataOf, wp_failIf, wp_pure,
      wp_requireTokenAccount, wp_findAddress, wp_mintDecimals, implies_true, and_true, hs.2,
      not_not]
  case none =>
    intro giveMint ha vault hv dest hd _ hm addr bump hfind he dec _
    subst he
    simpa only [wp_bind, entryAmount] using
      hend giveMint vault dest bump dec ha hv hd hm hfind fun _ h => by cases h
  case some owner =>
    intro giveMint ha vault hv dest hd _ hm hown addr bump hfind he dec _
    subst he
    simpa only [wp_bind, entryAmount] using
      hend giveMint vault dest bump dec ha hv hd hm hfind fun _ h => Option.some_inj.mp h ▸ hown

/-! ## Closing a basket -/

structure IsBasket (E : Env) (s : Ledger) (k : Pubkey) (nonce : Bytes) : Prop where
  owner : (s k).owner = E.programId
  length : (s k).data.length = basketLen
  isOpen : byteAt (s k).data bStatus = statusOpen
  address : E.host.createProgramAddress (bumped (basketSeeds (keyAt (s k).data bMaker) nonce)
    (byteAt (s k).data bBump)) E.programId = some k

def basketSigner (b nonce : Bytes) : List Bytes :=
  bumped (basketSeeds (keyAt b bMaker) nonce) (byteAt b bBump)

def GiveLegs (E : Env) (b : Bytes) (swap maker tokenProg : Pubkey) (nonce : Bytes) (giveBase : ℕ)
    (g : ℕ → List Act) : Prop :=
  ∀ i < (byteAt b bGiveCount).toNat,
    IsGiveLeg E b swap maker tokenProg (keyAt b bMaker) nonce (basketSigner b nonce)
    giveBase i (g i)

def WantLegs (E : Env) (b : Bytes) (taker tokenProg : Pubkey) (g : ℕ → List Act) : Prop :=
  ∀ j < (byteAt b bWantCount).toNat,
    IsWantLeg E b taker tokenProg (5+(byteAt b bGiveCount).toNat*3) j (g j)

def closingActs (b : Bytes) (swap maker : Pubkey) (g : ℕ → List Act) : List Act :=
  (List.range (byteAt b bGiveCount).toNat).flatMap g ++ [.close swap maker]

def entryActs (b : Bytes) (cfg : FeePolicy) (taker tokenProg : Pubkey) (p : ℕ → WantPayment) :
    ℕ → List Act :=
  fun j => (p j).acts b cfg taker tokenProg j

def releaseActs (b : Bytes) (swap maker tokenProg : Pubkey) (nonce : Bytes) (r : ℕ → GiveRelease) :
    ℕ → List Act :=
  fun i => (r i).acts b swap maker tokenProg (basketSigner b nonce) i

def WantRounds (E : Env) (b : Bytes) (cfg : FeePolicy) (taker tokenProg : Pubkey)
    (shardSeed : UInt8) (p : ℕ → WantPayment) (m m' : Machine) : Prop :=
  Rounds E (byteAt b bWantCount).toNat (fun j m => PaysEntry E b cfg (keyAt b bMaker) shardSeed
    (5+(byteAt b bGiveCount).toNat*3) j m (p j)) (entryActs b cfg taker tokenProg p) m m'

def GiveRounds (E : Env) (b : Bytes) (swap maker tokenProg : Pubkey) (nonce : Bytes) (giveBase : ℕ)
    (recipient : Option Pubkey) (r : ℕ → GiveRelease) (m m' : Machine) : Prop :=
  Rounds E (byteAt b bGiveCount).toNat (fun i m => ReleasesEntry E b (keyAt b bMaker) nonce giveBase
    recipient i m (r i)) (releaseActs b swap maker tokenProg nonce r) m m'

theorem GiveRounds.legs {b : Bytes} {swap maker tokenProg : Pubkey} {nonce : Bytes} {giveBase : ℕ}
    {recipient : Option Pubkey} {r : ℕ → GiveRelease}
    (h : GiveRounds E b swap maker tokenProg nonce giveBase recipient r m m') :
    GiveLegs E b swap maker tokenProg nonce giveBase
      (releaseActs b swap maker tokenProg nonce r) := by
  obtain ⟨st,-,-,hst⟩ := h
  intro i hi
  obtain ⟨bump,hv⟩ := (hst i hi).1.vault
  exact ⟨(r i).vault,(r i).dest,(r i).dec,bump,(hst i hi).1.mintSlot,hv,rfl⟩

theorem WantRounds.legs {b : Bytes} {cfg : FeePolicy} {taker tokenProg : Pubkey} {shardSeed : UInt8}
    {p : ℕ → WantPayment} (h : WantRounds E b cfg taker tokenProg shardSeed p m m') :
    WantLegs E b taker tokenProg (entryActs b cfg taker tokenProg p) := by
  obtain ⟨st,-,-,hst⟩ := h
  intro j hj
  exact ⟨(p j).takerWant,(p j).makerWant,(p j).feeAta,entryFee b cfg j,(p j).dec,
    (hst j hj).1.covers,(hst j hj).1.mintSlot,rfl⟩

/-- A basket settled after `pre`: its give entries are released one after the
other, and its record is closed. -/
structure SettledBasket (E : Env) (nonce : Bytes) (m m' : Machine) (swap maker tokenProg : Pubkey)
    (swapIdx makerIdx tokenIdx giveBase : ℕ) (recipient : Option Pubkey) (pre : List Act)
    (r : ℕ → GiveRelease) : Prop where
  swapSlot : SlotIs E swapIdx swap
  makerSlot : SlotIs E makerIdx maker
  tokenSlot : SlotIs E tokenIdx tokenProg
  isBasket : IsBasket E m.ledger swap nonce
  makerIs : keyAt (m.ledger swap).data bMaker = maker
  gives : ∃ m₁ m₂, Did E pre m m₁ ∧ GiveRounds E (m.ledger swap).data swap maker tokenProg nonce
    giveBase recipient r m₁ m₂ ∧ Did E [.close swap maker] m₂ m'

section
variable {nonce : Bytes} {swap maker tokenProg : Pubkey} {swapIdx makerIdx tokenIdx giveBase : ℕ}
  {recipient : Option Pubkey} {pre : List Act} {r : ℕ → GiveRelease}

theorem SettledBasket.did (h : SettledBasket E nonce m m' swap maker tokenProg swapIdx makerIdx
    tokenIdx giveBase recipient pre r) :
    Did E (pre ++ closingActs (m.ledger swap).data swap maker
      (releaseActs (m.ledger swap).data swap maker tokenProg nonce r)) m m' := by
  obtain ⟨m₁,m₂,h₁,h₂,h₃⟩ := h.gives
  exact (did_append _ _ m m').mpr ⟨m₁,h₁,(did_append _ _ m₁ m').mpr ⟨m₂,h₂.did,h₃⟩⟩

theorem SettledBasket.giveLegs (h : SettledBasket E nonce m m' swap maker tokenProg swapIdx makerIdx
    tokenIdx giveBase recipient pre r) :
    GiveLegs E (m.ledger swap).data swap maker tokenProg nonce giveBase
      (releaseActs (m.ledger swap).data swap maker tokenProg nonce r) := by
  obtain ⟨m₁,m₂,-,h₂,-⟩ := h.gives
  exact h₂.legs

end

/-- Releasing every leg and closing the record. -/
theorem release_gives (hw : Wellformed E) (hf : Confined E.host)
    {swap maker tokenProg : AccountInfo} {b : Bytes} (nonce : Bytes) (giveBase : ℕ)
    (recipient : Option Pubkey) (hs : Stores E swap.key b m) :
    wp (do
      forEach (List.range (byteAt b bGiveCount).toNat) (releaseLeg E swap maker tokenProg
        (keyAt b bMaker) nonce (basketSigner b nonce) giveBase recipient)
      close E swap maker)
      (fun _ m' => ∃ r m₁, GiveRounds E b swap.key maker.key tokenProg.key nonce giveBase
        recipient r m m₁ ∧ Did E [.close swap.key maker.key] m₁ m') (fun _ => True) m := by
  rw [wp_bind]
  refine wp_mono (wp_rounds (E := E) _ (fun _ => Stores E swap.key b) (fun i m r =>
    ReleasesEntry E b (keyAt b bMaker) nonce giveBase recipient i m r)
    (fun i r => r.acts b swap.key maker.key tokenProg.key (basketSigner b nonce) i) _
    (fun i _ m₁ h₁ => releaseLeg_releases hw hf _ _ _ _ _ i h₁) hs) ?_ (fun _ _ => trivial)
  rintro _ m₁ ⟨-,r,hr⟩
  exact wp_mono (did_close _ _) (fun _ m' h' => ⟨r,m₁,hr,h'⟩) (fun _ _ => trivial)

structure FilledBasket (E : Env) (d : Bytes) (m m' : Machine) (swap taker maker tokenProg : Pubkey)
    (w g : ℕ → List Act) : Prop where
  length : d.length = 32
  takerSlot : ∃ a, E.accounts[0]? = some a ∧ a.key = taker ∧ a.isSigner = true
  swapSlot : SlotIs E 1 swap
  tokenSlot : SlotIs E 3 tokenProg
  isBasket : IsBasket E m.ledger swap d
  normal : byteAt (m.ledger swap).data bAuthMode = authNormal
  wants : (byteAt (m.ledger swap).data bWantCount).toNat ≠ 0
  live : E.clock < i64At (m.ledger swap).data bExpiry
  admitted : keyAt (m.ledger swap).data bTaker = zeroKey ∨ keyAt (m.ledger swap).data bTaker = taker
  makerIs : keyAt (m.ledger swap).data bMaker = maker
  wantLegs : WantLegs E (m.ledger swap).data taker tokenProg w
  giveLegs : GiveLegs E (m.ledger swap).data swap maker tokenProg d 5 g
  did : Did E ((List.range (byteAt (m.ledger swap).data bWantCount).toNat).flatMap w ++
    closingActs (m.ledger swap).data swap maker g) m m'

structure SettledFill (E : Env) (d : Bytes) (m m' : Machine)
    (swap taker maker tokenProg config : Pubkey) (p : ℕ → WantPayment) (r : ℕ → GiveRelease) :
    Prop extends
    SettledBasket E d m m' swap maker tokenProg 1 2 3 5 none
      ((List.range (byteAt (m.ledger swap).data bWantCount).toNat).flatMap
        (entryActs (m.ledger swap).data (feePolicy (m.ledger config).data) taker tokenProg p))
          r where
  length : d.length = 32
  takerSlot : ∃ a, E.accounts[0]? = some a ∧ a.key = taker ∧ a.isSigner = true
  configSlot : SlotIs E 4 config
  isConfig : IsConfig E m.ledger config
  normal : byteAt (m.ledger swap).data bAuthMode = authNormal
  wants : (byteAt (m.ledger swap).data bWantCount).toNat ≠ 0
  live : E.clock < i64At (m.ledger swap).data bExpiry
  admitted : keyAt (m.ledger swap).data bTaker = zeroKey ∨ keyAt (m.ledger swap).data bTaker = taker
  paid : ∃ m₁, WantRounds E (m.ledger swap).data (feePolicy (m.ledger config).data) taker tokenProg
    (byteAt d 0) p m m₁

theorem fillBasket_settles (hw : Wellformed E) (hf : Confined E.host) :
    wp (fillBasket E d) (fun _ m' => ∃ swap taker maker tokenProg config p r,
      SettledFill E d m m' swap taker maker tokenProg config p r) (fun _ => True) m := by
  simp [fillBasket]
  intro hl _ taker ht swap hsw maker hmk tokenProg htp config hcf hsign ho hlen hst hauth hwant hexp
    htk hmaker addr ha haddr _ hcfg
  subst haddr
  have hs : Stores E swap.key (m.ledger swap.key).data m := ⟨ho,rfl⟩
  rw [slice_all _ _ hl] at ha ⊢
  refine wp_mono (wp_rounds (E := E) _ (fun _ => Stores E swap.key (m.ledger swap.key).data)
    (fun j m p => PaysEntry E _ (feePolicy _) _ (byteAt d 0) _ j m p)
    (fun j p => p.acts _ (feePolicy _) taker.key tokenProg.key j) _
    (fun j _ m₁ h₁ => payWantEntry_pays hw hf _ _ _ _ j h₁) hs) ?_ (fun _ _ => trivial)
  rintro _ m₁ ⟨hs₁,p,hp⟩
  refine wp_mono (release_gives hw hf d 5 none hs₁) ?_ (fun _ _ => trivial)
  rintro _ m' ⟨r,m₂,hr,hclose⟩
  exact ⟨swap.key,taker.key,maker.key,tokenProg.key,config.key,p,r,
    { swapSlot := .of_getElem hsw
      makerSlot := .of_getElem hmk
      tokenSlot := .of_getElem htp
      isBasket := ⟨ho,hlen,hst,ha⟩
      makerIs := hmaker.symm
      gives := ⟨m₁,m₂,hp.did,hr,hclose⟩
      length := hl
      takerSlot := ⟨taker,ht,rfl,hsign⟩
      configSlot := .of_getElem hcf
      isConfig := hcfg
      normal := hauth
      wants := by simpa using hwant
      live := hexp
      admitted := by tauto
      paid := ⟨m₁,hp⟩ }⟩

theorem fillBasket_did (hw : Wellformed E) (hf : Confined E.host) :
    wp (fillBasket E d) (fun _ m' => ∃ swap taker maker tokenProg w g,
      FilledBasket E d m m' swap taker maker tokenProg w g) (fun _ => True) m := by
  refine wp_mono (fillBasket_settles hw hf) ?_ (fun _ _ => trivial)
  rintro _ m' ⟨swap,taker,maker,tokenProg,config,p,r,h⟩
  obtain ⟨m₁,hp⟩ := h.paid
  exact ⟨swap,taker,maker,tokenProg,_,_,
    { length := h.length
      takerSlot := h.takerSlot
      swapSlot := h.swapSlot
      tokenSlot := h.tokenSlot
      isBasket := h.isBasket
      normal := h.normal
      wants := h.wants
      live := h.live
      admitted := h.admitted
      makerIs := h.makerIs
      wantLegs := hp.legs
      giveLegs := h.giveLegs
      did := h.did }⟩

structure ReleasedBasket (E : Env) (nonce : Bytes) (m m' : Machine) (swap maker tokenProg : Pubkey)
    (swapIdx tokenIdx giveBase : ℕ) (pre : List Act) (g : ℕ → List Act) : Prop where
  swapSlot : SlotIs E swapIdx swap
  tokenSlot : SlotIs E tokenIdx tokenProg
  isBasket : IsBasket E m.ledger swap nonce
  makerIs : keyAt (m.ledger swap).data bMaker = maker
  giveLegs : GiveLegs E (m.ledger swap).data swap maker tokenProg nonce giveBase g
  did : Did E (pre ++ closingActs (m.ledger swap).data swap maker g) m m'

theorem SettledBasket.released {nonce : Bytes} {swap maker tokenProg : Pubkey}
    {swapIdx makerIdx tokenIdx giveBase : ℕ} {recipient : Option Pubkey} {pre : List Act}
    {r : ℕ → GiveRelease}
    (h : SettledBasket E nonce m m' swap maker tokenProg swapIdx makerIdx tokenIdx giveBase
      recipient pre r) :
    ReleasedBasket E nonce m m' swap maker tokenProg swapIdx tokenIdx giveBase pre
      (releaseActs (m.ledger swap).data swap maker tokenProg nonce r) where
  swapSlot := h.swapSlot
  tokenSlot := h.tokenSlot
  isBasket := h.isBasket
  makerIs := h.makerIs
  giveLegs := h.giveLegs
  did := h.did

structure ClaimedBasket (E : Env) (d : Bytes) (m m' : Machine)
    (swap maker tokenProg bearer : Pubkey) (g : ℕ → List Act) : Prop extends
    ReleasedBasket E d m m' swap maker tokenProg 2 4 5 [] g where
  length : d.length = 32
  signed : E.signed bearer
  mode : byteAt (m.ledger swap).data bAuthMode = authBearer
  auth : keyAt (m.ledger swap).data bClaimAuth = E.host.hash bearer.bytes

theorem claimBearer_settles (hw : Wellformed E) (hf : Confined E.host) :
    wp (claimBearer E d) (fun _ m' => ∃ swap maker tokenProg bearer r,
      SettledBasket E d m m' swap maker tokenProg 2 3 4 5 none [] r ∧
      ClaimedBasket E d m m' swap maker tokenProg bearer
        (releaseActs (m.ledger swap).data swap maker tokenProg d r)) (fun _ => True) m := by
  simp [claimBearer]
  intro hl _ payer _ bearer hb swap hsw maker hmk tokenProg htp _ hsign ho hlen hst hmode
    hauth hmaker addr ha haddr _
  subst haddr
  rw [slice_all _ _ hl] at ha ⊢
  have hs : Stores E swap.key (m.ledger swap.key).data m := ⟨ho,rfl⟩
  refine (wp_bind _ _).mp (wp_mono (release_gives hw hf d 5 none hs) ?_ (fun _ _ => trivial))
  rintro _ m' ⟨r,m₁,hr,hclose⟩
  have hset : SettledBasket E d m m' swap.key maker.key tokenProg.key 2 3 4 5 none [] r :=
    { swapSlot := .of_getElem hsw
      makerSlot := .of_getElem hmk
      tokenSlot := .of_getElem htp
      isBasket := ⟨ho,hlen,hst,ha⟩
      makerIs := hmaker.symm
      gives := ⟨m,m₁,rfl,hr,hclose⟩ }
  exact ⟨swap.key,maker.key,tokenProg.key,bearer.key,r,hset,
    { hset.released with
      length := hl
      signed := ⟨bearer,List.mem_of_getElem? hb,rfl,hsign⟩
      mode := hmode
      auth := hauth }⟩

theorem claimBearer_did (hw : Wellformed E) (hf : Confined E.host) :
    wp (claimBearer E d) (fun _ m' => ∃ swap maker tokenProg bearer g,
      ClaimedBasket E d m m' swap maker tokenProg bearer g) (fun _ => True) m := by
  refine wp_mono (claimBearer_settles hw hf) ?_ (fun _ _ => trivial)
  rintro _ m' ⟨swap,maker,tokenProg,bearer,r,-,h⟩
  exact ⟨swap,maker,tokenProg,bearer,_,h⟩

structure CancelledBasket (E : Env) (d : Bytes) (m m' : Machine) (swap maker tokenProg feeWallet :
    Pubkey) (fee : ℕ) (g : ℕ → List Act) : Prop extends
    ReleasedBasket E d m m' swap maker tokenProg 1 2 6 (delistActs maker feeWallet fee) g where
  length : d.length = 32
  signed : E.signed maker
  normal : byteAt (m.ledger swap).data bAuthMode ≠ authBearer

theorem cancelBasket_settles (hw : Wellformed E) (hf : Confined E.host) :
    wp (cancelBasket E d) (fun _ m' => ∃ swap maker tokenProg feeWallet fee r,
      SettledBasket E d m m' swap maker tokenProg 1 0 2 6 (some maker)
        (delistActs maker feeWallet fee) r ∧
      CancelledBasket E d m m' swap maker tokenProg feeWallet fee
        (releaseActs (m.ledger swap).data swap maker tokenProg d r)) (fun _ => True) m := by
  simp [cancelBasket]
  intro hl _ maker hmk swap hsw tokenProg htp config _ feeWallet _ hsign ho hlen hst hmode
    hmaker addr ha haddr _
  subst haddr
  rw [slice_all _ _ hl] at ha ⊢
  refine wp_mono (payDelistFee_did _ _) ?_ (fun _ _ => trivial)
  rintro _ m₁ h₁
  have hs : Stores E swap.key (m.ledger swap.key).data m₁ :=
    Stores.did hw hf (⟨ho,rfl⟩ : Stores E swap.key _ m) h₁ (by unfold delistActs; split <;> simp)
  rw [← hmaker] at ha ⊢
  refine wp_mono (release_gives hw hf d 6 (some (keyAt (m.ledger swap.key).data bMaker)) hs) ?_
    (fun _ _ => trivial)
  rintro _ m' ⟨r,m₂,hr,hclose⟩
  have hset : SettledBasket E d m m' swap.key maker.key tokenProg.key 1 0 2 6 (some maker.key)
      (delistActs maker.key feeWallet.key (feePolicy (m.ledger config.key).data).delistFee) r :=
    { swapSlot := .of_getElem hsw
      makerSlot := .of_getElem hmk
      tokenSlot := .of_getElem htp
      isBasket := ⟨ho,hlen,hst,ha⟩
      makerIs := hmaker
      gives := ⟨m₁,m₂,h₁,hmaker ▸ hr,hclose⟩ }
  exact ⟨swap.key,maker.key,tokenProg.key,feeWallet.key,_,r,hset,
    { hset.released with
      length := hl
      signed := ⟨maker,List.mem_of_getElem? hmk,rfl,hsign⟩
      normal := hmode }⟩

theorem cancelBasket_did (hw : Wellformed E) (hf : Confined E.host) :
    wp (cancelBasket E d) (fun _ m' => ∃ swap maker tokenProg feeWallet fee g,
      CancelledBasket E d m m' swap maker tokenProg feeWallet fee g) (fun _ => True) m := by
  refine wp_mono (cancelBasket_settles hw hf) ?_ (fun _ _ => trivial)
  rintro _ m' ⟨swap,maker,tokenProg,feeWallet,fee,r,-,h⟩
  exact ⟨swap,maker,tokenProg,feeWallet,fee,_,h⟩

structure ExpiredBasket (E : Env) (d : Bytes) (m m' : Machine) (swap maker tokenProg : Pubkey)
    (g : ℕ → List Act) : Prop extends
    ReleasedBasket E d m m' swap maker tokenProg 1 3 4 [] g where
  length : d.length = 32
  normal : byteAt (m.ledger swap).data bAuthMode ≠ authBearer
  due : i64At (m.ledger swap).data bExpiry ≤ E.clock

theorem expireBasket_settles (hw : Wellformed E) (hf : Confined E.host) :
    wp (expireBasket E d) (fun _ m' => ∃ swap maker tokenProg r,
      SettledBasket E d m m' swap maker tokenProg 1 2 3 4 (some maker) [] r ∧
      ExpiredBasket E d m m' swap maker tokenProg
        (releaseActs (m.ledger swap).data swap maker tokenProg d r)) (fun _ => True) m := by
  simp [expireBasket]
  intro hl _ swap hsw maker hmk tokenProg htp ho hlen hst hmode hexp hmaker addr ha haddr _
  subst haddr
  rw [slice_all _ _ hl] at ha ⊢
  have hs : Stores E swap.key (m.ledger swap.key).data m := ⟨ho,rfl⟩
  refine (wp_bind _ _).mp (wp_mono
    (release_gives hw hf d 4 (some (keyAt (m.ledger swap.key).data bMaker)) hs) ?_
    (fun _ _ => trivial))
  rintro _ m' ⟨r,m₁,hr,hclose⟩
  have hset : SettledBasket E d m m' swap.key maker.key tokenProg.key 1 2 3 4
    (some maker.key) [] r :=
    { swapSlot := .of_getElem hsw
      makerSlot := .of_getElem hmk
      tokenSlot := .of_getElem htp
      isBasket := ⟨ho,hlen,hst,ha⟩
      makerIs := hmaker.symm
      gives := ⟨m,m₁,rfl,hmaker ▸ hr,hclose⟩ }
  exact ⟨swap.key,maker.key,tokenProg.key,r,hset,
    { hset.released with
      length := hl
      normal := hmode
      due := hexp }⟩

theorem expireBasket_did (hw : Wellformed E) (hf : Confined E.host) :
    wp (expireBasket E d) (fun _ m' => ∃ swap maker tokenProg g,
      ExpiredBasket E d m m' swap maker tokenProg g) (fun _ => True) m := by
  refine wp_mono (expireBasket_settles hw hf) ?_ (fun _ _ => trivial)
  rintro _ m' ⟨swap,maker,tokenProg,r,-,h⟩
  exact ⟨swap,maker,tokenProg,_,h⟩

structure Rewrapped (E : Env) (d : Bytes) (m m' : Machine) (swap bearer : Pubkey) : Prop where
  swapSlot : SlotIs E 1 swap
  length : d.length = 64
  owner : (m.ledger swap).owner = E.programId
  size : (m.ledger swap).data.length = basketLen
  isOpen : byteAt (m.ledger swap).data bStatus = statusOpen
  mode : byteAt (m.ledger swap).data bAuthMode = authBearer
  signed : E.signed bearer
  auth : keyAt (m.ledger swap).data bClaimAuth = E.host.hash bearer.bytes
  fresh : slice d 32 32 ≠ zeros 32
  address : ∃ b, E.host.findProgramAddress (basketSeeds (keyAt (m.ledger swap).data bMaker)
    (slice d 0 32)) E.programId = some (swap,b)
  did : Did E [.write swap (patch (m.ledger swap).data bClaimAuth (slice d 32 32))] m m'

theorem rewrap_did :
    wp (rewrap E d) (fun _ m' => ∃ swap bearer, Rewrapped E d m m' swap bearer)
      (fun _ => True) m := by
  simp [rewrap]
  intro hl hfresh
  split
  · rename_i bearer swap ha
    simp
    intro hsign ho hlen hst hmode hauth addr b hk he s hs
    subst he
    exact ⟨swap.key,bearer.key,
      { swapSlot := by simp [SlotIs, ha]
        length := hl
        owner := ho
        size := hlen
        isOpen := hst
        mode := hmode
        signed := ⟨bearer,by simp [ha],rfl,hsign⟩
        auth := hauth
        fresh := hfresh
        address := ⟨b,hk⟩
        did := ⟨s,hs,rfl⟩ }⟩
  · trivial

end Xete.Swap
