import XetePrograms.Swap.SwapTrace

/-!
# The acts of the NFT and Core asset instructions
-/

set_option autoImplicit false

namespace Xete.Swap
open Xete.Octets Xete.Weakest Xete.Chain Xete.Token Xete.Runtime Xete.Rules

variable {E : Env} {m m' : Machine} {d : Bytes}

/-! ## Programmable NFTs -/

def IsAta (E : Env) (ata owner mint : Pubkey) : Prop :=
  ∃ b, E.host.findProgramAddress [owner.bytes,splTokenId.bytes,mint.bytes] ataProgramId =
    some (ata,b)

structure MovesOne (a : MplTransfer) (mint source sourceOwner dest destOwner authority : Pubkey) :
    Prop where
  tm : a.tm = tokenMetadataId
  mint : a.mint = mint
  source : a.srcTa = source
  sourceOwner : a.tokenOwner = sourceOwner
  dest : a.dstTa = dest
  destOwner : a.dstOwner = destOwner
  authority : a.authority = authority
  amount : a.amount = 1

structure NftKeys where
  maker : Pubkey
  swap : Pubkey
  mint : Pubkey
  wantMint : Pubkey
  source : Pubkey
  vault : Pubkey

def openPnftActs (E : Env) (k : NftKeys) (d : Bytes) (args : MplTransfer) (bump : UInt8) :
    List Act :=
  [createAct E k.maker k.swap swapLen E.programId (bumped (swapSeeds k.maker (slice d 0 32)) bump),
    .log (openedEvent kindSwapPnft k.maker k.swap k.mint (u64At d 32) k.wantMint d),
    .invoke (.mplTransfer args) none,
    .write k.swap (swapRecord k.maker k.mint 1 k.wantMint d bump)]

structure OpenedPnft (E : Env) (d : Bytes) (m m' : Machine) (k : NftKeys) (args : MplTransfer)
    (bump : UInt8) : Prop where
  slot : FreshSlot E d m k.maker k.swap bump
  mints : SlotIs E 2 k.mint ∧ SlotIs E 3 k.wantMint
  one : u64At d 32 = 1
  vault : IsAta E k.vault k.swap k.mint
  move : MovesOne args k.mint k.source k.maker k.vault k.swap k.maker
  did : Did E (openPnftActs E k d args bump) m m'

theorem openPnft_did (hs : SystemRules E.host) (hw : Wellformed E) (hf : Confined E.host) :
    wp (openPnft E d) (fun _ m' => ∃ k args bump, OpenedPnft E d m m' k args bump)
      (fun _ => True) m := by
  simp [openPnft]
  intro hl
  split
  · rename_i maker swap giveMint wantMint sourceAta vaultAta metadata edition ownerRecord destRecord
      tokenMetadata splTok ataProg sysvarIx system rulesProg rules config aliasAcct ha
    simp [createPda, emitPostCreated, mplTransfer]
    intro hsign hone hwant hexp htm _ _ swapPda bump hswap he sata _ _ vata bv hva hsa hva'
    subst he hva'
    intro s₁ h₁ s₂ h₂ s₃ h₃ s₄ h₄
    have hz : (s₃ swap.key).data = zeros swapLen :=
      created_data hs hw hf (⟨s₁,h₁,s₂,h₂,s₃,h₃,rfl⟩ : Did E [createAct E maker.key swap.key swapLen
        E.programId (bumped (swapSeeds maker.key (slice d 0 32)) bump),.log _,.invoke _ none] m _)
        (by simp)
    rw [hz] at h₄ ⊢
    exact ⟨⟨maker.key,swap.key,giveMint.key,wantMint.key,sourceAta.key,vaultAta.key⟩,_,bump,
      { slot := ⟨by simp [SlotIs, ha],by simp [SlotIs, ha],hl,⟨maker,by simp [ha],rfl,hsign⟩,hwant,
      hexp, hswap⟩
        mints := by simp [SlotIs, ha]
        one := hone
        vault := ⟨bv,hva⟩
        move := ⟨htm,rfl,rfl,rfl,rfl,rfl,rfl,rfl⟩
        did := ⟨s₁,h₁,s₂,h₂,s₃,h₃,s₄,h₄,rfl⟩ }⟩
  · trivial

structure ReleaseKeys where
  maker : Pubkey
  swap : Pubkey
  mint : Pubkey
  newOwner : Pubkey

structure ReleasedSwap (E : Env) (nonce : Bytes) (m : Machine) (k : ReleaseKeys) : Prop where
  slot : SlotIs E 1 k.swap
  isSwap : IsSwap E m.ledger k.swap
  maker : keyAt (m.ledger k.swap).data sMaker = k.maker
  mint : keyAt (m.ledger k.swap).data sGiveMint = k.mint
  address : E.host.createProgramAddress (swapSigner k.maker (m.ledger k.swap).data nonce)
    E.programId = some k.swap

structure ReleasedPnft (E : Env) (nonce : Bytes) (m m' : Machine) (k : ReleaseKeys)
    (vault dest : Pubkey) (args : MplTransfer) (pre : List Act) : Prop extends
    ReleasedSwap E nonce m k where
  source : IsAta E vault k.swap k.mint
  target : IsAta E dest k.newOwner k.mint
  move : MovesOne args k.mint vault k.swap dest k.newOwner k.swap
  did : Did E (pre ++ [.invoke (.mplTransfer args)
    (some (swapSigner k.maker (m.ledger k.swap).data nonce)),.close k.swap k.maker]) m m'

structure FilledPnft (E : Env) (d : Bytes) (m m₁ m' : Machine) (k : RecordKeys) (p : Payment)
    (vault dest : Pubkey) (args : MplTransfer) : Prop extends PaidRecord E d m m₁ k p where
  mode : p.mode = byteAt (m.ledger k.record).data sRoyaltyMode
  pct : p.pct = byteAt (m.ledger k.record).data sMakerPct
  address : E.host.createProgramAddress (swapSigner k.maker (m.ledger k.record).data (slice d 0 32))
    E.programId = some k.record
  source : IsAta E vault k.record k.giveMint
  target : IsAta E dest k.taker k.giveMint
  move : MovesOne args k.giveMint vault k.record dest k.taker k.record
  did : Did E [.invoke (.mplTransfer args)
    (some (swapSigner k.maker (m.ledger k.record).data (slice d 0 32))),
    .close k.record k.maker] m₁ m'

theorem fillPnft_did :
    wp (fillPnft E d) (fun _ m' => ∃ m₁ k p vault dest args,
      FilledPnft E d m m₁ m' k p vault dest args)
      (fun _ => True) m := by
  simp [fillPnft]
  intro hl hlen
  split
  · rename_i taker swap maker giveMint wantMint takerWant makerWant wantTokenProg config
      feeAta vault
      takerGive metadata edition ownerRecord destRecord tokenMetadata splTok ataProg sysvarIx system
      rulesProg rules ha
    have hslot : E.accounts[1]? = some swap := take_getElem? 23 1 _ _ ha (by decide)
    have hmem : taker ∈ E.accounts := List.mem_of_mem_take (i := 23) (by rw [ha]; simp)
    simp
    rintro hsign ho htm _ hfill hamt hmk
    rw [← hmk]
    rintro addr haddr rfl vata bv hva tata bt hta hva' hta' hmw dec _ htp hown
    subst hva' hta'
    refine wp_mono (payWantAndRoyalty_paid _ _ _ _ _ _ _ _) ?_ (fun _ _ => trivial)
    rintro _ m₁ ⟨terms,parts,hpaid⟩
    simp [releasePnft, mplTransfer]
    intro s₁ h₁ s₂ h₂
    exact ⟨m₁,⟨⟨config.key,wantTokenProg.key,takerWant.key,wantMint.key,feeAta.key,makerWant.key,
      taker.key,giveMint.key⟩,swap.key,maker.key⟩,⟨dec,byteAt (m.ledger swap.key).data sRoyaltyMode,
        byteAt (m.ledger swap.key).data sMakerPct,some metadata,E.accounts.drop 23,terms,parts⟩,
      vault.key,takerGive.key,_,
      { slot := .of_getElem hslot
        length := hl
        owner := ho
        signed := ⟨taker,hmem,rfl,hsign⟩
        fillable := hfill
        amount := hamt
        maker := hmk.symm
        makerWant := hmw
        tokenProg := htp
        wantOwner := hown
        paid := hpaid
        mode := rfl
        pct := rfl
        address := haddr
        source := ⟨bv,hva⟩
        target := ⟨bt,hta⟩
        move := ⟨htm,rfl,rfl,rfl,rfl,rfl,rfl,rfl⟩
        did := ⟨s₁,h₁,s₂,h₂,rfl⟩ }⟩
  · trivial

structure CancelledPnft (E : Env) (d : Bytes) (m m' : Machine) (k : ReleaseKeys)
    (vault dest : Pubkey) (args : MplTransfer) (pre : List Act) : Prop extends
    ReleasedPnft E d m m' k vault dest args pre where
  length : d.length = 32
  signed : E.signed k.maker
  back : k.newOwner = k.maker
  idle : Idle E pre

structure ExpiredPnft (E : Env) (d : Bytes) (m m' : Machine) (k : ReleaseKeys) (vault dest : Pubkey)
    (args : MplTransfer) : Prop extends ReleasedPnft E d m m' k vault dest args [] where
  length : d.length = 32
  back : k.newOwner = k.maker
  due : i64At (m.ledger k.swap).data sExpiry ≤ E.clock

theorem cancelPnft_did :
    wp (cancelPnft E d) (fun _ m' => ∃ k vault dest args pre,
      CancelledPnft E d m m' k vault dest args pre)
      (fun _ => True) m := by
  simp [cancelPnft]
  intro hl
  split
  · rename_i maker swap giveMint makerGive vault config feeWallet system metadata edition
      ownerRecord destRecord tokenMetadata splTok ataProg sysvarIx rulesProg rules ha
    simp
    rw [slice_all _ _ hl]
    rintro hsign ho htm _ hsl hst hmk hgm addr haddr rfl vata bv hva tata bt hta hva' hta'
    subst hva' hta'
    refine wp_mono (payDelistFee_did _ _) ?_ (fun _ _ => trivial)
    rintro _ m₁ hpre
    simp [releasePnft, mplTransfer]
    intro s₁ h₁ s₂ h₂
    exact ⟨⟨maker.key,swap.key,giveMint.key,maker.key⟩,vault.key,makerGive.key,_,_,
      { length := hl
        signed := ⟨maker,by simp [ha],rfl,hsign⟩
        back := rfl
        idle := idle_delistActs _ _ _
        slot := by simp [SlotIs, ha]
        isSwap := ⟨ho,hsl,hst⟩
        maker := hmk
        mint := hgm
        address := haddr
        source := ⟨bv,hva⟩
        target := ⟨bt,hta⟩
        move := ⟨htm,rfl,rfl,rfl,rfl,rfl,rfl,rfl⟩
        did := (did_append _ _ m _).mpr ⟨m₁,hpre,s₁,h₁,s₂,h₂,rfl⟩ }⟩
  · trivial

theorem expirePnft_did :
    wp (expirePnft E d) (fun _ m' => ∃ k vault dest args, ExpiredPnft E d m m' k vault dest args)
      (fun _ => True) m := by
  simp [expirePnft]
  intro hl
  split
  · rename_i caller swap maker giveMint makerGive vault metadata edition ownerRecord destRecord
      tokenMetadata splTok ataProg sysvarIx system rulesProg rules ha
    simp
    rw [slice_all _ _ hl]
    intro _ ho htm _ hsl hst hgm hexp hmk
    rw [← hmk]
    rintro addr haddr rfl vata bv hva tata bt hta hva' hta'
    subst hva' hta'
    simp [releasePnft, mplTransfer]
    intro s₁ h₁ s₂ h₂
    exact ⟨⟨maker.key,swap.key,giveMint.key,maker.key⟩,vault.key,makerGive.key,_,
      { length := hl
        back := rfl
        due := hexp
        slot := by simp [SlotIs, ha]
        isSwap := ⟨ho,hsl,hst⟩
        maker := hmk.symm
        mint := hgm
        address := haddr
        source := ⟨bv,hva⟩
        target := ⟨bt,hta⟩
        move := ⟨htm,rfl,rfl,rfl,rfl,rfl,rfl,rfl⟩
        did := ⟨s₁,h₁,s₂,h₂,rfl⟩ }⟩
  · trivial

/-! ## Core assets -/

structure OpenedCore (E : Env) (d : Bytes) (m m' : Machine) (k : NftKeys) (collection : Pubkey)
    (bump : UInt8) : Prop where
  slot : FreshSlot E d m k.maker k.swap bump
  mints : SlotIs E 2 k.mint ∧ SlotIs E 4 k.wantMint
  one : u64At d 32 = 1
  did : Did E
    [createAct E k.maker k.swap swapLen E.programId
    (bumped (swapSeeds k.maker (slice d 0 32)) bump),
    .log (openedEvent kindSwapCore k.maker k.swap k.mint (u64At d 32) k.wantMint d),
    .invoke (.coreTransfer mplCoreId k.mint collection k.maker mplCoreId k.swap false) none,
    .write k.swap (swapRecord k.maker k.mint 1 k.wantMint d bump)] m m'

theorem openCore_did (hs : SystemRules E.host) (hw : Wellformed E) (hf : Confined E.host) :
    wp (openCore E d) (fun _ m' => ∃ k collection bump, OpenedCore E d m m' k collection bump)
      (fun _ => True) m := by
  simp [openCore]
  intro hl
  split
  · rename_i maker swap asset collection wantMint mplCore system config aliasAcct ha
    simp [createPda, emitPostCreated, mplCoreTransfer]
    intro hsign hone hwant hexp hcore _ swapPda bump hswap he
    subst he
    rw [hcore]
    intro s₁ h₁ s₂ h₂ s₃ h₃ s₄ h₄
    have hz : (s₃ swap.key).data = zeros swapLen :=
      created_data hs hw hf (⟨s₁,h₁,s₂,h₂,s₃,h₃,rfl⟩ : Did E [createAct E maker.key swap.key swapLen
        E.programId (bumped (swapSeeds maker.key (slice d 0 32)) bump),.log _,.invoke _ none] m _)
        (by simp)
    rw [hz] at h₄ ⊢
    exact ⟨⟨maker.key,swap.key,asset.key,wantMint.key,maker.key,swap.key⟩,collection.key,bump,
      { slot := ⟨by simp [SlotIs, ha],by simp [SlotIs, ha],hl,⟨maker,by simp [ha],rfl,hsign⟩,hwant,
      hexp, hswap⟩
        mints := by simp [SlotIs, ha]
        one := hone
        did := ⟨s₁,h₁,s₂,h₂,s₃,h₃,s₄,h₄,rfl⟩ }⟩
  · trivial

structure ReleasedCore (E : Env) (nonce : Bytes) (m m' : Machine) (k : ReleaseKeys)
    (collection payer : Pubkey) (pre : List Act) : Prop extends ReleasedSwap E nonce m k where
  did : Did E (pre ++
    [.invoke (.coreTransfer mplCoreId k.mint collection payer k.swap k.newOwner true)
      (some (swapSigner k.maker (m.ledger k.swap).data nonce)),.close k.swap k.maker]) m m'

structure FilledCore (E : Env) (d : Bytes) (m m₁ m' : Machine) (k : RecordKeys) (wantDec : UInt8)
    (collection : Pubkey) : Prop extends PaidRecord E d m m₁ k (plainPayment wantDec) where
  address : E.host.createProgramAddress (swapSigner k.maker (m.ledger k.record).data (slice d 0 32))
    E.programId = some k.record
  did : Did E
    [.invoke (.coreTransfer mplCoreId k.giveMint collection k.taker k.record k.taker true)
      (some (swapSigner k.maker (m.ledger k.record).data (slice d 0 32))),
      .close k.record k.maker] m₁ m'

theorem fillCore_did :
    wp (fillCore E d) (fun _ m' => ∃ m₁ k wantDec collection,
      FilledCore E d m m₁ m' k wantDec collection) (fun _ => True) m := by
  simp [fillCore]
  intro hl
  split
  · rename_i taker swap maker asset collection wantMint takerWant makerWant wantTokenProg config
      feeAta mplCore ha
    simp
    rintro hsign ho hcore hfill hamt hmax hmk
    rw [← hmk]
    rintro addr haddr rfl hmw dec _ htp hown
    refine wp_mono (payWantLeg_paid asset.key dec _ hmax) ?_ (fun _ _ => trivial)
    rintro _ m₁ hpaid
    simp [releaseCore, mplCoreTransfer]
    rw [hcore]
    intro s₁ h₁ s₂ h₂
    refine ⟨m₁,⟨⟨config.key,wantTokenProg.key,takerWant.key,wantMint.key,feeAta.key,makerWant.key,
      taker.key,asset.key⟩,swap.key,maker.key⟩,dec,collection.key,?_⟩
    exact
      { slot := by simp [SlotIs, ha]
        length := hl
        owner := ho
        signed := ⟨taker,by simp [ha],rfl,hsign⟩
        fillable := hfill
        amount := hamt
        maker := hmk.symm
        makerWant := hmw
        tokenProg := htp
        wantOwner := hown
        paid := hpaid
        address := haddr
        did := ⟨s₁,h₁,s₂,h₂,rfl⟩ }
  · trivial

structure CancelledCore (E : Env) (d : Bytes) (m m' : Machine) (k : ReleaseKeys)
    (collection payer : Pubkey) (pre : List Act) : Prop extends
    ReleasedCore E d m m' k collection payer pre where
  length : d.length = 32
  signed : E.signed k.maker
  back : k.newOwner = k.maker
  idle : Idle E pre

structure ExpiredCore (E : Env) (d : Bytes) (m m' : Machine) (k : ReleaseKeys)
    (collection payer : Pubkey) : Prop extends ReleasedCore E d m m' k collection payer [] where
  length : d.length = 32
  back : k.newOwner = k.maker
  due : i64At (m.ledger k.swap).data sExpiry ≤ E.clock

theorem cancelCore_did :
    wp (cancelCore E d) (fun _ m' => ∃ k collection payer pre,
      CancelledCore E d m m' k collection payer pre)
      (fun _ => True) m := by
  simp [cancelCore]
  intro hl
  split
  · rename_i maker swap asset collection config feeWallet system mplCore ha
    simp
    rw [slice_all _ _ hl]
    rintro hsign ho hcore hsl hst hmk hgm addr haddr rfl
    refine wp_mono (payDelistFee_did _ _) ?_ (fun _ _ => trivial)
    rintro _ m₁ hpre
    simp [releaseCore, mplCoreTransfer]
    rw [hcore]
    intro s₁ h₁ s₂ h₂
    exact ⟨⟨maker.key,swap.key,asset.key,maker.key⟩,collection.key,maker.key,_,
      { length := hl
        signed := ⟨maker,by simp [ha],rfl,hsign⟩
        back := rfl
        idle := idle_delistActs _ _ _
        slot := by simp [SlotIs, ha]
        isSwap := ⟨ho,hsl,hst⟩
        maker := hmk
        mint := hgm
        address := haddr
        did := (did_append _ _ m _).mpr ⟨m₁,hpre,s₁,h₁,s₂,h₂,rfl⟩ }⟩
  · trivial

theorem expireCore_did :
    wp (expireCore E d) (fun _ m' => ∃ k collection payer, ExpiredCore E d m m' k collection payer)
      (fun _ => True) m := by
  simp [expireCore]
  intro hl
  split
  · rename_i caller swap maker asset collection mplCore ha
    simp
    rw [slice_all _ _ hl]
    intro _ ho hcore hsl hst hgm hexp hmk
    rw [← hmk]
    rintro addr haddr rfl
    simp [releaseCore, mplCoreTransfer]
    rw [hcore]
    intro s₁ h₁ s₂ h₂
    exact ⟨⟨maker.key,swap.key,asset.key,maker.key⟩,collection.key,caller.key,
      { length := hl
        back := rfl
        due := hexp
        slot := by simp [SlotIs, ha]
        isSwap := ⟨ho,hsl,hst⟩
        maker := hmk.symm
        mint := hgm
        address := haddr
        did := ⟨s₁,h₁,s₂,h₂,rfl⟩ }⟩
  · trivial

end Xete.Swap
