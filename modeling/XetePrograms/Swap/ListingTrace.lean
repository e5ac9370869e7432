import XetePrograms.Swap.Footprint

/-!
# The footprint of the listing instructions

A listing signs for and changes its own record only; the maker approves and
revokes the delegate, and a fill pays the maker before the goods move.
-/

set_option autoImplicit false

namespace Xete.Swap
open Xete.Octets Xete.Weakest Xete.Chain Xete.Token Xete.Runtime Xete.Rules

variable {E : Env} {tag : UInt8} {m m' : Machine} {d : Bytes} {k : Pubkey} {b : UInt8}

theorem listing_signed (maker : Pubkey) (nonce : Bytes) (bump : UInt8) (c : Cpi)
    (ht : tag ∈ listingTags) (hn : nonce.length = 32) :
    Footprint E tag [.invoke c (some (bumped (listingSeeds maker nonce) bump))] :=
  footprint_signed (.listing maker nonce) bump c hn ht

theorem listing_write {maker : Pubkey} {nonce data : Bytes} (ht : tag ∈ listingTags)
    (hn : nonce.length = 32)
    (hk : E.host.findProgramAddress (listingSeeds maker nonce) E.programId = some (k,b)) :
    Footprint E tag [.write k data] :=
  footprint_write (.listing maker nonce) k data (.of_find hn hk) ht

theorem listing_close {maker dest : Pubkey} {nonce : Bytes} (ht : tag ∈ listingTags)
    (hn : nonce.length = 32)
    (hk : E.host.createProgramAddress (bumped (listingSeeds maker nonce) b) E.programId = some k) :
    Footprint E tag [.close k dest] :=
  footprint_close (.listing maker nonce) k dest ⟨hn,b,hk⟩ ht

/-! ## Opening -/

structure ListedSlot (E : Env) (d : Bytes) (m : Machine) (maker listing : Pubkey) (bump : UInt8) :
    Prop where
  slot : SlotIs E 1 listing
  first : SlotIs E 0 maker
  length : 120 ≤ d.length
  signed : E.signed maker
  positive : u64At d 32 ≠ 0
  wanted : u64At d 40 ≠ 0
  live : E.clock < i64At d 80
  address : E.host.findProgramAddress (listingSeeds maker (slice d 0 32)) E.programId =
    some (listing,bump)

def listingRecord (maker giveMint wantMint : Pubkey) (d : Bytes) (bump : UInt8) : Bytes :=
  patches (zeros swapLen) (listingFields maker giveMint (u64At d 32) (byteAt d 120) (byteAt d 121)
    wantMint (u64At d 40) (slice d 88 32) (slice d 48 32) (i64At d 80) bump (slice d 0 32))

def openListingActs (E : Env) (maker listing giveMint wantMint : Pubkey) (d : Bytes)
    (kind bump : UInt8) (mid : List Act) (record : Bytes) : List Act :=
  [createAct E maker listing swapLen E.programId (bumped (listingSeeds maker (slice d 0 32)) bump),
    .log (openedEvent kind maker listing giveMint (u64At d 32) wantMint d)] ++ mid ++
    [.write listing record]

structure OpenedListing (E : Env) (d : Bytes) (m m' : Machine) (maker listing giveMint wantMint :
    Pubkey) (kind bump : UInt8) (mid : List Act) (record : Bytes) : Prop where
  slot : ListedSlot E d m maker listing bump
  mints : SlotIs E 2 giveMint ∧ SlotIs E 3 wantMint
  unsigned : ∀ a ∈ mid, ∃ c, a = .invoke c none
  did : Did E (openListingActs E maker listing giveMint wantMint d kind bump mid record) m m'

theorem unsigned_idle {as : List Act} (h : ∀ a ∈ as, ∃ c, a = .invoke c none) : Idle E as := by
  constructor
  · rintro j ⟨c,seeds,hm,-⟩
    obtain ⟨c',he⟩ := h _ hm
    cases he
  · rintro j (⟨b,hm⟩ | ⟨dest,hm⟩)
    · obtain ⟨c',he⟩ := h _ hm
      cases he
    · obtain ⟨c',he⟩ := h _ hm
      cases he
  · intro b hm
    obtain ⟨c',he⟩ := h _ hm
    cases he

theorem OpenedListing.within {maker listing giveMint wantMint : Pubkey} {kind bump : UInt8}
    {mid : List Act} {record : Bytes}
    (h : OpenedListing E d m m' maker listing giveMint wantMint kind bump mid record)
    (ht : tag ∈ listingTags) (hp : tag ∈ postTags) : Within E tag m m' := by
  have hn : (slice d 0 32).length = 32 := slice_length _ _ _ (by have := h.slot.length; omega)
  refine .of_did h.did (.append (.append ?_ (unsigned_idle h.unsigned).footprint)
    (listing_write ht hn h.slot.address))
  exact (listing_signed maker (slice d 0 32) bump _ ht hn).cons (footprint_log _ hp)

structure ListedToken (E : Env) (d : Bytes) (m m' : Machine)
    (maker listing giveMint wantMint : Pubkey) (bump : UInt8) (mid : List Act) : Prop extends
    OpenedListing E d m m' maker listing giveMint wantMint kindListing bump mid
      (listingRecord maker giveMint wantMint d bump) where
  mode : byteAt d 120 ≤ royaltySplit
  pct : byteAt d 121 ≤ 100
  mint : IsTokenProgram (m.ledger giveMint).owner

theorem list_did (hs : SystemRules E.host) (hw : Wellformed E) (hf : Confined E.host) :
    wp (list E d) (fun _ m' => ∃ maker listing giveMint wantMint bump mid,
      ListedToken E d m m' maker listing giveMint wantMint bump mid) (fun _ => True) m := by
  simp [list]
  intro hl hmode hpct
  split
  · rename_i maker listing giveMint wantMint makerGive tokenProg system config aliasAcct ha
    simp [createPda, tokenApprove, emitPostCreated]
    intro hsign hgive hwant hexp htp hown _ _ listingPda bump hk he s₁ h₁ s₂ h₂ s₃ h₃ s₄ h₄
    subst he
    have hz : (s₃ listing.key).data = zeros swapLen :=
      created_data hs hw hf (⟨s₁,h₁,s₂,h₂,s₃,h₃,rfl⟩ : Did E [createAct E maker.key listing.key
        swapLen E.programId (bumped (listingSeeds maker.key (slice d 0 32)) bump),.log _,
        .invoke _ none] m _) (by simp)
    rw [hz] at h₄ ⊢
    exact ⟨maker.key,listing.key,giveMint.key,wantMint.key,bump,[.invoke _ none],
      { slot := ⟨by simp [SlotIs, ha],by simp [SlotIs, ha],by omega,⟨maker,by simp [ha],rfl,hsign⟩,
      hgive,hwant, hexp,hk⟩
        mints := by simp [SlotIs, ha]
        unsigned := by simp
        did := ⟨s₁,h₁,s₂,h₂,s₃,h₃,s₄,h₄,rfl⟩
        mode := hmode
        pct := hpct
        mint := hown ▸ htp }⟩
  · trivial

structure ListedPnft (E : Env) (d : Bytes) (m m' : Machine)
    (maker listing giveMint wantMint : Pubkey) (bump : UInt8) (args : MplDelegate) : Prop extends
    OpenedListing E d m m' maker listing giveMint wantMint kindListingPnft bump
      [.invoke (.mplDelegate args) none] (listingRecord maker giveMint wantMint d bump) where
  mode : byteAt d 120 ≤ royaltySplit
  pct : byteAt d 121 ≤ 100
  one : u64At d 32 = 1
  tm : args.tm = tokenMetadataId
  mint : args.mint = giveMint
  grants : args.revoke = false

theorem listPnft_did (hs : SystemRules E.host) (hw : Wellformed E) (hf : Confined E.host) :
    wp (listPnft E d) (fun _ m' => ∃ maker listing giveMint wantMint bump args,
      ListedPnft E d m m' maker listing giveMint wantMint bump args) (fun _ => True) m := by
  simp [listPnft]
  intro hl hmode hpct
  split
  · rename_i maker listing giveMint wantMint ownerAta tokenRecord metadata edition
      tokenMetadata splTok sysvarIx system rulesProg rules config aliasAcct ha
    simp [createPda, mplDelegateOrRevoke, emitPostCreated]
    intro hsign hgive hwant hexp htm _ _ _ _ _ _ listingPda bump hk he s₁ h₁ s₂ h₂ s₃ h₃ s₄ h₄
    subst he
    have hz : (s₃ listing.key).data = zeros swapLen :=
      created_data hs hw hf (⟨s₁,h₁,s₂,h₂,s₃,h₃,rfl⟩ : Did E [createAct E maker.key listing.key
        swapLen E.programId (bumped (listingSeeds maker.key (slice d 0 32)) bump),.log _,
        .invoke _ none] m _) (by simp)
    rw [hz] at h₄ ⊢
    have hrec : listingRecord maker.key giveMint.key wantMint.key d bump = patches (zeros swapLen)
        (listingFields maker.key giveMint.key 1 (byteAt d 120) (byteAt d 121) wantMint.key
        (u64At d 40)
          (slice d 88 32) (slice d 48 32) (i64At d 80) bump (slice d 0 32)) := by
      rw [listingRecord, hgive]
    rw [← hrec] at h₄ ⊢
    exact ⟨maker.key,listing.key,giveMint.key,wantMint.key,bump,_,
      { slot := ⟨by simp [SlotIs, ha],by simp [SlotIs, ha],by omega,⟨maker,by simp [ha],rfl,hsign⟩,
      by omega,hwant, hexp,hk⟩
        mints := by simp [SlotIs, ha]
        unsigned := by simp
        did := ⟨s₁,h₁,s₂,h₂,s₃,h₃,s₄,h₄,rfl⟩
        mode := hmode
        pct := hpct
        one := hgive
        tm := htm
        mint := rfl
        grants := rfl }⟩
  · trivial

structure ListedCore (E : Env) (d : Bytes) (m m' : Machine) (maker listing asset wantMint : Pubkey)
    (bump : UInt8) (mid : List Act) : Prop extends
    OpenedListing E d m m' maker listing asset wantMint kindListingCore bump mid
      (swapRecord maker asset 1 wantMint d bump) where
  one : u64At d 32 = 1

theorem listCore_did (hs : SystemRules E.host) (hw : Wellformed E) (hf : Confined E.host) :
    wp (listCore E d) (fun _ m' => ∃ maker listing asset wantMint bump mid,
      ListedCore E d m m' maker listing asset wantMint bump mid) (fun _ => True) m := by
  simp [listCore]
  intro hl
  split
  · rename_i maker listing asset wantMint mplCore system config aliasAcct hsplit
    have hmaker : maker ∈ E.accounts := by
      have h₀ := splitCollection_getElem? 8 0 E.accounts (by decide)
      rw [hsplit] at h₀
      exact List.mem_of_getElem? h₀.symm
    have hslot : ∀ (i : ℕ) (a : AccountInfo), [maker,listing,asset,wantMint,mplCore,system,config,
        aliasAcct][i]? = some a → i < 8 → SlotIs E i a.key := by
      intro i a hi hlt
      rw [← hsplit, splitCollection_getElem? 8 i _ hlt] at hi
      exact .of_getElem hi
    simp [createPda, mplCorePlugin, emitPostCreated]
    intro collection _ hsign hgive hwant hexp _ _ listingPda bump hk he s₁ h₁ s₂ h₂ s₃ h₃ s₄
      h₄ s₅ h₅
    subst he
    have hz : (s₄ listing.key).data = zeros swapLen :=
      created_data hs hw hf (⟨s₁,h₁,s₂,h₂,s₃,h₃,s₄,h₄,rfl⟩ :
        Did E [createAct E maker.key listing.key
        swapLen E.programId (bumped (listingSeeds maker.key (slice d 0 32)) bump),.log _,
        .invoke _ none,.invoke _ none] m _) (by simp)
    rw [hz] at h₅ ⊢
    exact ⟨maker.key,listing.key,asset.key,wantMint.key,bump,
      [.invoke (.corePlugin mplCore.key asset.key collection.key maker.key system.key [0x02,
      0x03,0x00])
        none,.invoke (.corePlugin mplCore.key asset.key collection.key maker.key system.key
          (0x08 :: 0x03 :: 0x03 :: listing.key.bytes)) none],
      { slot := ⟨hslot 1 listing rfl (by decide),hslot 0 maker rfl (by decide),by omega,
          ⟨maker,hmaker,rfl,hsign⟩,by omega,hwant,hexp,hk⟩
        mints := ⟨hslot 2 asset rfl (by decide),hslot 3 wantMint rfl (by decide)⟩
        unsigned := by simp
        did := ⟨s₁,h₁,s₂,h₂,s₃,h₃,s₄,h₄,s₅,h₅,rfl⟩
        one := hgive }⟩
  · trivial

/-! ## Filling -/

def listingSigner (s : Bytes) (maker : Pubkey) (nonce : Bytes) : List Bytes :=
  bumped (listingSeeds maker nonce) (byteAt s sBump)

/-- What a fill of a listing checked and did: after the payment the listing
address hands over the goods by `move`. -/
structure FilledListing (E : Env) (d : Bytes) (m m₁ m' : Machine) (k : RecordKeys) (p : Payment)
    (move : Cpi) : Prop extends PaidRecord E d m m₁ k p where
  address : E.host.createProgramAddress
    (listingSigner (m.ledger k.record).data k.maker (slice d 0 32)) E.programId = some k.record
  did : Did E [.invoke move (some (listingSigner (m.ledger k.record).data k.maker (slice d 0 32))),
    .close k.record k.maker] m₁ m'

theorem FilledListing.within {m₁ : Machine} {k : RecordKeys} {p : Payment} {move : Cpi}
    (h : FilledListing E d m m₁ m' k p move) (ht : tag ∈ listingTags) : Within E tag m m' := by
  have hpaid : Within E tag m m₁ := .of_did h.paid.did h.idle.footprint
  exact hpaid.did h.did ((listing_signed _ _ _ _ ht h.nonce).cons
    (listing_close ht h.nonce h.address))

structure FilledToken (E : Env) (d : Bytes) (m m₁ m' : Machine) (k : RecordKeys) (p : Payment)
    (prog source dest : Pubkey) (dec : UInt8) : Prop extends FilledListing E d m m₁ m' k p
    (.transferChecked prog source k.giveMint dest k.record (u64At (m.ledger k.record).data sGiveAmt)
      dec) where
  source : BelongsTo m.ledger source k.giveMint k.maker
  program : IsTokenProgram prog
  owned : (m.ledger k.giveMint).owner = prog
  mode : p.mode = byteAt (m.ledger k.record).data sRoyaltyMode
  pct : p.pct = byteAt (m.ledger k.record).data sMakerPct

theorem fillListing_did :
    wp (fillListing E d) (fun _ m' => ∃ m₁ k p prog source dest dec,
      FilledToken E d m m₁ m' k p prog source dest dec) (fun _ => True) m := by
  simp [fillListing]
  intro hl _
  split
  · rename_i taker listing maker giveMint wantMint makerGive takerGive takerWant makerWant tokenProg
      config feeAta ha
    have hslot : E.accounts[1]? = some listing := take_getElem? 12 1 _ _ ha (by decide)
    have hmem : taker ∈ E.accounts := List.mem_of_mem_take (i := 12) (by rw [ha]; simp)
    simp
    intro hsign ho hfill hamt hmk listingPda hk he
    subst he
    intro hmg hmw giveDec _ wantDec _ htp hown hgtp hgown _
    refine wp_mono (payWantAndRoyalty_paid _ _ _ _ _ _ _ _) ?_ (fun _ _ => trivial)
    rintro _ m₁ ⟨terms,parts,hpaid⟩
    simp [tokenTransfer]
    intro s₁ h₁ s₂ h₂
    rw [← hmk] at hk hmg hmw h₁ ⊢
    exact ⟨m₁,⟨⟨config.key,tokenProg.key,takerWant.key,wantMint.key,feeAta.key,makerWant.key,
      taker.key,giveMint.key⟩,listing.key,maker.key⟩,
      ⟨wantDec,byteAt (m.ledger listing.key).data sRoyaltyMode,_,_,_,terms,parts⟩,
      (E.accounts[12]?.getD tokenProg).key,makerGive.key,takerGive.key,giveDec,
      { slot := .of_getElem hslot
        length := hl
        owner := ho
        signed := ⟨taker,hmem,rfl,hsign⟩
        fillable := hfill
        amount := hamt
        maker := hmk.symm
        makerWant := hmw
        tokenProg := htp
        wantOwner := hown
        paid := hpaid
        address := hk
        did := ⟨s₁,h₁,s₂,h₂,rfl⟩
        source := hmg
        program := hgtp
        owned := hgown
        mode := rfl
        pct := rfl }⟩
  · trivial

structure FilledNft (E : Env) (d : Bytes) (m m₁ m' : Machine) (k : RecordKeys) (p : Payment)
    (args : MplTransfer) (source dest : Pubkey) : Prop extends
    FilledListing E d m m₁ m' k p (.mplTransfer args) where
  move : MovesOne args k.giveMint source k.maker dest k.taker k.record
  source : IsAta E source k.maker k.giveMint
  mode : p.mode = byteAt (m.ledger k.record).data sRoyaltyMode
  pct : p.pct = byteAt (m.ledger k.record).data sMakerPct

theorem fillListingPnft_did :
    wp (fillListingPnft E d) (fun _ m' => ∃ m₁ k p args source dest,
      FilledNft E d m m₁ m' k p args source dest) (fun _ => True) m := by
  simp [fillListingPnft]
  intro hl _
  split
  · rename_i taker listing maker giveMint wantMint takerWant makerWant wantTokenProg config feeAta
      makerAta takerAta metadata edition ownerRecord destRecord tokenMetadata splTok ataProg
      sysvarIx system rulesProg rules ha
    have hslot : E.accounts[1]? = some listing := take_getElem? 23 1 _ _ ha (by decide)
    have hmem : taker ∈ E.accounts := List.mem_of_mem_take (i := 23) (by rw [ha]; simp)
    simp
    intro hsign ho htm _ hfill hamt hmk listingPda hk he
    subst he
    rintro mata bm hma tata bt hta hma' hta' hmw wantDec _ htp hown
    subst hma' hta'
    refine wp_mono (payWantAndRoyalty_paid _ _ _ _ _ _ _ _) ?_ (fun _ _ => trivial)
    rintro _ m₁ ⟨terms,parts,hpaid⟩
    simp [mplTransfer]
    intro s₁ h₁ s₂ h₂
    rw [← hmk] at hk hmw h₁ ⊢
    exact ⟨m₁,⟨⟨config.key,wantTokenProg.key,takerWant.key,wantMint.key,feeAta.key,makerWant.key,
      taker.key,giveMint.key⟩,listing.key,maker.key⟩,⟨wantDec,
        byteAt (m.ledger listing.key).data sRoyaltyMode,_,_,_,terms,parts⟩,_,makerAta.key,
        takerAta.key,
      { slot := .of_getElem hslot
        length := hl
        owner := ho
        signed := ⟨taker,hmem,rfl,hsign⟩
        fillable := hfill
        amount := hamt
        maker := hmk.symm
        makerWant := hmw
        tokenProg := htp
        wantOwner := hown
        paid := hpaid
        address := hk
        did := ⟨s₁,h₁,s₂,h₂,rfl⟩
        move := ⟨htm,rfl,rfl,rfl,rfl,rfl,rfl,rfl⟩
        source := ⟨bm,hma⟩
        mode := rfl
        pct := rfl }⟩
  · trivial

theorem fillListingCore_did :
    wp (fillListingCore E d) (fun _ m' => ∃ m₁ k wantDec collection,
      FilledListing E d m m₁ m' k (plainPayment wantDec)
        (.coreTransfer mplCoreId k.giveMint collection k.taker k.record k.taker true))
      (fun _ => True) m := by
  simp [fillListingCore]
  intro hl
  split
  · rename_i taker listing maker asset wantMint takerWant makerWant wantTokenProg config
      feeAta mplCore hsplit
    have hslot : E.accounts[1]? = some listing := by
      rw [← splitCollection_getElem? 11 1 _ (by decide), hsplit]
      rfl
    have hmem : taker ∈ E.accounts := by
      have h₀ := splitCollection_getElem? 11 0 E.accounts (by decide)
      rw [hsplit] at h₀
      exact List.mem_of_getElem? h₀.symm
    simp
    intro collection _ hsign ho hcore hfill hamt hmax hmk listingPda hk he
    subst he
    intro hmw wantDec _ htp hown
    refine wp_mono (payWantLeg_paid asset.key wantDec _ hmax) ?_ (fun _ _ => trivial)
    rintro _ m₁ hpaid
    simp [mplCoreTransfer]
    rw [hcore]
    intro s₁ h₁ s₂ h₂
    rw [← hmk] at hk hmw h₁ ⊢
    exact ⟨m₁,⟨⟨config.key,wantTokenProg.key,takerWant.key,wantMint.key,feeAta.key,makerWant.key,
      taker.key,asset.key⟩,listing.key,maker.key⟩,wantDec,collection.key,
      { slot := .of_getElem hslot
        length := hl
        owner := ho
        signed := ⟨taker,hmem,rfl,hsign⟩
        fillable := hfill
        amount := hamt
        maker := hmk.symm
        makerWant := hmw
        tokenProg := htp
        wantOwner := hown
        paid := hpaid
        address := hk
        did := ⟨s₁,h₁,s₂,h₂,rfl⟩ }⟩
  · trivial

/-! ## Cancelling and expiring -/

structure ClosedListing (E : Env) (nonce : Bytes) (m m' : Machine) (maker listing : Pubkey)
    (pre : List Act) : Prop where
  slot : SlotIs E 1 listing
  length : nonce.length = 32
  isOpen : IsSwap E m.ledger listing
  recorded : keyAt (m.ledger listing).data sMaker = maker
  address : ∃ b, E.host.findProgramAddress (listingSeeds maker nonce) E.programId = some (listing,b)
  unsigned : ∀ a ∈ pre, ∃ c, a = .invoke c none
  did : Did E (pre ++ [.close listing maker]) m m'

theorem ClosedListing.within {nonce : Bytes} {maker listing : Pubkey} {pre : List Act}
    (h : ClosedListing E nonce m m' maker listing pre) (ht : tag ∈ listingTags) :
    Within E tag m m' := by
  obtain ⟨b,hk⟩ := h.address
  exact .of_did h.did ((unsigned_idle h.unsigned).footprint.append
    (listing_close ht h.length (E.host.find_create _ _ _ _ hk)))

theorem unsigned_delistActs (maker feeWallet : Pubkey) (fee : ℕ) :
    ∀ a ∈ delistActs maker feeWallet fee, ∃ c, a = .invoke c none := by
  unfold delistActs
  split <;> simp

theorem unsigned_append {as bs : List Act} (ha : ∀ a ∈ as, ∃ c, a = .invoke c none)
    (hb : ∀ a ∈ bs, ∃ c, a = .invoke c none) : ∀ a ∈ as ++ bs, ∃ c, a = .invoke c none := by
  intro a h
  rcases List.mem_append.mp h with h | h
  · exact ha a h
  · exact hb a h

structure CancelledListing (E : Env) (nonce : Bytes) (m m' : Machine) (maker listing : Pubkey)
    (pre : List Act) : Prop extends ClosedListing E nonce m m' maker listing pre where
  signed : E.signed maker
  mint : SlotIs E 2 (keyAt (m.ledger listing).data sGiveMint)

theorem cancelListing_did :
    wp (cancelListing E d) (fun _ m' => ∃ maker listing pre,
      CancelledListing E d m m' maker listing pre) (fun _ => True) m := by
  simp [cancelListing]
  intro hl
  split
  · rename_i maker listing giveMint makerGive tokenProg config feeWallet system ha
    simp
    rw [slice_all _ _ hl]
    intro hsign ho hlen hst hmk hgm _ listingPda bump hk he
    subst he
    refine wp_mono (payDelistFee_did _ _) ?_ (fun _ _ => trivial)
    rintro _ m₁ hpre
    simp [tokenRevoke]
    intro s₁ h₁ s₂ h₂
    exact ⟨maker.key,listing.key,_ ++ [.invoke _ none],
      { signed := ⟨maker,by simp [ha],rfl,hsign⟩
        mint := by simp [SlotIs, ha, hgm]
        slot := by simp [SlotIs, ha]
        length := hl
        isOpen := ⟨ho,hlen,hst⟩
        recorded := hmk
        address := ⟨bump,hk⟩
        unsigned := unsigned_append (unsigned_delistActs _ _ _) (by simp)
        did := by
          rw [List.append_assoc]
          exact (did_append _ _ m _).mpr ⟨m₁,hpre,s₁,h₁,s₂,h₂,rfl⟩ }⟩
  · trivial

theorem cancelListingPnft_did :
    wp (cancelListingPnft E d) (fun _ m' => ∃ maker listing pre,
      CancelledListing E d m m' maker listing pre) (fun _ => True) m := by
  simp [cancelListingPnft]
  intro hl
  split
  · rename_i maker listing giveMint ownerAta tokenRecord metadata edition tokenMetadata splTok
      sysvarIx system rulesProg rules config feeWallet ha
    simp
    rw [slice_all _ _ hl]
    intro hsign ho _ _ hlen hst hmk hgm listingPda bump hk he
    subst he
    intros
    refine wp_mono (payDelistFee_did _ _) ?_ (fun _ _ => trivial)
    rintro _ m₁ hpre
    simp [mplDelegateOrRevoke]
    intro s₁ h₁ s₂ h₂
    exact ⟨maker.key,listing.key,_ ++ [.invoke _ none],
      { signed := ⟨maker,by simp [ha],rfl,hsign⟩
        mint := by simp [SlotIs, ha, hgm]
        slot := by simp [SlotIs, ha]
        length := hl
        isOpen := ⟨ho,hlen,hst⟩
        recorded := hmk
        address := ⟨bump,hk⟩
        unsigned := unsigned_append (unsigned_delistActs _ _ _) (by simp)
        did := by
          rw [List.append_assoc]
          exact (did_append _ _ m _).mpr ⟨m₁,hpre,s₁,h₁,s₂,h₂,rfl⟩ }⟩
  · trivial

theorem cancelListingCore_did :
    wp (cancelListingCore E d) (fun _ m' => ∃ maker listing pre,
      CancelledListing E d m m' maker listing pre) (fun _ => True) m := by
  simp [cancelListingCore]
  intro hl
  split
  · rename_i maker listing asset config feeWallet system mplCore hsplit
    have hslot : E.accounts[1]? = some listing := by
      rw [← splitCollection_getElem? 7 1 _ (by decide), hsplit]
      rfl
    have hmem : maker ∈ E.accounts := by
      have h₀ := splitCollection_getElem? 7 0 E.accounts (by decide)
      rw [hsplit] at h₀
      exact List.mem_of_getElem? h₀.symm
    simp
    rw [slice_all _ _ hl]
    intro collection _ hsign ho _ hlen hst hmk hgm listingPda bump hk he
    subst he
    refine wp_mono (payDelistFee_did _ _) ?_ (fun _ _ => trivial)
    rintro _ m₁ hpre
    simp [mplCorePlugin]
    intro s₁ h₁ s₂ h₂ s₃ h₃
    exact ⟨maker.key,listing.key,_ ++ [.invoke _ none,.invoke _ none],
      { signed := ⟨maker,hmem,rfl,hsign⟩
        mint := by
          rw [hgm, SlotIs, ← splitCollection_getElem? 7 2 _ (by decide), hsplit]
          rfl
        slot := .of_getElem hslot
        length := hl
        isOpen := ⟨ho,hlen,hst⟩
        recorded := hmk
        address := ⟨bump,hk⟩
        unsigned := unsigned_append (unsigned_delistActs _ _ _) (by simp)
        did := by
          rw [List.append_assoc]
          exact (did_append _ _ m _).mpr ⟨m₁,hpre,s₁,h₁,s₂,h₂,s₃,h₃,rfl⟩ }⟩
  · trivial

structure ExpiredListing (E : Env) (nonce : Bytes) (m m' : Machine) (maker listing : Pubkey) :
    Prop extends ClosedListing E nonce m m' maker listing [] where
  due : i64At (m.ledger listing).data sExpiry ≤ E.clock
  mint : ∀ k, SlotIs E 3 k → keyAt (m.ledger listing).data sGiveMint = k

theorem expireRestedListing_did {caller listing maker : AccountInfo} {asset : Option Pubkey}
    {nonce : Bytes} (hslot : E.accounts[1]? = some listing) (hn : nonce.length = 32)
    (hasset : ∀ k, SlotIs E 3 k → k ∈ asset) :
    wp (expireRestedListing E caller listing maker asset nonce)
      (fun _ m' => ∃ maker listing, ExpiredListing E nonce m m' maker listing)
      (fun _ => True) m := by
  simp only [expireRestedListing, wp_close, wp_bind, wp_failIf, wp_ownerOf, wp_dataOf,
    wp_findAddress, implies_true, and_true, not_not, not_or, not_lt]
  intro _ ho hlen hgm hexp hmk listingPda bump hk he s₁ h₁
  subst he
  rw [← hmk] at hk
  exact ⟨maker.key,listing.key,
    { due := hexp
      mint := fun k hk => by_contra fun hne => hgm ⟨k,hasset k hk,hne⟩
      slot := .of_getElem hslot
      length := hn
      isOpen := ⟨ho,hlen.1,hlen.2⟩
      recorded := hmk.symm
      address := ⟨bump,hk⟩
      unsigned := by simp
      did := ⟨s₁,h₁,rfl⟩ }⟩

theorem expireListing_did :
    wp (expireListing E d) (fun _ m' => ∃ maker listing, ExpiredListing E d m m' maker listing)
      (fun _ => True) m := by
  simp [expireListing]
  intro hl
  rw [slice_all _ _ hl]
  split
  · rename_i caller listing maker ha
    exact expireRestedListing_did (by rw [ha]; rfl) hl (by simp [SlotIs, ha])
  · trivial

theorem expireListingPnft_did :
    wp (expireListingPnft E d) (fun _ m' => ∃ maker listing, ExpiredListing E d m m' maker listing)
      (fun _ => True) m := by
  simp [expireListingPnft]
  intro hl
  rw [slice_all _ _ hl]
  split
  · rename_i caller listing maker ha
    exact expireRestedListing_did (by rw [ha]; rfl) hl (by simp [SlotIs, ha])
  · trivial

theorem expireListingCore_did :
    wp (expireListingCore E d) (fun _ m' => ∃ maker listing, ExpiredListing E d m m' maker listing)
      (fun _ => True) m := by
  simp [expireListingCore]
  intro hl
  rw [slice_all _ _ hl]
  split
  · rename_i caller listing maker asset ha
    exact expireRestedListing_did (by rw [ha]; rfl) hl (by simp [SlotIs, ha])
  · trivial

end Xete.Swap
