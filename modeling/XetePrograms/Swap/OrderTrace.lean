import XetePrograms.Swap.AssetTrace
import XetePrograms.Swap.Signature

/-!
# The acts of the sealed orders and bids
-/

set_option autoImplicit false

namespace Xete.Swap
open Xete.Octets Xete.Weakest Xete.Chain Xete.Token Xete.Runtime Xete.Rules

variable {E : Env} {m m' : Machine} {d : Bytes} {maker auth asset : Pubkey} {seeds : List Bytes}
  {s : Ledger}

/-- An act by which `auth`, with its seeds, moves units of `asset` out of an
account that belonged to `maker` in `s`. -/
inductive IsMove (E : Env) (s : Ledger) (maker auth asset : Pubkey) (seeds : List Bytes) :
    Act → ℕ → Prop
  | token (tokenProg source dest : Pubkey) (n : ℕ) (dec : UInt8)
      (h : BelongsTo s source asset maker) :
      IsMove E s maker auth asset seeds (transferAct tokenProg source asset dest auth n dec
        (some seeds)) n
  | nft (args : MplTransfer) (source dest newOwner : Pubkey)
      (h : MovesOne args asset source maker dest newOwner auth) (hs : IsAta E source maker asset) :
      IsMove E s maker auth asset seeds (.invoke (.mplTransfer args) (some seeds)) 1
  | core (collection payer newOwner : Pubkey) :
      IsMove E s maker auth asset seeds
        (.invoke (.coreTransfer mplCoreId asset collection payer auth newOwner true) (some seeds)) 1

/-- Acts that together move `n` units of `asset` by the signature of `auth`, and
use it for nothing else. -/
inductive Moves (E : Env) (s : Ledger) (maker auth asset : Pubkey) (seeds : List Bytes) :
    List Act → ℕ → Prop
  | nil : Moves E s maker auth asset seeds [] 0
  | idle (a : Act) (as : List Act) (n : ℕ) (h : Idle E [a])
    (hs : Moves E s maker auth asset seeds as n) :
      Moves E s maker auth asset seeds (a :: as) n
  | move (a : Act) (as : List Act) (k n : ℕ) (h : IsMove E s maker auth asset seeds a k)
      (hs : Moves E s maker auth asset seeds as n) : Moves E s maker auth asset seeds
      (a :: as) (k+n)

theorem IsMove.touches {a : Act} {n : ℕ} (h : IsMove E s maker auth asset seeds a n) (k : Pubkey) :
    ¬TouchedIn [a] k := by
  cases h <;> simp [transferAct]

theorem IsMove.signs {a : Act} {n : ℕ} (h : IsMove E s maker auth asset seeds a n) (k : Pubkey) :
    SignsIn E [a] k ↔ E.host.createProgramAddress seeds E.programId = some k := by
  cases h <;> simp [transferAct]

theorem Moves.touches {as : List Act} {n : ℕ} (h : Moves E s maker auth asset seeds as n)
    (k : Pubkey) : ¬TouchedIn as k := by
  induction h with
  | nil => simp
  | idle a as n h _ ih =>
    rw [touchedIn_cons, not_or]
    exact ⟨h.2 k,ih⟩
  | move a as k n h _ ih =>
    rw [touchedIn_cons, not_or]
    exact ⟨h.touches _,ih⟩

theorem Moves.quiet {as : List Act} {n : ℕ} (h : Moves E s maker auth asset seeds as n)
    (b : Bytes) : .log b ∉ as := by
  induction h with
  | nil => simp
  | idle a as n h _ ih =>
    rw [List.mem_cons, not_or]
    exact ⟨fun he => h.quiet b (by simp [he]),ih⟩
  | move a as k n h _ ih =>
    rw [List.mem_cons, not_or]
    exact ⟨by cases h <;> simp [transferAct],ih⟩

theorem Moves.signs {as : List Act} {n : ℕ} (h : Moves E s maker auth asset seeds as n) (k : Pubkey)
    (hk : SignsIn E as k) : E.host.createProgramAddress seeds E.programId = some k := by
  induction h with
  | nil => simp at hk
  | idle a as n h _ ih =>
    rw [signsIn_cons] at hk
    exact ih (hk.resolve_left (h.1 k))
  | move a as k n h _ ih =>
    rw [signsIn_cons] at hk
    exact hk.elim (h.signs _).mp ih

theorem Moves.append {as bs : List Act} {n k : ℕ} (ha : Moves E s maker auth asset seeds as n)
    (hb : Moves E s maker auth asset seeds bs k) :
    Moves E s maker auth asset seeds (as ++ bs) (n+k) := by
  induction ha with
  | nil => simpa using hb
  | idle a as n h _ ih => exact .idle a _ _ h ih
  | move a as j n h _ ih =>
    rw [Nat.add_assoc]
    exact .move a _ j _ h ih

theorem IsMove.moves {a : Act} {n : ℕ} (h : IsMove E s maker auth asset seeds a n) :
    Moves E s maker auth asset seeds [a] n := .move a [] n 0 h .nil

/-- A payment by a party is no move by an address of the program. -/
theorem IsPayment.moves {tokenProg source mint authority : Pubkey} {as : List Act}
    (h : IsPayment tokenProg source mint authority as) : Moves E s maker auth asset seeds as 0 := by
  induction as with
  | nil => exact .nil
  | cons a as ih =>
    have ha : IsPayment tokenProg source mint authority [a] := fun b hb =>
      h b (List.mem_cons.mpr (.inl (List.mem_singleton.mp hb)))
    exact .idle a as 0 ha.idle (ih fun b hb => h b (List.mem_cons_of_mem a hb))

theorem IsPayment.then_move {tokenProg source mint authority : Pubkey} {as : List Act} {a : Act}
    {n : ℕ} (h : IsPayment tokenProg source mint authority as)
    (ha : IsMove E s maker auth asset seeds a n) :
    Moves E s maker auth asset seeds (as ++ [a]) n := by
  have hm := (h.moves : Moves E s maker auth asset seeds as 0).append ha.moves
  rwa [Nat.zero_add] at hm

/-- The fee and the rest of a price that `auth` pays are together the price. -/
theorem moves_priceActs {tokenProg source feeAta dest : Pubkey} {price fee : ℕ}
    (dec : UInt8) (hs : BelongsTo s source asset maker) (hle : fee ≤ price) :
    Moves E s maker auth asset seeds
      (priceActs tokenProg source asset feeAta dest auth price fee dec (some seeds)) price := by
  have hrest : Moves E s maker auth asset seeds
      [transferAct tokenProg source asset dest auth (price-fee) dec (some seeds)] (price-fee) :=
    (IsMove.token tokenProg source dest (price-fee) dec hs).moves
  unfold priceActs feeActs
  split
  · have hfee : Moves E s maker auth asset seeds
        [transferAct tokenProg source asset feeAta auth fee dec (some seeds)] fee :=
      (IsMove.token tokenProg source feeAta fee dec hs).moves
    have h := hfee.append hrest
    rwa [Nat.add_sub_cancel' hle] at h
  · have hz : price-fee = price := by omega
    rw [hz] at hrest ⊢
    exact hrest

/-- What a settled order or bid checked and did: it created the marker, and then
moved the signed amount by the signature of the order address. -/
structure SettledOrder (E : Env) (tag : UInt8) (d : Bytes) (m m' : Machine) (maker : AccountInfo)
    (o : SealedOrder) (payer auth marker : Pubkey) (authBump doneBump : UInt8) (as : List Act) :
    Prop where
  order : ∃ ix, sealedOrder tag E.accounts d = some (maker,ix,o)
  address : E.host.findProgramAddress (orderSeeds maker.key) E.programId = some (auth,authBump)
  done : E.host.findProgramAddress (orderDoneSeeds maker.key o.terms.nonce) E.programId =
    some (marker,doneBump)
  moves : Moves E m.ledger maker.key auth o.give (bumped (orderSeeds maker.key) authBump) as
    o.terms.giveAmount
  did : Did E (createAct E payer marker 1 E.programId
    (bumped (orderDoneSeeds maker.key o.terms.nonce) doneBump) :: as) m m'

/-- An account that reads as a token account now did so before the marker. -/
theorem BelongsTo.of_created (hs : SystemRules E.host) {payer acct a mint owner : Pubkey}
    {b : UInt8} {nonce : Bytes}
    (h : (createAct E payer acct 1 E.programId (bumped (orderDoneSeeds maker nonce) b)).effect E
      m.ledger = some s)
    (hb : BelongsTo s a mint owner) : BelongsTo m.ledger a mint owner := by
  simp only [createAct, Act.effect] at h
  split at h
  · obtain ⟨-,-,hacct,hrest⟩ := hs.create _ _ _ _ _ _ _ h
    have hne : a ≠ acct := by
      rintro rfl
      have hl := hb.1
      rw [hacct] at hl
      simp at hl
    rw [BelongsTo, (hrest a hne).2.1] at hb
    exact hb
  · cases h

theorem sealedOrder_slots {tag : UInt8} {give want ixSysvar maker : AccountInfo}
    (hd : d.length = 90) (h₁ : E.accounts[1]? = some maker) (h₂ : E.accounts[2]? = some give)
    (h₃ : E.accounts[3]? = some want) (h₄ : E.accounts[ixSysvarSlot tag]? = some ixSysvar) :
    sealedOrder tag E.accounts d =
      some (maker,ixSysvar,⟨41 ≤ tag,give.key,want.key,orderTerms d⟩) := by
  simp [sealedOrder, hd, h₁, h₂, h₃, h₄]

def Settles (E : Env) (tag : UInt8) (d : Bytes) (m m' : Machine) : Prop :=
  ∃ maker o payer auth marker authBump doneBump as,
    SettledOrder E tag d m m' maker o payer auth marker authBump doneBump as

/-- The marker is created, and what follows may use the bump of the order address. -/
theorem wp_markOrderDone {maker payer orderAuth orderDone : AccountInfo} {nonce : Bytes}
    {Q : UInt8 → Machine → Prop}
    (hk : ∀ authBump doneBump s,
      E.host.findProgramAddress (orderSeeds maker.key) E.programId = some (orderAuth.key,authBump) →
      E.host.findProgramAddress (orderDoneSeeds maker.key nonce) E.programId =
        some (orderDone.key,doneBump) →
      (createAct E payer.key orderDone.key 1 E.programId
        (bumped (orderDoneSeeds maker.key nonce) doneBump)).effect E m.ledger = some s →
      Q authBump (m.next (createAct E payer.key orderDone.key 1 E.programId
        (bumped (orderDoneSeeds maker.key nonce) doneBump)) s)) :
    wp (markOrderDone E maker payer orderAuth orderDone nonce) Q (fun _ => True) m := by
  simp [markOrderDone, createPda]
  intro auth ab ha hae done db hd hde s hs
  subst hae hde
  exact hk ab db s ha hd hs

/-- What a settled sell order paid before the goods moved: `m₀` is the machine
after the marker, `m₁` the one after the payment. -/
structure SoldOrder (E : Env) (tag : UInt8) (d : Bytes) (m m₀ m₁ m' : Machine) (maker : AccountInfo)
    (o : SealedOrder) (payer auth marker : Pubkey) (authBump doneBump : UInt8) (k : PriceKeys)
    (p : Payment) (move : Act) : Prop where
  settled : SettledOrder E tag d m m' maker o payer auth marker authBump doneBump
    (royaltyPriceActs k o.terms.wantAmount (feeAt m₀.ledger k.config o.terms.wantAmount) p ++
    [move])
  created : Did E [createAct E payer marker 1 E.programId
    (bumped (orderDoneSeeds maker.key o.terms.nonce) doneBump)] m m₀
  give : k.giveMint = o.give
  want : k.wantMint = o.want
  mode : p.mode = o.terms.royaltyMode
  tokenProg : IsTokenProgram k.tokenProg
  paid : PaidWant E m₀ m₁ k o.terms.wantAmount u64Max (byteAt o.terms.nonce 0) p

def Sells (E : Env) (tag : UInt8) (d : Bytes) (m m' : Machine) : Prop :=
  ∃ m₀ m₁ maker o payer auth marker authBump doneBump k p move,
    SoldOrder E tag d m m₀ m₁ m' maker o payer auth marker authBump doneBump k p move

theorem Sells.settles {tag : UInt8} (h : Sells E tag d m m') : Settles E tag d m m' := by
  obtain ⟨m₀,m₁,maker,o,payer,auth,marker,authBump,doneBump,k,p,move,h⟩ := h
  exact ⟨maker,o,payer,auth,marker,authBump,doneBump,_,h.settled⟩

theorem settleSignedOrder_did (hs : SystemRules E.host) :
    wp (settleSignedOrder E d) (fun _ => Sells E 38 d m) (fun _ => True) m := by
  simp [settleSignedOrder]
  intro hd _ _ _
  split
  · rename_i taker maker giveMint wantMint makerGive takerGive takerWant makerWant orderAuth
      orderDone tokenProg config feeAta system ixSysvar ha
    simp
    intro _ _ _ _ _ _
    apply wp_markOrderDone
    intro ab db s hauth hdone hcreate
    simp
    intro hmg _ giveDec _ wantDec _ htp _ _ _ _
    refine wp_mono (payWantAndRoyalty_paid _ _ _ _ _ _ _ _) ?_ (fun _ _ => trivial)
    rintro _ m₁ ⟨terms,parts,hpaid⟩
    refine wp_mono (did_perform _) (fun _ m' h' => ?_) (fun _ _ => trivial)
    exact ⟨_,m₁,maker,_,taker.key,orderAuth.key,orderDone.key,ab,db,_,_,_,
      { settled :=
          { order := ⟨ixSysvar,sealedOrder_slots hd
              (by rw [take_getElem? 15 1 _ _ ha (by decide)]; rfl)
              (by rw [take_getElem? 15 2 _ _ ha (by decide)]; rfl)
              (by rw [take_getElem? 15 3 _ _ ha (by decide)]; rfl)
              (by rw [take_getElem? 15 _ _ _ ha (by decide)]; rfl)⟩
            address := hauth
            done := hdone
            moves := (isPayment_royaltyPriceActs _ _ _ _).then_move
              (.token _ makerGive.key takerGive.key _ giveDec (hmg.of_created hs hcreate))
            did := ⟨s,hcreate,(did_append _ _ _ m').mpr ⟨m₁,hpaid.did,h'⟩⟩ }
        created := ⟨s,hcreate,rfl⟩
        give := rfl
        want := rfl
        mode := rfl
        tokenProg := htp
        paid := hpaid }⟩
  · trivial

theorem settleSignedOrderPnft_did :
    wp (settleSignedOrderPnft E d) (fun _ => Sells E 39 d m) (fun _ => True) m := by
  simp [settleSignedOrderPnft]
  intro hd _ _ _
  split
  · rename_i taker maker giveMint wantMint takerWant makerWant wantTokenProg config feeAta orderAuth
      orderDone makerAta takerAta metadata edition ownerRecord destRecord tokenMetadata
      splTok ataProg ixSysvar system rulesProg rules ha
    simp
    intro _ hone _ _ _ htm _ _
    apply wp_markOrderDone
    intro ab db s hauth hdone hcreate
    simp
    rintro mata bm hma tata bt hta hma' hta' _ wantDec _ htp _
    subst hma' hta'
    refine wp_mono (payWantAndRoyalty_paid _ _ _ _ _ _ _ _) ?_ (fun _ _ => trivial)
    rintro _ m₁ ⟨terms,parts,hpaid⟩
    refine wp_mono (did_perform _) (fun _ m' h' => ?_) (fun _ _ => trivial)
    exact ⟨_,m₁,maker,_,taker.key,orderAuth.key,orderDone.key,ab,db,_,_,_,
      { settled :=
          { order := ⟨ixSysvar,sealedOrder_slots hd
              (by rw [take_getElem? 24 1 _ _ ha (by decide)]; rfl)
              (by rw [take_getElem? 24 2 _ _ ha (by decide)]; rfl)
              (by rw [take_getElem? 24 3 _ _ ha (by decide)]; rfl)
              (by rw [take_getElem? 24 _ _ _ ha (by decide)]; rfl)⟩
            address := hauth
            done := hdone
            moves := by
              rw [hone]
              exact (isPayment_royaltyPriceActs _ _ _ _).then_move (.nft _ makerAta.key takerAta.key
                taker.key ⟨htm,rfl,rfl,rfl,rfl,rfl,rfl,rfl⟩ ⟨bm,hma⟩)
            did := ⟨s,hcreate,(did_append _ _ _ m').mpr ⟨m₁,hpaid.did,h'⟩⟩ }
        created := ⟨s,hcreate,rfl⟩
        give := rfl
        want := rfl
        mode := rfl
        tokenProg := htp
        paid := hpaid }⟩
  · trivial

theorem settleSignedOrderCore_did :
    wp (settleSignedOrderCore E d) (fun _ => Sells E 40 d m) (fun _ => True) m := by
  simp [settleSignedOrderCore]
  intro hd hmode
  split
  · rename_i taker maker asset wantMint takerWant makerWant wantTokenProg config feeAta orderAuth
      orderDone system ixSysvar mplCore ha
    simp
    intro collection _ _ hone _ _ _ hcore _
    apply wp_markOrderDone
    intro ab db s hauth hdone hcreate
    simp
    intro _ wantDec _ htp _
    refine wp_mono (payWantLeg_paid asset.key wantDec _ (u64At_le d 8)) ?_ (fun _ _ => trivial)
    rintro _ m₁ hpaid
    refine wp_mono (did_perform _) (fun _ m' h' => ?_) (fun _ _ => trivial)
    rw [hcore] at h'
    exact ⟨_,m₁,maker,_,taker.key,orderAuth.key,orderDone.key,ab,db,_,_,_,
      { settled :=
          { order := ⟨ixSysvar,sealedOrder_slots hd
              (by rw [← splitCollection_getElem? 14 1 _ (by decide), ha]; rfl)
              (by rw [← splitCollection_getElem? 14 2 _ (by decide), ha]; rfl)
              (by rw [← splitCollection_getElem? 14 3 _ (by decide), ha]; rfl)
              (by rw [← splitCollection_getElem? 14 _ _ (by decide), ha]; rfl)⟩
            address := hauth
            done := hdone
            moves := by
              rw [hone]
              exact (isPayment_royaltyPriceActs _ _ _ _).then_move (.core collection.key _ _)
            did := ⟨s,hcreate,(did_append _ _ _ m').mpr ⟨m₁,hpaid.did,h'⟩⟩ }
        created := ⟨s,hcreate,rfl⟩
        give := rfl
        want := rfl
        mode := hmode.symm
        tokenProg := htp
        paid := hpaid }⟩
  · trivial

/-- The gates of a bid, up to the marker. -/
theorem wp_verifyBidCommon {ixSysvar maker taker orderAuth orderDone : AccountInfo}
    {coins want : Pubkey} {t : OrderTerms} {Q : UInt8 → Machine → Prop}
    (hk : ∀ authBump doneBump s,
      E.host.findProgramAddress (orderSeeds maker.key) E.programId = some (orderAuth.key,authBump) →
      E.host.findProgramAddress (orderDoneSeeds maker.key t.nonce) E.programId =
        some (orderDone.key,doneBump) →
      (createAct E taker.key orderDone.key 1 E.programId
        (bumped (orderDoneSeeds maker.key t.nonce) doneBump)).effect E m.ledger = some s →
      Q authBump (m.next (createAct E taker.key orderDone.key 1 E.programId
        (bumped (orderDoneSeeds maker.key t.nonce) doneBump)) s)) :
    wp (verifyBidCommon E ixSysvar maker taker orderAuth orderDone coins want t) Q (fun _ => True)
      m := by
  simp only [verifyBidCommon, wp_bind, wp_failIf, wp_verifyEd25519Order, implies_true, and_true]
  intro _ _ _ _ _ _
  exact wp_markOrderDone hk

/-- What every bid does after the marker: the coins move by the signature of the
order address, and the owner hands the asset over. -/
theorem bid_settles {tag : UInt8} {maker taker coinsMint want makerCoins ownerCoins coinsTokenProg
    config feeAta orderAuth orderDone ixSysvar : AccountInfo} {ab db coinsDec : UInt8} {c : Cpi}
    (hs : SystemRules E.host) (hd : d.length = 90) (h₁ : E.accounts[1]? = some maker)
    (h₂ : E.accounts[2]? = some coinsMint) (h₃ : E.accounts[3]? = some want)
    (h₄ : E.accounts[ixSysvarSlot tag]? = some ixSysvar)
    (hauth : E.host.findProgramAddress (orderSeeds maker.key) E.programId = some (orderAuth.key,ab))
    (hdone : E.host.findProgramAddress (orderDoneSeeds maker.key (orderTerms d).nonce) E.programId =
      some (orderDone.key,db))
    (hcreate : (createAct E taker.key orderDone.key 1 E.programId
      (bumped (orderDoneSeeds maker.key (orderTerms d).nonce) db)).effect E m.ledger = some s)
    (hb : BelongsTo s makerCoins.key coinsMint.key maker.key) :
    wp (payCoinsViaDelegate E config coinsTokenProg makerCoins coinsMint feeAta ownerCoins orderAuth
        (bumped (orderSeeds maker.key) ab) (orderTerms d).giveAmount coinsDec
        (byteAt (orderTerms d).nonce 0))
      (fun _ => wp (perform E (.invoke c none)) (fun _ => Settles E tag d m) (fun _ => True))
      (fun _ => True) (m.next (createAct E taker.key orderDone.key 1 E.programId
        (bumped (orderDoneSeeds maker.key (orderTerms d).nonce) db)) s) := by
  refine wp_mono (payCoinsViaDelegate_did _ _ _ _) ?_ (fun _ _ => trivial)
  rintro _ m₁ ⟨hpre,hfee⟩
  refine wp_mono (did_perform _) (fun _ m' h' => ?_) (fun _ _ => trivial)
  have hlast : Moves E m.ledger maker.key orderAuth.key coinsMint.key
      (bumped (orderSeeds maker.key) ab) [.invoke c none] 0 :=
    .idle _ _ _ ⟨fun k => by simp,fun k => by simp,fun b => by simp⟩ .nil
  exact ⟨maker,_,taker.key,orderAuth.key,orderDone.key,ab,db,_,
    { order := ⟨ixSysvar,sealedOrder_slots hd h₁ h₂ h₃ h₄⟩
      address := hauth
      done := hdone
      moves := (moves_priceActs coinsDec (hb.of_created hs hcreate) hfee.le).append hlast
      did := ⟨s,hcreate,(did_append _ _ _ m').mpr ⟨m₁,hpre,h'⟩⟩ }⟩

theorem settleSignedBidSpl_did (hs : SystemRules E.host) :
    wp (settleSignedBidSpl E d) (fun _ => Settles E 41 d m) (fun _ => True) m := by
  simp [settleSignedBidSpl]
  intro hd
  split
  · rename_i taker maker coinsMint nftMint makerCoins ownerCoins coinsTokenProg config feeAta
      orderAuth orderDone system ixSysvar ownerNft makerNft nftTokenProg ha
    refine wp_seq (wp_verifyBidCommon fun ab db s hauth hdone hcreate => ?_)
    simp
    intro hb _ _ _ coinsDec _ _ _ _ _
    exact bid_settles hs hd (by rw [ha]; rfl) (by rw [ha]; rfl) (by rw [ha]; rfl) (by rw [ha]; rfl)
      hauth hdone hcreate hb
  · trivial

theorem settleSignedBidPnft_did (hs : SystemRules E.host) :
    wp (settleSignedBidPnft E d) (fun _ => Settles E 42 d m) (fun _ => True) m := by
  simp [settleSignedBidPnft]
  intro hd
  split
  · rename_i taker maker coinsMint nftMint makerCoins ownerCoins coinsTokenProg config feeAta
      orderAuth orderDone system ixSysvar ownerNft makerNft metadata edition ownerRecord destRecord
      tokenMetadata splTok ataProg rulesProg rules ha
    simp
    intro _
    apply wp_verifyBidCommon
    intro ab db s hauth hdone hcreate
    simp
    intro hb _ coinsDec _ _ _
    exact bid_settles hs hd (by rw [ha]; rfl) (by rw [ha]; rfl) (by rw [ha]; rfl) (by rw [ha]; rfl)
      hauth hdone hcreate hb
  · trivial

theorem settleSignedBidCore_did (hs : SystemRules E.host) :
    wp (settleSignedBidCore E d) (fun _ => Settles E 43 d m) (fun _ => True) m := by
  simp [settleSignedBidCore]
  intro hd
  split
  · rename_i taker maker coinsMint asset makerCoins ownerCoins coinsTokenProg config feeAta
      orderAuth orderDone system ixSysvar mplCore ha
    simp
    intro collection _ _
    apply wp_verifyBidCommon
    intro ab db s hauth hdone hcreate
    simp
    intro hb _ coinsDec _ _ _
    exact bid_settles hs hd
      (by rw [← splitCollection_getElem? 14 1 _ (by decide), ha]; rfl)
      (by rw [← splitCollection_getElem? 14 2 _ (by decide), ha]; rfl)
      (by rw [← splitCollection_getElem? 14 3 _ (by decide), ha]; rfl)
      (by rw [← splitCollection_getElem? 14 _ _ (by decide), ha]; rfl) hauth hdone hcreate hb
  · trivial

theorem handler_settles (hs : SystemRules E.host) {tag : UInt8} (ht : IsSettle tag) :
    wp (handler E tag d) (fun _ => Settles E tag d m) (fun _ => True) m := by
  simp only [IsSettle, List.mem_cons, List.not_mem_nil, or_false] at ht
  rcases ht with rfl | rfl | rfl | rfl | rfl | rfl
  · exact wp_mono (settleSignedOrder_did hs) (fun _ _ h => h.settles) (fun _ h => h)
  · exact wp_mono settleSignedOrderPnft_did (fun _ _ h => h.settles) (fun _ h => h)
  · exact wp_mono settleSignedOrderCore_did (fun _ _ h => h.settles) (fun _ h => h)
  · exact settleSignedBidSpl_did hs
  · exact settleSignedBidPnft_did hs
  · exact settleSignedBidCore_did hs

end Xete.Swap
